/-! The three categories of keywords, and values given once for each category. -/
namespace SqlLexicon

inductive Category where
  | reserved
  | unreserved
  | futureReserved
  deriving DecidableEq, Repr

namespace Category

def all : List Category := [reserved, unreserved, futureReserved]

def name : Category → String
  | reserved => "reserved"
  | unreserved => "unreserved"
  | futureReserved => "future_reserved"

instance : ToString Category := ⟨name⟩

def ofName? (text : String) : Option Category := all.find? (·.name == text)

def position : Category → Nat
  | reserved => 0
  | unreserved => 1
  | futureReserved => 2

instance : LT Category := ⟨fun a b => a.position < b.position⟩

instance (a b : Category) : Decidable (a < b) := inferInstanceAs (Decidable (a.position < b.position))

def enforced : Category → Bool
  | reserved => true
  | _ => false

theorem memAll (c : Category) : c ∈ all := by cases c <;> simp [all]

end Category

structure ByCategory (β : Type) where
  reserved : β
  unreserved : β
  futureReserved : β
  deriving DecidableEq, Repr

namespace ByCategory

variable {β γ : Type}

def get (values : ByCategory β) : Category → β
  | .reserved => values.reserved
  | .unreserved => values.unreserved
  | .futureReserved => values.futureReserved

def tabulate (value : Category → β) : ByCategory β := ⟨value .reserved, value .unreserved, value .futureReserved⟩

def map (f : β → γ) (values : ByCategory β) : ByCategory γ := tabulate (f ∘ values.get)

def update (values : ByCategory β) (c : Category) (f : β → β) : ByCategory β :=
  tabulate fun d => if d = c then f (values.get d) else values.get d

@[simp] theorem getTabulate (value : Category → β) (c : Category) : (tabulate value).get c = value c := by
  cases c <;> rfl

@[simp] theorem getMap (f : β → γ) (values : ByCategory β) (c : Category) : (values.map f).get c = f (values.get c) := by
  simp [map]

end ByCategory

abbrev Tables (α : Type) := ByCategory (List α)

namespace Tables

variable {α : Type}

instance : EmptyCollection (Tables α) := ⟨⟨[], [], []⟩⟩

instance : Inhabited (Tables α) := ⟨∅⟩

def append (tables : Tables α) (c : Category) (entries : List α) : Tables α := ByCategory.update tables c (· ++ entries)

def size (tables : Tables α) : Nat := tables.reserved.length + tables.unreserved.length + tables.futureReserved.length

def isEmpty (tables : Tables α) : Bool := tables.size == 0

/- The order in which tables take effect: what stands later wins, so an unreserved listing beats a reserved one. -/
def foldOrder : List Category := [.futureReserved, .reserved, .unreserved]

def entries (tables : Tables α) : List (α × Category) :=
  foldOrder.flatMap fun c => (tables.get c).map (·, c)

end Tables

end SqlLexicon
