import SqlLexicon.Journal.Event

/-! Values with the events that led to them. Events are kept in the order in which they happened, and a later step never
changes an earlier one's events. -/
namespace SqlLexicon

structure Logged (α : Type) where
  value : α
  events : List Event
  deriving DecidableEq, Repr

namespace Logged

variable {α β : Type}

instance : Monad Logged where
  pure a := ⟨a, []⟩
  bind x f := ⟨(f x.value).value, x.events ++ (f x.value).events⟩

def emit (e : Event) : Logged Unit := ⟨(), [e]⟩

@[simp] theorem valuePure (a : α) : (pure a : Logged α).value = a := rfl

@[simp] theorem eventsPure (a : α) : (pure a : Logged α).events = [] := rfl

@[simp] theorem valueBind (x : Logged α) (f : α → Logged β) : (x >>= f).value = (f x.value).value := rfl

@[simp] theorem eventsBind (x : Logged α) (f : α → Logged β) :
    (x >>= f).events = x.events ++ (f x.value).events := rfl

@[simp] theorem valueEmit (e : Event) : (emit e).value = () := rfl

@[simp] theorem eventsEmit (e : Event) : (emit e).events = [e] := rfl

def atLeast (least : Level) (x : Logged α) : List Event := x.events.filter (least ≤ ·.level)

end Logged

end SqlLexicon
