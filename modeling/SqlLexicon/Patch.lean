import SqlLexicon.Patch.Step

/-! Patches: what a dialect changes in the vocabulary it inherits. A patch holds spellings as long as it is only written
down, and words once it is accepted. -/
namespace SqlLexicon

structure Patch (α : Type) where
  name : String
  remove : List α := []
  redesignate : List (α × Category) := []
  additions : Tables α := ∅
  deriving DecidableEq, Repr

namespace Patch

variable {α : Type}

def removing (p : Patch α) (entries : List α) : Patch α := { p with remove := p.remove ++ entries }

def redesignating (p : Patch α) (entry : α) (c : Category) : Patch α :=
  { p with redesignate := p.redesignate ++ [(entry, c)] }

def adding (p : Patch α) (c : Category) (entries : List α) : Patch α :=
  { p with additions := p.additions.append c entries }

def isEmpty (p : Patch α) : Bool := p.remove.isEmpty && p.redesignate.isEmpty && p.additions.isEmpty

def baseName : String := "base"

def ofTables (tables : Tables α) : Patch α := { name := baseName, additions := tables }

def addSteps (p : Patch α) : List (Step × α) := p.additions.entries.map fun e => (.add e.2, e.1)

def steps (p : Patch α) : List (Step × α) :=
  p.remove.map (.remove, ·) ++ p.redesignate.map (.redesignate, ·.1) ++ p.addSteps

end Patch

end SqlLexicon
