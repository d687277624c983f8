import SqlLexicon.Vocabulary.Lexicon
import SqlLexicon.Patch

/-! Patches at work on a vocabulary. A patch is a row of touches, each on one word: removals, then moves, then additions.
Only a move can fail, when its word is absent at that point. Each touch counts in at most one total. -/
namespace SqlLexicon

inductive Touch where
  | drop (word : Word)
  | move (word : Word) (category : Category)
  | put (word : Word) (category : Category)
  deriving DecidableEq, Repr

def Touch.word : Touch → Word
  | drop word | move word _ | put word _ => word

structure Totals where
  removed : Nat := 0
  absentRemovals : Nat := 0
  redesignated : Nat := 0
  added : Nat := 0
  overridden : Nat := 0
  deriving DecidableEq, Repr

namespace Totals

instance : Zero Totals := ⟨{}⟩

instance : Add Totals where
  add a b := ⟨a.removed + b.removed, a.absentRemovals + b.absentRemovals, a.redesignated + b.redesignated,
    a.added + b.added, a.overridden + b.overridden⟩

end Totals

namespace Vocabulary

def touch? (v : Vocabulary) : Touch → Option Vocabulary
  | .drop word => some (v.erase word)
  | .move word category => if word ∈ v then some (v.insert word category) else none
  | .put word category => some (v.insert word category)

/- What the touch counts as. Putting a word where it already is counts as nothing. -/
def tally (v : Vocabulary) : Touch → Totals
  | .drop word => if word ∈ v then { removed := 1 } else { absentRemovals := 1 }
  | .move _ _ => { redesignated := 1 }
  | .put word category =>
    match v[word]? with
    | none => { added := 1 }
    | some previous => if previous = category then 0 else { overridden := 1 }

def touchAll (v : Vocabulary) : List Touch → Except Word (Vocabulary × Totals)
  | [] => .ok (v, 0)
  | t :: rest =>
    match v.touch? t with
    | none => .error t.word
    | some next =>
      match touchAll next rest with
      | .error word => .error word
      | .ok (last, totals) => .ok (last, v.tally t + totals)

def absentDrops (v : Vocabulary) : List Word → List Word
  | [] => []
  | word :: rest => if word ∈ v then absentDrops (v.erase word) rest else word :: absentDrops v rest

end Vocabulary

namespace Patch

def touches (p : Patch Word) : List Touch :=
  p.remove.map .drop ++ p.redesignate.map (fun e => .move e.1 e.2) ++ p.additions.entries.map fun e => .put e.1 e.2

def apply (p : Patch Word) (inherited : Vocabulary) : Except Word (Vocabulary × Totals) :=
  inherited.touchAll p.touches

end Patch

end SqlLexicon
