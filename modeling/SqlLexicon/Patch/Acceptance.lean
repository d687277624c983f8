import SqlLexicon.Word
import SqlLexicon.Patch
import SqlLexicon.Dialect.Fault

/-! Acceptance of a written patch: every spelling must be a word, and no word may stand in two conflicting lists. A root
dialect's own tables are read the same way but may overlap. -/
namespace SqlLexicon

structure Conflict where
  word : Word
  first : Step
  second : Step
  deriving DecidableEq, Repr

/- The first entry that conflicts with an entry before it. Of several earlier entries it conflicts with, the first
counts. -/
def firstConflict (seen : List (Step × Word)) : List (Step × Word) → Option Conflict
  | [] => none
  | (step, word) :: rest =>
    match seen.find? fun e => e.2 == word && e.1.conflicts step with
    | some e => some ⟨word, e.1, step⟩
    | none => firstConflict (seen ++ [(step, word)]) rest

namespace Patch

def misspelling? (p : Patch String) : Option (Step × String) := p.steps.find? fun e => !isWordShaped e.2

def toWords (p : Patch String) : Patch Word where
  name := p.name
  remove := p.remove.filterMap Word.ofText?
  redesignate := p.redesignate.filterMap fun e => (Word.ofText? e.1).map (·, e.2)
  additions := p.additions.map (·.filterMap Word.ofText?)

def conflict? (p : Patch Word) : Option Conflict :=
  firstConflict [] (p.addSteps ++ p.remove.map (.remove, ·))

def spell (dialect : String) (p : Patch String) : Except Fault (Patch Word) :=
  match p.misspelling? with
  | some (step, spelling) => .error (.invalidWord dialect p.name step spelling)
  | none => .ok p.toWords

def accept (dialect : String) (p : Patch String) : Except Fault (Patch Word) := do
  let words ← p.spell dialect
  match words.conflict? with
  | some c => .error (.ambiguousPatch dialect p.name c.word.text c.first c.second)
  | none => .ok words

end Patch

end SqlLexicon
