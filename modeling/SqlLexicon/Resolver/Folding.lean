import SqlLexicon.Dialect.Draft
import SqlLexicon.Patch.Touch

/-! Folding a dialect's patches onto the vocabulary it inherits, with the events on the way. The options choose which
events are told and nothing else. -/
namespace SqlLexicon

def Options.warnings (options : Options) (dialect : String) (p : Patch Word) (inherited : Vocabulary) : List Event :=
  if options.reportAbsentRemovals then (inherited.absentDrops p.remove).map (.absentRemoval dialect p.name) else []

/- One patch of a dialect folded onto a vocabulary. A patch that fails still tells its removals. -/
def Patch.fold (options : Options) (dialect : String) (p : Patch Word) (inherited : Vocabulary) :
    Logged (Except Fault (Vocabulary × Totals)) :=
  let opening := .patchOpened dialect p.name :: options.warnings dialect p inherited
  match p.apply inherited with
  | .error word => ⟨.error (.unknownWord dialect p.name .redesignate word.text), opening⟩
  | .ok (v, totals) => ⟨.ok (v, totals), opening ++ [.patchFolded dialect p.name totals]⟩

def foldPatches (options : Options) (dialect : String) :
    List (Patch Word) → Vocabulary → Logged (Except Fault (Vocabulary × Totals))
  | [], v => pure (.ok (v, 0))
  | p :: rest, v => do
    match ← p.fold options dialect v with
    | .error fault => pure (.error fault)
    | .ok (next, totals) =>
      match ← foldPatches options dialect rest next with
      | .error fault => pure (.error fault)
      | .ok (last, others) => pure (.ok (last, totals + others))

def Entry.fold (options : Options) (e : Entry) (inherited : Vocabulary) : Logged (Except Fault Lexicon) := do
  match ← foldPatches options e.name e.patches inherited with
  | .error fault => pure (.error fault)
  | .ok (v, totals) =>
    let lexicon := Lexicon.freeze e.name v
    Logged.emit (.resolved e.name e.patches.length totals lexicon.counts)
    pure (.ok lexicon)

end SqlLexicon
