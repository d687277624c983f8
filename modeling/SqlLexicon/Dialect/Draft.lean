import SqlLexicon.Dialect.Catalog
import SqlLexicon.Journal.Logged

/-! Drafts: dialects are registered one by one before any is resolved. A dialect that is rejected leaves the draft as it
was. -/
namespace SqlLexicon

structure Options where
  eager : Bool := false
  reportAbsentRemovals : Bool := true
  deriving DecidableEq, Repr

structure Draft where
  options : Options := {}
  catalog : Catalog := ∅
  deriving DecidableEq, Repr

namespace Draft

def withOptions (draft : Draft) (options : Options) : Draft := { draft with options }

def register (draft : Draft) (d : Dialect) : Logged (Draft × Except Fault Nat) :=
  match draft.catalog.enter d with
  | .error fault => ⟨(draft, .error fault), [.rejected fault]⟩
  | .ok (catalog, e) =>
    let index := draft.catalog.size
    ⟨({ draft with catalog }, .ok index), [.registered e.name index e.parent? e.patches.length]⟩

def registerAll (draft : Draft) : List Dialect → Logged (Draft × Except Fault Unit)
  | [] => pure (draft, .ok ())
  | d :: rest => do
    let turn ← draft.register d
    match turn.2 with
    | .error fault => pure (turn.1, .error fault)
    | .ok _ => turn.1.registerAll rest

end Draft

end SqlLexicon
