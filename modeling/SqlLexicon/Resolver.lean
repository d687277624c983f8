import SqlLexicon.Dialect.Lineage
import SqlLexicon.Resolver.Folding

/-! Resolving dialects. The ancestors of a dialect are found before anything is folded; then each dialect from the root
down is taken from the cache or folded onto its parent's vocabulary. Failures are answered and never cached. -/
namespace SqlLexicon

/- A lexicon as it is handed out. The serial tells which folding made it, so that two handles from one resolver share
their lexicon exactly if their serials agree. -/
structure Handle where
  serial : Nat
  lexicon : Lexicon
  deriving DecidableEq

structure Resolver where
  options : Options
  catalog : Catalog
  cache : Std.ExtTreeMap String Handle
  made : Nat

namespace Resolver

def fresh (options : Options) (catalog : Catalog) : Resolver := ⟨options, catalog, ∅, 0⟩

def isResolved (r : Resolver) (name : String) : Bool := r.cache.contains name

def resolvedNames (r : Resolver) : List String := r.catalog.names.filter r.isResolved

def keep (r : Resolver) (lexicon : Lexicon) : Resolver × Handle :=
  let handle := ⟨r.made, lexicon⟩
  ({ r with cache := r.cache.insert lexicon.dialect handle, made := r.made + 1 }, handle)

def obtain (r : Resolver) (e : Entry) (inherited : Vocabulary) : Logged (Resolver × Except Fault Handle) :=
  match r.cache[e.name]? with
  | some handle => pure (r, .ok handle)
  | none => do
    match ← e.fold r.options inherited with
    | .error fault => pure (r, .error fault)
    | .ok lexicon =>
      let kept := r.keep lexicon
      pure (kept.1, .ok kept.2)

def descend (r : Resolver) (inherited : Vocabulary) (e : Entry) :
    List Entry → Logged (Resolver × Except Fault Handle)
  | [] => r.obtain e inherited
  | ancestor :: rest => do
    let turn ← r.obtain ancestor inherited
    match turn.2 with
    | .error fault => pure (turn.1, .error fault)
    | .ok handle => turn.1.descend handle.lexicon.vocabulary e rest

def resolveEntry (r : Resolver) (e : Entry) : Logged (Resolver × Except Fault Handle) :=
  match r.cache[e.name]? with
  | some handle => do
    Logged.emit (.cacheHit handle.lexicon.dialect)
    pure (r, .ok handle)
  | none =>
    match r.catalog.ancestors e with
    | .error fault => pure (r, .error fault)
    | .ok ancestors => r.descend ∅ e ancestors

def resolve (r : Resolver) (name : String) : Logged (Resolver × Except Fault Handle) := do
  Logged.emit (.resolveOpened name)
  match r.catalog.find? name with
  | some e => r.resolveEntry e
  | none => pure (r, .error (.unknownDialect name))

def resolveAt (r : Resolver) (index : Nat) : Logged (Resolver × Except Fault Handle) :=
  match r.catalog.entries[index]? with
  | some e => r.resolveEntry e
  | none => pure (r, .error (.unknownDialect (placeText index)))

def resolveEach (r : Resolver) : List Entry → Logged (Resolver × List (String × Fault))
  | [] => pure (r, [])
  | e :: rest => do
    let turn ← r.resolveEntry e
    let others ← turn.1.resolveEach rest
    match turn.2 with
    | .ok _ => pure others
    | .error fault => pure (others.1, (e.name, fault) :: others.2)

def resolveAll (r : Resolver) : Logged (Resolver × List (String × Fault)) := do
  Logged.emit (.resolveAllOpened r.catalog.size)
  r.resolveEach r.catalog.entries

/- The resolver with no lexicon at hand. Handles given out before keep theirs. -/
def invalidate (r : Resolver) : Resolver := { r with cache := ∅ }

end Resolver

def Draft.finish (draft : Draft) : Logged Resolver :=
  let r := Resolver.fresh draft.options draft.catalog
  if draft.options.eager then do
    let turn ← r.resolveAll
    ⟨turn.1, turn.2.map fun failure => .eagerFailed failure.1 failure.2⟩
  else pure r

end SqlLexicon
