import SqlLexicon.Patch

/-! Dialects as they are written down: where the vocabulary comes from, and the patches on top of it, first to last. -/
namespace SqlLexicon

inductive Origin where
  | root (tables : Tables String)
  | derived (parent : String)
  deriving DecidableEq, Repr

structure Dialect where
  name : String
  origin : Origin
  patches : List (Patch String) := []
  deriving DecidableEq, Repr

namespace Dialect

def root (name : String) (tables : Tables String) : Dialect := { name, origin := .root tables }

def derived (name parent : String) : Dialect := { name, origin := .derived parent }

def withPatch (d : Dialect) (p : Patch String) : Dialect := { d with patches := d.patches ++ [p] }

def parent? (d : Dialect) : Option String :=
  match d.origin with
  | .root _ => none
  | .derived parent => some parent

end Dialect

end SqlLexicon
