import SqlLexicon.Dialect.Catalog

/-! The ancestors of a dialect, found by following declared parents. The climb takes each dialect out of those it may
still meet, so it ends: at a root, at a parent that is not registered, or at a name met before. -/
namespace SqlLexicon.Catalog

/- The climb from `current`, which was reached from `start` through `path`, nearest ancestor last. Dialects not met so
far are in `unmet`. -/
def climb (c : Catalog) (start : Entry) (path unmet : List Entry) (current : Entry) : Except Fault (List Entry) :=
  match current.parent? with
  | none => .ok path
  | some parent =>
    match _found : unmet.find? (·.name == parent) with
    | some next => climb c start (next :: path) (unmet.eraseP (·.name == parent)) next
    | none =>
      if c.has parent then
        .error (.cyclicDialect start.name (start.name :: path.reverse.map Entry.name ++ [parent]))
      else .error (.unknownParent current.name parent)
termination_by unmet.length
decreasing_by
  have member := List.mem_of_find?_eq_some _found
  have smaller := List.length_eraseP_of_mem member (List.find?_some _found)
  have positive := List.length_pos_of_mem member
  omega

def ancestors (c : Catalog) (e : Entry) : Except Fault (List Entry) :=
  c.climb e [] (c.entries.eraseP (·.name == e.name)) e

end SqlLexicon.Catalog
