import SqlLexicon.Dialect
import SqlLexicon.Patch.Acceptance

/-! The catalog of accepted dialects, in order of registration and with distinct names. A dialect is accepted if all of it
is well formed; its parent may be registered later, or never. -/
namespace SqlLexicon

structure Entry where
  name : String
  parent? : Option String
  patches : List (Patch Word)
  deriving DecidableEq, Repr

namespace Dialect

def acceptAll (dialect : String) : List (Patch String) → Except Fault (List (Patch Word))
  | [] => .ok []
  | p :: rest => do
    let first ← p.accept dialect
    let others ← acceptAll dialect rest
    return first :: others

/- A root's own tables as its first patch. They may overlap, so only their spellings are checked. -/
def ownTables (d : Dialect) : Except Fault (List (Patch Word)) :=
  match d.origin with
  | .root tables => do return [← (Patch.ofTables tables).spell d.name]
  | .derived _ => .ok []

def accept (d : Dialect) : Except Fault Entry := do
  let own ← d.ownTables
  let patches ← acceptAll d.name d.patches
  return ⟨d.name, d.parent?, own ++ patches⟩

theorem acceptName {d : Dialect} {e : Entry} (h : d.accept = .ok e) : e.name = d.name := by
  unfold accept at h
  cases own : d.ownTables with
  | error fault => simp [own, bind, Except.bind] at h
  | ok tables =>
    cases patches : acceptAll d.name d.patches with
    | error fault => simp [own, patches, bind, Except.bind] at h
    | ok words =>
      simp only [own, patches, bind, Except.bind, pure, Except.pure, Except.ok.injEq] at h
      exact h ▸ rfl

end Dialect

structure Catalog where
  entries : List Entry
  distinct : (entries.map Entry.name).Nodup
  deriving DecidableEq, Repr

namespace Catalog

instance : EmptyCollection Catalog := ⟨⟨[], List.nodup_nil⟩⟩

def names (c : Catalog) : List String := c.entries.map Entry.name

def size (c : Catalog) : Nat := c.entries.length

def isEmpty (c : Catalog) : Bool := c.entries.isEmpty

def has (c : Catalog) (name : String) : Bool := c.names.contains name

def find? (c : Catalog) (name : String) : Option Entry := c.entries.find? (·.name == name)

def place? (c : Catalog) (name : String) : Option Nat := c.entries.findIdx? (·.name == name)

def nameAt? (c : Catalog) (index : Nat) : Option String := c.entries[index]?.map Entry.name

def parentOf? (c : Catalog) (name : String) : Option String := (c.find? name).bind Entry.parent?

def append (c : Catalog) (e : Entry) (free : c.has e.name = false) : Catalog where
  entries := c.entries ++ [e]
  distinct := by
    have fresh : e.name ∉ c.entries.map Entry.name := by simpa [has, names] using free
    rw [List.map_append, List.nodup_append]
    refine ⟨c.distinct, by simp, ?_⟩
    intro a ha b hb same
    obtain rfl : b = e.name := by simpa using hb
    exact fresh (same ▸ ha)

def enter (c : Catalog) (d : Dialect) : Except Fault (Catalog × Entry) :=
  if taken : c.has d.name = true then .error (.duplicateDialect d.name)
  else
    match accepted : d.accept with
    | .error fault => .error fault
    | .ok e => .ok (c.append e (by simpa [Dialect.acceptName accepted] using taken), e)

end Catalog

end SqlLexicon
