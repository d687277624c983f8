import SqlLexicon.Dialect.Catalog
import Mathlib.Data.List.Nodup
import Mathlib.Logic.Relation

/-! Declared parents as a relation between registered dialects, and the row of ancestors above a dialect.
No assumption on the parent graph: parents may be missing, and following them may never end. -/
namespace SqlLexicon.Catalog
open Relation

variable {c : Catalog} {e a b : Entry} {above : List Entry} {name : String}

theorem findMember (found : c.find? name = some e) : e ∈ c.entries ∧ e.name = name :=
  ⟨List.mem_of_find?_eq_some found, by simpa using List.find?_some found⟩

theorem sameName (left : a ∈ c.entries) (right : b ∈ c.entries) (same : a.name = b.name) : a = b :=
  List.inj_on_of_nodup_map c.distinct left right same

theorem findOfMember (member : e ∈ c.entries) : c.find? e.name = some e := by
  cases found : c.find? e.name with
  | none => simpa using List.find?_eq_none.mp found e member
  | some other =>
    obtain ⟨inside, same⟩ := findMember found
    rw [sameName inside member same]

theorem hasIffFound : c.has name = true ↔ ∃ e, c.find? name = some e := by
  simp only [has, names, List.contains_iff_mem, List.mem_map]
  constructor
  · intro inside
    obtain ⟨e, member, rfl⟩ := inside
    exact ⟨e, findOfMember member⟩
  · intro held
    obtain ⟨e, found⟩ := held
    exact ⟨e, findMember found⟩

theorem findNone (missing : c.has name = false) : c.find? name = none := by
  rw [Option.eq_none_iff_forall_ne_some]
  intro e found
  exact Bool.false_ne_true (missing.symm.trans (hasIffFound.mpr ⟨e, found⟩))

def Parent (c : Catalog) (e a : Entry) : Prop := ∃ name, e.parent? = some name ∧ c.find? name = some a

theorem parentMember (link : c.Parent e a) : a ∈ c.entries := by
  obtain ⟨_, _, found⟩ := link
  exact (findMember found).1

theorem parentUnique (left : c.Parent e a) (right : c.Parent e b) : a = b := by
  obtain ⟨_, named, found⟩ := left
  obtain ⟨_, named', found'⟩ := right
  cases Option.some.inj (named.symm.trans named')
  exact Option.some.inj (found.symm.trans found')

theorem parentRight (c : Catalog) : Relator.RightUnique c.Parent := fun _ _ _ => parentUnique

abbrev Reaches (c : Catalog) : Entry → Entry → Prop := ReflTransGen c.Parent

def Loops (c : Catalog) (e : Entry) : Prop := TransGen c.Parent e e

def Rooted (c : Catalog) (e : Entry) : Prop := ∃ r, c.Reaches e r ∧ r.parent? = none

def Broken (c : Catalog) (e : Entry) (y p : String) : Prop :=
  ∃ d, c.Reaches e d ∧ d.name = y ∧ d.parent? = some p ∧ c.has p = false

theorem loopsParent (link : c.Parent e a) (loop : c.Loops e) : c.Loops a := by
  obtain ⟨next, first, rest⟩ := TransGen.head'_iff.mp loop
  cases parentUnique link first
  exact TransGen.tail' rest link

theorem loopsReached (path : c.Reaches e a) (loop : c.Loops e) : c.Loops a := by
  induction path with
  | refl => exact loop
  | tail _ link ih => exact loopsParent link ih

theorem stopsNotLoops (path : c.Reaches e a) (stop : ∀ next, ¬ c.Parent a next)
    (other : c.Reaches e b) : ¬ c.Loops b := by
  intro loop
  have stuck : ¬ c.Loops a := by
    intro again
    obtain ⟨next, link, _⟩ := TransGen.head'_iff.mp again
    exact stop next link
  rcases ReflTransGen.total_of_right_unique c.parentRight path other with onward | back
  · cases onward.cases_head with
    | inl same => exact stuck (same ▸ loop)
    | inr step => obtain ⟨next, link, _⟩ := step; exact stop next link
  · exact stuck (loopsReached back loop)

theorem rootStops (top : e.parent? = none) (next : Entry) : ¬ c.Parent e next := by
  intro link
  obtain ⟨_, named, _⟩ := link
  exact Option.some_ne_none _ (named.symm.trans top)

theorem missingStops (named : e.parent? = some name) (missing : c.has name = false) (next : Entry) :
    ¬ c.Parent e next := by
  intro link
  obtain ⟨_, named', found⟩ := link
  cases Option.some.inj (named.symm.trans named')
  exact Option.some_ne_none _ (found.symm.trans (findNone missing))

theorem loopNeither (path : c.Reaches e a) (loop : c.Loops a) : ¬ c.Rooted e ∧ ∀ y p, ¬ c.Broken e y p := by
  refine ⟨fun rooted => ?_, fun y p broken => ?_⟩
  · obtain ⟨r, toRoot, top⟩ := rooted
    exact stopsNotLoops toRoot (rootStops top) path loop
  · obtain ⟨d, toBreak, _, named, missing⟩ := broken
    exact stopsNotLoops toBreak (missingStops named missing) path loop

theorem stopsTogether (left : c.Reaches e a) (right : c.Reaches e b)
    (stopLeft : ∀ next, ¬ c.Parent a next) (stopRight : ∀ next, ¬ c.Parent b next) : a = b := by
  rcases ReflTransGen.total_of_right_unique c.parentRight left right with onward | back
  · exact ((reflTransGen_iff_eq stopLeft).mp onward).symm
  · exact (reflTransGen_iff_eq stopRight).mp back

theorem rootedNotBroken {y p : String} (rooted : c.Rooted e) : ¬ c.Broken e y p := by
  intro broken
  obtain ⟨d, toBreak, _, named, missing⟩ := broken
  obtain ⟨r, toRoot, top⟩ := rooted
  cases stopsTogether toRoot toBreak (rootStops top) (missingStops named missing)
  exact Option.some_ne_none _ (named.symm.trans top)

theorem brokenUnique {y p y' p' : String} (left : c.Broken e y p) (right : c.Broken e y' p') :
    y = y' ∧ p = p' := by
  obtain ⟨d, toLeft, rfl, named, missing⟩ := left
  obtain ⟨d', toRight, rfl, named', missing'⟩ := right
  cases stopsTogether toLeft toRight (missingStops named missing) (missingStops named' missing')
  exact ⟨rfl, Option.some.inj (named.symm.trans named')⟩

inductive Lineage (c : Catalog) : Entry → List Entry → Prop where
  | root {e : Entry} (top : e.parent? = none) : Lineage c e []
  | child {e a : Entry} {above : List Entry} (link : c.Parent e a) (rest : Lineage c a above) :
      Lineage c e (above ++ [a])

theorem lineageUnique {other : List Entry} (left : c.Lineage e above) (right : c.Lineage e other) :
    above = other := by
  induction left generalizing other with
  | root top =>
    cases right with
    | root => rfl
    | child link _ => exact absurd link (rootStops top _)
  | child link rest ih =>
    cases right with
    | root top => exact absurd link (rootStops top _)
    | child link' rest' =>
      cases parentUnique link link'
      rw [ih rest']

theorem lineageRooted (line : c.Lineage e above) : c.Rooted e := by
  induction line with
  | root top => exact ⟨_, .refl, top⟩
  | child link _ ih =>
    obtain ⟨r, path, top⟩ := ih
    exact ⟨r, .head link path, top⟩

theorem lineageMembers (line : c.Lineage e above) : a ∈ above ↔ TransGen c.Parent e a := by
  induction line generalizing a with
  | root top =>
    refine ⟨by simp, fun path => ?_⟩
    obtain ⟨next, link, _⟩ := TransGen.head'_iff.mp path
    exact absurd link (rootStops top next)
  | @child e next above link rest ih =>
    rw [List.mem_append, List.mem_singleton, ih]
    constructor
    · intro inside
      rcases inside with path | rfl
      · exact .head link path
      · exact .single link
    · intro path
      obtain ⟨next', link', rest'⟩ := TransGen.head'_iff.mp path
      cases parentUnique link link'
      rcases reflTransGen_iff_eq_or_transGen.mp rest' with same | onward
      · exact .inr same
      · exact .inl onward

theorem lineageRegistered (line : c.Lineage e above) : ∀ d ∈ above, d ∈ c.entries := by
  intro d inside
  obtain ⟨_, _, link⟩ := TransGen.tail'_iff.mp ((lineageMembers line).mp inside)
  exact parentMember link

theorem rowRegistered (line : c.Lineage e above) (member : e ∈ c.entries) : ∀ d ∈ above ++ [e], d ∈ c.entries := by
  have above := lineageRegistered line
  exact List.forall_mem_append.mpr ⟨above, by simpa using member⟩

theorem lineageBefore {before after : List Entry} (line : c.Lineage e (before ++ a :: after)) :
    c.Lineage a before := by
  generalize whole : before ++ a :: after = row at line
  induction line generalizing before after with
  | root => simp at whole
  | @child e next above link rest ih =>
    rcases List.eq_nil_or_concat after with rfl | ⟨initial, last, rfl⟩
    · obtain ⟨rfl, same⟩ := List.append_inj' whole rfl
      cases same
      exact rest
    · have parts : (before ++ a :: initial) ++ [last] = above ++ [next] := by simpa using whole
      exact ih (List.append_inj' parts rfl).1

theorem lineageWithin {before after : List Entry} (line : c.Lineage e above)
    (whole : above ++ [e] = before ++ a :: after) : c.Lineage a before := by
  rcases List.eq_nil_or_concat after with rfl | ⟨initial, last, rfl⟩
  · obtain ⟨rfl, same⟩ := List.append_inj' whole rfl
    cases same
    exact line
  · have parts : above ++ [e] = (before ++ a :: initial) ++ [last] := by simpa using whole
    obtain ⟨rfl, _⟩ := List.append_inj' parts rfl
    exact lineageBefore line

theorem lineageDistinct (line : c.Lineage e above) : (above ++ [e]).Nodup := by
  have noLoop {d} (row : List Entry) (line : c.Lineage d row) : d ∉ row := by
    intro inside
    obtain ⟨r, path, top⟩ := lineageRooted line
    exact stopsNotLoops path (rootStops top) .refl ((lineageMembers line).mp inside)
  induction line with
  | root => simp
  | child link rest ih =>
    exact List.nodup_append.mpr ⟨ih, by simp, fun x inside y here same => by
      rw [List.mem_singleton] at here
      exact noLoop _ (.child link rest) (here ▸ same ▸ inside)⟩

theorem lineageNames (line : c.Lineage e above) (member : e ∈ c.entries) :
    ((above ++ [e]).map Entry.name).Nodup :=
  (lineageDistinct line).map_on fun x left y right =>
    sameName (rowRegistered line member x left) (rowRegistered line member y right)

end SqlLexicon.Catalog
