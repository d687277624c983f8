import SqlLexicon.Resolver
import SqlLexicon.Proofs.Resolver.Meaning

/-! Lexicons at hand are what their dialects mean, and with a dialect its parent is at hand too. A dialect asked for keeps
this, is answered with what it means, and adds exactly its footprint to what is at hand. -/
namespace SqlLexicon.Resolver
open Catalog

structure Sound (r : Resolver) : Prop where
  meant : ∀ name handle, r.cache[name]? = some handle →
    ∃ e, r.catalog.find? name = some e ∧ r.catalog.meaning e = .ok handle.lexicon
  closed : ∀ e a, e ∈ r.catalog.entries → r.catalog.Parent e a → r.isResolved e.name → r.isResolved a.name

structure Grows (r next : Resolver) (names : List String) : Prop where
  catalog : next.catalog = r.catalog
  keeps : ∀ (name : String) (handle : Handle), r.cache[name]? = some handle → next.cache[name]? = some handle
  gains : ∀ name, next.isResolved name ↔ r.isResolved name ∨ name ∈ names

variable {r next last : Resolver} {e : Entry} {above rest : List Entry} {v : Vocabulary} {name : String}

theorem resolvedIff : r.isResolved name ↔ ∃ handle, r.cache[name]? = some handle := by
  rw [isResolved, Std.ExtTreeMap.contains_eq_isSome_getElem?, Option.isSome_iff_exists]

theorem missIff : r.isResolved name = false ↔ r.cache[name]? = none := by
  rw [isResolved, Std.ExtTreeMap.contains_eq_isSome_getElem?, Option.isSome_eq_false_iff, Option.isNone_iff_eq_none]

theorem growsNone {names : List String} (known : ∀ name ∈ names, r.isResolved name) : r.Grows r names where
  catalog := rfl
  keeps _ _ cached := cached
  gains name := ⟨.inl, fun held => held.elim id (known name)⟩

theorem growsTrans {first second : List String} (left : r.Grows next first) (right : next.Grows last second) :
    r.Grows last (first ++ second) where
  catalog := right.catalog.trans left.catalog
  keeps name handle cached := right.keeps name handle (left.keeps name handle cached)
  gains name := by rw [right.gains, left.gains, List.mem_append, or_assoc]

theorem growsSame (grown : r.Grows next []) : next.cache = r.cache := by
  refine Std.ExtTreeMap.ext_getElem? fun {name} => ?_
  cases cached : r.cache[name]? with
  | some handle => exact grown.keeps name handle cached
  | none =>
    rw [← missIff, ← Bool.not_eq_true] at cached ⊢
    rw [grown.gains]
    simpa using cached

theorem growsKeep {l : Lexicon} (absent : r.cache[l.dialect]? = none) : r.Grows (r.keep l).1 [l.dialect] where
  catalog := rfl
  keeps name handle cached := by
    have other : l.dialect ≠ name := by
      intro same
      rw [← same, absent] at cached
      exact Option.some_ne_none _ cached.symm
    simpa [keep, Std.ExtTreeMap.getElem?_insert, other] using cached
  gains name := by
    simp only [keep, isResolved, Std.ExtTreeMap.contains_insert, Bool.or_eq_true, beq_iff_eq, List.mem_singleton,
      Std.LawfulEqOrd.compare_eq_iff_eq]
    rw [or_comm, @eq_comm _ name]

theorem soundMeant {handle : Handle} (sound : r.Sound) (member : e ∈ r.catalog.entries)
    (cached : r.cache[e.name]? = some handle) : r.catalog.meaning e = .ok handle.lexicon := by
  obtain ⟨d, found, meant⟩ := sound.meant e.name handle cached
  cases Option.some.inj (found.symm.trans (findOfMember member))
  exact meant

theorem soundAbove (sound : r.Sound) (line : r.catalog.Lineage e above) (member : e ∈ r.catalog.entries)
    (held : r.isResolved e.name) : ∀ a ∈ above, r.isResolved a.name := by
  induction line with
  | root => simp
  | child link _ ih =>
    have upper := sound.closed _ _ member link held
    have beyond := ih (parentMember link) upper
    exact List.forall_mem_append.mpr ⟨beyond, by simpa using upper⟩

theorem soundKeep {l : Lexicon} (sound : r.Sound) (member : e ∈ r.catalog.entries) (line : r.catalog.Lineage e above)
    (upper : ∀ a ∈ above, r.isResolved a.name) (named : l.dialect = e.name) (meant : r.catalog.meaning e = .ok l)
    (absent : r.cache[l.dialect]? = none) : (r.keep l).1.Sound := by
  have grown := growsKeep absent
  refine ⟨fun name handle cached => ?_, fun d a inside link held => ?_⟩
  · by_cases same : l.dialect = name
    · subst same
      have here : handle = ⟨r.made, l⟩ := by simpa [keep, eq_comm] using cached
      exact ⟨e, named ▸ findOfMember member, here ▸ meant⟩
    · exact sound.meant name handle (by simpa [keep, Std.ExtTreeMap.getElem?_insert, same] using cached)
  · rw [grown.gains] at held ⊢
    rcases held with old | new
    · exact .inl (sound.closed d a inside link old)
    · cases sameName inside member ((List.mem_singleton.mp new).trans named)
      exact .inl (upper a ((lineageMembers line).mpr (.single link)))

structure Serves (r : Resolver) (e : Entry) (names : List String) (turn : Resolver × Except Fault Handle) : Prop where
  sound : turn.1.Sound
  grows : r.Grows turn.1 names
  answer : turn.2.map Handle.lexicon = r.catalog.meaning e

theorem servesAfter {first second : List String} {turn : Resolver × Except Fault Handle} (grown : r.Grows next first)
    (served : next.Serves e second turn) : r.Serves e (first ++ second) turn where
  sound := served.sound
  grows := growsTrans grown served.grows
  answer := grown.catalog ▸ served.answer

theorem obtainServes (sound : r.Sound) (member : e ∈ r.catalog.entries) (line : r.catalog.Lineage e above)
    (inherited : Vocabulary.followRow ∅ above = .ok v) (upper : ∀ a ∈ above, r.isResolved a.name) :
    r.Serves e ((v.foldable [e]).map Entry.name) (r.obtain e v).value := by
  have meaning := meaningLast member line inherited
  cases cached : r.cache[e.name]? with
  | some handle =>
    have meant := soundMeant sound member cached
    simp only [Resolver.obtain, cached, Logged.valuePure]
    refine ⟨sound, growsNone fun name inside => ?_, meant.symm⟩
    obtain ⟨x, kept, rfl⟩ := List.mem_map.mp inside
    cases List.mem_singleton.mp (Vocabulary.foldableMember kept)
    exact resolvedIff.mpr ⟨handle, cached⟩
  | none =>
    have folded := Vocabulary.followEntry r.options e v
    cases followed : v.follow e.placed with
    | error fault =>
      simp only [followed, Except.map] at folded meaning
      simp only [Resolver.obtain, cached, Logged.valueBind, Logged.valuePure, folded, Vocabulary.foldable, followed]
      exact ⟨sound, growsNone (by simp), meaning.symm⟩
    | ok u =>
      simp only [followed, Except.map] at folded meaning
      simp only [Resolver.obtain, cached, Logged.valueBind, Logged.valuePure, folded, Vocabulary.foldable, followed]
      exact ⟨soundKeep sound member line upper rfl meaning cached, growsKeep cached, meaning.symm⟩

theorem descendServes (sound : r.Sound) (member : e ∈ r.catalog.entries)
    (line : r.catalog.Lineage e (above ++ rest)) (inherited : Vocabulary.followRow ∅ above = .ok v)
    (upper : ∀ a ∈ above, r.isResolved a.name) :
    r.Serves e ((v.foldable (rest ++ [e])).map Entry.name) (r.descend v e rest).value := by
  -- the dialects above that are done are at hand, and what they fold to is what the next one inherits
  induction rest generalizing r above v with
  | nil => exact obtainServes sound member (by simpa using line) inherited upper
  | cons a rest ih =>
    have inside : a ∈ r.catalog.entries := lineageRegistered line a (by simp)
    have first := obtainServes sound inside (lineageBefore line) inherited upper
    have answered := first.answer.trans (meaningLast inside (lineageBefore line) inherited)
    have meaning := meaningBelow member line inherited
    simp only [Resolver.descend, Logged.valueBind, List.cons_append, Vocabulary.foldable]
    rw [List.cons_append, Vocabulary.followRowCons] at meaning
    have grown := first.grows
    rw [Vocabulary.foldable] at grown
    cases followed : v.follow a.placed with
    | error fault =>
      rw [followed] at answered meaning grown
      simp only [errorOfMap answered, Logged.valuePure]
      exact ⟨first.sound, grown, meaning.symm⟩
    | ok u =>
      rw [followed] at answered meaning grown
      obtain ⟨handle, kept, frozen⟩ := okOfMap answered
      have same := grown.catalog
      have folded := (Vocabulary.followRowSnoc inherited).trans followed
      have upper' : ∀ x ∈ above ++ [a], (r.obtain a v).value.1.isResolved x.name := by
        have old := fun x inside => (grown.gains x.name).mpr (.inl (upper x inside))
        have new := (grown.gains a.name).mpr (.inr (by simp))
        exact List.forall_mem_append.mpr ⟨old, by simpa using new⟩
      have served := ih first.sound (same ▸ member) (by simpa [same] using line) folded upper'
      have inherits : handle.lexicon.vocabulary = u := by rw [frozen, Lexicon.freeze]
      simp only [kept, inherits]
      exact servesAfter grown served

theorem resolveEntryServes (sound : r.Sound) (member : e ∈ r.catalog.entries) :
    r.Serves e ((r.catalog.footprint e).map Entry.name) (r.resolveEntry e).value := by
  unfold resolveEntry
  cases cached : r.cache[e.name]? with
  | some handle =>
    have meant := soundMeant sound member cached
    obtain ⟨above, _, line, _, _, whole⟩ := meaningOk member meant
    have here : r.isResolved e.name := resolvedIff.mpr ⟨handle, cached⟩
    have row : ∀ x ∈ above ++ [e], r.isResolved x.name :=
      List.forall_mem_append.mpr ⟨soundAbove sound line member here, by simpa using here⟩
    refine ⟨sound, growsNone fun name inside => ?_, meant.symm⟩
    rw [whole] at inside
    obtain ⟨x, standing, rfl⟩ := List.mem_map.mp inside
    exact row x standing
  | none =>
    cases answered : r.catalog.ancestors e with
    | error fault =>
      obtain ⟨meaning, nothing⟩ := meaningUnrooted answered
      exact ⟨sound, growsNone (by simp [nothing]), meaning.symm⟩
    | ok above =>
      have line : r.catalog.Lineage e ([] ++ above) := lineageOfOk member answered
      rw [footprintRow member line]
      exact descendServes sound member line rfl (by simp)

def failures (c : Catalog) (row : List Entry) : List (String × Fault) :=
  row.filterMap fun e =>
    match c.meaning e with
    | .ok _ => none
    | .error fault => some (e.name, fault)

theorem resolveEachServes {row : List Entry} (sound : r.Sound) (members : ∀ e ∈ row, e ∈ r.catalog.entries) :
    let turn := (r.resolveEach row).value
    turn.1.Sound ∧ r.Grows turn.1 ((row.flatMap r.catalog.footprint).map Entry.name) ∧
      turn.2 = failures r.catalog row := by
  induction row generalizing r with
  | nil => exact ⟨sound, growsNone (by simp), rfl⟩
  | cons e rest ih =>
    have first := resolveEntryServes sound (members e List.mem_cons_self)
    have same := first.grows.catalog
    obtain ⟨sound', grown, others⟩ := ih first.sound fun d inside => same ▸ members d (List.mem_cons_of_mem e inside)
    rw [same] at grown others
    have answer := first.answer
    have both := growsTrans first.grows grown
    rw [← List.map_append, ← List.flatMap_cons] at both
    simp only [Resolver.resolveEach, Logged.valueBind, failures, List.filterMap_cons, ← answer]
    cases (r.resolveEntry e).value.2 with
    | ok handle => exact ⟨sound', both, others⟩
    | error fault => exact ⟨sound', both, congrArg _ others⟩

theorem emptySound (nothing : r.cache = ∅) : r.Sound where
  meant := by simp [nothing]
  closed := by simp [isResolved, nothing]

end SqlLexicon.Resolver
