import SqlLexicon.Proofs.Resolver.Request

/-! What a name resolves to is decided by the dialects that declared parents lead to from it. Two catalogs that hold the
same dialects there are searched in step, whatever else they hold and in whatever order. -/
namespace SqlLexicon.Catalog
open Relation

abbrev Leads (c : Catalog) : String → String → Prop := ReflTransGen fun name parent => c.parentOf? name = some parent

def Alike (c c' : Catalog) (name : String) : Prop := ∀ n, c.Leads name n → c.find? n = c'.find? n

variable {c c' : Catalog} {e start current next : Entry} {path unmet unmet' : List Entry} {name parent : String}

theorem findIff : c.find? name = some e ↔ e ∈ c.entries ∧ e.name = name := by
  refine ⟨findMember, fun held => ?_⟩
  obtain ⟨member, rfl⟩ := held
  exact findOfMember member

theorem hasAlike (same : c.find? name = c'.find? name) : c.has name = c'.has name := by
  rw [Bool.eq_iff_iff, hasIffFound, hasIffFound, same]

theorem alikeParent (alike : c.Alike c' name) (found : c.find? name = some e) (named : e.parent? = some parent) :
    c.Alike c' parent := by
  have link : c.parentOf? name = some parent := by simpa [parentOf?, found] using named
  exact fun n path => alike n (.head link path)

theorem alikeWithin (names : List String) (inside : name ∈ names)
    (closed : ∀ n ∈ names, ∀ p ∈ c.parentOf? n, p ∈ names) (same : ∀ n ∈ names, c.find? n = c'.find? n) :
    c.Alike c' name := by
  intro n path
  refine same n ?_
  induction path with
  | refl => exact inside
  | tail _ link ih => exact closed _ ih _ link

theorem leadsReaches (found : c.find? name = some e) (whole : ∀ y p, ¬ c.Broken e y p) {n : String}
    (path : c.Leads name n) : ∃ d, c.find? n = some d ∧ c.Reaches e d := by
  induction path with
  | refl => exact ⟨e, found, .refl⟩
  | @tail m p _ link ih =>
    obtain ⟨d, here, reached⟩ := ih
    have named : d.parent? = some p := by simpa [parentOf?, here] using link
    cases next : c.find? p with
    | some a => exact ⟨a, rfl, .tail reached ⟨p, named, next⟩⟩
    | none =>
      have missing : c.has p = false := by simp [← Bool.not_eq_true, hasIffFound, next]
      exact absurd ⟨d, reached, rfl, named, missing⟩ (whole d.name p)

theorem unmetIff (inv : c.Climbing start path unmet current) :
    unmet.find? (·.name == name) = some next ↔ c.find? name = some next ∧ next ∉ path ++ [start] := by
  have apart := (List.nodup_append.mp (inv.parts.nodup_iff.mp (c.distinct.of_map _))).2.2
  have inside {d : Entry} (free : d ∈ unmet) : d ∈ c.entries := inv.parts.mem_iff.mpr (List.mem_append_left _ free)
  rw [findIff]
  constructor
  · intro found
    have free := List.mem_of_find?_eq_some found
    exact ⟨⟨inside free, by simpa using List.find?_some found⟩, fun met => apart next free next met rfl⟩
  · intro held
    obtain ⟨⟨member, rfl⟩, new⟩ := held
    have free : next ∈ unmet := (List.mem_append.mp (inv.parts.mem_iff.mp member)).resolve_right new
    cases found : unmet.find? (·.name == next.name) with
    | none => simpa using List.find?_eq_none.mp found next free
    | some d =>
      have named : d.name = next.name := by simpa using List.find?_some found
      rw [sameName (inside (List.mem_of_find?_eq_some found)) member named]

theorem unmetAlike (inv : c.Climbing start path unmet current) (inv' : c'.Climbing start path unmet' current)
    (same : c.find? name = c'.find? name) : unmet.find? (·.name == name) = unmet'.find? (·.name == name) := by
  refine Option.ext fun d => ?_
  rw [unmetIff inv, unmetIff inv', same]

theorem climbRoot (top : current.parent? = none) : c.climb start path unmet current = .ok path := by
  rw [climb, top]

theorem climbNext (named : current.parent? = some name) (found : unmet.find? (·.name == name) = some next) :
    c.climb start path unmet current = c.climb start (next :: path) (unmet.eraseP (·.name == name)) next := by
  rw [climb, named]
  simp only
  split
  · rename_i other found'
    cases Option.some.inj (found.symm.trans found')
    rfl
  · rename_i gone
    exact absurd (found.symm.trans gone) (Option.some_ne_none _)

theorem climbStops (named : current.parent? = some name) (gone : unmet.find? (·.name == name) = none) :
    c.climb start path unmet current =
      if c.has name then
        .error (.cyclicDialect start.name (start.name :: path.reverse.map Entry.name ++ [name]))
      else .error (.unknownParent current.name name) := by
  rw [climb, named]
  simp only
  split
  · rename_i other found
    exact absurd (found.symm.trans gone) (Option.some_ne_none _)
  · rfl

/- Both climbs have met the same dialects, so they find the same one next; what they have not met may differ. -/
theorem climbAlike (inv : c.Climbing start path unmet current) (inv' : c'.Climbing start path unmet' current)
    (alike : c.Alike c' current.name) : c.climb start path unmet current = c'.climb start path unmet' current := by
  have here : c.find? current.name = some current :=
    findOfMember (inv.parts.mem_iff.mpr (List.mem_append_right _ (List.mem_of_head? inv.tip)))
  fun_induction climb c start path unmet current generalizing unmet' with
  | case1 path unmet current top => exact (climbRoot top).symm
  | case2 path unmet current name named next found ih =>
    have onward := alikeParent alike here named
    have found' := (unmetAlike inv inv' (onward name .refl)).symm.trans found
    have met := (unmetIff inv).mp found
    have same : next.name = name := (findMember met.1).2
    rw [climbNext named found']
    exact ih (climbStep inv named found).2 (climbStep inv' named found').2 (same ▸ onward) (same ▸ met.1)
  | case3 path unmet current name named gone known =>
    have same := alikeParent alike here named name .refl
    rw [climbStops named ((unmetAlike inv inv' same).symm.trans gone), ← hasAlike same, if_pos known]
  | case4 path unmet current name named gone unknown =>
    have same := alikeParent alike here named name .refl
    rw [climbStops named ((unmetAlike inv inv' same).symm.trans gone), ← hasAlike same, if_neg unknown]

theorem ancestorsAlike (alike : c.Alike c' name) (found : c.find? name = some e) : c.ancestors e = c'.ancestors e := by
  obtain ⟨member', _⟩ := findMember ((alike name .refl).symm.trans found)
  obtain ⟨member, rfl⟩ := findMember found
  exact climbAlike (climbStart member) (climbStart member') alike

theorem meaningAlike (alike : c.Alike c' name) (found : c.find? name = some e) : c.meaning e = c'.meaning e := by
  rw [meaning, meaning, ancestorsAlike alike found]

theorem answerAlike (alike : c.Alike c' name) : c.answer (.name name) = c'.answer (.name name) := by
  have same := alike name .refl
  cases found : c.find? name with
  | none => simp [answer, sought, found, ← same]
  | some e => simp [answer, sought, found, ← same, meaningAlike alike found]

def AsksFor (c : Catalog) (name : String) : Request → Prop
  | .name text => text = name
  | .place index => c.place? name = some index

theorem soughtAsked {q : Request} (asked : c.AsksFor name q) : c.sought q = c.find? name := by
  cases q with
  | name text => rw [show text = name from asked, sought]
  | place index =>
    obtain ⟨inside, named, _⟩ := List.findIdx?_eq_some_iff_getElem.mp asked
    have here : c.entries[index]? = some c.entries[index] := List.getElem?_eq_getElem inside
    exact here.trans (findIff.mpr ⟨List.getElem_mem inside, by simpa using named⟩).symm

theorem answerAsked {q : Request} (asked : c.AsksFor name q) : c.answer q = c.answer (.name name) := by
  cases q with
  | name text => rw [show text = name from asked]
  | place index =>
    have inside := (List.findIdx?_eq_some_iff_getElem.mp asked).1
    have found := soughtAsked asked
    have here : c.sought (.place index) = some c.entries[index] := List.getElem?_eq_getElem inside
    rw [answer, answer, here, sought, ← found, here]

end SqlLexicon.Catalog
