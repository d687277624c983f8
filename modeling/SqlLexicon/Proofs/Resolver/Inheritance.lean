import SqlLexicon.Proofs.Catalog.Locality
import SqlLexicon.Proofs.Resolver.History

/-! A dialect fails as its parent does. Off a cycle the search from the child is the search from the parent with the child
met before, which no other dialect comes back to; on a cycle both searches close it. -/
namespace SqlLexicon

def Fault.below (name : String) : Fault → Fault
  | .cyclicDialect _ chain => .cyclicDialect name (name :: chain)
  | fault => fault

namespace Catalog

variable {c : Catalog} {x p current : Entry} {path unmet unmet' : List Entry} {name : String} {fault : Fault}

/- The child was met before its parent, and a climb that found it again would close a cycle through it. -/
theorem unmetBelow (inv : c.Climbing x (path ++ [p]) unmet current) (inv' : c.Climbing p path unmet' current)
    (outside : ¬ c.Loops x) (named : current.parent? = some name) :
    unmet.find? (·.name == name) = unmet'.find? (·.name == name) := by
  refine Option.ext fun next => ?_
  rw [unmetIff inv, unmetIff inv']
  refine and_congr_right fun found => not_congr ?_
  rw [List.mem_append (s := path ++ [p]), List.mem_singleton]
  refine or_iff_left fun same => outside ?_
  subst same
  exact .tail' (climbReaches inv (by simp)) ⟨name, named, found⟩

theorem climbBelow (inv : c.Climbing x (path ++ [p]) unmet current) (inv' : c.Climbing p path unmet' current)
    (outside : ¬ c.Loops x) : c.climb x (path ++ [p]) unmet current =
      match c.climb p path unmet' current with
      | .ok above => .ok (above ++ [p])
      | .error fault => .error (fault.below x.name) := by
  -- along the climb from the parent; the other has the child at the far end of its path all the way
  fun_induction climb c p path unmet' current generalizing unmet with
  | case1 path unmet' current top => exact climbRoot top
  | case2 path unmet' current name named next found ih =>
    have found' := (unmetBelow inv inv' outside named).trans found
    rw [climbNext named found']
    exact ih (climbStep inv named found').2 (climbStep inv' named found).2
  | case3 path unmet' current name named gone known =>
    rw [climbStops named ((unmetBelow inv inv' outside named).trans gone), if_pos known]
    simp [Fault.below]
  | case4 path unmet' current name named gone unknown =>
    rw [climbStops named ((unmetBelow inv inv' outside named).trans gone), if_neg unknown]
    rfl

theorem ancestorsBelow (member : x ∈ c.entries) (link : c.Parent x p) (outside : ¬ c.Loops x) : c.ancestors x =
    match c.ancestors p with
    | .ok above => .ok (above ++ [p])
    | .error fault => .error (fault.below x.name) := by
  have upper := parentMember link
  have apart : p ∉ [] ++ [x] := by
    intro same
    cases List.mem_singleton.mp same
    exact outside (.single link)
  obtain ⟨name, named, found⟩ := link
  have start := climbStart member
  have found' := (unmetIff start).mpr ⟨found, apart⟩
  rw [ancestors, climbNext named found']
  have met : c.Climbing x ([] ++ [p]) _ p := (climbStep start named found').2
  exact climbBelow met (climbStart upper) outside

theorem rootedBelow (link : c.Parent x p) : c.Rooted x ↔ c.Rooted p := by
  constructor
  · intro rooted
    obtain ⟨r, path, top⟩ := rooted
    rcases path.cases_head with rfl | ⟨next, first, rest⟩
    · exact absurd link (rootStops top p)
    · exact ⟨r, parentUnique first link ▸ rest, top⟩
  · intro rooted
    obtain ⟨r, path, top⟩ := rooted
    exact ⟨r, .head link path, top⟩

theorem brokenBelow {y m : String} (link : c.Parent x p) : c.Broken x y m ↔ c.Broken p y m := by
  constructor
  · intro broken
    obtain ⟨d, path, same, named, missing⟩ := broken
    rcases path.cases_head with rfl | ⟨next, first, rest⟩
    · exact absurd link (missingStops named missing p)
    · exact ⟨d, parentUnique first link ▸ rest, same, named, missing⟩
  · intro broken
    obtain ⟨d, path, rest⟩ := broken
    exact ⟨d, .head link path, rest⟩

theorem meaningCyclic {e : Entry} (member : e ∈ c.entries) :
    (∃ d chain, c.meaning e = .error (.cyclicDialect d chain)) ↔ ¬ c.Rooted e ∧ ∀ y m, ¬ c.Broken e y m := by
  constructor
  · intro cyclic
    obtain ⟨d, chain, failed⟩ := cyclic
    have failure := meaningFailed member failed
    generalize c.footprint e = folded at failure
    cases failure with
    | cyclic neither => exact neither
  · intro neither
    obtain ⟨chain, answered⟩ := (ancestorsCyclic member).mpr neither
    exact ⟨e.name, chain, (meaningUnrooted answered).1⟩

theorem loopsCyclic {e : Entry} (member : e ∈ c.entries) (loop : c.Loops e) :
    ∃ d chain, c.meaning e = .error (.cyclicDialect d chain) :=
  (meaningCyclic member).mpr (loopNeither .refl loop)

theorem cyclicBelow (member : x ∈ c.entries) (link : c.Parent x p) :
    (∃ d chain, c.meaning p = .error (.cyclicDialect d chain)) ↔
      ∃ d chain, c.meaning x = .error (.cyclicDialect d chain) := by
  simp only [meaningCyclic member, meaningCyclic (parentMember link), rootedBelow link, brokenBelow link]

theorem cyclicOwn {e : Entry} {d : String} {chain : List String} (member : e ∈ c.entries)
    (failed : c.meaning e = .error (.cyclicDialect d chain)) : d = e.name := by
  have failure := meaningFailed member failed
  generalize c.footprint e = folded at failure
  cases failure with
  | cyclic => rfl

theorem meaningBelowFailed (member : x ∈ c.entries) (link : c.Parent x p) (outside : ¬ c.Loops x)
    (failed : c.meaning p = .error fault) : c.meaning x = .error (fault.below x.name) := by
  have upper := parentMember link
  have below := ancestorsBelow member link outside
  cases answered : c.ancestors p with
  | error reason =>
    rw [answered] at below
    rw [(meaningUnrooted answered).1, Except.error.injEq] at failed
    rw [(meaningUnrooted below).1, failed]
  | ok above =>
    have line := lineageOfOk upper answered
    rw [meaningRow upper line] at failed
    have stopped := errorOfMap failed
    obtain ⟨e, _, u, _, _, here⟩ := Vocabulary.foldableFailed stopped
    obtain ⟨patch, word, rfl⟩ := Vocabulary.entryFault here
    rw [meaningRow member (.child link line), Vocabulary.followRowAppend, stopped]
    rfl

theorem failsBelow (member : x ∈ c.entries) (link : c.Parent x p) (failed : c.meaning p = .error fault) :
    ∃ fault', c.meaning x = .error fault' := by
  by_cases loop : c.Loops x
  · obtain ⟨d, chain, cyclic⟩ := loopsCyclic member loop
    exact ⟨_, cyclic⟩
  · exact ⟨_, meaningBelowFailed member link loop failed⟩

theorem meaningSame (member : x ∈ c.entries) (link : c.Parent x p) (failed : c.meaning p = .error fault)
    (acyclic : ∀ d chain, fault ≠ .cyclicDialect d chain) : c.meaning x = .error fault := by
  have outside : ¬ c.Loops x := by
    intro loop
    obtain ⟨d, chain, cyclic⟩ := loopsCyclic (parentMember link) (loopsParent link loop)
    exact acyclic d chain (Except.error.inj (failed.symm.trans cyclic))
  have same : fault.below x.name = fault := by
    cases fault with
    | cyclicDialect d chain => exact absurd rfl (acyclic d chain)
    | _ => rfl
  rw [meaningBelowFailed member link outside failed, same]

end Catalog

namespace Resolver
open Catalog

/- The two requests may be made in different states; the child is off the cycle if it does not come back to itself. -/
theorem failureInherited {draft : Draft} {q q' : Request} {x p : Entry} (calls calls' : List Call)
    (found : draft.catalog.sought q = some x) (found' : draft.catalog.sought q' = some p)
    (link : draft.catalog.Parent x p) :
    let child := ((draft.finish.value.after calls).ask q).value.2
    let parent := ((draft.finish.value.after calls').ask q').value.2
    (∀ dialect patch step word, parent = .error (.unknownWord dialect patch step word) →
      child = .error (.unknownWord dialect patch step word)) ∧
    (∀ dialect missing, parent = .error (.unknownParent dialect missing) →
      child = .error (.unknownParent dialect missing)) ∧
    ((∃ dialect chain, parent = .error (.cyclicDialect dialect chain)) ↔
      ∃ dialect chain, child = .error (.cyclicDialect dialect chain)) ∧
    (∀ dialect chain, child = .error (.cyclicDialect dialect chain) → dialect = x.name) ∧
    (∀ dialect chain, ¬ draft.catalog.Loops x → parent = .error (.cyclicDialect dialect chain) →
      child = .error (.cyclicDialect x.name (x.name :: chain))) ∧
    ∀ handle, child = .ok handle → ∃ inherited, parent = .ok inherited := by
  intro child parent
  have member := soughtMember found
  have below : ∀ fault, child = .error fault ↔ draft.catalog.meaning x = .error fault := by
    intro fault
    rw [← errorMapped (f := Handle.lexicon), finishedAnswer draft calls q, answer, found]
  have above : ∀ fault, parent = .error fault ↔ draft.catalog.meaning p = .error fault := by
    intro fault
    rw [← errorMapped (f := Handle.lexicon), finishedAnswer draft calls' q', answer, found']
  simp only [below, above]
  refine ⟨fun _ _ _ _ failed => ?_, fun _ _ failed => ?_, cyclicBelow member link, fun _ _ => cyclicOwn member,
    fun _ _ outside failed => ?_, fun handle done => ?_⟩
  · exact meaningSame member link failed (by simp)
  · exact meaningSame member link failed (by simp)
  · exact meaningBelowFailed member link outside failed
  · cases answered : parent with
    | ok inherited => exact ⟨inherited, rfl⟩
    | error fault =>
      obtain ⟨fault', failed⟩ := failsBelow member link ((above fault).mp answered)
      simp [(below fault').mpr failed] at done

theorem outsideWithin {c : Catalog} {x : Entry} (names : List String) (apart : x.name ∉ names)
    (first : ∀ p ∈ x.parent?, p ∈ names) (closed : ∀ n ∈ names, ∀ p ∈ c.parentOf? n, p ∈ names) : ¬ c.Loops x := by
  have within {d : Entry} (path : Relation.TransGen c.Parent x d) : d.name ∈ names ∧ d ∈ c.entries := by
    induction path with
    | single link =>
      obtain ⟨p, named, found⟩ := link
      obtain ⟨member, rfl⟩ := findMember found
      exact ⟨first _ named, member⟩
    | tail _ link ih =>
      obtain ⟨inside, upper⟩ := ih
      obtain ⟨p, named, found⟩ := link
      obtain ⟨member, rfl⟩ := findMember found
      exact ⟨closed _ inside _ (by simpa [parentOf?, findOfMember upper] using named), member⟩
  exact fun loop => apart (within loop).1

def feud : Draft where
  catalog := ⟨[⟨"heir", some "rival", []⟩, ⟨"rival", some "twin", []⟩, ⟨"twin", some "rival", []⟩,
    ⟨"below", some "stuck", []⟩, ⟨"stuck", none, [Patch.toWords ⟨"promote", [], [("top", .reserved)], ∅⟩]⟩], by decide⟩

theorem failureInheritedFeud :
    let r := feud.finish.value
    ((r.after [.all]).ask (.name "heir")).value.2 = .error (.cyclicDialect "heir" ["heir", "rival", "twin", "rival"]) ∧
    (r.ask (.place 3)).value.2 = .error (.unknownWord "stuck" "promote" .redesignate "TOP") := by
  intro r
  have outside : ¬ feud.catalog.Loops feud.catalog.entries[0] :=
    outsideWithin ["rival", "twin"] (by decide) (by decide) (by decide)
  have heir : feud.catalog.Parent feud.catalog.entries[0] feud.catalog.entries[1] := ⟨"rival", rfl, rfl⟩
  have below : feud.catalog.Parent feud.catalog.entries[3] feud.catalog.entries[4] := ⟨"stuck", rfl, rfl⟩
  obtain ⟨_, _, _, _, cyclic, _⟩ := @failureInherited feud (.name "heir") (.place 1) _ _ [.all] [] rfl rfl heir
  obtain ⟨unfolded, _⟩ := @failureInherited feud (.place 3) (.name "stuck") _ _ [] [.all] rfl rfl below
  have rival : (r.ask (.place 1)).value.2.map Handle.serial =
      .error (.cyclicDialect "rival" ["rival", "twin", "rival"]) := by decide +kernel
  have stuck : ((r.after [.all]).ask (.name "stuck")).value.2.map Handle.serial =
      .error (.unknownWord "stuck" "promote" .redesignate "TOP") := by decide +kernel
  exact ⟨cyclic _ _ outside (errorOfMap rival), unfolded _ _ _ _ (errorOfMap stuck)⟩

end Resolver

end SqlLexicon
