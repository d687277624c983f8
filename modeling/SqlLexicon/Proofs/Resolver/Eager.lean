import SqlLexicon.Proofs.Resolver.Journal
import SqlLexicon.Proofs.Resolver.Twin

/-! Resolving every dialect at once, in any state, and an eager resolver, which does so when registering ends. Each
dialect comes out as it would alone, whatever the others before it left at hand, and a second time changes nothing. -/
namespace SqlLexicon

def Draft.withEager (draft : Draft) (eager : Bool) : Draft := draft.withOptions { draft.options with eager }

namespace Resolver
open Catalog

variable {r : Resolver} {e : Entry} {event : Event}

theorem failuresAsked (sound : r.Sound) : failures r.catalog r.catalog.entries =
    r.catalog.entries.filterMap fun e =>
      match (r.resolve e.name).value.2 with
      | .ok _ => none
      | .error fault => some (e.name, fault) := by
  refine List.filterMap_congr fun e member => ?_
  have asked := askAnswer (q := .name e.name) sound
  rw [answer, show r.catalog.sought (.name e.name) = some e from findOfMember member] at asked
  simp only [← asked, ask]
  cases (r.resolve e.name).value.2 <;> rfl

theorem failedIff {c : Catalog} (member : e ∈ c.entries) :
    e.name ∈ (failures c c.entries).map Prod.fst ↔ ∃ fault, c.meaning e = .error fault := by
  simp only [failures, List.mem_map, List.mem_filterMap]
  constructor
  · intro listed
    obtain ⟨failure, ⟨d, inside, failed⟩, same⟩ := listed
    cases meant : c.meaning d with
    | ok lexicon => simp [meant] at failed
    | error fault =>
      simp only [meant, Option.some.injEq] at failed
      cases sameName inside member ((congrArg Prod.fst failed).trans same)
      exact ⟨fault, meant⟩
  · intro failed
    obtain ⟨fault, meant⟩ := failed
    exact ⟨(e.name, fault), ⟨e, member, by simp [meant]⟩, rfl⟩

theorem allHeld (sound : r.Sound) (member : e ∈ r.catalog.entries) :
    r.resolveAll.value.1.isResolved e.name ↔ ∃ l, r.catalog.meaning e = .ok l := by
  obtain ⟨sound', same, _⟩ := resolveAllServes sound
  constructor
  · intro held
    obtain ⟨handle, cached⟩ := resolvedIff.mp held
    exact ⟨handle.lexicon, same ▸ soundMeant sound' (same ▸ member) cached⟩
  · intro meant
    obtain ⟨l, meant⟩ := meant
    obtain ⟨above, _, _, _, _, whole⟩ := meaningOk member meant
    obtain ⟨_, grown, _⟩ := resolveEachServes sound fun d inside => inside
    refine (grown.gains e.name).mpr (.inr (List.mem_map_of_mem (List.mem_flatMap.mpr ⟨e, member, ?_⟩)))
    rw [whole]
    simp

theorem resolveAllAgain (sound : r.Sound) : r.resolveAll.value.1.resolveAll.value = r.resolveAll.value := by
  obtain ⟨sound', same, failed⟩ := resolveAllServes sound
  obtain ⟨sound'', same', failed'⟩ := resolveAllServes sound'
  have still : r.resolveAll.value.1.resolveAll.value.1 = r.resolveAll.value.1 := by
    refine ledgerStill (resolveAllLedger _) fun name held => ?_
    obtain ⟨e, _, l, found, _, meant⟩ := soundHeld sound'' held
    rw [same', same] at found meant
    obtain ⟨member, rfl⟩ := findMember found
    exact (allHeld sound member).mpr ⟨l, meant⟩
  exact Prod.ext still (by rw [failed', failed, same])

def eagerly (event : Event) : Bool := event.level = .warn ∧ event.heading = .message "eager resolution failed"

theorem patchLate (patch : event.ofPatch = true) : eagerly event = false := by
  cases event with
  | patchOpened => rfl
  | absentRemoval => rfl
  | patchFolded => rfl
  | _ => contradiction

theorem sourceLate {c : Catalog} {options : Options} (source : Source c options event) : eagerly event = false := by
  cases source with
  | folding member line inherited told =>
    rcases foldOnly told with patches | ⟨u, totals, _, rfl⟩
    · exact patchLate patches
    · rfl
  | _ => rfl

theorem allHeldNames (sound : r.Sound) (name : String) : r.resolveAll.value.1.isResolved name ↔
    r.catalog.has name ∧ name ∉ r.resolveAll.value.2.map Prod.fst := by
  obtain ⟨sound', same, failed⟩ := resolveAllServes sound
  rw [failed]
  constructor
  · intro held
    obtain ⟨e, _, l, found, _, meant⟩ := soundHeld sound' held
    rw [same] at found meant
    obtain ⟨member, rfl⟩ := findMember found
    refine ⟨hasIffFound.mpr ⟨e, found⟩, fun listed => ?_⟩
    obtain ⟨fault, failed⟩ := (failedIff member).mp listed
    simp [meant] at failed
  · intro unlisted
    obtain ⟨known, absent⟩ := unlisted
    obtain ⟨e, found⟩ := hasIffFound.mp known
    obtain ⟨member, rfl⟩ := findMember found
    refine (allHeld sound member).mpr ?_
    cases meant : r.catalog.meaning e with
    | ok l => exact ⟨l, rfl⟩
    | error fault => exact absurd ((failedIff member).mpr ⟨fault, meant⟩) absent

theorem agreeEager (draft : Draft) (keep : Event → Bool) :
    (draft.withEager false).options.Agree keep (draft.withEager true).options := by
  have same : (draft.withEager false).options.reportAbsentRemovals =
      (draft.withEager true).options.reportAbsentRemovals := rfl
  exact agreeReport same keep

/- An eager resolver is the lazy one after a call for all dialects, but for the option that made it eager. -/
theorem finishEager (draft : Draft) :
    let all := (draft.withEager false).finish.value.resolveAll
    (draft.withEager true).finish = ⟨all.value.1.withOptions (draft.withEager true).options,
      all.events ++ all.value.2.map fun failure => .eagerFailed failure.1 failure.2⟩ := by
  intro all
  have twin := resolveAllTwin (r := (draft.withEager false).finish.value) (agreeEager draft fun _ => true)
  have begun : (draft.withEager true).finish = (do
      let turn ← ((draft.withEager false).finish.value.withOptions (draft.withEager true).options).resolveAll
      ⟨turn.1, turn.2.map fun failure => .eagerFailed failure.1 failure.2⟩) := rfl
  rw [begun]
  simp only [bind, twin.value, twinEvents twin]
  rfl

theorem warningsEager (draft : Draft) : (draft.withEager true).finish.events.filter eagerly =
    (draft.withEager false).finish.value.resolveAll.value.2.map fun failure => .eagerFailed failure.1 failure.2 := by
  have late : ∀ event ∈ (draft.withEager false).finish.value.resolveAll.events, ¬ eagerly event = true := by
    intro event told
    have sound := (finishSound (draft.withEager false)).1
    simp [sourceLate (actSource sound .all (by simpa [act] using told))]
  rw [finishEager, List.filter_append, List.filter_eq_nil_iff.mpr late, List.nil_append, List.filter_eq_self]
  intro event told
  obtain ⟨failure, _, rfl⟩ := List.mem_map.mp told
  rfl

theorem sessionEager (draft : Draft) (calls : List Call) : Twin (fun _ => true) (draft.withEager true).options
    ((draft.withEager false).finish.value.resolveAll.value.1.session calls)
    ((draft.withEager true).finish.value.session calls) := by
  have kept : (draft.withEager false).finish.value.resolveAll.value.1.options = (draft.withEager false).options :=
    (resolveAllLedger _).options
  rw [finishEager]
  exact sessionTwin (kept ▸ agreeEager draft fun _ => true) calls

theorem resolveAllExact (draft : Draft) (calls : List Call) :
    let r := draft.finish.value.after calls
    let turn := r.resolveAll.value
    turn.2 = (r.catalog.entries.filterMap fun e =>
      match (r.resolve e.name).value.2 with
      | .ok _ => none
      | .error fault => some (e.name, fault)) ∧
    (∀ name, turn.1.isResolved name ↔ r.catalog.has name ∧ name ∉ turn.2.map Prod.fst) ∧
    turn.1.resolveAll.value = turn ∧
    let eager := (draft.withEager true).finish
    let all := (draft.withEager false).finish.value.resolveAll.value
    eager.value.cache = all.1.cache ∧
    (∀ later, (eager.value.session later).value.2 = (all.1.session later).value.2 ∧
      (eager.value.session later).value.1.cache = (all.1.session later).value.1.cache ∧
      (eager.value.session later).events = (all.1.session later).events) ∧
    eager.events.filter eagerly = all.2.map fun failure => .eagerFailed failure.1 failure.2 := by
  intro r turn
  have sound : r.Sound := (afterSound (finishSound draft).1 calls).1
  refine ⟨?_, allHeldNames sound, resolveAllAgain sound, ?_, fun later => ?_, warningsEager draft⟩
  · rw [← failuresAsked sound]
    exact (resolveAllServes sound).2.2
  · rw [finishEager]
    rfl
  · have twin := sessionEager draft later
    rw [twin.value]
    exact ⟨rfl, rfl, twinEvents twin⟩

end Resolver

end SqlLexicon
