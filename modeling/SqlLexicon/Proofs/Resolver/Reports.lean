import SqlLexicon.Proofs.Folding.Totals
import SqlLexicon.Proofs.Resolver.Journal

/-! The totals that a session reports. Each dialect that comes to hand is reported, as often as it is folded, and always
with the totals of its own patches on what it inherits. -/
namespace SqlLexicon

def Reports (events : List Event) (dialect : String) (totals : Totals) : Prop :=
  (∃ patches counts, .resolved dialect patches totals counts ∈ events) ∧
  ∀ patches other counts, .resolved dialect patches other counts ∈ events → other = totals

def Event.outer : Event → Bool
  | .rejected _ | .registered .. | .eagerFailed .. => true
  | event => event.framing

theorem framingOuter (event : Event) (framing : event.framing = true) : event.outer = true := by
  cases event with
  | rejected | registered | eagerFailed => rfl
  | _ => exact framing

theorem outerApart {event : Event} (outer : event.outer = true) : event.patching? = none := by
  cases event with
  | patchOpened | absentRemoval | patchFolded => cases outer
  | _ => rfl

namespace Resolver
open Catalog

variable {r : Resolver} {e : Entry} {above : List Entry} {v u : Vocabulary} {name : String} {totals : Totals}
  {events : List Event}

theorem sessionFolded (calls : List Call) (held : (r.session calls).value.1.isResolved name) :
    r.isResolved name ∨ 0 < foldings name (r.session calls).events := by
  induction calls generalizing r with
  | nil => exact .inl held
  | cons call rest ih =>
    rw [sessionCons, foldingsAppend]
    rcases ih held with before | later
    · by_cases cleared : call = .invalidate
      · -- nothing is at hand right after an invalidation
        subst cleared
        simp [act, invalidate, isResolved] at before
      · have sum := (actLedger r cleared).folded name
        rw [before] at sum
        cases old : r.isResolved name with
        | true => exact .inl rfl
        | false =>
          rw [old] at sum
          exact .inr (by simp at sum; omega)
    · exact .inr (by omega)

theorem draftFolded (draft : Draft) (calls : List Call) (held : (draft.session calls).value.1.isResolved name) :
    0 < foldings name (draft.session calls).events := by
  rw [draft.sessionEvents, foldingsAppend]
  rcases sessionFolded calls held with eager | later
  · have sum := (finishLedger draft).folded name
    rw [eager] at sum
    simp [fresh, isResolved] at sum
    omega
  · omega

theorem finishEpisodes (draft : Draft) :
    Episodes draft.catalog draft.options Event.outer draft.finish.events := by
  unfold Draft.finish
  split
  · have sound : (fresh draft.options draft.catalog).Sound := emptySound rfl
    have resolving : Episodes draft.catalog draft.options Event.framing _ := actEpisodes sound .all
    simp only [act, Logged.eventsBind, Logged.eventsPure, List.append_nil] at resolving
    refine episodesAppend (episodesWeaken framingOuter resolving) (episodesAlone fun event warned => ?_)
    obtain ⟨failure, _, rfl⟩ := List.mem_map.mp warned
    rfl
  · exact .done

theorem draftEpisodes (draft : Draft) (calls : List Call) :
    Episodes draft.catalog draft.options Event.outer (draft.session calls).events := by
  obtain ⟨sound, same⟩ := finishSound draft
  have later := sessionEpisodes sound calls
  rw [same, (finishLedger draft).options] at later
  rw [draft.sessionEvents]
  exact episodesAppend (finishEpisodes draft) (episodesWeaken framingOuter later)

theorem reportSource {draft : Draft} {calls : List Call} {patches : Nat} {counts : ByCategory Nat}
    (told : .resolved name patches totals counts ∈ (draft.session calls).events) :
    Source draft.catalog draft.options (.resolved name patches totals counts) :=
  (episodesTold (draftEpisodes draft calls) told).resolve_left Bool.false_ne_true

theorem reportTotals {draft : Draft} {calls : List Call} {patches : Nat} {counts : ByCategory Nat} {other : Totals}
    (member : e ∈ draft.catalog.entries) (line : draft.catalog.Lineage e above)
    (inherited : Vocabulary.followRow ∅ above = .ok v) (touched : v.touchAll e.touches = .ok (u, totals))
    (told : .resolved e.name patches other counts ∈ (draft.session calls).events) : other = totals := by
  cases reportSource told with
  | @folding d row w _ member' line' inherited' here =>
    rcases foldOnly here with patch | ⟨u', totals', folded, same⟩
    · contradiction
    · obtain ⟨named, _, rfl, _⟩ := Event.resolved.inj same
      cases sameName member member' named
      cases lineageUnique line line'
      cases Except.ok.inj (inherited.symm.trans inherited')
      have done := Vocabulary.foldTotals draft.options e.name touched
      exact congrArg Prod.snd (Except.ok.inj (folded.symm.trans done))

theorem reportsHeld {draft : Draft} {calls : List Call} (member : e ∈ draft.catalog.entries)
    (line : draft.catalog.Lineage e above) (inherited : Vocabulary.followRow ∅ above = .ok v)
    (touched : v.touchAll e.touches = .ok (u, totals)) (held : (draft.session calls).value.1.isResolved e.name) :
    Reports (draft.session calls).events e.name totals := by
  obtain ⟨patches, totals', counts, told⟩ := foldingsTold.mp (draftFolded draft calls held)
  have same := reportTotals member line inherited touched told
  exact ⟨⟨patches, counts, same ▸ told⟩, fun _ _ _ => reportTotals member line inherited touched⟩

theorem rowReports {draft : Draft} {calls : List Call} {upper row : List Entry} (member : e ∈ draft.catalog.entries)
    (line : draft.catalog.Lineage e upper) (whole : upper ++ [e] = above ++ row)
    (inherited : Vocabulary.followRow ∅ above = .ok v)
    (touched : v.touchAll (row.flatMap Entry.touches) = .ok (u, totals))
    (held : ∀ x ∈ row, (draft.session calls).value.1.isResolved x.name) :
    ∃ parts, List.Forall₂ (fun x t => Reports (draft.session calls).events x.name t) row parts ∧ parts.sum = totals := by
  -- what the dialects done so far leave is what the next one inherits, whether it was folded in this session or before
  induction row generalizing above v totals with
  | nil =>
    cases Except.ok.inj touched
    exact ⟨[], .nil, rfl⟩
  | cons x rest ih =>
    rw [List.flatMap_cons] at touched
    obtain ⟨w, first, others, here, below, rfl⟩ := Vocabulary.touchParts touched
    have upward := lineageWithin line whole
    have inside : x ∈ draft.catalog.entries := rowRegistered line member x (by simp [whole])
    have next : Vocabulary.followRow ∅ (above ++ [x]) = .ok w :=
      (Vocabulary.followRowSnoc inherited).trans (Vocabulary.followTouched here)
    have lower := fun y inside => held y (List.mem_cons_of_mem x inside)
    obtain ⟨parts, each, sum⟩ := ih (by simpa using whole) next below lower
    have report := reportsHeld inside upward inherited here (held x List.mem_cons_self)
    exact ⟨first :: parts, .cons report each, by rw [List.sum_cons, sum]⟩

theorem askedHeld {draft : Draft} {calls : List Call} {q : Request} {handle : Handle}
    (found : draft.catalog.sought q = some e) (line : draft.catalog.Lineage e above)
    (handed : ((draft.finish.value.after calls).ask q).value.2 = .ok handle) :
    ∀ x ∈ above ++ [e], (draft.session (calls ++ [.ask q])).value.1.isResolved x.name := by
  obtain ⟨sound, same⟩ := finishSound draft
  obtain ⟨sound', same'⟩ := afterSound sound calls
  have kept := same'.trans same
  rw [draft.sessionAfter, afterAsk]
  have here : ((draft.finish.value.after calls).ask q).value.1.isResolved e.name :=
    resolvedIff.mpr ⟨handle, (askBooked (kept ▸ found)).handed handle handed⟩
  have later := (askCatalog (q := q) sound').trans kept
  have upper := soundAbove (askSound (q := q) sound') (later ▸ line) (later ▸ soughtMember found) here
  exact List.forall_mem_append.mpr ⟨upper, by simpa using here⟩

theorem askedAnswer (draft : Draft) (calls : List Call) {q : Request} (found : draft.catalog.sought q = some e)
    (line : draft.catalog.Lineage e above) : ((draft.finish.value.after calls).ask q).value.2.map Handle.lexicon =
      (Vocabulary.followRow ∅ (above ++ [e])).map (.freeze e.name) := by
  rw [finishedAnswer draft calls q, answer, found, ← meaningRow (soughtMember found) line]

end Resolver

end SqlLexicon
