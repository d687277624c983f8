import SqlLexicon.Proofs.Registration.Run
import SqlLexicon.Proofs.Resolver.Reports
import SqlLexicon.Proofs.Resolver.Twin

/-! Courses from registering on: dialects are registered one after the other, whatever becomes of each, and then calls are
made. Between two courses whose options agree on the kept events, only the others differ. -/
namespace SqlLexicon

namespace Draft

def enrol (draft : Draft) : List Dialect → Logged (Draft × List (Except Fault Nat))
  | [] => pure (draft, [])
  | d :: rest => do
    let turn ← draft.register d
    let others ← turn.1.enrol rest
    pure (others.1, turn.2 :: others.2)

def course (draft : Draft) (ds : List Dialect) (calls : List Call) :
    Logged (Resolver × List (Except Fault Nat) × List Outcome) := do
  let enrolled ← draft.enrol ds
  let turn ← enrolled.1.session calls
  pure (turn.1, enrolled.2, turn.2)

theorem enrolAttempt (draft : Draft) (ds : List Dialect) : (draft.enrol ds).value.1 = draft.attempt ds := by
  induction ds generalizing draft with
  | nil => rfl
  | cons d rest ih => exact ih (draft.register d).value.1

theorem registerOptions (draft : Draft) (options : Options) (d : Dialect) : (draft.withOptions options).register d =
    ⟨((draft.register d).value.1.withOptions options, (draft.register d).value.2), (draft.register d).events⟩ := by
  unfold register
  cases entered : draft.catalog.enter d <;> simp [withOptions, entered]

theorem enrolOptions (draft : Draft) (options : Options) (ds : List Dialect) : (draft.withOptions options).enrol ds =
    ⟨((draft.enrol ds).value.1.withOptions options, (draft.enrol ds).value.2), (draft.enrol ds).events⟩ := by
  induction ds generalizing draft with
  | nil => rfl
  | cons d rest ih => simp [enrol, bind, pure, registerOptions, ih]

theorem attemptKept (draft : Draft) (ds : List Dialect) : (draft.attempt ds).options = draft.options := by
  induction ds generalizing draft with
  | nil => rfl
  | cons d rest ih => exact (ih (draft.register d).value.1).trans (registerKept draft d)

theorem enrolOuter (draft : Draft) (ds : List Dialect) : ∀ event ∈ (draft.enrol ds).events, event.outer = true := by
  induction ds generalizing draft with
  | nil => simp [enrol]
  | cons d rest ih =>
    have first : ∀ event ∈ (draft.register d).events, event.outer = true := by
      unfold register
      cases draft.catalog.enter d <;> simp [Event.outer]
    simpa [enrol] using List.forall_mem_append.mpr ⟨first, ih (draft.register d).value.1⟩

end Draft

namespace Resolver

variable {keep : Event → Bool} {options : Options}

theorem finishTwin (draft : Draft) (agree : draft.options.Agree keep options)
    (same : options.eager = draft.options.eager) :
    (draft.withOptions options).finish.value = draft.finish.value.withOptions options ∧
      (draft.withOptions options).finish.events.filter keep = draft.finish.events.filter keep := by
  obtain ⟨value, events⟩ := resolveAllTwin (r := fresh draft.options draft.catalog) agree
  have begun : fresh options draft.catalog = (fresh draft.options draft.catalog).withOptions options := rfl
  unfold Draft.finish
  simp only [Draft.withOptions, same, begun]
  split
  · exact ⟨by simp [bind, value], by simp only [bind, List.filter_append, value, events]⟩
  · exact ⟨rfl, rfl⟩

theorem draftTwin (draft : Draft) (agree : draft.options.Agree keep options)
    (same : options.eager = draft.options.eager) (calls : List Call) :
    Twin keep options (draft.session calls) ((draft.withOptions options).session calls) := by
  have kept : draft.finish.value.options = draft.options := (finishLedger draft).options
  obtain ⟨finished, first⟩ := finishTwin draft agree same
  obtain ⟨value, events⟩ := sessionTwin (r := draft.finish.value) (by rwa [kept]) calls
  rw [← finished] at value events
  exact ⟨value, by rw [Draft.sessionEvents, Draft.sessionEvents, List.filter_append, List.filter_append, first, events]⟩

theorem courseTwin (draft : Draft) (agree : draft.options.Agree keep options)
    (same : options.eager = draft.options.eager) (ds : List Dialect) (calls : List Call) :
    Twin keep options (draft.course ds calls) ((draft.withOptions options).course ds calls) := by
  have kept := Draft.attemptKept draft ds
  obtain ⟨value, events⟩ := draftTwin (draft.attempt ds) (kept ▸ agree) (kept ▸ same) calls
  refine ⟨?_, ?_⟩
  · simp [Draft.course, Draft.enrolOptions, Draft.enrolAttempt, value]
  · simp [Draft.course, Draft.enrolOptions, Draft.enrolAttempt, events]

theorem courseCatalog (draft : Draft) (ds : List Dialect) (calls : List Call) :
    (draft.course ds calls).value.1.catalog = (draft.attempt ds).catalog := by
  obtain ⟨sound, same⟩ := finishSound (draft.attempt ds)
  have kept := (afterSound sound calls).2.trans same
  simpa [Draft.course, Draft.enrolAttempt, Draft.sessionAfter] using kept

theorem courseEpisodes (draft : Draft) (ds : List Dialect) (calls : List Call) :
    Episodes (draft.attempt ds).catalog draft.options Event.outer (draft.course ds calls).events := by
  have registering : Episodes (draft.attempt ds).catalog draft.options Event.outer (draft.enrol ds).events :=
    episodesAlone (draft.enrolOuter ds)
  have later := draftEpisodes (draft.attempt ds) calls
  rw [Draft.attemptKept] at later
  simpa [Draft.course, Draft.enrolAttempt] using episodesAppend registering later

end Resolver

end SqlLexicon
