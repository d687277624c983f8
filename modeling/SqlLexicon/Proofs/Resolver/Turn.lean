import SqlLexicon.Proofs.Resolver.History

/-! The steps of a resolution as equations of values with their events, one for each way a step can go, and sessions, in
which calls follow each other and all that they hand back and tell is kept. -/
namespace SqlLexicon

def Event.ofPatch : Event → Bool
  | .patchOpened .. | .absentRemoval .. | .patchFolded .. => true
  | _ => false

def Event.patching? : Event → Option String
  | .patchOpened dialect _ | .absentRemoval dialect _ _ | .patchFolded dialect _ _ => some dialect
  | _ => none

section Folding

variable {options : Options} {e : Entry} {v u : Vocabulary} {totals : Totals} {fault : Fault}

theorem entryFolds (done : (foldPatches options e.name e.patches v).value = .ok (u, totals)) :
    e.fold options v = ⟨.ok (.freeze e.name u), (foldPatches options e.name e.patches v).events ++
      [.resolved e.name e.patches.length totals (Lexicon.freeze e.name u).counts]⟩ := by
  simp [Entry.fold, bind, done, Logged.emit, pure]

theorem entryFails (failed : (foldPatches options e.name e.patches v).value = .error fault) :
    e.fold options v = ⟨.error fault, (foldPatches options e.name e.patches v).events⟩ := by
  simp [Entry.fold, bind, failed, pure]

theorem warningsAbout (options : Options) (dialect : String) (p : Patch Word) (v : Vocabulary) :
    ∀ event ∈ options.warnings dialect p v, event.patching? = some dialect := by
  unfold Options.warnings
  split
  · simp [Event.patching?]
  · simp

theorem patchAbout (options : Options) (dialect : String) (p : Patch Word) (v : Vocabulary) :
    ∀ event ∈ (p.fold options dialect v).events, event.patching? = some dialect := by
  have warned := warningsAbout options dialect p v
  unfold Patch.fold
  cases p.apply v with
  | error word => simpa [Event.patching?] using warned
  | ok result => simpa [Event.patching?, or_imp, forall_and] using warned

theorem patchesAbout (options : Options) (dialect : String) (ps : List (Patch Word)) (v : Vocabulary) :
    ∀ event ∈ (foldPatches options dialect ps v).events, event.patching? = some dialect := by
  induction ps generalizing v with
  | nil => simp [foldPatches]
  | cons p rest ih =>
    have first := patchAbout options dialect p v
    rw [foldPatches, Logged.eventsBind]
    refine List.forall_mem_append.mpr ⟨first, ?_⟩
    cases (p.fold options dialect v).value with
    | error fault => simp
    | ok next =>
      rw [Logged.eventsBind]
      refine List.forall_mem_append.mpr ⟨ih next.1, ?_⟩
      cases (foldPatches options dialect rest next.1).value <;> simp

theorem patchesOnly (options : Options) (dialect : String) (ps : List (Patch Word)) (v : Vocabulary) :
    ∀ event ∈ (foldPatches options dialect ps v).events, event.ofPatch = true := by
  intro event told
  have about := patchesAbout options dialect ps v event told
  cases event with
  | patchOpened => rfl
  | absentRemoval => rfl
  | patchFolded => rfl
  | _ => cases about

theorem foldOnly {event : Event} (told : event ∈ (e.fold options v).events) : event.ofPatch = true ∨
    ∃ u totals, (foldPatches options e.name e.patches v).value = .ok (u, totals) ∧
      event = .resolved e.name e.patches.length totals (Lexicon.freeze e.name u).counts := by
  have only := patchesOnly options e.name e.patches v
  cases folded : (foldPatches options e.name e.patches v).value with
  | error fault =>
    rw [entryFails folded] at told
    exact .inl (only event told)
  | ok result =>
    rw [entryFolds folded] at told
    rcases List.mem_append.mp told with patches | last
    · exact .inl (only event patches)
    · exact .inr ⟨result.1, result.2, rfl, List.mem_singleton.mp last⟩

end Folding

def Request.opening : Request → List Event
  | .name text => [.resolveOpened text]
  | .place _ => []

inductive Outcome where
  | handed (result : Except Fault Handle)
  | failures (failed : List (String × Fault))
  | done

namespace Resolver

variable {r next : Resolver} {q : Request} {e a : Entry} {v : Vocabulary} {rest above : List Entry} {handle : Handle}
  {lexicon : Lexicon} {fault : Fault}

theorem obtainHit (cached : r.cache[e.name]? = some handle) : r.obtain e v = ⟨(r, .ok handle), []⟩ := by
  simp [obtain, cached, pure]

theorem obtainFails (absent : r.cache[e.name]? = none) (failed : (e.fold r.options v).value = .error fault) :
    r.obtain e v = ⟨(r, .error fault), (e.fold r.options v).events⟩ := by
  simp [obtain, absent, failed, bind, pure]

theorem obtainFolds (absent : r.cache[e.name]? = none) (folded : (e.fold r.options v).value = .ok lexicon) :
    r.obtain e v = ⟨((r.keep lexicon).1, .ok (r.keep lexicon).2), (e.fold r.options v).events⟩ := by
  simp [obtain, absent, folded, bind, pure]

theorem descendStops (turn : (r.obtain a v).value = (next, .error fault)) :
    r.descend v e (a :: rest) = ⟨(next, .error fault), (r.obtain a v).events⟩ := by
  simp [descend, turn, bind, pure]

theorem descendGoes (turn : (r.obtain a v).value = (next, .ok handle)) :
    r.descend v e (a :: rest) = ⟨(next.descend handle.lexicon.vocabulary e rest).value,
      (r.obtain a v).events ++ (next.descend handle.lexicon.vocabulary e rest).events⟩ := by
  simp [descend, turn, bind]

theorem resolveEntryHit (cached : r.cache[e.name]? = some handle) :
    r.resolveEntry e = ⟨(r, .ok handle), [.cacheHit handle.lexicon.dialect]⟩ := by
  simp [resolveEntry, cached, bind, pure, Logged.emit]

theorem resolveEntryUnrooted (absent : r.cache[e.name]? = none) (answered : r.catalog.ancestors e = .error fault) :
    r.resolveEntry e = ⟨(r, .error fault), []⟩ := by
  simp [resolveEntry, absent, answered, pure]

theorem resolveEntryRooted (absent : r.cache[e.name]? = none) (answered : r.catalog.ancestors e = .ok above) :
    r.resolveEntry e = r.descend ∅ e above := by
  simp [resolveEntry, absent, answered]

theorem resolveEachCons (r : Resolver) (e : Entry) (rest : List Entry) :
    let turn := r.resolveEntry e
    let others := turn.value.1.resolveEach rest
    r.resolveEach (e :: rest) = ⟨(others.value.1, match turn.value.2 with
      | .ok _ => others.value.2
      | .error fault => (e.name, fault) :: others.value.2), turn.events ++ others.events⟩ := by
  cases turn : (r.resolveEntry e).value.2 <;> simp [resolveEach, turn, bind, pure]

theorem askTurn (found : r.catalog.sought q = some e) :
    r.ask q = ⟨(r.resolveEntry e).value, q.opening ++ (r.resolveEntry e).events⟩ := by
  cases q with
  | name text =>
    simp [ask, resolve, Request.opening, show r.catalog.find? text = some e from found, bind, Logged.emit]
  | place index =>
    simp [ask, resolveAt, Request.opening, show r.catalog.entries[index]? = some e from found]

theorem askUnknown (unknown : r.catalog.sought q = none) :
    r.ask q = ⟨(r, .error (.unknownDialect q.text)), q.opening⟩ := by
  cases q with
  | name text =>
    simp [ask, resolve, Request.opening, Request.text, show r.catalog.find? text = none from unknown, bind, Logged.emit,
      pure]
  | place index =>
    simp [ask, resolveAt, Request.opening, Request.text, show r.catalog.entries[index]? = none from unknown, pure]

theorem resolveAllTurn (r : Resolver) : r.resolveAll = ⟨(r.resolveEach r.catalog.entries).value,
    .resolveAllOpened r.catalog.size :: (r.resolveEach r.catalog.entries).events⟩ := by
  simp [resolveAll, bind, Logged.emit]

def act (r : Resolver) : Call → Logged (Resolver × Outcome)
  | .ask q => do
    let turn ← r.ask q
    pure (turn.1, .handed turn.2)
  | .all => do
    let turn ← r.resolveAll
    pure (turn.1, .failures turn.2)
  | .invalidate => pure (r.invalidate, .done)

def session (r : Resolver) : List Call → Logged (Resolver × List Outcome)
  | [] => pure (r, [])
  | call :: rest => do
    let turn ← r.act call
    let others ← turn.1.session rest
    pure (others.1, turn.2 :: others.2)

theorem actPerforms (r : Resolver) (call : Call) : (r.act call).value.1 = (r.perform call).1 := by
  cases call <;> rfl

theorem afterAsk (r : Resolver) (calls : List Call) (q : Request) :
    r.after (calls ++ [.ask q]) = ((r.after calls).ask q).value.1 := by
  rw [after, List.foldl_append]
  rfl

theorem sessionAfter (r : Resolver) (calls : List Call) : (r.session calls).value.1 = r.after calls := by
  induction calls generalizing r with
  | nil => rfl
  | cons call rest ih => exact (ih (r.act call).value.1).trans (congrArg (·.after rest) (actPerforms r call))

theorem sessionCons (r : Resolver) (call : Call) (rest : List Call) :
    (r.session (call :: rest)).events = (r.act call).events ++ ((r.act call).value.1.session rest).events := by
  simp [session]

end Resolver

def Draft.session (draft : Draft) (calls : List Call) : Logged (Resolver × List Outcome) := do
  let r ← draft.finish
  r.session calls

theorem Draft.sessionEvents (draft : Draft) (calls : List Call) :
    (draft.session calls).events = draft.finish.events ++ (draft.finish.value.session calls).events := rfl

theorem Draft.sessionAfter (draft : Draft) (calls : List Call) :
    (draft.session calls).value.1 = draft.finish.value.after calls := Resolver.sessionAfter draft.finish.value calls

end SqlLexicon
