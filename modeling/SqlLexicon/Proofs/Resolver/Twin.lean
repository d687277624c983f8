import SqlLexicon.Proofs.Resolver.Ledger

/-! One session under two options. Options choose events and nothing else, so both sessions hand back the same and leave
the same at hand. If the two agree on the kept events of every folding, then also on those of every session. -/
namespace SqlLexicon

theorem foldValue (options options' : Options) (e : Entry) (v : Vocabulary) :
    (e.fold options v).value = (e.fold options' v).value :=
  (Vocabulary.followEntry options e v).trans (Vocabulary.followEntry options' e v).symm

def Options.Agree (keep : Event → Bool) (options options' : Options) : Prop :=
  ∀ (e : Entry) (v : Vocabulary), (e.fold options' v).events.filter keep = (e.fold options v).events.filter keep

theorem patchReport {options options' : Options} (same : options.reportAbsentRemovals = options'.reportAbsentRemovals)
    (dialect : String) (p : Patch Word) (v : Vocabulary) : p.fold options dialect v = p.fold options' dialect v := by
  rw [Patch.fold, Patch.fold, Options.warnings, Options.warnings, same]

theorem patchesReport {options options' : Options} (same : options.reportAbsentRemovals = options'.reportAbsentRemovals)
    (dialect : String) (ps : List (Patch Word)) (v : Vocabulary) :
    foldPatches options dialect ps v = foldPatches options' dialect ps v := by
  induction ps generalizing v with
  | nil => rfl
  | cons p rest ih => simp only [foldPatches, patchReport same, ih]

/- Of the options, a folding reads only whether absent removals are reported. -/
theorem agreeReport {options options' : Options} (same : options.reportAbsentRemovals = options'.reportAbsentRemovals)
    (keep : Event → Bool) : options.Agree keep options' := by
  intro e v
  rw [Entry.fold, Entry.fold, patchesReport same]

namespace Resolver

def withOptions (r : Resolver) (options : Options) : Resolver := { r with options }

@[simp] theorem withOptionsCatalog (r : Resolver) (options : Options) : (r.withOptions options).catalog = r.catalog := rfl

structure Twin {α : Type} (keep : Event → Bool) (options : Options) (turn turn' : Logged (Resolver × α)) : Prop where
  value : turn'.value = (turn.value.1.withOptions options, turn.value.2)
  events : turn'.events.filter keep = turn.events.filter keep

variable {keep : Event → Bool} {options : Options} {r : Resolver} {q : Request} {e : Entry} {v : Vocabulary}

theorem twinSame {α : Type} {a : α} {events : List Event} :
    Twin keep options ⟨(r, a), events⟩ ⟨(r.withOptions options, a), events⟩ := ⟨rfl, rfl⟩

theorem twinEvents {α : Type} {turn turn' : Logged (Resolver × α)}
    (twin : Twin (fun _ => true) options turn turn') : turn'.events = turn.events := by
  simpa using twin.events

theorem obtainTwin (agree : r.options.Agree keep options) (e : Entry) (v : Vocabulary) :
    Twin keep options (r.obtain e v) ((r.withOptions options).obtain e v) := by
  cases cached : r.cache[e.name]? with
  | some handle =>
    rw [obtainHit cached, obtainHit (r := r.withOptions options) cached]
    exact twinSame
  | none =>
    have other := foldValue r.options options e v
    cases folded : (e.fold r.options v).value with
    | error fault =>
      rw [obtainFails cached folded, obtainFails (r := r.withOptions options) cached (other.symm.trans folded)]
      exact ⟨rfl, agree e v⟩
    | ok lexicon =>
      rw [obtainFolds cached folded, obtainFolds (r := r.withOptions options) cached (other.symm.trans folded)]
      exact ⟨rfl, agree e v⟩

theorem descendTwin (agree : r.options.Agree keep options) (v : Vocabulary) (e : Entry) (above : List Entry) :
    Twin keep options (r.descend v e above) ((r.withOptions options).descend v e above) := by
  induction above generalizing r v with
  | nil => exact obtainTwin agree e v
  | cons a rest ih =>
    obtain ⟨value, events⟩ := obtainTwin agree a v
    have kept := (obtainBooked r a v).ledger.options
    cases turn : (r.obtain a v).value with
    | mk next answer =>
      rw [turn] at value kept
      cases answer with
      | error fault =>
        rw [descendStops turn, descendStops value]
        exact ⟨rfl, events⟩
      | ok handle =>
        obtain ⟨value', events'⟩ := ih (r := next) (kept ▸ agree) handle.lexicon.vocabulary
        rw [descendGoes turn, descendGoes value]
        exact ⟨value', by simp only [List.filter_append, events, events']⟩

theorem resolveEntryTwin (agree : r.options.Agree keep options) (e : Entry) :
    Twin keep options (r.resolveEntry e) ((r.withOptions options).resolveEntry e) := by
  cases cached : r.cache[e.name]? with
  | some handle =>
    rw [resolveEntryHit cached, resolveEntryHit (r := r.withOptions options) cached]
    exact twinSame
  | none =>
    cases answered : r.catalog.ancestors e with
    | error fault =>
      rw [resolveEntryUnrooted cached answered, resolveEntryUnrooted (r := r.withOptions options) cached answered]
      exact twinSame
    | ok above =>
      rw [resolveEntryRooted cached answered, resolveEntryRooted (r := r.withOptions options) cached answered]
      exact descendTwin agree ∅ e above

theorem resolveEachTwin (agree : r.options.Agree keep options) (row : List Entry) :
    Twin keep options (r.resolveEach row) ((r.withOptions options).resolveEach row) := by
  induction row generalizing r with
  | nil => exact twinSame
  | cons e rest ih =>
    obtain ⟨value, events⟩ := resolveEntryTwin agree e
    have kept := (resolveEntryBooked r e).ledger.options
    obtain ⟨value', events'⟩ := ih (r := (r.resolveEntry e).value.1) (kept ▸ agree)
    rw [resolveEachCons, resolveEachCons, value]
    exact ⟨by rw [value'], by simp only [List.filter_append, events, events']⟩

theorem askTwin (agree : r.options.Agree keep options) (q : Request) :
    Twin keep options (r.ask q) ((r.withOptions options).ask q) := by
  cases found : r.catalog.sought q with
  | none =>
    rw [askUnknown found, askUnknown (r := r.withOptions options) found]
    exact twinSame
  | some e =>
    obtain ⟨value, events⟩ := resolveEntryTwin agree e
    rw [askTurn found, askTurn (r := r.withOptions options) found]
    exact ⟨value, by simp only [List.filter_append, events]⟩

theorem resolveAllTwin (agree : r.options.Agree keep options) :
    Twin keep options r.resolveAll (r.withOptions options).resolveAll := by
  obtain ⟨value, events⟩ := resolveEachTwin agree r.catalog.entries
  rw [resolveAllTurn, resolveAllTurn]
  exact ⟨value, by simp only [List.filter_cons, withOptionsCatalog, events]⟩

theorem actTwin (agree : r.options.Agree keep options) (call : Call) :
    Twin keep options (r.act call) ((r.withOptions options).act call) := by
  cases call with
  | ask q =>
    obtain ⟨value, events⟩ := askTwin agree q
    exact ⟨by simp [act, value], by simpa [act] using events⟩
  | all =>
    obtain ⟨value, events⟩ := resolveAllTwin agree
    exact ⟨by simp [act, value], by simpa [act] using events⟩
  | invalidate => exact twinSame

theorem sessionTwin (agree : r.options.Agree keep options) (calls : List Call) :
    Twin keep options (r.session calls) ((r.withOptions options).session calls) := by
  induction calls generalizing r with
  | nil => exact twinSame
  | cons call rest ih =>
    obtain ⟨value, events⟩ := actTwin agree call
    obtain ⟨value', events'⟩ := ih (r := (r.act call).value.1) (actOptions r call ▸ agree)
    refine ⟨?_, ?_⟩
    · simp [session, value, value']
    · rw [sessionCons, sessionCons, value]
      simp only [List.filter_append, events, events']

end Resolver

end SqlLexicon
