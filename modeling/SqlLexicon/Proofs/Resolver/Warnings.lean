import SqlLexicon.Proofs.Folding.Absences
import SqlLexicon.Proofs.Resolver.Conservation
import SqlLexicon.Proofs.Resolver.Course

/-! Warnings of removals that find nothing. An option enables them, and it changes nothing else: not what is handed out
or kept at hand, and none of the other lines. Where they are enabled, every patch that is folded warns of each removal
that is absent at its turn, and so does a patch that fails later. -/
namespace SqlLexicon

def Event.absence (event : Event) : Bool :=
  event.level = .warn ∧ event.heading = .message "remove names a word that is not inherited"

def Catalog.FoldsOnto (c : Catalog) (dialect : String) (p : Patch Word) (v : Vocabulary) : Prop :=
  ∃ e above before after w, c.find? dialect = some e ∧ c.Lineage e above ∧ Vocabulary.followRow ∅ above = .ok w ∧
    e.patches = before ++ p :: after ∧ w.follow (before.flatMap (Patch.placed dialect)) = .ok v

def Patch.alerts (reports : Bool) (dialect : String) (p : Patch Word) (v : Vocabulary) : List Event :=
  if reports then (v.absences p.remove).map (.absentRemoval dialect p.name) else []

inductive AbsencesTold (c : Catalog) (reports : Bool) : List Event → Prop where
  | done : AbsencesTold c reports []
  | apart {event : Event} {events : List Event} (other : event.patching? = none) (later : AbsencesTold c reports events) :
      AbsencesTold c reports (event :: events)
  | folded {dialect : String} {p : Patch Word} {v u : Vocabulary} {totals : Totals} {events : List Event}
      (turn : c.FoldsOnto dialect p v) (applied : p.apply v = .ok (u, totals))
      (counted : totals.absentRemovals = (v.absences p.remove).length) (later : AbsencesTold c reports events) :
      AbsencesTold c reports (.patchOpened dialect p.name :: p.alerts reports dialect v ++
        .patchFolded dialect p.name totals :: events)
  | failed {dialect : String} {p : Patch Word} {v : Vocabulary} {word : Word} {events : List Event}
      (turn : c.FoldsOnto dialect p v) (stopped : p.apply v = .error word) (later : AbsencesTold c reports events) :
      AbsencesTold c reports (.patchOpened dialect p.name :: p.alerts reports dialect v ++ events)

section Patches

variable {c : Catalog} {options options' : Options} {dialect : String} {e : Entry} {v u w : Vocabulary}
  {p : Patch Word} {ps before after : List (Patch Word)} {above : List Entry} {events : List Event} {totals : Totals}

theorem warningsAlerts (options : Options) (dialect : String) (p : Patch Word) (v : Vocabulary) :
    options.warnings dialect p v = p.alerts options.reportAbsentRemovals dialect v := by
  rw [Options.warnings, Patch.alerts, Vocabulary.absentDropsPlaces]

theorem apartNoAbsence {event : Event} (other : event.patching? = none) : event.absence = false := by
  cases event with
  | absentRemoval => cases other
  | _ => rfl

theorem alertsAbsence (reports : Bool) (dialect : String) (p : Patch Word) (v : Vocabulary) :
    ∀ event ∈ p.alerts reports dialect v, event.absence = true := by
  unfold Patch.alerts
  split
  · simp [Event.absence, Event.level, Event.heading]
  · simp

theorem patchesQuiet (options options' : Options) (dialect : String) (ps : List (Patch Word)) (v : Vocabulary) :
    (foldPatches options' dialect ps v).value = (foldPatches options dialect ps v).value ∧
    (foldPatches options' dialect ps v).events.filter (!·.absence) =
      (foldPatches options dialect ps v).events.filter (!·.absence) := by
  have silent (options : Options) (p : Patch Word) (v : Vocabulary) :
      (options.warnings dialect p v).filter (!·.absence) = [] := by
    rw [List.filter_eq_nil_iff, warningsAlerts]
    intro event told
    simp [alertsAbsence _ _ _ _ event told]
  induction ps generalizing v with
  | nil => exact ⟨rfl, rfl⟩
  | cons p rest ih =>
    cases applied : p.apply v with
    | error word =>
      rw [patchesFail applied, patchesFail applied]
      exact ⟨rfl, by simp only [List.filter_cons, silent]⟩
    | ok next =>
      obtain ⟨value, events⟩ := ih next.1
      rw [patchesFold applied, patchesFold applied, value]
      exact ⟨rfl, by simp only [List.cons_append, List.filter_cons, List.filter_append, silent, events]⟩

theorem agreeQuiet (options options' : Options) : options.Agree (!·.absence) options' := by
  intro e v
  obtain ⟨value, events⟩ := patchesQuiet options options' e.name e.patches v
  cases folded : (foldPatches options e.name e.patches v).value with
  | error fault => rw [entryFails folded, entryFails (value.trans folded), events]
  | ok result => rw [entryFolds folded, entryFolds (value.trans folded), List.filter_append, List.filter_append, events]

theorem patchesAbsences (found : c.find? dialect = some e) (line : c.Lineage e above)
    (inherited : Vocabulary.followRow ∅ above = .ok w) (whole : e.patches = before ++ ps)
    (followed : w.follow (before.flatMap (Patch.placed dialect)) = .ok v)
    (later : AbsencesTold c options.reportAbsentRemovals events) :
    AbsencesTold c options.reportAbsentRemovals ((foldPatches options dialect ps v).events ++ events) := by
  induction ps generalizing before v with
  | nil => exact later
  | cons p rest ih =>
    have turn : c.FoldsOnto dialect p v := ⟨e, above, before, rest, w, found, line, inherited, whole, followed⟩
    cases applied : p.apply v with
    | error word =>
      rw [patchesFail applied, warningsAlerts]
      exact .failed turn applied later
    | ok next =>
      have here : v.follow (p.placed dialect) = .ok next.1 := by
        rw [← Vocabulary.followPatch options, Patch.fold, applied]
        rfl
      have beyond : w.follow ((before ++ [p]).flatMap (Patch.placed dialect)) = .ok next.1 := by
        rw [List.flatMap_append, Vocabulary.followAppend, followed]
        simpa [Except.bind] using here
      have split : e.patches = (before ++ [p]) ++ rest := by simpa using whole
      have below := ih split beyond
      rw [patchesFold applied, warningsAlerts]
      simpa using AbsencesTold.folded turn applied (Vocabulary.absencesCounted applied) below

theorem absencesSilent (told : AbsencesTold c false events) : events.filter (!·.absence) = events := by
  have silent : ∀ event ∈ events, event.absence = false := by
    induction told with
    | done => simp
    | apart other _ ih => exact List.forall_mem_cons.mpr ⟨apartNoAbsence other, ih⟩
    | folded _ _ _ _ ih => simpa [Patch.alerts, Event.absence, Event.heading] using ih
    | failed _ _ _ ih => simpa [Patch.alerts, Event.absence, Event.heading] using ih
  simpa using silent

theorem alertsCounted (enabled : options.reportAbsentRemovals = true)
    (folded : (foldPatches options dialect ps v).value = .ok (u, totals)) :
    (foldPatches options dialect ps v).events.countP Event.absence = totals.absentRemovals := by
  induction ps generalizing v totals with
  | nil =>
    cases Except.ok.inj folded
    rfl
  | cons p rest ih =>
    obtain ⟨next, first, others, applied, rfl, later, lines⟩ := patchesDone folded
    have alerts : (options.warnings dialect p v).countP Event.absence = first.absentRemovals := by
      rw [List.countP_eq_length.mpr (warningsAlerts options dialect p v ▸ alertsAbsence _ dialect p v), warningsAlerts,
        Vocabulary.absencesCounted applied]
      simp [Patch.alerts, enabled]
    have opened : (Event.patchOpened dialect p.name).absence = false := rfl
    have closed : (Event.patchFolded dialect p.name first).absence = false := rfl
    simp [lines, List.countP_append, opened, closed, alerts, ih later]

end Patches

namespace Resolver
open Catalog

theorem episodesAbsences {c : Catalog} {options : Options} {events : List Event}
    (episodes : Episodes c options Event.outer events) : AbsencesTold c options.reportAbsentRemovals events := by
  induction episodes with
  | done => exact .done
  | line alone _ ih => exact .apart (outerApart alone) ih
  | @folding e above v events member line inherited _ ih =>
    have patches {more : List Event} (later : AbsencesTold c options.reportAbsentRemovals more) :
        AbsencesTold c options.reportAbsentRemovals ((foldPatches options e.name e.patches v).events ++ more) :=
      patchesAbsences (findOfMember member) line inherited (List.nil_append e.patches).symm rfl later
    cases folded : (foldPatches options e.name e.patches v).value with
    | error fault =>
      rw [entryFails folded]
      exact patches ih
    | ok result =>
      rw [entryFolds folded, List.append_assoc]
      exact patches (.apart rfl ih)

/- Whether absent removals are reported does not show but in the warnings themselves: not in what registering or calls
hand back, not in what they leave at hand, and not in the other lines. Where they are reported, each patch that is folded
warns of just these entries, so a dialect told to be done has as many warnings right before it as its totals count. -/
theorem absencesAside (draft : Draft) (eager : Bool) (ds : List Dialect) (calls : List Call) :
    let loud := (draft.withOptions ⟨eager, true⟩).course ds calls
    let quiet := (draft.withOptions ⟨eager, false⟩).course ds calls
    quiet.value = (loud.value.1.withOptions ⟨eager, false⟩, loud.value.2) ∧
    quiet.events = loud.events.filter (!·.absence) ∧
    AbsencesTold loud.value.1.catalog true loud.events ∧
    ∀ before name patches totals counts after,
      loud.events = before ++ .resolved name patches totals counts :: after →
      (lastLines name before).countP Event.absence = totals.absentRemovals := by
  intro loud quiet
  have loudly := courseEpisodes (draft.withOptions ⟨eager, true⟩) ds calls
  have quietly := courseEpisodes (draft.withOptions ⟨eager, false⟩) ds calls
  obtain ⟨value, events⟩ :=
    courseTwin (draft.withOptions ⟨eager, true⟩) (agreeQuiet _ ⟨eager, false⟩) rfl ds calls
  refine ⟨value, ?_, ?_, fun before name patches totals counts after told => ?_⟩
  · rw [← events]
    exact (absencesSilent (episodesAbsences quietly)).symm
  · rw [courseCatalog]
    exact episodesAbsences loudly
  · obtain ⟨e, above, v, u, concluded, rfl, _⟩ := episodesLast loudly told
    have counted := alertsCounted rfl (congrArg Logged.value concluded.folded)
    rwa [concluded.folded] at counted

def parched : List Dialect :=
  [.root "root" ⟨[], ["top"], []⟩,
    (Dialect.derived "middle" "root").withPatch { name := "cut", remove := ["top", "ghost", "Top"] },
    (Dialect.derived "leaf" "middle").withPatch
      { name := "lift", remove := ["ghost"], redesignate := [("ghost", .reserved)] }]

theorem absencesAsideParched :
    let loud := (({} : Draft).withOptions ⟨false, true⟩).course parched [.all]
    let quiet := (({} : Draft).withOptions ⟨false, false⟩).course parched [.all]
    quiet.value.2 = loud.value.2 ∧ quiet.events = loud.events.filter (!·.absence) ∧
    loud.events.filter Event.absence = [.absentRemoval "middle" "cut" ⟨"GHOST", by decide, by decide⟩,
      .absentRemoval "middle" "cut" ⟨"TOP", by decide, by decide⟩,
      .absentRemoval "leaf" "lift" ⟨"GHOST", by decide, by decide⟩] ∧
    (lastLines "middle" (loud.events.take 11)).countP Event.absence = 2 := by
  intro loud quiet
  obtain ⟨value, events, _, counted⟩ := absencesAside {} false parched [.all]
  have report : loud.events[11]? = some (.resolved "middle" 1 ⟨1, 2, 0, 0, 0⟩ ⟨0, 0, 0⟩) := by decide +kernel
  obtain ⟨inside, here⟩ := List.getElem?_eq_some_iff.mp report
  have told : loud.events =
      loud.events.take 11 ++ .resolved "middle" 1 ⟨1, 2, 0, 0, 0⟩ ⟨0, 0, 0⟩ :: loud.events.drop 12 := by
    rw [← here, List.getElem_cons_drop, List.take_append_drop]
  exact ⟨by rw [value], events, by decide +kernel, counted _ _ _ _ _ _ told⟩

end Resolver

end SqlLexicon
