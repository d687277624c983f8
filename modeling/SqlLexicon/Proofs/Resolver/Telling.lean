import SqlLexicon.Proofs.Resolver.Journal

/-! What a request by name tells, as a grammar of its lines. A patch opens, warns of absent removals and closes; a dialect
ends with a line of its own once its last patch has closed, and dialects at hand tell nothing. A move that fails ends all
of it after the warnings of its patch. -/
namespace SqlLexicon

inductive Warns (dialect patch : String) : Vocabulary → List Word → List Event → Prop where
  | done {v : Vocabulary} : Warns dialect patch v [] []
  | present {v : Vocabulary} {word : Word} {rest : List Word} {events : List Event} (held : word ∈ v)
      (later : Warns dialect patch (v.erase word) rest events) : Warns dialect patch v (word :: rest) events
  | absent {v : Vocabulary} {word : Word} {rest : List Word} {events : List Event} (missing : word ∉ v)
      (later : Warns dialect patch v rest events) :
      Warns dialect patch v (word :: rest) (.absentRemoval dialect patch word :: events)

def Options.Warned (options : Options) (dialect : String) (p : Patch Word) (v : Vocabulary) (events : List Event) : Prop :=
  if options.reportAbsentRemovals then Warns dialect p.name v p.remove events else events = []

inductive PatchesTell (options : Options) (dialect : String) :
    Vocabulary → List (Patch Word) → List Event → Except Fault (Vocabulary × Totals) → Prop where
  | done {v : Vocabulary} : PatchesTell options dialect v [] [] (.ok (v, 0))
  | folded {v u : Vocabulary} {p : Patch Word} {rest : List (Patch Word)} {totals : Totals} {warnings events : List Event}
      {result : Except Fault (Vocabulary × Totals)} (warned : options.Warned dialect p v warnings)
      (applied : p.apply v = .ok (u, totals)) (later : PatchesTell options dialect u rest events result) :
      PatchesTell options dialect v (p :: rest)
        (.patchOpened dialect p.name :: warnings ++ .patchFolded dialect p.name totals :: events)
        (result.map fun last => (last.1, totals + last.2))
  | failed {v : Vocabulary} {p : Patch Word} {rest : List (Patch Word)} {word : Word} {warnings : List Event}
      (warned : options.Warned dialect p v warnings) (stopped : p.apply v = .error word) :
      PatchesTell options dialect v (p :: rest) (.patchOpened dialect p.name :: warnings)
        (.error (.unknownWord dialect p.name .redesignate word.text))

inductive Resolver.Tells (r : Resolver) : Vocabulary → List Entry → List Event → Except Fault Vocabulary → Prop where
  | done {v : Vocabulary} : Tells r v [] [] (.ok v)
  | held {v : Vocabulary} {e : Entry} {rest : List Entry} {handle : Handle} {events : List Event}
      {result : Except Fault Vocabulary} (cached : r.cache[e.name]? = some handle)
      (later : Tells r handle.lexicon.vocabulary rest events result) : Tells r v (e :: rest) events result
  | folded {v u : Vocabulary} {e : Entry} {rest : List Entry} {totals : Totals} {patches events : List Event}
      {result : Except Fault Vocabulary} (absent : r.cache[e.name]? = none)
      (here : PatchesTell r.options e.name v e.patches patches (.ok (u, totals))) (later : Tells r u rest events result) :
      Tells r v (e :: rest)
        (patches ++ .resolved e.name e.patches.length totals (Lexicon.freeze e.name u).counts :: events) result
  | failed {v : Vocabulary} {e : Entry} {rest : List Entry} {patches : List Event} {fault : Fault}
      (absent : r.cache[e.name]? = none) (here : PatchesTell r.options e.name v e.patches patches (.error fault)) :
      Tells r v (e :: rest) patches (.error fault)

section Patches

variable {options : Options} {dialect patch : String} {v u : Vocabulary} {e : Entry} {p : Patch Word}
  {ps rest : List (Patch Word)} {words : List Word} {word : Word} {totals : Totals} {events : List Event} {fault : Fault}
  {result : Except Fault (Vocabulary × Totals)}

theorem warnsIff :
    Warns dialect patch v words events ↔ events = (v.absentDrops words).map (.absentRemoval dialect patch) := by
  constructor
  · intro warned
    induction warned with
    | done => rfl
    | present held _ ih => simpa [Vocabulary.absentDrops, held] using ih
    | absent missing _ ih => simp [Vocabulary.absentDrops, missing, ih]
  · rintro rfl
    induction words generalizing v with
    | nil => exact .done
    | cons word rest ih =>
      by_cases held : word ∈ v
      · simpa [Vocabulary.absentDrops, held] using Warns.present held ih
      · simpa [Vocabulary.absentDrops, held] using Warns.absent held ih

theorem warnedIff : options.Warned dialect p v events ↔ events = options.warnings dialect p v := by
  unfold Options.Warned Options.warnings
  split
  · exact warnsIff
  · rfl

theorem patchesFold (applied : p.apply v = .ok (u, totals)) :
    let others := foldPatches options dialect rest u
    foldPatches options dialect (p :: rest) v = ⟨others.value.map fun last => (last.1, totals + last.2),
      .patchOpened dialect p.name :: options.warnings dialect p v ++
        .patchFolded dialect p.name totals :: others.events⟩ := by
  cases later : (foldPatches options dialect rest u).value <;>
    simp [foldPatches, Patch.fold, applied, later, bind, pure, Except.map]

theorem patchesFail (stopped : p.apply v = .error word) :
    foldPatches options dialect (p :: rest) v = ⟨.error (.unknownWord dialect p.name .redesignate word.text),
      .patchOpened dialect p.name :: options.warnings dialect p v⟩ := by
  simp [foldPatches, Patch.fold, stopped, bind, pure]

theorem patchesDone (done : (foldPatches options dialect (p :: rest) v).value = .ok (u, totals)) :
    ∃ next first others, p.apply v = .ok (next, first) ∧ totals = first + others ∧
      (foldPatches options dialect rest next).value = .ok (u, others) ∧
      (foldPatches options dialect (p :: rest) v).events = .patchOpened dialect p.name :: options.warnings dialect p v ++
        .patchFolded dialect p.name first :: (foldPatches options dialect rest next).events := by
  cases applied : p.apply v with
  | error word => simp [patchesFail applied] at done
  | ok next =>
    rw [patchesFold applied] at done ⊢
    obtain ⟨last, later, same⟩ := okOfMap done
    obtain ⟨rfl, rfl⟩ := Prod.mk.inj same
    exact ⟨next.1, next.2, last.2, rfl, rfl, later, rfl⟩

theorem patchesTell (options : Options) (dialect : String) (ps : List (Patch Word)) (v : Vocabulary) :
    PatchesTell options dialect v ps (foldPatches options dialect ps v).events
      (foldPatches options dialect ps v).value := by
  induction ps generalizing v with
  | nil => exact .done
  | cons p rest ih =>
    have warned := warnedIff.mpr (rfl : options.warnings dialect p v = _)
    cases applied : p.apply v with
    | error word =>
      rw [patchesFail applied]
      exact .failed warned applied
    | ok result =>
      rw [patchesFold applied]
      exact .folded warned applied (ih result.1)

theorem patchesTold (told : PatchesTell options dialect v ps events result) :
    foldPatches options dialect ps v = ⟨result, events⟩ := by
  induction told with
  | done => rfl
  | folded warned applied _ ih => rw [patchesFold applied, ih, warnedIff.mp warned]
  | failed warned stopped => rw [patchesFail stopped, warnedIff.mp warned]

theorem followFolded (folded : (foldPatches options e.name e.patches v).value = .ok (u, totals)) :
    v.follow e.placed = .ok u := by
  rw [Entry.placed, ← Vocabulary.followPatches options, folded]
  rfl

theorem followFailed (failed : (foldPatches options e.name e.patches v).value = .error fault) :
    v.follow e.placed = .error fault := by
  rw [Entry.placed, ← Vocabulary.followPatches options, failed]
  rfl

theorem foldTells (options : Options) (e : Entry) (v : Vocabulary) : (e.fold options v).events.filterMap Event.folded? =
    match v.follow e.placed with
    | .ok _ => [e.name]
    | .error _ => [] := by
  have untold := List.filterMap_eq_nil_iff.mpr (patchesUntold options e.name e.patches v)
  cases folded : (foldPatches options e.name e.patches v).value with
  | error fault => rw [entryFails folded, followFailed folded, untold]
  | ok result =>
    rw [entryFolds folded, followFolded folded, List.filterMap_append, untold]
    rfl

end Patches

namespace Resolver
open Catalog

variable {r next : Resolver} {e a : Entry} {v : Vocabulary} {above upper rest row : List Entry} {events : List Event}
  {handle : Handle} {result : Except Fault Vocabulary} {name : String}

theorem heldFollow (sound : r.Sound) (member : a ∈ r.catalog.entries) (line : r.catalog.Lineage a above)
    (inherited : Vocabulary.followRow ∅ above = .ok v) (cached : r.cache[a.name]? = some handle) :
    v.follow a.placed = .ok handle.lexicon.vocabulary := by
  have meant := soundMeant sound member cached
  rw [meaningLast member line inherited] at meant
  obtain ⟨u, followed, frozen⟩ := okOfMap meant
  rw [followed, ← frozen, Lexicon.freeze]

theorem tellsCons (known : ∀ handle, r.cache[a.name]? = some handle → v.follow a.placed = .ok handle.lexicon.vocabulary) :
    r.Tells v (a :: rest) events result ↔
      ∃ later, events = (if r.isResolved a.name then [] else (a.fold r.options v).events) ++ later ∧
        match v.follow a.placed with
        | .error fault => later = [] ∧ result = .error fault
        | .ok u => r.Tells u rest later result := by
  constructor
  · intro told
    cases told with
    | held cached later =>
      refine ⟨events, by simp [resolvedIff.mpr ⟨_, cached⟩], ?_⟩
      rwa [known _ cached]
    | folded absent here later =>
      have folded := congrArg Logged.value (patchesTold here)
      refine ⟨_, ?_, by rwa [followFolded folded]⟩
      simp [missIff.mpr absent, entryFolds folded, patchesTold here]
    | failed absent here =>
      have failed := congrArg Logged.value (patchesTold here)
      refine ⟨[], ?_, by simp [followFailed failed]⟩
      simp [missIff.mpr absent, entryFails failed, patchesTold here]
  · rintro ⟨later, rfl, told⟩
    cases cached : r.cache[a.name]? with
    | some handle =>
      rw [known handle cached] at told
      simpa [resolvedIff.mpr ⟨handle, cached⟩] using Tells.held cached told
    | none =>
      have patches := patchesTell r.options a.name a.patches v
      cases folded : (foldPatches r.options a.name a.patches v).value with
      | error fault =>
        rw [followFailed folded] at told
        obtain ⟨rfl, rfl⟩ := told
        rw [folded] at patches
        simpa [missIff.mpr cached, entryFails folded] using Tells.failed cached patches
      | ok last =>
        rw [followFolded folded] at told
        rw [folded] at patches
        simpa [missIff.mpr cached, entryFolds folded] using Tells.folded cached patches told

theorem tellsIff (sound : r.Sound) (member : e ∈ r.catalog.entries) (line : r.catalog.Lineage e upper)
    (whole : upper ++ [e] = above ++ row) (inherited : Vocabulary.followRow ∅ above = .ok v) :
    r.Tells v row events result ↔ events = r.journal v row ∧ result = v.followRow row := by
  -- down the row; a dialect at hand hands on what the dialects down to it fold to, as if it had been folded now
  induction row generalizing above v events with
  | nil =>
    constructor
    · rintro ⟨⟩
      exact ⟨rfl, rfl⟩
    · rintro ⟨rfl, rfl⟩
      exact .done
  | cons a rest ih =>
    have inside := rowRegistered line member a (whole ▸ by simp)
    have before := lineageWithin line whole
    rw [tellsCons fun handle => heldFollow sound inside before inherited, journal, Vocabulary.followRowCons]
    cases followed : v.follow a.placed with
    | error fault => simp [Except.bind]
    | ok u =>
      have folded := (Vocabulary.followRowSnoc inherited).trans followed
      have below : upper ++ [e] = (above ++ [a]) ++ rest := by simpa using whole
      simp [ih below folded, Except.bind]

theorem journalFolded (r : Resolver) (v : Vocabulary) (row : List Entry) :
    (r.journal v row).filterMap Event.folded? =
      ((v.foldable row).map Entry.name).filter fun name => !r.isResolved name := by
  induction row generalizing v with
  | nil => rfl
  | cons e rest ih =>
    have here := foldTells r.options e v
    rw [journal, List.filterMap_append, Vocabulary.foldable]
    cases followed : v.follow e.placed with
    | error fault =>
      rw [followed] at here
      by_cases held : r.isResolved e.name <;> simp [held, here]
    | ok u =>
      rw [followed] at here
      by_cases held : r.isResolved e.name <;> simp [held, here, ih]

def newly (r next : Resolver) (name : String) : Bool := next.isResolved name && !r.isResolved name

theorem newlyIff (grown : r.Grows next ((v.foldable row).map Entry.name)) :
    r.newly next name ↔ name ∈ (v.foldable row).map Entry.name ∧ r.isResolved name = false := by
  rw [newly, Bool.and_eq_true, Bool.not_eq_true', grown.gains]
  refine and_congr_left fun absent => ?_
  simp [absent]

theorem journalNewly (grown : r.Grows next ((v.foldable row).map Entry.name)) (distinct : (row.map Entry.name).Nodup) :
    (r.journal v row).filterMap Event.folded? = (row.map Entry.name).filter (r.newly next) := by
  obtain ⟨below, whole⟩ := v.foldableHead row
  have parts : row.map Entry.name = (v.foldable row).map Entry.name ++ below.map Entry.name := by
    rw [← List.map_append, ← whole]
  rw [parts] at distinct ⊢
  have apart := (List.nodup_append.mp distinct).2.2
  have beyond : ∀ name ∈ below.map Entry.name, ¬ r.newly next name := by
    intro name inside new
    exact apart name ((newlyIff grown).mp new).1 name inside rfl
  rw [journalFolded, List.filter_append, List.filter_eq_nil_iff.mpr beyond, List.append_nil]
  refine List.filter_congr fun name inside => ?_
  rw [Bool.eq_iff_iff, newlyIff grown, Bool.not_eq_true']
  exact (and_iff_right inside).symm

theorem resolveTurn (found : r.catalog.find? name = some e) :
    r.resolve name = ⟨(r.resolveEntry e).value, .resolveOpened name :: (r.resolveEntry e).events⟩ :=
  askTurn (q := .name name) found

theorem resolveSilent (sound : r.Sound) (rootless : ∀ e, r.catalog.find? name = some e → ¬ r.catalog.Rooted e) :
    (r.resolve name).events = [.resolveOpened name] ∧ (r.resolve name).value.1 = r := by
  cases found : r.catalog.find? name with
  | none =>
    have unknown : r.resolve name = _ := askUnknown (q := .name name) found
    rw [unknown]
    exact ⟨rfl, rfl⟩
  | some e =>
    obtain ⟨member, rfl⟩ := findMember found
    have outside := rootless e found
    have absent : r.cache[e.name]? = none := by
      cases cached : r.cache[e.name]? with
      | none => rfl
      | some handle =>
        obtain ⟨_, _, line, _⟩ := meaningOk member (soundMeant sound member cached)
        exact absurd (lineageRooted line) outside
    rw [resolveTurn found]
    cases answered : r.catalog.ancestors e with
    | ok above => exact absurd ((ancestorsRooted member).mp ⟨above, answered⟩) outside
    | error fault =>
      rw [resolveEntryUnrooted absent answered]
      exact ⟨rfl, rfl⟩

theorem resolveHit (sound : r.Sound) (held : r.isResolved name) :
    (r.resolve name).events = [.resolveOpened name, .cacheHit name] ∧ (r.resolve name).value.1 = r := by
  obtain ⟨handle, cached⟩ := resolvedIff.mp held
  obtain ⟨e, found, meant⟩ := sound.meant name handle cached
  obtain ⟨member, rfl⟩ := findMember found
  obtain ⟨_, _, _, _, frozen, _⟩ := meaningOk member meant
  have named : handle.lexicon.dialect = e.name := by rw [frozen, Lexicon.freeze]
  rw [resolveTurn found, resolveEntryHit cached, named]
  exact ⟨rfl, rfl⟩

theorem resolveRow (sound : r.Sound) (found : r.catalog.find? name = some e) (line : r.catalog.Lineage e above)
    (absent : r.isResolved name = false) :
    let turn := r.resolve name
    let row := above ++ [e]
    turn.events = .resolveOpened name :: r.journal ∅ row ∧
    (∀ events result, r.Tells ∅ row events result ↔
      events = r.journal ∅ row ∧ result = turn.value.2.map (·.lexicon.vocabulary)) ∧
    (r.journal ∅ row).filterMap Event.folded? = (row.map Entry.name).filter (r.newly turn.value.1) ∧
    ∀ n, r.newly turn.value.1 n → n ∈ row.map Entry.name := by
  intro turn row
  obtain ⟨member, rfl⟩ := findMember found
  obtain ⟨sound', grown, answered⟩ := resolveEntryServes sound member
  rw [footprintRow member line] at grown
  rw [meaningRow member line] at answered
  have opened : turn = ⟨(r.resolveEntry e).value, .resolveOpened e.name :: (r.resolveEntry e).events⟩ := resolveTurn found
  have value : turn.value = (r.resolveEntry e).value := by rw [opened]
  have folded : Vocabulary.followRow ∅ row = turn.value.2.map (·.lexicon.vocabulary) := by
    rw [value]
    cases handed : (r.resolveEntry e).value.2 with
    | error fault =>
      rw [handed] at answered
      exact errorOfMap answered.symm
    | ok handle =>
      rw [handed] at answered
      obtain ⟨v, followed, frozen⟩ := okOfMap answered.symm
      rw [followed, Except.map, ← frozen, Lexicon.freeze]
  refine ⟨?_, fun events result => ?_, ?_, fun n new => ?_⟩
  · rw [opened, resolveEntryJournal sound member (missIff.mp absent) line]
  · rw [← folded]
    exact tellsIff sound member line (List.nil_append _).symm rfl
  · rw [value]
    exact journalNewly grown (lineageNames line member)
  · rw [value] at new
    obtain ⟨x, kept, rfl⟩ := List.mem_map.mp ((newlyIff grown).mp new).1
    exact List.mem_map_of_mem (Vocabulary.foldableMember kept)

theorem resolveTells (draft : Draft) (calls : List Call) (name : String) :
    let r := draft.finish.value.after calls
    let turn := r.resolve name
    let next := turn.value.1
    ((∀ e, r.catalog.find? name = some e →
        (∃ y p, r.catalog.Broken e y p) ∨ ∃ d, r.catalog.Reaches e d ∧ r.catalog.Loops d) →
      turn.events = [.resolveOpened name] ∧ next = r) ∧
    (r.isResolved name → turn.events = [.resolveOpened name, .cacheHit name] ∧ next = r) ∧
    ∀ e, r.catalog.find? name = some e → (∀ y p, ¬ r.catalog.Broken e y p) →
      (∀ d, r.catalog.Reaches e d → ¬ r.catalog.Loops d) → r.isResolved name = false →
      ∃ above told, r.catalog.Lineage e above ∧ turn.events = .resolveOpened name :: told ∧
        (∀ events result, r.Tells ∅ (above ++ [e]) events result ↔
          events = told ∧ result = turn.value.2.map (·.lexicon.vocabulary)) ∧
        told.filterMap Event.folded? = ((above ++ [e]).map Entry.name).filter (r.newly next) ∧
        ∀ n, r.newly next n → n ∈ (above ++ [e]).map Entry.name := by
  intro r turn next
  have sound : r.Sound := (afterSound (finishSound draft).1 calls).1
  refine ⟨fun lost => resolveSilent sound fun e found => ?_, resolveHit sound, fun e found whole acyclic absent => ?_⟩
  · exact (rootlessIff (findMember found).1).mpr (lost e found)
  · have member := (findMember found).1
    have rooted : r.catalog.Rooted e := by
      by_contra rootless
      rcases (rootlessIff member).mp rootless with ⟨y, p, gap⟩ | ⟨d, way, loop⟩
      · exact whole y p gap
      · exact acyclic d way loop
    obtain ⟨above, answered⟩ := okOfRooted member rooted
    have line := lineageOfOk member answered
    exact ⟨above, _, line, resolveRow sound found line absent⟩

def thread : Draft where
  catalog := ⟨[⟨"root", none, [Patch.toWords ⟨"base", [], [], ⟨[], ["top"], []⟩⟩]⟩,
    ⟨"middle", some "root", [Patch.toWords ⟨"promote", [], [("top", .reserved)], ∅⟩]⟩,
    ⟨"leaf", some "middle", [Patch.toWords ⟨"retire", ["ghost"], [("ghost", .reserved)], ∅⟩]⟩], by decide⟩

theorem resolveTellsThread :
    let r := thread.finish.value.after [.ask (.name "root")]
    (r.resolve "root").events = [.resolveOpened "root", .cacheHit "root"] ∧
    (r.resolve "stray").events = [.resolveOpened "stray"] ∧
    ∃ told, (r.resolve "leaf").events = .resolveOpened "leaf" :: told ∧ told.filterMap Event.folded? = ["middle"] ∧
      r.Tells ∅ thread.catalog.entries told (.error (.unknownWord "leaf" "retire" .redesignate "GHOST")) := by
  intro r
  have same : r.catalog = thread.catalog := (afterSound (finishSound thread).1 _).2.trans (finishSound thread).2
  have upper : thread.catalog.Lineage thread.catalog.entries[1] ([] ++ [thread.catalog.entries[0]]) :=
    .child ⟨"root", rfl, rfl⟩ (.root rfl)
  have line : r.catalog.Lineage thread.catalog.entries[2] ([thread.catalog.entries[0]] ++ [thread.catalog.entries[1]]) := by
    rw [same]
    exact .child ⟨"middle", rfl, rfl⟩ upper
  have found : r.catalog.find? "leaf" = some thread.catalog.entries[2] := by rw [same]; rfl
  have unknown : r.catalog.find? "stray" = none := by rw [same]; rfl
  have rooted := mt (rootlessIff (findMember found).1).mpr (not_not_intro (lineageRooted line))
  obtain ⟨_, _, leaf⟩ := resolveTells thread [.ask (.name "root")] "leaf"
  obtain ⟨above, told, line', opened, tells, done, _⟩ := leaf _ found (fun y p gap => rooted (.inl ⟨y, p, gap⟩))
    (fun d way loop => rooted (.inr ⟨d, way, loop⟩)) (by decide +kernel)
  cases lineageUnique line line'
  have failed : (r.resolve "leaf").value.2.map Handle.serial =
      .error (.unknownWord "leaf" "retire" .redesignate "GHOST") := by decide +kernel
  refine ⟨((resolveTells thread _ "root").2.1 (by decide +kernel)).1, ?_, told, opened, ?_, (tells _ _).mpr ⟨rfl, ?_⟩⟩
  · refine ((resolveTells thread _ "stray").1 fun e stray => ?_).1
    exact absurd (unknown.symm.trans stray) (Option.some_ne_none e).symm
  · rw [done]
    decide +kernel
  · rw [errorOfMap failed]
    rfl

end Resolver

end SqlLexicon
