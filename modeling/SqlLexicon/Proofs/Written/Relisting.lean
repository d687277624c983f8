import SqlLexicon.Proofs.Written.Honoured

/-! Other listings of the same words. What a patch comes to depends on the words of its lists and on the last redesignation
of each word, so the order of the lists, repeats in them and the case of their spellings show nowhere. The same holds of the
tables of a root. -/
namespace SqlLexicon

namespace Tables

def Relists (tables tables' : Tables String) : Prop :=
  ∀ c word, word ∈ (tables.get c).map normalForm ↔ word ∈ (tables'.get c).map normalForm

end Tables

inductive Together {α : Type} (related : α → α → Prop) (kind : Fault → Prop) : Except Fault α → Except Fault α → Prop where
  | done {a a' : α} (same : related a a') : Together related kind (.ok a) (.ok a')
  | failed {fault fault' : Fault} (here : kind fault) (there : kind fault') :
      Together related kind (.error fault) (.error fault')

theorem togetherDone {α : Type} {related : α → α → Prop} {kind : Fault → Prop} {a : α} {x : Except Fault α}
    (together : Together related kind (.ok a) x) : ∃ a', x = .ok a' ∧ related a a' := by
  cases together with
  | done same => exact ⟨_, rfl, same⟩

theorem togetherFailed {α : Type} {related : α → α → Prop} {kind : Fault → Prop} {fault : Fault} {x : Except Fault α}
    (together : Together related kind (.error fault) x) : ∃ fault', x = .error fault' ∧ kind fault' := by
  cases together with
  | failed _ there => exact ⟨_, rfl, there⟩

namespace Fault

def Ambiguity (fault : Fault) : Prop :=
  ∃ dialect patch word first second, fault = .ambiguousPatch dialect patch word first second

def Stuck (fault : Fault) : Prop := ∃ dialect patch word, fault = .unknownWord dialect patch .redesignate word

end Fault

namespace Patch

def lastMoved? (p : Patch String) (word : String) : Option Category :=
  (p.redesignate.reverse.find? (normalForm ·.1 == word)).map Prod.snd

structure Relists (p p' : Patch String) : Prop where
  listed : ∀ step word, word ∈ (p.listed step).map normalForm ↔ word ∈ (p'.listed step).map normalForm
  moved : ∀ word, p.lastMoved? word = p'.lastMoved? word

/- All that folding reads of a patch, whatever its lists are as lists. -/
structure Agrees (q q' : Patch Word) : Prop where
  removes : ∀ w, w ∈ q.remove ↔ w ∈ q'.remove
  moves : ∀ w, q.moved? w = q'.moved? w
  adds : ∀ c w, w ∈ q.additions.get c ↔ w ∈ q'.additions.get c

def FoldsAlike (q q' : Patch Word) : Prop :=
  ∀ (options options' : Options) (dialect dialect' : String) (v : Vocabulary),
    Together (fun r r' => r.1 = r'.1) Fault.Stuck (q.fold options dialect v).value (q'.fold options' dialect' v).value

variable {p p' : Patch String} {q q' : Patch Word} {v : Vocabulary} {dialect dialect' : String}

theorem lastMovedNone {word : String} : p.lastMoved? word = none ↔ word ∉ (p.listed .redesignate).map normalForm := by
  simp [lastMoved?, listed, List.find?_eq_none]

theorem relistsIff : p.Relists p' ↔
    (∀ step ∈ Step.all, (∀ word ∈ (p.listed step).map normalForm, word ∈ (p'.listed step).map normalForm) ∧
      ∀ word ∈ (p'.listed step).map normalForm, word ∈ (p.listed step).map normalForm) ∧
    ∀ word ∈ (p.listed .redesignate).map normalForm, p.lastMoved? word = p'.lastMoved? word := by
  constructor
  · intro relists
    exact ⟨fun step _ => ⟨fun word => (relists.listed step word).mp, fun word => (relists.listed step word).mpr⟩,
      fun word _ => relists.moved word⟩
  · intro checked
    obtain ⟨lists, moves⟩ := checked
    have listed (step : Step) (word : String) :
        word ∈ (p.listed step).map normalForm ↔ word ∈ (p'.listed step).map normalForm := by
      have every : step ∈ Step.all := by rcases step with _ | _ | _ | _ | _ <;> decide
      exact ⟨(lists step every).1 word, (lists step every).2 word⟩
    refine ⟨listed, fun word => ?_⟩
    by_cases named : word ∈ (p.listed .redesignate).map normalForm
    · exact moves word named
    · rw [lastMovedNone.mpr named, lastMovedNone.mpr fun named' => named ((listed .redesignate word).mpr named')]

instance : Decidable (p.Relists p') := decidable_of_iff _ relistsIff.symm

theorem movableMoved : (∀ m ∈ q.redesignate, q.Movable v m) ↔ ∀ w, q.moved? w ≠ none → w ∈ v ∧ w ∉ q.remove := by
  constructor
  · intro movable w moved
    obtain ⟨m, inside, rfl⟩ : ∃ m ∈ q.redesignate, m.1 = w := by simpa [movedNone] using moved
    exact movable m inside
  · intro movable m inside
    exact movable m.1 fun none => movedNone.mp none m inside rfl

theorem movableAgrees (agrees : q.Agrees q') :
    (∀ m ∈ q.redesignate, q.Movable v m) ↔ ∀ m ∈ q'.redesignate, q'.Movable v m := by
  simp only [movableMoved, agrees.moves, agrees.removes]

theorem applyAgrees {r r' : Vocabulary × Totals} (agrees : q.Agrees q') (applied : q.apply v = .ok r)
    (applied' : q'.apply v = .ok r') : r.1 = r'.1 := by
  refine Std.ExtTreeMap.ext_getElem? fun {w} => ?_
  rw [appliedLookup applied, appliedLookup applied', Tables.listingAlike (agrees.adds · w), agrees.moves]
  simp only [agrees.removes]

theorem foldAgrees (agrees : q.Agrees q') : q.FoldsAlike q' := by
  intro options options' dialect dialect' v
  have both : (∃ r, (q.fold options dialect v).value = .ok r) ↔ ∃ r, (q'.fold options' dialect' v).value = .ok r :=
    foldSucceeds.trans ((movableAgrees agrees).trans foldSucceeds.symm)
  cases folded : (q.fold options dialect v).value with
  | ok r =>
    obtain ⟨r', folded'⟩ := both.mp ⟨r, folded⟩
    rw [folded']
    exact .done (applyAgrees agrees (foldApplied.mp folded) (foldApplied.mp folded'))
  | error fault =>
    cases folded' : (q'.fold options' dialect' v).value with
    | ok r' => simp [folded, folded'] at both
    | error fault' =>
      obtain ⟨_, _, stuck⟩ := foldStuck.mp folded
      obtain ⟨_, _, stuck'⟩ := foldStuck.mp folded'
      exact .failed ⟨_, _, _, stuck⟩ ⟨_, _, _, stuck'⟩

theorem foldsDone {options options' : Options} {u : Vocabulary} {totals : Totals} (alike : q.FoldsAlike q')
    (folded : (q.fold options dialect v).value = .ok (u, totals)) :
    ∃ totals', (q'.fold options' dialect' v).value = .ok (u, totals') := by
  have together := alike options options' dialect dialect' v
  rw [folded] at together
  obtain ⟨⟨_, totals'⟩, folded', rfl⟩ := togetherDone together
  exact ⟨totals', folded'⟩

theorem toWordsMoved (p : Patch String) (w : Word) : p.toWords.moved? w = p.lastMoved? w.text := by
  have named (m : String × Category) : Word.ofText? m.1 = some w ↔ normalForm m.1 = w.text := by
    rw [Word.ofTextIff, eq_comm]
  have read (m : String × Category) :
      ((Word.ofText? m.1).map (·, m.2)).any (·.1 == w) = (normalForm m.1 == w.text) := by
    rw [Bool.eq_iff_iff, beq_iff_eq, ← named]
    cases Word.ofText? m.1 <;> simp
  -- both searches go through the spellings from the last one back, and stop at the same entry
  rw [moved?, lastMoved?, toWords, ← List.filterMap_reverse, List.find?_filterMap]
  simp only [read]
  cases found : p.redesignate.reverse.find? (normalForm ·.1 == w.text) with
  | none => rfl
  | some m =>
    have here := List.find?_some found
    rw [beq_iff_eq, ← named] at here
    simp [here]

theorem toWordsAgrees (relists : p.Relists p') : p.toWords.Agrees p'.toWords where
  removes w := Word.memRead.trans ((relists.listed .remove w.text).trans Word.memRead.symm)
  moves w := by rw [toWordsMoved, toWordsMoved, relists.moved]
  adds c w := by
    rw [toWords, toWords, ByCategory.getMap, ByCategory.getMap, Word.memRead, Word.memRead]
    exact relists.listed (.add c) w.text

theorem spelledRelists (relists : p.Relists p') (spelled : p.Spelled) : p'.Spelled := by
  intro step text inside
  obtain ⟨s, listed, same⟩ := List.mem_map.mp ((relists.listed step _).mpr (List.mem_map_of_mem inside))
  rw [← shapedIff, ← shapedNormalForm, ← same, shapedNormalForm, shapedIff]
  exact spelled step s listed

theorem unambiguousRelists (relists : p.Relists p') : p.Unambiguous ↔ p'.Unambiguous := by
  simp only [Unambiguous, Shares, ← List.mem_map, relists.listed]

theorem acceptRelists (relists : p.Relists p') (spelled : p.Spelled) (dialect dialect' : String) :
    Together FoldsAlike Fault.Ambiguity (p.accept dialect) (p'.accept dialect') := by
  have well := spelledIff.mp spelled
  have well' := spelledIff.mp (spelledRelists relists spelled)
  -- which clash is found first may differ, but not whether there is one
  have clear : p.toWords.conflict? = none ↔ p'.toWords.conflict? = none := by
    rw [conflictNone well, conflictNone well', unambiguousRelists relists]
  rw [acceptSpells well, acceptSpells well']
  cases found : p.toWords.conflict? with
  | none =>
    rw [clear.mp found]
    exact .done (foldAgrees (toWordsAgrees relists))
  | some c =>
    cases found' : p'.toWords.conflict? with
    | none => simp [found, found'] at clear
    | some c' => exact .failed ⟨_, _, _, _, _, rfl⟩ ⟨_, _, _, _, _, rfl⟩

theorem tablesRelists {tables tables' : Tables String} :
    (ofTables tables).Relists (ofTables tables') ↔ tables.Relists tables' := by
  constructor
  · intro relists c
    exact relists.listed (.add c)
  · intro relists
    refine ⟨fun step word => ?_, fun _ => rfl⟩
    cases step with
    | add c => exact relists c word
    | remove => rfl
    | redesignate => rfl

theorem tablesFolded {tables tables' : Tables String} (relists : tables.Relists tables')
    (spelled : (ofTables tables).Spelled) (dialect dialect' : String) :
    ∃ q q', (ofTables tables).spell dialect = .ok q ∧ (ofTables tables').spell dialect' = .ok q' ∧
      ∀ (options options' : Options) (v : Vocabulary), ∃ u totals totals',
        (q.fold options dialect v).value = .ok (u, totals) ∧ (q'.fold options' dialect' v).value = .ok (u, totals') := by
  have patches := tablesRelists.mpr relists
  have well := spelledIff.mp spelled
  have well' := spelledIff.mp (spelledRelists patches spelled)
  refine ⟨_, _, by rw [spell, well], by rw [spell, well'], fun options options' v => ?_⟩
  have still : ∀ m ∈ (ofTables tables).toWords.redesignate, (ofTables tables).toWords.Movable v m := by
    simp [toWords, ofTables]
  obtain ⟨⟨u, totals⟩, folded⟩ := foldSucceeds.mpr still
  obtain ⟨totals', folded'⟩ := foldsDone (foldAgrees (toWordsAgrees patches)) folded
  exact ⟨u, totals, totals', folded, folded'⟩

/- No more is asked of the second patch or tables than to list the same words. That their spellings are in order follows. -/
theorem relistingUnseen :
    (∀ p p' : Patch String, p.Spelled → p.Relists p' → p'.Spelled ∧ ∀ dialect dialect',
      Together FoldsAlike Fault.Ambiguity (p.accept dialect) (p'.accept dialect')) ∧
    ∀ tables tables' : Tables String, (ofTables tables).Spelled → tables.Relists tables' →
      (ofTables tables').Spelled ∧ ∀ dialect dialect', ∃ q q',
        (ofTables tables).spell dialect = .ok q ∧ (ofTables tables').spell dialect' = .ok q' ∧
        ∀ (options options' : Options) (v : Vocabulary), ∃ u totals totals',
          (q.fold options dialect v).value = .ok (u, totals) ∧ (q'.fold options' dialect' v).value = .ok (u, totals') := by
  refine ⟨fun p p' spelled relists => ?_, fun tables tables' spelled relists => ?_⟩
  · exact ⟨spelledRelists relists spelled, acceptRelists relists spelled⟩
  · exact ⟨spelledRelists (tablesRelists.mpr relists) spelled, tablesFolded relists spelled⟩

def reshuffle : Patch String :=
  { name := "reshuffle", remove := ["LABEL"],
    redesignate := [("GOTO", .futureReserved), ("ARRAY", .unreserved), ("Goto", .unreserved)],
    additions := ⟨["Goto", "GOTO", "goto"], ["label"], ["Top"]⟩ }

theorem relistingUnseenReshuffle :
    let v := Vocabulary.ofEntries [(label, .reserved), (array, .futureReserved), (goto, .unreserved)]
    (∃ q', reshuffle.accept "e" = .ok q' ∧ (∃ u totals totals', (overlap.toWords.fold {} "d" v).value = .ok (u, totals) ∧
      (q'.fold {} "e" v).value = .ok (u, totals')) ∧ ∃ fault, (q'.fold {} "e" ∅).value = .error fault ∧ fault.Stuck) ∧
    ∃ q q', (ofTables ⟨["goto"], ["Top", "goto"], []⟩).spell "d" = .ok q ∧
      (ofTables ⟨["Goto", "GOTO"], ["GOTO", "TOP"], []⟩).spell "e" = .ok q' ∧
      ∃ u totals totals', (q.fold {} "d" v).value = .ok (u, totals) ∧ (q'.fold {} "e" v).value = .ok (u, totals') := by
  intro v
  obtain ⟨patches, bases⟩ := relistingUnseen
  have spelled : overlap.Spelled := spelledIff.mpr (by decide +kernel)
  have accepted : overlap.accept "d" = .ok overlap.toWords := by decide +kernel
  have together := (patches overlap reshuffle spelled (by decide +kernel)).2 "d" "e"
  rw [accepted] at together
  obtain ⟨q', accepted', folds⟩ := togetherDone together
  refine ⟨⟨q', accepted', ?_, ?_⟩, ?_⟩
  · have movable : ∀ m ∈ overlap.toWords.redesignate, overlap.toWords.Movable v m := by decide +kernel
    obtain ⟨⟨u, totals⟩, folded⟩ := foldSucceeds.mpr movable
    obtain ⟨totals', folded'⟩ := foldsDone folds folded
    exact ⟨u, totals, totals', folded, folded'⟩
  · have stuck : (overlap.toWords.fold {} "d" ∅).value = .error (.unknownWord "d" "overlap" .redesignate "ARRAY") := by
      decide +kernel
    have both := folds {} {} "d" "e" ∅
    rw [stuck] at both
    exact togetherFailed both
  · have relists : Tables.Relists ⟨["goto"], ["Top", "goto"], []⟩ ⟨["Goto", "GOTO"], ["GOTO", "TOP"], []⟩ :=
      tablesRelists.mp (by decide +kernel)
    obtain ⟨q, q', read, read', folded⟩ := (bases _ _ (spelledIff.mpr (by decide +kernel)) relists).2 "d" "e"
    exact ⟨q, q', read, read', folded {} {} v⟩

end Patch

end SqlLexicon
