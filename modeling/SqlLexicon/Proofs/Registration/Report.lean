import SqlLexicon.Proofs.Registration.Ambiguity
import Mathlib.Data.List.Nodup

/-! The report on an ambiguous patch, read off its lists. They are scanned one after the other, and the first word that a
list scanned before has as well is reported, if the two lists may not share it. -/
namespace SqlLexicon

theorem findFirsts {α : Type} [BEq α] [LawfulBEq α] (q : α → Bool) (xs : List α) : xs.eraseDups.find? q = xs.find? q := by
  cases xs with
  | nil => rfl
  | cons a rest =>
    rw [List.eraseDups_cons, List.find?_cons, List.find?_cons, findFirsts q (rest.filter _), List.find?_filter]
    cases met : q a with
    | true => rfl
    | false =>
      refine congrArg (List.find? · rest) (funext fun b => ?_)
      by_cases same : b = a <;> simp [same, met]
termination_by xs.length
decreasing_by exact Nat.lt_succ_of_le (List.length_filter_le _ _)

namespace Step

def scanOrder : List Step := [.add .futureReserved, .add .reserved, .add .unreserved, .remove]

def rivals (second : Step) : List Step :=
  (scanOrder.takeWhile (· ≠ second)).filter fun first => first.reserving || second.reserving

theorem rivalReserves (second : Step) : ∀ first ∈ second.rivals, first ∈ scanOrder ∧ first.reserving = true := by
  rcases second with _ | _ | _ | _ | _ <;> decide

theorem rivalConflicts : ∀ second ∈ scanOrder, ∀ first ∈ second.rivals, first.conflicts second = true := by decide

theorem rivalsClash : ∀ second ∈ scanOrder, ∀ first ∈ second.rivals, ∀ other ∈ second.rivals,
    first ≠ other → first.conflicts other = true := by
  decide

def InOrder (a b : Step) : Prop := b ∉ a.rivals ∧ (a.conflicts b = true → a ∈ b.rivals)

instance (a b : Step) : Decidable (a.InOrder b) := by unfold InOrder; infer_instance

theorem orderSelf : ∀ a ∈ scanOrder, a.InOrder a := by decide

theorem rivalsNodup : ∀ second ∈ scanOrder, second.rivals.Nodup := by decide

theorem orderScanned : scanOrder.Pairwise InOrder := by decide

end Step

namespace Patch

def scan (p : Patch String) : List (Step × String) :=
  Step.scanOrder.flatMap fun step => (p.listed step).map fun spelling => (step, normalForm spelling)

def rivals (p : Patch String) (e : Step × String) : List Step :=
  e.1.rivals.filter fun first => e.2 ∈ (p.listed first).map normalForm

def clash? (p : Patch String) : Option (Step × String) := p.scan.find? fun e => p.rivals e ≠ []

def Spelled (p : Patch String) : Prop :=
  ∀ step, ∀ text ∈ p.listed step, text ≠ "" ∧ ∀ ch ∈ text.toList, Text.isBlank ch = false

/- What of a list a report can depend on: the words in the order in which each is listed first, and of the removals only
those of words that are not added as unreserved. -/
def gist (p : Patch String) (step : Step) : List String :=
  let words := ((p.listed step).map normalForm).eraseDups
  if step = .remove then words.filter (· ∉ (p.listed (.add .unreserved)).map normalForm) else words

variable {p p' : Patch String} {e : Step × String} {step first second : Step} {before after : List (Step × String)}
  {word dialect : String}

theorem memScan : (step, word) ∈ p.scan ↔ step ∈ Step.scanOrder ∧ word ∈ (p.listed step).map normalForm := by
  simp only [scan, List.mem_flatMap, List.mem_map, Prod.mk.injEq]
  constructor
  · intro inside
    obtain ⟨_, scanned, s, listed, rfl, rfl⟩ := inside
    exact ⟨scanned, s, listed, rfl⟩
  · intro inside
    obtain ⟨scanned, s, listed, rfl⟩ := inside
    exact ⟨step, scanned, s, listed, rfl, rfl⟩

theorem scanPairwise (p : Patch String) : p.scan.Pairwise fun d e => d.1.InOrder e.1 := by
  refine List.pairwise_flatMap.mpr ⟨fun step scanned => ?_, Step.orderScanned.imp fun order d left e right => ?_⟩
  · exact List.pairwise_map.mpr (List.pairwise_of_forall fun _ _ => Step.orderSelf step scanned)
  · obtain ⟨_, _, rfl⟩ := List.mem_map.mp left
    obtain ⟨_, _, rfl⟩ := List.mem_map.mp right
    exact order

theorem rivalBefore (whole : p.scan = before ++ e :: after) :
    first ∈ p.rivals e ↔ (first, e.2) ∈ before ∧ first.conflicts e.1 = true := by
  have ordered := whole ▸ p.scanPairwise
  obtain ⟨_, later, earlier⟩ := List.pairwise_append.mp ordered
  have here : e ∈ p.scan := whole ▸ List.mem_append_right _ List.mem_cons_self
  have scanned := (memScan.mp here).1
  simp only [rivals, List.mem_filter, decide_eq_true_eq]
  constructor
  · intro rival
    obtain ⟨rival, listed⟩ := rival
    have inside := (Step.rivalReserves e.1 first rival).1
    have found : (first, e.2) ∈ before ++ e :: after := whole ▸ memScan.mpr ⟨inside, listed⟩
    refine ⟨?_, Step.rivalConflicts e.1 scanned first rival⟩
    rcases List.mem_append.mp found with old | new
    · exact old
    · rcases List.mem_cons.mp new with same | beyond
      · exact absurd (same ▸ rival) (Step.orderSelf e.1 scanned).1
      · exact absurd rival ((List.pairwise_cons.mp later).1 _ beyond).1
  · intro held
    obtain ⟨old, conflicts⟩ := held
    have listed : (first, e.2) ∈ p.scan := whole ▸ List.mem_append_left _ old
    exact ⟨(earlier _ old e List.mem_cons_self).2 conflicts, (memScan.mp listed).2⟩

theorem spelledIff : p.Spelled ↔ p.misspelling? = none := by
  constructor
  · intro spelled
    refine List.find?_eq_none.mpr fun e inside => ?_
    simpa using shapedIff.mpr (spelled e.1 e.2 (listedStep.mp inside))
  · intro well step text inside
    exact shapedIff.mp (shapedStep well (listedStep.mpr inside))

theorem scannedWords (well : p.misspelling? = none) : p.toWords.scanned.map (fun e => (e.1, e.2.text)) = p.scan := by
  have read (step : Step) : ((p.listed step).filterMap Word.ofText?).map (fun w => (step, w.text)) =
      (p.listed step).map fun spelling => (step, normalForm spelling) := by
    simpa [Function.comp_def] using congrArg (List.map (step, ·)) (textsRead well step)
  have removals := read .remove
  have additions (c : Category) := read (.add c)
  simp only [listed] at removals additions
  simp [scanned, addSteps, Tables.entries, Tables.foldOrder, toWords, scan, Step.scanOrder, listed, Function.comp_def,
    removals, additions]

theorem clearApart {clear : List (Step × Word)} (free : firstConflict [] clear = none)
    (left : (first, word) ∈ clear.map fun e => (e.1, e.2.text))
    (right : (second, word) ∈ clear.map fun e => (e.1, e.2.text)) : first.conflicts second = false := by
  obtain ⟨d, inside, same⟩ := List.mem_map.mp left
  obtain ⟨d', inside', same'⟩ := List.mem_map.mp right
  obtain ⟨rfl, text⟩ := Prod.mk.inj same
  obtain ⟨rfl, text'⟩ := Prod.mk.inj same'
  rw [← Bool.not_eq_true, Step.conflictsIff]
  intro exclusive
  exact firstConflictFree.mp free d inside d' inside' ⟨Word.textInj.mp (text.trans text'.symm), exclusive⟩

theorem noRivals {clear : List (Step × Word)} (free : firstConflict [] clear = none)
    (whole : p.scan = clear.map (fun e => (e.1, e.2.text)) ++ after) :
    ∀ e ∈ clear.map (fun e => (e.1, e.2.text)), p.rivals e = [] := by
  intro e inside
  obtain ⟨left, right, parts⟩ := List.append_of_mem inside
  refine List.eq_nil_iff_forall_not_mem.mpr fun first rival => ?_
  rw [parts, List.append_assoc, List.cons_append] at whole
  obtain ⟨old, conflicts⟩ := (rivalBefore whole).mp rival
  have apart := clearApart free (parts ▸ List.mem_append_left _ old) inside
  exact Bool.false_ne_true (apart.symm.trans conflicts)

theorem conflictReported (well : p.misspelling? = none) :
    match p.toWords.conflict? with
    | some c => p.clash? = some (c.second, c.word.text) ∧ p.rivals (c.second, c.word.text) = [c.first]
    | none => p.clash? = none := by
  have texts := scannedWords well
  rw [conflict?, ← scanned]
  cases found : firstConflict [] p.toWords.scanned with
  | none =>
    have whole : p.scan = p.toWords.scanned.map (fun e => (e.1, e.2.text)) ++ [] := by rw [texts, List.append_nil]
    refine List.find?_eq_none.mpr fun e inside => ?_
    simpa using noRivals found whole e (texts ▸ inside)
  | some c =>
    obtain ⟨before, after, parts, free, met⟩ := firstConflictSome found
    obtain ⟨earlier, clash⟩ := metSome (e := (c.second, c.word)) met
    have whole := texts.symm
    rw [parts, List.map_append, List.map_cons] at whole
    have inside : (c.first, c.word.text) ∈ before.map fun e => (e.1, e.2.text) := List.mem_map.mpr ⟨_, earlier, rfl⟩
    have rival : c.first ∈ p.rivals (c.second, c.word.text) :=
      (rivalBefore whole).mpr ⟨inside, Step.conflictsIff.mpr clash.2⟩
    have here : (c.second, c.word.text) ∈ p.scan := whole ▸ List.mem_append_right _ List.mem_cons_self
    have scanned := (memScan.mp here).1
    constructor
    · refine List.find?_eq_some_iff_append.mpr ⟨?_, _, _, whole, fun e old => ?_⟩
      · simpa using List.ne_nil_of_mem rival
      · simpa using noRivals free whole e old
    · -- of two rivals the later would have been reported itself
      have distinct : (p.rivals (c.second, c.word.text)).Nodup := (Step.rivalsNodup _ scanned).filter _
      refine List.perm_singleton.mp ((List.perm_ext_iff_of_nodup distinct (List.nodup_singleton _)).mpr fun other => ?_)
      rw [List.mem_singleton]
      refine ⟨fun also => Classical.byContradiction fun different => ?_, fun same => same ▸ rival⟩
      have apart := clearApart free ((rivalBefore whole).mp also).1 inside
      have clashing := Step.rivalsClash _ scanned other (List.mem_filter.mp also).1 c.first (List.mem_filter.mp rival).1
      exact Bool.false_ne_true (apart.symm.trans (clashing different))

theorem acceptSpells (well : p.misspelling? = none) (dialect : String) : p.accept dialect =
    match p.toWords.conflict? with
    | some c => .error (.ambiguousPatch dialect p.name c.word.text c.first c.second)
    | none => .ok p.toWords := by
  rw [accept, spell, well]
  rfl

theorem acceptReports (well : p.misspelling? = none) (dialect : String) (fault : Fault) :
    p.accept dialect = .error fault ↔ ∃ word first second, p.clash? = some (second, word) ∧
      p.rivals (second, word) = [first] ∧ fault = .ambiguousPatch dialect p.name word first second := by
  have reported := conflictReported well
  rw [acceptSpells well]
  cases found : p.toWords.conflict? with
  | none =>
    simp only [found] at reported
    simp [reported]
  | some c =>
    simp only [found] at reported
    obtain ⟨clash, rival⟩ := reported
    constructor
    · intro failed
      exact ⟨_, _, _, clash, rival, (Except.error.inj failed).symm⟩
    · intro report
      obtain ⟨word, first, second, clash', rival', rfl⟩ := report
      obtain ⟨rfl, rfl⟩ := Prod.mk.inj (Option.some.inj (clash.symm.trans clash'))
      cases List.singleton_inj.mp (rival.symm.trans rival')
      rfl

theorem gistAdded (c : Category) : p.gist (.add c) = ((p.listed (.add c)).map normalForm).eraseDups := rfl

theorem rivalsGist (same : ∀ step ∈ Step.scanOrder, p'.gist step = p.gist step) : p'.rivals = p.rivals := by
  funext e
  refine List.filter_congr fun first rival => ?_
  obtain ⟨scanned, adds⟩ := Step.rivalReserves e.1 first rival
  cases first with
  | remove => contradiction
  | redesignate => contradiction
  | add c =>
    have words := same (.add c) scanned
    rw [gistAdded, gistAdded] at words
    rw [decide_eq_decide, ← List.mem_eraseDups, words, List.mem_eraseDups]

theorem clashGist (p : Patch String) : p.clash? =
    (Step.scanOrder.flatMap fun step => (p.gist step).map (step, ·)).find? fun e => p.rivals e ≠ [] := by
  have firsts (step : Step) : ((p.listed step).map fun spelling => (step, normalForm spelling)).find?
      (fun e => p.rivals e ≠ []) =
        (((p.listed step).map normalForm).eraseDups.map (step, ·)).find? fun e => p.rivals e ≠ [] := by
    rw [List.find?_map, List.find?_map, findFirsts, List.find?_map, Option.map_map]
    rfl
  have same (w : String) : p.rivals (.remove, w) = p.rivals (.add .unreserved, w) := rfl
  have removed (free : (((p.listed (.add .unreserved)).map normalForm).eraseDups.map (Step.add .unreserved, ·)).find?
      (fun e => p.rivals e ≠ []) = none) :
      (((p.listed .remove).map normalForm).eraseDups.map (Step.remove, ·)).find? (fun e => p.rivals e ≠ []) =
        ((p.gist .remove).map (Step.remove, ·)).find? fun e => p.rivals e ≠ [] := by
    have none : ∀ w ∈ (p.listed (.add .unreserved)).map normalForm, p.rivals (.add .unreserved, w) = [] := by
      intro w inside
      simpa using List.find?_eq_none.mp free (.add .unreserved, w) (List.mem_map_of_mem (List.mem_eraseDups.mpr inside))
    rw [gist, if_pos rfl, List.find?_map, List.find?_map, List.find?_filter]
    refine congrArg (Option.map _) (congrArg (List.find? · _) (funext fun w => ?_))
    by_cases added : w ∈ (p.listed (.add .unreserved)).map normalForm
    · simp [same, none w added]
    · simp [added]
  simp only [clash?, scan, Step.scanOrder, List.flatMap_cons, List.flatMap_nil, List.append_nil, List.find?_append, firsts,
    gistAdded]
  cases free : (((p.listed (.add .unreserved)).map normalForm).eraseDups.map (Step.add .unreserved, ·)).find?
    (fun e => p.rivals e ≠ []) with
  | some e => simp
  | none => rw [removed free]

theorem ambiguityReported {p : Patch String} (spelled : p.Spelled) (dialect : String) :
    ((∃ fault, p.accept dialect = .error fault) ↔ ∃ e ∈ p.scan, ∃ first, first ∈ p.rivals e) ∧
    (∀ fault, p.accept dialect = .error fault ↔ ∃ word first second,
      p.clash? = some (second, word) ∧ p.rivals (second, word) = [first] ∧
      fault = .ambiguousPatch dialect p.name word first second) ∧
    ∀ p' : Patch String, p'.Spelled → p'.name = p.name → (∀ step ∈ Step.scanOrder, p'.gist step = p.gist step) →
      ∀ fault, p'.accept dialect = .error fault ↔ p.accept dialect = .error fault := by
  have well := spelledIff.mp spelled
  refine ⟨?_, acceptReports well dialect, fun p' spelled' named same fault => ?_⟩
  · have reported := conflictReported well
    rw [acceptSpells well]
    cases found : p.toWords.conflict? with
    | none =>
      simp only [found, clash?, List.find?_eq_none] at reported
      simp only [reduceCtorEq, exists_false, false_iff]
      intro rivalled
      obtain ⟨e, inside, first, rival⟩ := rivalled
      exact reported e inside (by simpa using List.ne_nil_of_mem rival)
    | some c =>
      simp only [found] at reported
      refine ⟨fun _ => ⟨_, List.mem_of_find?_eq_some reported.1, c.first, by simp [reported.2]⟩, fun _ => ⟨_, rfl⟩⟩
  · have clash : p'.clash? = p.clash? := by
      rw [clashGist, clashGist, rivalsGist same, List.flatMap_congr fun step scanned => by rw [same step scanned]]
    rw [acceptReports (spelledIff.mp spelled'), acceptReports well, clash, rivalsGist same, named]

def crowd : Patch String :=
  { name := "crowd", remove := ["label", "array"], redesignate := [("array", .reserved)],
    additions := ⟨["top", "Top", "qualify"], ["Label", "goto", "TOP"], ["array"]⟩ }

def core : Patch String :=
  { name := "crowd", remove := ["ARRAY"], redesignate := [("merge", .unreserved)],
    additions := ⟨["TOP", "QUALIFY"], ["label", "GOTO", "top"], ["Array"]⟩ }

theorem ambiguityReportedCrowd :
    (∃ e ∈ crowd.scan, ∃ first, first ∈ crowd.rivals e) ∧
    crowd.accept "d" = .error (.ambiguousPatch "d" "crowd" "TOP" (.add .reserved) (.add .unreserved)) ∧
    core.accept "d" = .error (.ambiguousPatch "d" "crowd" "TOP" (.add .reserved) (.add .unreserved)) := by
  have spelled : crowd.Spelled := spelledIff.mpr (by decide +kernel)
  have spelled' : core.Spelled := spelledIff.mpr (by decide +kernel)
  obtain ⟨refused, reported, alike⟩ := ambiguityReported spelled "d"
  have failed := (reported _).mpr ⟨"TOP", .add .reserved, .add .unreserved, by decide +kernel, by decide +kernel, rfl⟩
  exact ⟨refused.mp ⟨_, failed⟩, failed, (alike core spelled' rfl (by decide +kernel) _).mpr failed⟩

end Patch

end SqlLexicon
