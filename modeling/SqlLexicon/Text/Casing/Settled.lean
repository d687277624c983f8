import SqlLexicon.Text.Casing

/-! Uppercase characters are settled: casing them again changes nothing, and casing neither makes nor removes white
space. The tables are checked once, run against run. Nothing is claimed about lowercase or title case. -/
namespace SqlLexicon.Text

def CaseRun.last (r : CaseRun) : Nat := r.first + r.stride * (r.count - 1)

def CaseRun.lastTarget (r : CaseRun) : Nat := r.target + r.stride * (r.count - 1)

def CaseRun.apart (s r : CaseRun) : Bool :=
  s.lastTarget < r.first || r.last < s.target ||
    (r.stride == 2 && (s.stride == 2 || s.count == 1) && (s.target + r.first) % 2 == 1)

def CaseRun.misses (s : CaseRun) (code : Nat) : Bool :=
  s.lastTarget < code || code < s.target || (s.stride == 2 && (s.target + code) % 2 == 1)

def CaseRun.plain (s : CaseRun) : Bool :=
  s.count != 0 && s.stride != 0 && (s.lastTarget < 0xD800 || (0xDFFF < s.target && s.lastTarget < 0x110000)) &&
    (s.lastTarget < 97 || 128 ≤ s.target) && blankRanges.all fun b => s.lastTarget < b.first || b.last < s.target

def settledCode (code : Nat) : Bool :=
  (code < 0xD800 || (0xDFFF < code && code < 0x110000)) && (code < 97 || (128 ≤ code && upperCodes code == [code])) &&
    !blankRanges.any (·.has code)

theorem expansionsSettled : (caseExpansions.all fun e => !e.2.isEmpty && e.2.all settledCode) = true := by
  decide +kernel

theorem runsApart : (caseRuns.all fun r => caseRuns.all fun s => s.apart r) = true := by decide +kernel

theorem runsMissExpansions : (caseExpansions.all fun e => caseRuns.all fun s => s.misses e.1) = true := by
  decide +kernel

theorem runsPlain : (caseRuns.all CaseRun.plain) = true := by decide +kernel

theorem blanksUpper :
    (blankRanges.all fun b => (List.range (b.last + 1 - b.first)).all fun i => isUpper (Char.ofNat (b.first + i))) =
      true := by
  decide +kernel

theorem asciiUpper :
    ((List.range 128).all fun n =>
      isUpper (Char.ofNat n).toUpper && isBlank (Char.ofNat n).toUpper == isBlank (Char.ofNat n)) = true := by
  decide +kernel

theorem toNatOfNat {n : Nat} (h : n < 0xD800 ∨ (0xDFFF < n ∧ n < 0x110000)) : (Char.ofNat n).toNat = n := by
  unfold Char.ofNat
  rw [dif_pos h]
  rfl

theorem CaseRun.hasStep {r : CaseRun} {code : Nat} (h : r.has code = true) :
    ∃ i, i < r.count ∧ code = r.first + r.stride * i := by
  simp only [CaseRun.has, Bool.and_eq_true, decide_eq_true_eq, beq_iff_eq] at h
  refine ⟨(code - r.first) / r.stride, h.2, ?_⟩
  have := Nat.div_add_mod (code - r.first) r.stride
  omega

theorem CaseRun.stepLast (r : CaseRun) {i : Nat} (h : i < r.count) : r.stride * i ≤ r.stride * (r.count - 1) :=
  Nat.mul_le_mul_left _ (by omega)

theorem CaseRun.apartHas {s r : CaseRun} {i : Nat} (apart : s.apart r = true) (h : i < s.count) :
    r.has (s.target + s.stride * i) = false := by
  apply Bool.eq_false_iff.mpr
  intro inside
  obtain ⟨j, hj, same⟩ := CaseRun.hasStep inside
  have si := s.stepLast h
  have rj := r.stepLast hj
  simp only [CaseRun.apart, Bool.or_eq_true, Bool.and_eq_true, decide_eq_true_eq, beq_iff_eq] at apart
  simp only [CaseRun.last, CaseRun.lastTarget] at apart
  rcases apart with (before | after) | ⟨⟨two, narrow⟩, odd⟩
  · omega
  · omega
  · rw [two] at same
    rcases narrow with wide | single
    · rw [wide] at same; omega
    · obtain rfl : i = 0 := by omega
      simp only [Nat.mul_zero] at same; omega

theorem CaseRun.missesTarget {s : CaseRun} {code i : Nat} (misses : s.misses code = true) (h : i < s.count) :
    s.target + s.stride * i ≠ code := by
  have si := s.stepLast h
  simp only [CaseRun.misses, Bool.or_eq_true, Bool.and_eq_true, decide_eq_true_eq, beq_iff_eq] at misses
  simp only [CaseRun.lastTarget] at misses
  rcases misses with (before | after) | ⟨two, odd⟩
  · omega
  · omega
  · rw [two]; omega

theorem upperCodesSelf {code : Nat} (noExpansion : ∀ e ∈ caseExpansions, code ≠ e.1)
    (noRun : ∀ r ∈ caseRuns, r.has code = false) : upperCodes code = [code] := by
  have first : caseExpansions.lookup code = none := by
    rw [List.lookup_eq_none_iff]
    intro e he
    exact bne_iff_ne.mpr (noExpansion e he)
  have second : caseRuns.find? (·.has code) = none := by
    rw [List.find?_eq_none]
    intro r hr
    simp [noRun r hr]
  simp only [upperCodes, first, second]

theorem CaseRun.targetSettled {s : CaseRun} (mem : s ∈ caseRuns) {i : Nat} (h : i < s.count) :
    settledCode (s.target + s.stride * i) = true := by
  have plain := List.all_eq_true.mp runsPlain s mem
  have si := s.stepLast h
  have self : upperCodes (s.target + s.stride * i) = [s.target + s.stride * i] := by
    apply upperCodesSelf
    · intro e he
      exact CaseRun.missesTarget (List.all_eq_true.mp (List.all_eq_true.mp runsMissExpansions e he) s mem) h
    · intro r hr
      exact CaseRun.apartHas (List.all_eq_true.mp (List.all_eq_true.mp runsApart r hr) s mem) h
  simp only [CaseRun.plain, Bool.and_eq_true, Bool.or_eq_true, bne_iff_ne, decide_eq_true_eq, List.all_eq_true] at plain
  simp only [CaseRun.lastTarget] at plain
  simp only [settledCode, self, BEq.rfl, Bool.and_true, Bool.and_eq_true, Bool.or_eq_true, decide_eq_true_eq,
    Bool.not_eq_true', List.any_eq_false, CodeRange.has]
  refine ⟨⟨by omega, by omega⟩, ?_⟩
  intro b hb
  have := plain.2 b hb
  omega

theorem upperCodesSettled {code m : Nat} (h : m ∈ upperCodes code) : settledCode m = true ∨ upperCodes code = [code] := by
  unfold upperCodes at h ⊢
  split at h
  · rename_i codes found
    obtain ⟨before, after, split, _⟩ := List.lookup_eq_some_iff.mp found
    have checked := List.all_eq_true.mp expansionsSettled (code, codes) (by simp [split])
    simp only [Bool.and_eq_true, List.all_eq_true] at checked
    exact Or.inl (checked.2 m h)
  · split at h
    · rename_i r found
      have inside := List.find?_some found
      obtain ⟨i, hi, same⟩ := CaseRun.hasStep inside
      have : m = r.target + r.stride * i := by simpa [same] using h
      exact Or.inl (this ▸ CaseRun.targetSettled (List.mem_of_find?_eq_some found) hi)
    · exact Or.inr rfl

theorem settledForm {code : Nat} (h : settledCode code = true) :
    upperForm (Char.ofNat code) = [Char.ofNat code] ∧ isBlank (Char.ofNat code) = false := by
  simp only [settledCode, Bool.and_eq_true, Bool.or_eq_true, decide_eq_true_eq, beq_iff_eq, Bool.not_eq_true'] at h
  obtain ⟨⟨valid, upper⟩, blank⟩ := h
  have back := toNatOfNat valid
  refine ⟨?_, by simpa [isBlank, inRanges, back] using blank⟩
  unfold upperForm
  rcases upper with low | ⟨high, self⟩
  · rw [if_pos (by omega)]
    have : ∀ n < 97, (Char.ofNat n).toUpper = Char.ofNat n := by decide +kernel
    rw [this code low]
  · rw [if_neg (by omega), back, self]; rfl

theorem asciiForm {c : Char} (h : c.toNat < 128) :
    isUpper c.toUpper = true ∧ isBlank c.toUpper = isBlank c := by
  have checked := List.all_eq_true.mp asciiUpper c.toNat (List.mem_range.mpr h)
  simpa [Char.ofNat_toNat] using checked

theorem upperFormSettled {c d : Char} (h : d ∈ upperForm c) : upperForm d = [d] := by
  unfold upperForm at h
  split at h
  · rename_i low
    obtain rfl := List.mem_singleton.mp h
    simpa [isUpper] using (asciiForm low).1
  · rename_i high
    obtain ⟨m, hm, rfl⟩ := List.mem_map.mp h
    rcases upperCodesSettled hm with settled | self
    · exact (settledForm settled).1
    · obtain rfl : m = c.toNat := by simpa [self] using hm
      simp [upperForm, high, self]

theorem upperFormNonempty (c : Char) : upperForm c ≠ [] := by
  unfold upperForm upperCodes
  split
  · simp
  · split
    · rename_i codes found
      obtain ⟨before, after, split, _⟩ := List.lookup_eq_some_iff.mp found
      have checked := List.all_eq_true.mp expansionsSettled (c.toNat, codes) (by simp [split])
      simp only [Bool.and_eq_true, Bool.not_eq_true'] at checked
      simpa using checked.1
    · split <;> simp

theorem upperFormBlank {c : Char} (h : isBlank c = true) : upperForm c = [c] := by
  simp only [isBlank, inRanges, List.any_eq_true, CodeRange.has, Bool.and_eq_true, decide_eq_true_eq] at h
  obtain ⟨b, hb, low, high⟩ := h
  have checked := List.all_eq_true.mp (List.all_eq_true.mp blanksUpper b hb) (c.toNat - b.first)
    (List.mem_range.mpr (by omega))
  rw [show b.first + (c.toNat - b.first) = c.toNat by omega, Char.ofNat_toNat] at checked
  simpa [isUpper] using checked

theorem upperFormInk {c d : Char} (h : d ∈ upperForm c) (ink : isBlank c = false) : isBlank d = false := by
  unfold upperForm at h
  split at h
  · rename_i low
    obtain rfl := List.mem_singleton.mp h
    rw [(asciiForm low).2, ink]
  · obtain ⟨m, hm, rfl⟩ := List.mem_map.mp h
    rcases upperCodesSettled hm with settled | self
    · exact (settledForm settled).2
    · obtain rfl : m = c.toNat := by simpa [self] using hm
      rw [Char.ofNat_toNat, ink]

theorem uppercaseSettled (text : String) : isUppercase (uppercase text) = true := by
  simp only [isUppercase, uppercase, String.toList_ofList, List.all_eq_true, List.mem_flatMap, isUpper, beq_iff_eq]
  rintro d ⟨c, _, hd⟩
  exact upperFormSettled hd

theorem uppercaseSelf {text : String} (h : isUppercase text = true) : uppercase text = text := by
  simp only [isUppercase, List.all_eq_true, isUpper, beq_iff_eq] at h
  have : text.toList.flatMap upperForm = text.toList := by
    generalize text.toList = cs at h
    induction cs with
    | nil => rfl
    | cons c cs ih =>
      rw [List.flatMap_cons, h c (by simp), ih (fun d hd => h d (by simp [hd]))]
      rfl
  rw [uppercase, this, String.ofList_toList]

theorem uppercaseEqSelfIff (text : String) : uppercase text = text ↔ isUppercase text = true :=
  ⟨fun h => h ▸ uppercaseSettled text, uppercaseSelf⟩

end SqlLexicon.Text
