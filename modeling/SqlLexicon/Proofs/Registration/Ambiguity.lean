import SqlLexicon.Patch.Acceptance
import SqlLexicon.Proofs.Written.Acceptance
import SqlLexicon.Proofs.Written.Spelling
import Mathlib.Data.List.Pairwise

/-! Ambiguity of a written patch, said with its lists and the canonical form of their spellings alone, and the scan that
decides it. The scan stops at the first entry that clashes with an earlier one, and it stops nowhere else. -/
namespace SqlLexicon

def Step.Exclusive (a b : Step) : Prop :=
  a ≠ b ∧ a ≠ .redesignate ∧ b ≠ .redesignate ∧
    ¬ (a = .add .unreserved ∧ b = .remove) ∧ ¬ (a = .remove ∧ b = .add .unreserved)

theorem Step.conflictsIff {a b : Step} : a.conflicts b = true ↔ a.Exclusive b := by
  rcases a with _ | _ | _ | _ | _ <;> rcases b with _ | _ | _ | _ | _ <;>
    simp [Step.conflicts, Step.reserving, Step.Exclusive]

theorem Step.exclusiveSymm {a b : Step} (apart : a.Exclusive b) : b.Exclusive a := by
  obtain ⟨other, left, right, first, second⟩ := apart
  exact ⟨other.symm, right, left, fun h => second h.symm, fun h => first h.symm⟩

def Clashing (d e : Step × Word) : Prop := d.2 = e.2 ∧ d.1.Exclusive e.1

section Scan

variable {seen rest : List (Step × Word)} {d e : Step × Word} {c : Conflict}

theorem clashingSymm (clash : Clashing d e) : Clashing e d := ⟨clash.1.symm, Step.exclusiveSymm clash.2⟩

instance : Std.Symm fun d e => ¬ Clashing d e := ⟨fun _ _ apart clash => apart (clashingSymm clash)⟩

theorem clashingSelf (e : Step × Word) : ¬ Clashing e e := fun clash => clash.2.1 rfl

theorem metNone :
    seen.find? (fun d => d.2 == e.2 && d.1.conflicts e.1) = none ↔ ∀ d ∈ seen, ¬ Clashing d e := by
  simp [List.find?_eq_none, Clashing, ← Step.conflictsIff]

theorem metSome (met : seen.find? (fun d => d.2 == e.2 && d.1.conflicts e.1) = some d) :
    d ∈ seen ∧ Clashing d e := by
  have clash := List.find?_some met
  simp only [Bool.and_eq_true, beq_iff_eq, Step.conflictsIff] at clash
  exact ⟨List.mem_of_find?_eq_some met, clash⟩

theorem firstConflictNone : firstConflict seen rest = none ↔
    (∀ d ∈ seen, ∀ e ∈ rest, ¬ Clashing d e) ∧ rest.Pairwise fun d e => ¬ Clashing d e := by
  induction rest generalizing seen with
  | nil => simp [firstConflict]
  | cons e rest ih =>
    unfold firstConflict
    cases met : seen.find? (fun d => d.2 == e.2 && d.1.conflicts e.1) with
    | some d =>
      obtain ⟨before, clash⟩ := metSome met
      simp only [reduceCtorEq, false_iff, not_and]
      intro free
      exact absurd clash (free d before e List.mem_cons_self)
    | none =>
      have free := metNone.mp met
      simp only [ih, List.forall_mem_append, List.forall_mem_cons, List.pairwise_cons,
        forall_and]
      tauto

theorem firstConflictFree : firstConflict [] rest = none ↔ ∀ d ∈ rest, ∀ e ∈ rest, ¬ Clashing d e := by
  rw [firstConflictNone]
  constructor
  · intro free
    exact free.2.forall_of_forall fun e _ => clashingSelf e
  · intro free
    exact ⟨by simp, List.pairwise_of_forall_mem_list free⟩

theorem firstConflictSome (found : firstConflict seen rest = some c) : ∃ before after,
    rest = before ++ (c.second, c.word) :: after ∧ firstConflict seen before = none ∧
      (seen ++ before).find? (fun d => d.2 == c.word && d.1.conflicts c.second) = some (c.first, c.word) := by
  induction rest generalizing seen with
  | nil => simp [firstConflict] at found
  | cons e rest ih =>
    unfold firstConflict at found
    cases met : seen.find? (fun d => d.2 == e.2 && d.1.conflicts e.1) with
    | some d =>
      simp only [met, Option.some.injEq] at found
      subst found
      have same : d = (d.1, e.2) := Prod.ext rfl (metSome met).2.1
      exact ⟨[], rest, rfl, rfl, by simpa [← same] using met⟩
    | none =>
      simp only [met] at found
      obtain ⟨before, after, rfl, free, first⟩ := ih found
      refine ⟨e :: before, after, rfl, ?_, ?_⟩
      · simp only [firstConflict, met, free]
      · rwa [List.append_assoc, List.singleton_append] at first

end Scan

namespace Patch

def listed (p : Patch String) : Step → List String
  | .remove => p.remove
  | .redesignate => p.redesignate.map Prod.fst
  | .add c => p.additions.get c

def Shares (p : Patch String) (first second : Step) (word : String) : Prop :=
  first.Exclusive second ∧ (∃ s ∈ p.listed first, normalForm s = word) ∧ ∃ s ∈ p.listed second, normalForm s = word

def Unambiguous (p : Patch String) : Prop := ∀ first second word, ¬ p.Shares first second word

variable {p : Patch String} {step : Step} {w : Word} {c : Conflict}

theorem listedStep {text : String} : (step, text) ∈ p.steps ↔ text ∈ p.listed step := by
  cases step <;> simp [memSteps, listed]

theorem textsRead (well : p.misspelling? = none) (step : Step) :
    ((p.listed step).filterMap Word.ofText?).map Word.text = (p.listed step).map normalForm := by
  refine readAll fun spelling inside => ?_
  exact Word.ofShaped (shapedStep well (listedStep.mpr inside))

def scanned (p : Patch Word) : List (Step × Word) := p.addSteps ++ p.remove.map (.remove, ·)

theorem memScanned : (step, w) ∈ p.toWords.scanned ↔
    step ≠ .redesignate ∧ ∃ s ∈ p.listed step, w.text = normalForm s := by
  cases step <;> simp [scanned, addSteps, Tables.memEntries, toWords, listed, Word.ofTextIff]

theorem listedWord {word : String} (well : p.misspelling? = none) (apart : step ≠ .redesignate)
    (spelled : ∃ s ∈ p.listed step, normalForm s = word) : ∃ w, (step, w) ∈ p.toWords.scanned ∧ w.text = word := by
  obtain ⟨s, inside, rfl⟩ := spelled
  obtain ⟨w, _, same⟩ := Word.ofShaped (shapedStep well (listedStep.mpr inside))
  exact ⟨w, memScanned.mpr ⟨apart, s, inside, same⟩, same⟩

theorem conflictNone (well : p.misspelling? = none) : p.toWords.conflict? = none ↔ p.Unambiguous := by
  rw [conflict?, ← scanned, firstConflictFree]
  constructor
  · intro free first second word shared
    obtain ⟨exclusive, left, right⟩ := shared
    obtain ⟨w, before, rfl⟩ := listedWord well exclusive.2.1 left
    obtain ⟨u, after, same⟩ := listedWord well exclusive.2.2.1 right
    exact free _ before _ after ⟨(Word.textInj.mp same).symm, exclusive⟩
  · intro clear d before e after clash
    obtain ⟨_, s, left, text⟩ := memScanned.mp before
    obtain ⟨_, t, right, text'⟩ := memScanned.mp after
    exact clear d.1 e.1 d.2.text ⟨clash.2, ⟨s, left, text.symm⟩, ⟨t, right, clash.1 ▸ text'.symm⟩⟩

theorem conflictSome (found : p.toWords.conflict? = some c) : p.Shares c.first c.second c.word.text := by
  rw [conflict?, ← scanned] at found
  obtain ⟨before, after, whole, _, met⟩ := firstConflictSome found
  obtain ⟨earlier, clash⟩ := metSome (e := (c.second, c.word)) met
  have first : (c.first, c.word) ∈ p.toWords.scanned := whole ▸ List.mem_append_left _ earlier
  have second : (c.second, c.word) ∈ p.toWords.scanned := whole ▸ by simp
  obtain ⟨_, s, left, text⟩ := memScanned.mp first
  obtain ⟨_, t, right, text'⟩ := memScanned.mp second
  exact ⟨clash.2, ⟨s, left, text.symm⟩, ⟨t, right, text'.symm⟩⟩

end Patch

end SqlLexicon
