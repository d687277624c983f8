import SqlLexicon.Proofs.Folding.Totals
import Mathlib.Data.List.Induction

/-! Removals that find nothing to remove. A word listed for removal is absent at its turn if the vocabulary lacks it or if
it is listed before, and the totals of a patch count just these entries. -/
namespace SqlLexicon

def Vocabulary.absences (v : Vocabulary) (words : List Word) : List Word :=
  (words.zipIdx.filter fun e => e.1 ∉ v ∨ e.1 ∈ words.take e.2).map Prod.fst

namespace Vocabulary
open Std

variable {v u : Vocabulary} {words : List Word} {ts : List Touch} {totals : Totals}

theorem absentDropsSnoc (v : Vocabulary) (words : List Word) (word : Word) :
    v.absentDrops (words ++ [word]) = v.absentDrops words ++ if word ∉ v ∨ word ∈ words then [word] else [] := by
  induction words generalizing v with
  | nil => by_cases held : word ∈ v <;> simp [absentDrops, held]
  | cons first rest ih =>
    by_cases held : first ∈ v
    · have turn : (word ∉ v.erase first ∨ word ∈ rest) ↔ word ∉ v ∨ word ∈ first :: rest := by
        rw [ExtTreeMap.mem_erase, List.mem_cons, Ne, LawfulEqCmp.compare_eq_iff_eq, eq_comm (a := first)]
        tauto
      simp only [List.cons_append, absentDrops, if_pos held, ih, turn]
    · have turn : (word ∉ v ∨ word ∈ rest) ↔ word ∉ v ∨ word ∈ first :: rest := by
        by_cases same : word = first
        · simp [same, held]
        · simp [same]
      simp only [List.cons_append, absentDrops, if_neg held, ih, turn]

theorem absencesSnoc (v : Vocabulary) (words : List Word) (word : Word) :
    v.absences (words ++ [word]) = v.absences words ++ if word ∉ v ∨ word ∈ words then [word] else [] := by
  have earlier : ∀ e ∈ words.zipIdx, (words ++ [word]).take e.2 = words.take e.2 := by
    intro e inside
    obtain ⟨_, below, _⟩ := List.mem_zipIdx inside
    exact List.take_append_of_le_length (by omega)
  have same : words.zipIdx.filter (fun e => e.1 ∉ v ∨ e.1 ∈ (words ++ [word]).take e.2) =
      words.zipIdx.filter fun e => e.1 ∉ v ∨ e.1 ∈ words.take e.2 :=
    List.filter_congr fun e inside => by rw [earlier e inside]
  rw [absences, List.zipIdx_append, List.filter_append, same, List.map_append, absences]
  by_cases absent : word ∉ v ∨ word ∈ words <;> simp [absent]

theorem absentDropsPlaces (v : Vocabulary) (words : List Word) : v.absentDrops words = v.absences words := by
  -- from the right, as an entry is judged by those before it
  induction words using List.reverseRecOn with
  | nil => rfl
  | append_singleton words word ih => rw [absentDropsSnoc, absencesSnoc, ih]

theorem eraseAbsent {word : Word} (absent : word ∉ v) : v.erase word = v := by
  refine ExtTreeMap.ext_getElem? fun {other} => ?_
  by_cases same : word = other
  · subst same
    simp [ExtTreeMap.getElem?_eq_none absent]
  · simp [ExtTreeMap.getElem?_erase, same]

theorem dropsCounted (done : v.touchAll (words.map .drop) = .ok (u, totals)) :
    totals.absentRemovals = (v.absentDrops words).length := by
  induction words generalizing v totals with
  | nil =>
    cases Except.ok.inj done
    rfl
  | cons word rest ih =>
    obtain ⟨next, others, touched, later, rfl⟩ := touchAllCons done
    cases Option.some.inj touched
    have below := ih later
    by_cases held : word ∈ v
    · simp [absentDrops, held, tally, below]
    · rw [eraseAbsent held] at below
      simp [absentDrops, held, tally, below, Nat.add_comm]

theorem laterNoDrop {p : Patch Word} {t : Touch}
    (inside : t ∈ p.redesignate.map (fun e => .move e.1 e.2) ++ p.additions.entries.map fun e => .put e.1 e.2)
    (word : Word) : t ≠ .drop word := by
  rintro rfl
  simp at inside

theorem othersUncounted (others : ∀ t ∈ ts, ∀ word, t ≠ .drop word) (done : v.touchAll ts = .ok (u, totals)) :
    totals.absentRemovals = 0 := by
  have each : ∀ t ∈ ts, ∀ v : Vocabulary, Totals.weigh { absentRemovals := 1 } (v.tally t) = 0 := by
    intro t inside v
    cases t with
    | drop word => exact absurd rfl (others _ inside word)
    | move word c => rfl
    | put word c => simp [Totals.weigh, tallyPut]
  simpa [Totals.weigh] using evenlyCounted _ each done

theorem absencesCounted {p : Patch Word} (applied : p.apply v = .ok (u, totals)) :
    totals.absentRemovals = (v.absences p.remove).length := by
  rw [Patch.apply, Patch.touches, List.append_assoc] at applied
  obtain ⟨w, first, rest, front, back, rfl⟩ := touchParts applied
  have others := othersUncounted (fun _ => laterNoDrop) back
  rw [Totals.absentAdd, dropsCounted front, others, absentDropsPlaces, Nat.add_zero]

end Vocabulary

end SqlLexicon
