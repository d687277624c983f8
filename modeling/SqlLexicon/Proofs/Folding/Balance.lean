import SqlLexicon.Proofs.Folding.Totals

/-! How many words touches leave. Of all that a touch can count as, only a removal of a present word and an addition of
an absent one change the size of a vocabulary, so totals account for the size however often words are named. -/
namespace SqlLexicon.Vocabulary
open Std

variable {v u : Vocabulary} {t : Touch} {ts : List Touch} {totals : Totals} {word : Word}

theorem sizePositive (held : word ∈ v) : 0 < v.size := by
  refine Nat.pos_of_ne_zero fun empty => ?_
  rw [ExtTreeMap.eq_empty_iff_size_eq_zero.mpr empty] at held
  exact ExtTreeMap.not_mem_empty held

theorem sizePut (v : Vocabulary) (word : Word) (c : Category) :
    (v.insert word c).size = if word ∈ v then v.size else v.size + 1 := by
  simp [ExtTreeMap.size_insert, ← ExtTreeMap.contains_iff_mem]

theorem touchBalance (touched : v.touch? t = some u) : u.size + (v.tally t).removed = v.size + (v.tally t).added := by
  cases t with
  | drop word =>
    cases Option.some.inj touched
    by_cases held : word ∈ v
    · have positive := sizePositive held
      simp [tally, held, ExtTreeMap.size_erase]
      omega
    · simp [tally, held, ExtTreeMap.size_erase]
  | move word c =>
    by_cases held : word ∈ v
    · simp only [touch?, if_pos held, Option.some.injEq] at touched
      simp [← touched, tally, sizePut, held]
    · simp [touch?, held] at touched
  | put word c =>
    cases Option.some.inj touched
    simp only [sizePut, tally, ExtTreeMap.mem_iff_isSome_getElem?]
    cases v[word]? with
    | none => simp
    | some previous => by_cases same : previous = c <;> simp [same]

theorem touchesBalance (done : v.touchAll ts = .ok (u, totals)) : u.size + totals.removed = v.size + totals.added := by
  induction ts generalizing v totals with
  | nil =>
    cases Except.ok.inj done
    rfl
  | cons t rest ih =>
    obtain ⟨next, others, touched, later, rfl⟩ := touchAllCons done
    have here := touchBalance touched
    have below := ih later
    simp only [Totals.removedAdd, Totals.addedAdd]
    omega

end SqlLexicon.Vocabulary
