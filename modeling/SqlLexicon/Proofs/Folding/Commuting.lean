import SqlLexicon.Proofs.Written.Folding
import SqlLexicon.Proofs.Folding.Totals

/-! Touches on different words commute. What a touch does, whether it fails and how it counts depend on its own word alone,
so blocks of touches that share no word may be taken in any order, with the same result and the same totals. -/
namespace SqlLexicon

theorem Totals.addComm (a b : Totals) : a + b = b + a := by
  cases a
  cases b
  simp only [HAdd.hAdd, Add.add]
  simp [Nat.add_comm]

def Apart (xs ys : List Touch) : Prop := ∀ s ∈ xs, ∀ t ∈ ys, s.word ≠ t.word

theorem apartSymm {xs ys : List Touch} (apart : Apart xs ys) : Apart ys xs :=
  fun t right s left same => apart s left t right same.symm

namespace Vocabulary

variable {v u w : Vocabulary} {s t : Touch} {xs ys rest : List Touch} {r : Vocabulary × Totals}

theorem tallyLocal (same : u[t.word]? = v[t.word]?) : u.tally t = v.tally t := by
  cases t with
  | drop word => simp only [tally, Std.ExtTreeMap.mem_iff_isSome_getElem?, show u[word]? = v[word]? from same]
  | move word c => rfl
  | put word c => simp only [tally, show u[word]? = v[word]? from same]

theorem failsLocal (same : u[t.word]? = v[t.word]?) : u.touch? t = none ↔ v.touch? t = none := by
  rw [touchFails, touchFails, same]

theorem touchPair (apart : s.word ≠ t.word) (first : v.touch? s = some u) (second : u.touch? t = some w) :
    ∃ x, v.touch? t = some x ∧ x.touch? s = some w ∧ v.tally s + u.tally t = v.tally t + x.tally s := by
  have kept : u[t.word]? = v[t.word]? := by rw [touchLookup first, if_neg apart]
  cases early : v.touch? t with
  | none => simp [(failsLocal kept).mpr early] at second
  | some x =>
    have kept' : x[s.word]? = v[s.word]? := by rw [touchLookup early, if_neg (Ne.symm apart)]
    refine ⟨x, rfl, ?_, by rw [tallyLocal kept, tallyLocal kept', Totals.addComm]⟩
    cases late : x.touch? s with
    | none => simp [(failsLocal kept').mp late] at first
    | some y =>
      refine congrArg some (Std.ExtTreeMap.ext_getElem? fun {word} => ?_)
      rw [touchLookup late, touchLookup early, touchLookup second, touchLookup first]
      by_cases here : s.word = word
      · rw [if_pos here, if_neg fun there => apart (here.trans there.symm), if_pos here]
      · rw [if_neg here, if_neg here]

def Alike (xs ys : List Touch) : Prop := ∀ v r, Vocabulary.touchAll v xs = .ok r ↔ Vocabulary.touchAll v ys = .ok r

theorem alikeCons (t : Touch) (alike : Alike xs ys) : Alike (t :: xs) (t :: ys) := by
  intro v r
  simp only [touchAllOk, alike _ _]

theorem swapOk (apart : s.word ≠ t.word) (done : v.touchAll (s :: t :: rest) = .ok r) :
    v.touchAll (t :: s :: rest) = .ok r := by
  obtain ⟨u, last, first, later, rfl⟩ := touchAllOk.mp done
  obtain ⟨w, last', second, below, rfl⟩ := touchAllOk.mp later
  obtain ⟨x, early, late, tallies⟩ := touchPair apart first second
  refine touchAllOk.mpr ⟨x, _, early, touchAllOk.mpr ⟨w, last', late, below, rfl⟩, ?_⟩
  rw [← Totals.addAssoc, tallies, Totals.addAssoc]

theorem alikeSwap (apart : s.word ≠ t.word) : Alike (s :: t :: rest) (t :: s :: rest) :=
  fun _ _ => ⟨swapOk apart, swapOk (Ne.symm apart)⟩

theorem alikePast (apart : ∀ t ∈ xs, s.word ≠ t.word) : Alike (s :: (xs ++ ys)) (xs ++ s :: ys) := by
  induction xs with
  | nil => exact fun _ _ => Iff.rfl
  | cons t xs ih =>
    obtain ⟨here, below⟩ := List.forall_mem_cons.mp apart
    exact fun v r => (alikeSwap here v r).trans (alikeCons t (ih below) v r)

theorem alikeBlocks (apart : Apart xs ys) : Alike (xs ++ (ys ++ rest)) (ys ++ (xs ++ rest)) := by
  induction xs with
  | nil => exact fun _ _ => Iff.rfl
  | cons s xs ih =>
    obtain ⟨here, below⟩ := List.forall_mem_cons.mp apart
    exact fun v r => (alikeCons s (ih below) v r).trans (alikePast here v r)

theorem alikeAppend (xs : List Touch) {ys ys' : List Touch} (alike : Alike ys ys') : Alike (xs ++ ys) (xs ++ ys') := by
  induction xs with
  | nil => exact alike
  | cons t xs ih => exact alikeCons t ih

theorem alikeOrders {α : Type} {block : α → List Touch} {order order' : List α} (orders : order.Perm order')
    (apart : order.Pairwise fun a b => Apart (block a) (block b)) :
    Alike (order.flatMap block) (order'.flatMap block) := by
  induction orders with
  | nil => exact fun _ _ => Iff.rfl
  | cons a _ ih => exact alikeAppend (block a) (ih (List.pairwise_cons.mp apart).2)
  | swap a b rest =>
    have pair := (List.pairwise_cons.mp apart).1 a List.mem_cons_self
    exact alikeBlocks pair
  | trans first _ ih ih' =>
    have apart' := (first.pairwise_iff fun {_ _} => apartSymm).mp apart
    exact fun v r => (ih apart v r).trans (ih' apart' v r)

end Vocabulary

end SqlLexicon
