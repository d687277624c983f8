import SqlLexicon.Proofs.Written.Honoured

/-! Patches on different words commute. Patches of which no two name one word may be folded in any order: they succeed
or fail together, and where they succeed neither the vocabulary nor the sums of their totals tell the order. -/
namespace SqlLexicon

namespace Patch

def names (p : Patch Word) : List Word := p.steps.map Prod.snd

variable {p q : Patch Word} {ps ps' : List (Patch Word)} {v : Vocabulary} {r : Vocabulary × Totals} {options : Options}
  {dialect : String}

theorem touchesNamed (p : Patch Word) : p.touches.map Touch.word = p.names := by
  simp [names, touches, steps, addSteps, Function.comp_def, Touch.word]

theorem namesApart (disjoint : ∀ w ∈ p.names, w ∉ q.names) : Apart p.touches q.touches := by
  intro s left t right same
  refine disjoint s.word ?_ ?_
  · exact touchesNamed p ▸ List.mem_map_of_mem left
  · exact same ▸ touchesNamed q ▸ List.mem_map_of_mem right

theorem foldTouched : (foldPatches options dialect ps v).value = .ok r ↔ v.touchAll (ps.flatMap touches) = .ok r := by
  refine ⟨fun folded => ?_, Vocabulary.foldTotals options dialect⟩
  induction ps generalizing v r with
  | nil =>
    rw [foldPatches, Logged.valuePure] at folded
    cases Except.ok.inj folded
    rfl
  | cons p rest ih =>
    rw [List.flatMap_cons, Vocabulary.touchAllAppend]
    cases here : (p.fold options dialect v).value with
    | error fault => simp [foldPatches, here] at folded
    | ok mid =>
      cases later : (foldPatches options dialect rest mid.1).value with
      | error fault => simp [foldPatches, here, later] at folded
      | ok last =>
        rw [show v.touchAll p.touches = .ok mid from foldApplied.mp here]
        simp only [foldPatches, Logged.valueBind, Logged.valuePure, here, later] at folded
        cases Except.ok.inj folded
        simp only [Except.bind, ih later, Except.map]

theorem foldPermuted (permuted : ps.Perm ps') (disjoint : ps.Pairwise fun p q => ∀ w ∈ p.names, w ∉ q.names) :
    (foldPatches options dialect ps v).value = .ok r ↔ (foldPatches options dialect ps' v).value = .ok r := by
  rw [foldTouched, foldTouched]
  exact Vocabulary.alikeOrders permuted (disjoint.imp namesApart) v r

/- A result holds the sums of the totals of both patches, so its order shows nowhere but in the fault of a failure. -/
theorem disjointCommute (disjoint : ∀ w ∈ p.names, w ∉ q.names) (options : Options) (dialect : String)
    (v : Vocabulary) (r : Vocabulary × Totals) :
    (foldPatches options dialect [p, q] v).value = .ok r ↔ (foldPatches options dialect [q, p] v).value = .ok r :=
  foldPermuted (.swap q p []) (List.pairwise_pair.mpr disjoint)

def retire : Patch Word := { name := "retire", remove := [label, label], redesignate := [(array, .unreserved)] }

def enlist : Patch Word := { name := "enlist", additions := ⟨[goto], [], []⟩ }

theorem disjointCommuteRetire :
    let v := Vocabulary.ofEntries [(label, .reserved), (array, .reserved), (goto, .unreserved)]
    (∃ u, (foldPatches {} "d" [retire, enlist] v).value = .ok (u, ⟨1, 1, 1, 0, 1⟩) ∧
      (foldPatches {} "d" [enlist, retire] v).value = .ok (u, ⟨1, 1, 1, 0, 1⟩)) ∧
    ∀ r, (foldPatches {} "d" [enlist, retire] ∅).value ≠ .ok r := by
  intro v
  have disjoint : ∀ w ∈ retire.names, w ∉ enlist.names := by decide +kernel
  have counts : (foldPatches {} "d" [retire, enlist] v).value.map Prod.snd = .ok ⟨1, 1, 1, 0, 1⟩ := by decide +kernel
  have fails : (foldPatches {} "d" [retire, enlist] ∅).value.map Prod.snd =
      .error (.unknownWord "d" "retire" .redesignate "ARRAY") := by decide +kernel
  obtain ⟨⟨u, _⟩, folded, rfl⟩ := okOfMap counts
  refine ⟨⟨u, folded, (disjointCommute disjoint {} "d" v _).mp folded⟩, fun r folded' => ?_⟩
  have folded := (disjointCommute disjoint {} "d" ∅ r).mpr folded'
  simp [folded, Except.map] at fails

end Patch

end SqlLexicon
