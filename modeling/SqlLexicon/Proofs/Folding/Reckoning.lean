import SqlLexicon.Proofs.Written.Honoured
import Mathlib.Algebra.BigOperators.Group.Finset.Piecewise

/-! The totals of a patch, read off its lists. However often words are repeated, a removal or an addition counts at the
first touch that finds its word due and never again, and each further add-list of a word changes its category again. -/
namespace SqlLexicon

def Category.changes : Option Category → List Category → Nat
  | _, [] => 0
  | none, c :: rest => changes (some c) rest
  | some d, c :: rest => (if d = c then 0 else 1) + changes (some c) rest

namespace Category

variable {c : Category} {rest : List Category}

theorem changesAfter (distinct : (c :: rest).Nodup) : changes (some c) rest = rest.length := by
  induction rest generalizing c with
  | nil => rfl
  | cons d rest ih =>
    obtain ⟨apart, below⟩ := List.nodup_cons.mp distinct
    have other : c ≠ d := fun same => apart (same ▸ List.mem_cons_self)
    rw [changes, if_neg other, ih below, List.length_cons, Nat.add_comm]

theorem changesDistinct (distinct : (c :: rest).Nodup) (previous : Option Category) :
    changes previous (c :: rest) = rest.length + if ∃ d ∈ previous, d ≠ c then 1 else 0 := by
  cases previous with
  | none => simp [changes, changesAfter distinct]
  | some d => by_cases same : d = c <;> simp [changes, changesAfter distinct, same, Nat.add_comm]

end Category

namespace Patch

def addedWords (p : Patch Word) : Finset Word := (Tables.foldOrder.flatMap p.additions.get).toFinset

def listings (p : Patch Word) (w : Word) : List Category := Tables.foldOrder.filter fun c => w ∈ p.additions.get c

def before? (p : Patch Word) (v : Vocabulary) (w : Word) : Option Category :=
  (p.moved? w).or (if w ∈ p.remove then none else v[w]?)

def overrides (p : Patch Word) (v : Vocabulary) (w : Word) : Nat :=
  ((p.listings w).length - 1) + if ∃ d ∈ p.before? v w, some d ≠ (p.listings w).head? then 1 else 0

/- What folding the patch onto this vocabulary counts up to. A word is new to the add-lists if it is not inherited, and
also if the patch removes it before. -/
def reckoned (p : Patch Word) (v : Vocabulary) : Totals where
  removed := (p.remove.toFinset.filter (· ∈ v)).card
  absentRemovals := p.remove.length - (p.remove.toFinset.filter (· ∈ v)).card
  redesignated := p.redesignate.length
  added := (p.addedWords.filter fun w => ¬ (w ∈ v ∧ w ∉ p.remove)).card
  overridden := ∑ w ∈ p.addedWords, p.overrides v w

end Patch

namespace Vocabulary

variable {v u : Vocabulary} {ts : List Touch} {totals : Totals}

theorem firstsCounted (weights : Totals) (due : Option Category → Bool)
    (each : ∀ t ∈ ts, ∀ v : Vocabulary, weights.weigh (v.tally t) = if due v[t.word]? then 1 else 0)
    (settled : ∀ t ∈ ts, due t.change.leaves = false) (done : v.touchAll ts = .ok (u, totals)) :
    weights.weigh totals = ((ts.map Touch.word).toFinset.filter fun w => due v[w]?).card := by
  -- the words that are due shrink with every touch, so the vocabulary is left open
  induction ts generalizing v totals with
  | nil =>
    cases Except.ok.inj done
    exact weights.weighZero
  | cons t rest ih =>
    obtain ⟨next, others, touched, later, rfl⟩ := touchAllCons done
    obtain ⟨here, below⟩ := List.forall_mem_cons.mp each
    obtain ⟨left, settled⟩ := List.forall_mem_cons.mp settled
    have spent : due next[t.word]? = false := by rw [touchLookup touched, if_pos rfl, left]
    have kept {w : Word} (other : w ≠ t.word) : next[w]? = v[w]? := by rw [touchLookup touched, if_neg other.symm]
    rw [Totals.weighAdd, here, ih below settled later, List.map_cons, List.toFinset_cons]
    generalize (rest.map Touch.word).toFinset = words
    by_cases pending : due v[t.word]? = true
    · have new : t.word ∉ words.filter fun w => due next[w]? := by simp [spent]
      have parts : (insert t.word words).filter (fun w => due v[w]?) =
          insert t.word (words.filter fun w => due next[w]?) := by
        ext w
        by_cases same : w = t.word
        · simp [same, pending]
        · simp [same, kept same]
      rw [parts, Finset.card_insert_of_notMem new, if_pos pending, Nat.add_comm]
    · have parts : (insert t.word words).filter (fun w => due v[w]?) = words.filter fun w => due next[w]? := by
        ext w
        by_cases same : w = t.word
        · simp [same, pending, spent]
        · simp [same, kept same]
      rw [parts, if_neg pending, Nat.zero_add]

end Vocabulary

namespace Patch

variable {p : Patch Word} {v u : Vocabulary} {totals : Totals} {order : List Category} {options : Options}
  {dialect : String}

theorem dropsReckoned (done : v.touchAll (p.remove.map .drop) = .ok (u, totals)) :
    totals.removed = (p.remove.toFinset.filter (· ∈ v)).card ∧
    totals.removed + totals.absentRemovals = p.remove.length ∧
    totals.redesignated + totals.added + totals.overridden = 0 := by
  refine ⟨?_, ?_, ?_⟩
  · have firsts := Vocabulary.firstsCounted { removed := 1 } Option.isSome
      (List.forall_mem_map.mpr fun w _ v => by simp [Totals.weigh, Vocabulary.tallyDrop, Touch.word])
      (List.forall_mem_map.mpr fun w _ => rfl) done
    simpa [Totals.weigh, Function.comp_def, Touch.word] using firsts
  · have either (v : Vocabulary) (w : Word) :
        Totals.weigh { removed := 1, absentRemovals := 1 } (v.tally (.drop w)) = 1 := by
      by_cases held : w ∈ v <;> simp [Totals.weigh, Vocabulary.tally, held]
    have one := Vocabulary.evenlyCounted _ (List.forall_mem_map.mpr fun w _ v => either v w) done
    simpa [Totals.weigh] using one
  · have none := Vocabulary.evenlyCounted (n := 0) { redesignated := 1, added := 1, overridden := 1 }
      (List.forall_mem_map.mpr fun w _ v => by simp [Totals.weigh, Vocabulary.tallyDrop]) done
    simpa [Totals.weigh] using none

theorem movesReckoned (done : v.touchAll (p.redesignate.map fun m => .move m.1 m.2) = .ok (u, totals)) :
    totals.redesignated = p.redesignate.length ∧
    totals.removed + totals.absentRemovals + totals.added + totals.overridden = 0 := by
  refine ⟨?_, ?_⟩
  · have one := Vocabulary.evenlyCounted (n := 1) { redesignated := 1 }
      (List.forall_mem_map.mpr fun m _ v => rfl) done
    simpa [Totals.weigh] using one
  · have none := Vocabulary.evenlyCounted (n := 0) { removed := 1, absentRemovals := 1, added := 1, overridden := 1 }
      (List.forall_mem_map.mpr fun m _ v => rfl) done
    simpa [Totals.weigh] using none

theorem putsLeave {c : Category} (done : v.touchAll (p.puts c) = .ok (u, totals)) (w : Word) :
    u[w]? = if w ∈ p.additions.get c then some c else v[w]? := by
  rw [Vocabulary.touchesLookup done, puts, lastTouch (.put · c) fun _ => rfl]
  split <;> rfl

theorem listOverridden {c : Category} {words : Finset Word} (covers : ∀ w ∈ p.additions.get c, w ∈ words)
    (done : v.touchAll (p.puts c) = .ok (u, totals)) :
    totals.overridden = ∑ w ∈ words, if w ∈ p.additions.get c ∧ v[w]?.any (· ≠ c) then 1 else 0 := by
  have firsts := Vocabulary.firstsCounted { overridden := 1 } (Option.any (· ≠ c))
    (List.forall_mem_map.mpr fun w _ v => by simp [Totals.weigh, Vocabulary.tallyPut, Touch.word])
    (List.forall_mem_map.mpr fun w _ => by simp [Touch.change, Change.leaves]) done
  have among : (p.additions.get c).toFinset.filter (fun w => v[w]?.any (· ≠ c)) =
      words.filter fun w => w ∈ p.additions.get c ∧ v[w]?.any (· ≠ c) := by
    ext w
    simp only [Finset.mem_filter, List.mem_toFinset]
    exact ⟨fun held => ⟨covers w held.1, held⟩, fun held => held.2⟩
  rw [← Finset.card_filter, ← among]
  simpa [Totals.weigh, Function.comp_def, Touch.word] using firsts

theorem putsOverridden {words : Finset Word} (covers : ∀ c ∈ order, ∀ w ∈ p.additions.get c, w ∈ words)
    (done : v.touchAll (order.flatMap p.puts) = .ok (u, totals)) :
    totals.overridden = ∑ w ∈ words, Category.changes v[w]? (order.filter fun c => w ∈ p.additions.get c) := by
  induction order generalizing v totals with
  | nil =>
    cases Except.ok.inj done
    exact (Finset.sum_eq_zero fun w _ => by simp [Category.changes]).symm
  | cons c rest ih =>
    obtain ⟨here, below⟩ := List.forall_mem_cons.mp covers
    rw [List.flatMap_cons] at done
    obtain ⟨next, first, others, front, back, rfl⟩ := Vocabulary.touchParts done
    change first.overridden + others.overridden = _
    rw [listOverridden here front, ih below back, ← Finset.sum_add_distrib]
    refine Finset.sum_congr rfl fun w _ => ?_
    rw [putsLeave front]
    by_cases inside : w ∈ p.additions.get c
    · cases v[w]? with
      | none => simp [inside, Category.changes]
      | some d => by_cases same : d = c <;> simp [inside, Category.changes, same]
    · simp [inside]

theorem putsReckoned (done : v.touchAll (Tables.foldOrder.flatMap p.puts) = .ok (u, totals)) :
    totals.added = (p.addedWords.filter fun w => v[w]? = none).card ∧
    totals.overridden = ∑ w ∈ p.addedWords, Category.changes v[w]? (p.listings w) ∧
    totals.removed + totals.absentRemovals + totals.redesignated = 0 := by
  refine ⟨?_, putsOverridden (fun c inside w listed => ?_) done, ?_⟩
  · have firsts := Vocabulary.firstsCounted { added := 1 } Option.isNone
      (putsEach fun w c v => by simp [Totals.weigh, Vocabulary.tallyPut, Touch.word]) (putsEach fun w c => rfl) done
    simpa [Totals.weigh, addedWords, puts, Function.comp_def, Touch.word, List.map_flatMap] using firsts
  · exact List.mem_toFinset.mpr (List.mem_flatMap.mpr ⟨c, inside, listed⟩)
  · have none := Vocabulary.evenlyCounted (n := 0) { removed := 1, absentRemovals := 1, redesignated := 1 }
      (putsEach fun w c v => by simp [Totals.weigh, Vocabulary.tallyPut]) done
    simpa [Totals.weigh] using none

theorem beforeAdded
    (done : v.touchAll (p.remove.map .drop ++ p.redesignate.map fun m => .move m.1 m.2) = .ok (u, totals)) (w : Word) :
    u[w]? = p.before? v w := by
  rw [Vocabulary.touchesLookup done, List.reverse_append, List.find?_append, lastMove, lastTouch .drop fun _ => rfl,
    before?]
  cases p.moved? w with
  | some c => rfl
  | none => by_cases removed : w ∈ p.remove <;> simp [removed, Touch.change, Change.leaves]

theorem beforeNone {w : Word} (movable : ∀ m ∈ p.redesignate, p.Movable v m) :
    p.before? v w = none ↔ ¬ (w ∈ v ∧ w ∉ p.remove) := by
  rw [before?, Option.or_eq_none_iff, movedNone]
  constructor
  · intro none held
    rw [if_neg held.2] at none
    simpa [none.2] using Std.ExtTreeMap.mem_iff_isSome_getElem?.mp held.1
  · intro absent
    refine ⟨fun m inside same => absent (same ▸ movable m inside), ?_⟩
    by_cases removed : w ∈ p.remove
    · exact if_pos removed
    · rw [if_neg removed]
      exact Std.ExtTreeMap.getElem?_eq_none fun held => absent ⟨held, removed⟩

theorem overridesChanges {w : Word} (added : w ∈ p.addedWords) :
    Category.changes (p.before? v w) (p.listings w) = p.overrides v w := by
  have distinct : (p.listings w).Nodup := .filter _ (by decide)
  obtain ⟨c, inside, listed⟩ := List.mem_flatMap.mp (List.mem_toFinset.mp added)
  have nonempty : c ∈ p.listings w := List.mem_filter.mpr ⟨inside, decide_eq_true listed⟩
  unfold overrides
  cases all : p.listings w with
  | nil => simp [all] at nonempty
  | cons first rest =>
    rw [Category.changesDistinct (all ▸ distinct)]
    simp

theorem applyReckoned (applied : p.apply v = .ok (u, totals)) :
    totals = p.reckoned v ∧ totals.removed ≤ p.remove.length := by
  have movable := applySucceeds.mp ⟨_, applied⟩
  rw [apply, touches, putsOrder] at applied
  obtain ⟨mid, _, put, early, adding, rfl⟩ := Vocabulary.touchParts applied
  obtain ⟨_, dropped, moved, dropping, moving, rfl⟩ := Vocabulary.touchParts early
  obtain ⟨removed, absent, others⟩ := dropsReckoned dropping
  obtain ⟨redesignated, others'⟩ := movesReckoned moving
  obtain ⟨added, overridden, others''⟩ := putsReckoned adding
  have look (w : Word) : mid[w]? = p.before? v w := beforeAdded early w
  simp only [look, beforeNone movable] at added
  have changed : put.overridden = ∑ w ∈ p.addedWords, p.overrides v w :=
    overridden.trans (Finset.sum_congr rfl fun w inside => by rw [look, overridesChanges inside])
  change (⟨_ + _ + _, _ + _ + _, _ + _ + _, _ + _ + _, _ + _ + _⟩ : Totals) = _ ∧ _ + _ + _ ≤ _
  rw [reckoned, Totals.mk.injEq]
  omega

theorem foldReckoned (folded : (p.fold options dialect v).value = .ok (u, totals)) :
    totals = p.reckoned v ∧ totals.removed ≤ p.remove.length :=
  applyReckoned (foldApplied.mp folded)

theorem foldReckonedOverlap :
    let v := Vocabulary.ofEntries [(label, .reserved), (array, .futureReserved), (goto, .unreserved)]
    ∃ u, (overlap.toWords.fold {} "d" v).value = .ok (u, ⟨1, 1, 3, 2, 1⟩) := by
  intro v
  have movable : ∀ m ∈ overlap.toWords.redesignate, overlap.toWords.Movable v m := by decide +kernel
  obtain ⟨⟨u, totals⟩, folded⟩ := foldSucceeds.mpr movable
  have counts : overlap.toWords.reckoned v = ⟨1, 1, 3, 2, 1⟩ := by decide +kernel
  exact ⟨u, counts ▸ (foldReckoned folded).1 ▸ folded⟩

example : (ofTables ⟨[label, goto, label], [goto, array], [array, goto]⟩).reckoned ∅ =
    { added := 3, overridden := 3 } := by
  decide +kernel

end Patch

end SqlLexicon
