import SqlLexicon.Proofs.Written.Folding
import SqlLexicon.Proofs.Folding.Totals

/-! What a patch comes to as a whole, said with its lists. A word ends as the last touch on it leaves it, and a patch fails
at the first move of a word that is not inherited or that the patch removes itself. Applied to what it left, it changes
nothing. -/
namespace SqlLexicon

namespace Tables

variable {α : Type} [DecidableEq α] {tables : Tables α} {a : α} {c : Category}

def listing? (tables : Tables α) (a : α) : Option Category := foldOrder.reverse.find? fun c => a ∈ tables.get c

theorem listingNone : tables.listing? a = none ↔ ∀ c, a ∉ tables.get c := by
  simp only [listing?, foldOrder, List.find?_eq_none, List.mem_reverse, decide_eq_true_eq]
  exact ⟨fun none c => none c (by cases c <;> simp), fun none c _ => none c⟩

theorem listingListed (listing : tables.listing? a = some c) : a ∈ tables.get c := by
  simpa using List.find?_some listing

theorem listingAlike {β : Type} [DecidableEq β] {tables' : Tables β} {b : β}
    (same : ∀ c, a ∈ tables.get c ↔ b ∈ tables'.get c) : tables.listing? a = tables'.listing? b :=
  congrArg (List.find? · _) (funext fun c => decide_eq_decide.mpr (same c))

end Tables

namespace Patch

def puts (p : Patch Word) (c : Category) : List Touch := (p.additions.get c).map (.put · c)

theorem putsOrder (p : Patch Word) :
    (p.additions.entries.map fun e => .put e.1 e.2) = Tables.foldOrder.flatMap p.puts := by
  simp [puts, Tables.entries, Tables.foldOrder, Function.comp_def]

def moved? (p : Patch Word) (w : Word) : Option Category := (p.redesignate.reverse.find? (·.1 == w)).map Prod.snd

/- A redesignation that can be done, whatever the patch adds: additions come too late to help it. -/
def Movable (p : Patch Word) (v : Vocabulary) (m : Word × Category) : Prop := m.1 ∈ v ∧ m.1 ∉ p.remove

instance (p : Patch Word) (v : Vocabulary) (m : Word × Category) : Decidable (p.Movable v m) := by
  unfold Movable
  infer_instance

def stuck? (p : Patch Word) (v : Vocabulary) : Option (Word × Category) := p.redesignate.find? fun m => ¬ p.Movable v m

theorem stuckNone {p : Patch Word} {v : Vocabulary} : p.stuck? v = none ↔ ∀ m ∈ p.redesignate, p.Movable v m := by
  simp [stuck?, List.find?_eq_none]

theorem stuckSome {p : Patch Word} {v : Vocabulary} {m : Word × Category} : p.stuck? v = some m ↔
    ∃ before after, p.redesignate = before ++ m :: after ∧ (∀ n ∈ before, p.Movable v n) ∧ ¬ p.Movable v m := by
  simp only [stuck?, List.find?_eq_some_iff_append, decide_eq_true_eq, Bool.not_eq_true', decide_not,
    decide_eq_false_iff_not, Bool.not_not]
  constructor
  · intro found
    obtain ⟨unmovable, before, after, whole, movable⟩ := found
    exact ⟨before, after, whole, movable, unmovable⟩
  · intro first
    obtain ⟨before, after, whole, movable, unmovable⟩ := first
    exact ⟨unmovable, before, after, whole, movable⟩

theorem movedNone {p : Patch Word} {w : Word} : p.moved? w = none ↔ ∀ m ∈ p.redesignate, m.1 ≠ w := by
  simp [moved?, List.find?_eq_none]

theorem movedLast {p : Patch Word} {before after : List (Word × Category)} {m : Word × Category}
    (whole : p.redesignate = before ++ m :: after) (last : ∀ n ∈ after, n.1 ≠ m.1) : p.moved? m.1 = some m.2 := by
  have none : after.reverse.find? (·.1 == m.1) = none := by simpa [List.find?_eq_none] using last
  simp [moved?, whole, none]

end Patch

namespace Vocabulary

variable {v u : Vocabulary} {ts : List Touch} {totals : Totals}

theorem touchAllAppend (v : Vocabulary) (xs ys : List Touch) : v.touchAll (xs ++ ys) =
    (v.touchAll xs).bind fun mid => (mid.1.touchAll ys).map fun last => (last.1, mid.2 + last.2) := by
  induction xs generalizing v with
  | nil =>
    simp only [List.nil_append, touchAll, Except.bind]
    cases v.touchAll ys with
    | error word => rfl
    | ok last => simp [Except.map, Totals.zeroAdd]
  | cons t xs ih =>
    simp only [List.cons_append, touchAll]
    cases v.touch? t with
    | none => rfl
    | some next =>
      simp only [ih]
      cases next.touchAll xs with
      | error word => rfl
      | ok mid =>
        simp only [Except.bind]
        cases mid.1.touchAll ys with
        | error word => rfl
        | ok last => simp [Except.map, Totals.addAssoc]

theorem touchesLookup (done : v.touchAll ts = .ok (u, totals)) (w : Word) :
    u[w]? = ((ts.reverse.find? (·.word == w)).map (·.change.leaves)).getD v[w]? := by
  induction ts generalizing v totals with
  | nil =>
    cases Except.ok.inj done
    rfl
  | cons t rest ih =>
    obtain ⟨next, others, touched, later, rfl⟩ := touchAllCons done
    rw [ih later, touchLookup touched, List.reverse_cons, List.find?_append]
    cases rest.reverse.find? (·.word == w) with
    | some last => rfl
    | none => by_cases here : t.word = w <;> simp [here]

theorem steadyDone (ts : List Touch) (steady : ∀ t ∈ ts, ¬ t.change.moves) (v : Vocabulary) :
    ∃ r, v.touchAll ts = .ok r := by
  induction ts generalizing v with
  | nil => exact ⟨_, rfl⟩
  | cons t rest ih =>
    obtain ⟨here, below⟩ := List.forall_mem_cons.mp steady
    cases touched : v.touch? t with
    | none => exact absurd (touchFails.mp touched).1 here
    | some next =>
      obtain ⟨r, later⟩ := ih below next
      exact ⟨_, touchAllOk.mpr ⟨next, r, touched, later, rfl⟩⟩

/- Moves leave the same words, so those that can be done can be told before any is done. -/
theorem movesOutcome (moves : List (Word × Category)) (v : Vocabulary) :
    match moves.find? fun m => m.1 ∉ v with
    | some m => v.touchAll (moves.map fun m => .move m.1 m.2) = .error m.1
    | none => ∃ r, v.touchAll (moves.map fun m => .move m.1 m.2) = .ok r := by
  induction moves generalizing v with
  | nil => exact ⟨_, rfl⟩
  | cons m rest ih =>
    by_cases held : m.1 ∈ v
    · have words (w : Word) : w ∈ v.insert m.1 m.2 ↔ w ∈ v := by
        rw [Std.ExtTreeMap.mem_insert, Std.LawfulEqCmp.compare_eq_iff_eq]
        exact ⟨fun either => either.elim (· ▸ held) id, Or.inr⟩
      have below := ih (v.insert m.1 m.2)
      simp only [words] at below
      have touched : v.touch? (.move m.1 m.2) = some (v.insert m.1 m.2) := if_pos held
      simp only [List.find?_cons, held, not_true, decide_false, List.map_cons]
      cases found : rest.find? fun m => m.1 ∉ v with
      | some m' =>
        simp only [found] at below
        simp only [touchAll, touched, below]
      | none =>
        simp only [found] at below
        obtain ⟨r, later⟩ := below
        exact ⟨_, touchAllOk.mpr ⟨_, r, touched, later, rfl⟩⟩
    · simp [held, touchAll, touch?, Touch.word]

end Vocabulary

namespace Patch

variable {p : Patch Word} {v u : Vocabulary} {totals : Totals}

theorem lastTouch (touch : Word → Touch) (named : ∀ word, (touch word).word = word) (words : List Word) (w : Word) :
    (words.map touch).reverse.find? (·.word == w) = if w ∈ words then some (touch w) else none := by
  simp only [← List.map_reverse, List.find?_map, Function.comp_def, named]
  cases found : words.reverse.find? (· == w) with
  | none =>
    have absent : w ∉ words := fun inside => by simpa using List.find?_eq_none.mp found w (List.mem_reverse.mpr inside)
    rw [if_neg absent]
    rfl
  | some last =>
    obtain rfl : last = w := by simpa using List.find?_some found
    rw [if_pos (List.mem_reverse.mp (List.mem_of_find?_eq_some found))]
    rfl

theorem dropsLeave {words : List Word} (done : v.touchAll (words.map .drop) = .ok (u, totals)) (w : Word) :
    u[w]? = if w ∈ words then none else v[w]? := by
  rw [Vocabulary.touchesLookup done, lastTouch .drop fun _ => rfl]
  split <;> rfl

theorem lastPut (p : Patch Word) (order : List Category) (w : Word) :
    (order.flatMap p.puts).reverse.find? (·.word == w) =
      (order.reverse.find? fun c => w ∈ p.additions.get c).map (Touch.put w) := by
  induction order with
  | nil => rfl
  | cons c rest ih =>
    rw [List.flatMap_cons, List.reverse_append, List.find?_append, ih, puts, lastTouch (.put · c) fun _ => rfl,
      List.reverse_cons, List.find?_append]
    cases rest.reverse.find? fun c => w ∈ p.additions.get c with
    | some last => rfl
    | none => by_cases inside : w ∈ p.additions.get c <;> simp [inside]

theorem lastMove (p : Patch Word) (w : Word) :
    ((p.redesignate.map fun e => Touch.move e.1 e.2).reverse.find? (·.word == w)) = (p.moved? w).map (Touch.move w) := by
  rw [moved?, ← List.map_reverse, List.find?_map, Option.map_map]
  simp only [Function.comp_def, Touch.word]
  cases found : p.redesignate.reverse.find? (·.1 == w) with
  | none => rfl
  | some m =>
    obtain rfl : m.1 = w := by simpa using List.find?_some found
    rfl

theorem appliedLookup (applied : p.apply v = .ok (u, totals)) (w : Word) :
    u[w]? = ((p.additions.listing? w).or (p.moved? w)).or (if w ∈ p.remove then none else v[w]?) := by
  rw [Vocabulary.touchesLookup applied, touches, putsOrder, List.reverse_append, List.reverse_append, List.find?_append,
    List.find?_append, lastPut, lastMove, lastTouch .drop fun _ => rfl, ← Tables.listing?]
  cases p.additions.listing? w with
  | some c => rfl
  | none =>
    cases p.moved? w with
    | some c => rfl
    | none => by_cases removed : w ∈ p.remove <;> simp [removed, Touch.change, Change.leaves]

theorem putsEach {order : List Category} {holds : Touch → Prop} (each : ∀ w c, holds (.put w c)) :
    ∀ t ∈ order.flatMap p.puts, holds t := by
  intro t inside
  obtain ⟨c, _, listed⟩ := List.mem_flatMap.mp inside
  obtain ⟨w, _, rfl⟩ := List.mem_map.mp listed
  exact each w c

theorem putsDone (p : Patch Word) (order : List Category) (v : Vocabulary) :
    ∃ r, v.touchAll (order.flatMap p.puts) = .ok r :=
  Vocabulary.steadyDone _ (putsEach fun _ _ => Bool.false_ne_true) v

theorem applyOutcome (p : Patch Word) (v : Vocabulary) :
    match p.stuck? v with
    | some m => p.apply v = .error m.1
    | none => ∃ r, p.apply v = .ok r := by
  obtain ⟨⟨u, totals⟩, dropped⟩ := Vocabulary.steadyDone (p.remove.map .drop)
    (List.forall_mem_map.mpr fun _ _ => Bool.false_ne_true) v
  have stuck : p.stuck? v = p.redesignate.find? fun m => m.1 ∉ u := by
    refine congrArg (List.find? · p.redesignate) (funext fun m => decide_eq_decide.mpr ?_)
    rw [Movable, Std.ExtTreeMap.mem_iff_isSome_getElem?, Std.ExtTreeMap.mem_iff_isSome_getElem?, dropsLeave dropped]
    by_cases removed : m.1 ∈ p.remove <;> simp [removed]
  have moved := Vocabulary.movesOutcome p.redesignate u
  rw [stuck, apply, touches, putsOrder, List.append_assoc, Vocabulary.touchAllAppend, dropped]
  simp only [Except.bind, Vocabulary.touchAllAppend]
  cases found : p.redesignate.find? fun m => m.1 ∉ u with
  | some m =>
    simp only [found] at moved
    simp [moved, Except.map]
  | none =>
    simp only [found] at moved
    obtain ⟨r, moved⟩ := moved
    obtain ⟨r', added⟩ := putsDone p Tables.foldOrder r.1
    simp [moved, added, Except.map]

theorem applySucceeds : (∃ r, p.apply v = .ok r) ↔ ∀ m ∈ p.redesignate, p.Movable v m := by
  have outcome := applyOutcome p v
  rw [← stuckNone]
  cases stuck : p.stuck? v with
  | none =>
    simp only [stuck] at outcome
    exact ⟨fun _ => rfl, fun _ => outcome⟩
  | some m =>
    simp only [stuck] at outcome
    simp [outcome]

theorem applyAgain (applied : p.apply v = .ok (u, totals)) : ∃ totals', p.apply u = .ok (u, totals') := by
  have movable := applySucceeds.mp ⟨_, applied⟩
  have look := appliedLookup applied
  have movable' : ∀ m ∈ p.redesignate, p.Movable u m := by
    intro m inside
    refine ⟨?_, (movable m inside).2⟩
    have moved : p.moved? m.1 ≠ none := fun none => movedNone.mp none m inside rfl
    rw [Std.ExtTreeMap.mem_iff_isSome_getElem?, look, Option.isSome_iff_ne_none]
    simp [moved]
  obtain ⟨⟨again, totals'⟩, applied'⟩ := applySucceeds.mpr movable'
  have same : again = u := by
    refine Std.ExtTreeMap.ext_getElem? fun {w} => ?_
    rw [appliedLookup applied', look]
    cases (p.additions.listing? w).or (p.moved? w) with
    | some c => rfl
    | none => by_cases removed : w ∈ p.remove <;> simp [removed]
  exact ⟨totals', same ▸ applied'⟩

section Fold

variable {options : Options} {dialect : String} {fault : Fault} {r : Vocabulary × Totals}

theorem foldApplied : (p.fold options dialect v).value = .ok r ↔ p.apply v = .ok r := by
  rw [fold]
  cases p.apply v <;> simp

theorem foldStuck : (p.fold options dialect v).value = .error fault ↔
    ∃ word, p.apply v = .error word ∧ fault = .unknownWord dialect p.name .redesignate word.text := by
  rw [fold]
  cases p.apply v <;> simp [eq_comm]

theorem foldSucceeds :
    (∃ r, (p.fold options dialect v).value = .ok r) ↔ ∀ m ∈ p.redesignate, p.Movable v m := by
  simp only [foldApplied, applySucceeds]

theorem foldFails : (p.fold options dialect v).value = .error fault ↔ ∃ before m after,
    p.redesignate = before ++ m :: after ∧ (∀ n ∈ before, p.Movable v n) ∧ ¬ p.Movable v m ∧
    fault = .unknownWord dialect p.name .redesignate m.1.text := by
  have outcome := applyOutcome p v
  rw [foldStuck]
  constructor
  · intro failed
    obtain ⟨word, failed, named⟩ := failed
    cases stuck : p.stuck? v with
    | none => simp [stuck, failed] at outcome
    | some m =>
      simp only [stuck, failed, Except.error.injEq] at outcome
      obtain ⟨before, after, whole, movable, unmovable⟩ := stuckSome.mp stuck
      exact ⟨before, m, after, whole, movable, unmovable, outcome ▸ named⟩
  · intro first
    obtain ⟨before, m, after, whole, movable, unmovable, named⟩ := first
    rw [stuckSome.mpr ⟨before, after, whole, movable, unmovable⟩] at outcome
    exact ⟨m.1, outcome, named⟩

end Fold

end Patch

end SqlLexicon
