import SqlLexicon.Proofs.Folding.Row
import Mathlib.Algebra.GroupWithZero.Nat

/-! Totals of a folding that is taken in parts. Wherever a list of touches is cut, its parts leave what the whole leaves,
and their totals add up to those of the whole; so patches and dialects may be joined or split as one likes. -/
namespace SqlLexicon

namespace Totals

theorem zeroAdd (t : Totals) : 0 + t = t := by
  cases t
  simp only [HAdd.hAdd, Add.add, OfNat.ofNat, Zero.zero]
  simp

theorem addAssoc (a b c : Totals) : a + b + c = a + (b + c) := by
  cases a
  cases b
  cases c
  simp only [HAdd.hAdd, Add.add]
  simp [Nat.add_assoc]

@[simp] theorem removedZero : removed 0 = 0 := rfl

@[simp] theorem addedZero : added 0 = 0 := rfl

@[simp] theorem absentZero : absentRemovals 0 = 0 := rfl

@[simp] theorem removedAdd (a b : Totals) : (a + b).removed = a.removed + b.removed := rfl

@[simp] theorem addedAdd (a b : Totals) : (a + b).added = a.added + b.added := rfl

@[simp] theorem absentAdd (a b : Totals) : (a + b).absentRemovals = a.absentRemovals + b.absentRemovals := rfl

def columns : List (Totals → Nat) := [removed, absentRemovals, redesignated, added, overridden]

theorem columnsZero : ∀ column ∈ columns, column 0 = 0 := by
  simp only [columns, List.forall_mem_cons]
  exact ⟨rfl, rfl, rfl, rfl, rfl, List.forall_mem_nil _⟩

theorem columnsAdd (a b : Totals) : ∀ column ∈ columns, column (a + b) = column a + column b := by
  simp only [columns, List.forall_mem_cons]
  exact ⟨rfl, rfl, rfl, rfl, rfl, List.forall_mem_nil _⟩

theorem columnsSum (parts : List Totals) : ∀ column ∈ columns, column parts.sum = (parts.map column).sum := by
  intro column inside
  induction parts with
  | nil => exact columnsZero column inside
  | cons first rest ih => rw [List.sum_cons, columnsAdd _ _ column inside, ih, List.map_cons, List.sum_cons]

def weigh (weights t : Totals) : Nat :=
  weights.removed * t.removed + weights.absentRemovals * t.absentRemovals + weights.redesignated * t.redesignated +
    weights.added * t.added + weights.overridden * t.overridden

theorem weighZero (weights : Totals) : weights.weigh 0 = 0 := by
  change _ * 0 + _ * 0 + _ * 0 + _ * 0 + _ * 0 = 0
  simp

theorem weighAdd (weights a b : Totals) : weights.weigh (a + b) = weights.weigh a + weights.weigh b := by
  change _ * (_ + _) + _ * (_ + _) + _ * (_ + _) + _ * (_ + _) + _ * (_ + _) = _
  simp only [weigh, Nat.mul_add]
  omega

end Totals

def Entry.touches (e : Entry) : List Touch := e.patches.flatMap Patch.touches

theorem Entry.placedTouches (e : Entry) : e.placed.map Placed.touch = e.touches := by
  simp only [placed, touches, Patch.placed, List.map_flatMap, List.map_map, Function.comp_def, List.map_id']

theorem rowTouches (row : List Entry) : (row.flatMap Entry.placed).map Placed.touch = row.flatMap Entry.touches := by
  simp only [List.map_flatMap, Entry.placedTouches]

namespace Vocabulary

variable {v u : Vocabulary} {t : Touch} {ts : List Touch} {totals : Totals} {n : Nat}

theorem tallyDrop (v : Vocabulary) (w : Word) : v.tally (.drop w) =
    { removed := if v[w]?.isSome then 1 else 0, absentRemovals := if v[w]?.isSome then 0 else 1 } := by
  cases held : v[w]? <;> simp [tally, Std.ExtTreeMap.mem_iff_isSome_getElem?, held]

theorem tallyPut (v : Vocabulary) (w : Word) (c : Category) : v.tally (.put w c) =
    { added := if v[w]?.isNone then 1 else 0, overridden := if v[w]?.any (· ≠ c) then 1 else 0 } := by
  cases held : v[w]? with
  | none => simp [tally, held]
  | some previous =>
    by_cases same : previous = c
    · simp only [tally, held, if_pos same]
      simp [same]
      rfl
    · simp [tally, held, same]

theorem touchAllCons (done : v.touchAll (t :: ts) = .ok (u, totals)) :
    ∃ next others, v.touch? t = some next ∧ next.touchAll ts = .ok (u, others) ∧ totals = v.tally t + others := by
  rw [touchAll] at done
  cases touched : v.touch? t with
  | none => simp [touched] at done
  | some next =>
    simp only [touched] at done
    cases later : next.touchAll ts with
    | error word => simp [later] at done
    | ok result =>
      simp only [later, Except.ok.injEq, Prod.mk.injEq] at done
      obtain ⟨rfl, rfl⟩ := done
      exact ⟨next, result.2, rfl, later, rfl⟩

theorem touchAllOk {r : Vocabulary × Totals} : v.touchAll (t :: ts) = .ok r ↔
    ∃ next last, v.touch? t = some next ∧ next.touchAll ts = .ok last ∧ r = (last.1, v.tally t + last.2) := by
  constructor
  · intro done
    obtain ⟨u, totals⟩ := r
    obtain ⟨next, others, touched, later, rfl⟩ := touchAllCons done
    exact ⟨next, (u, others), touched, later, rfl⟩
  · intro parts
    obtain ⟨next, last, touched, later, rfl⟩ := parts
    simp [touchAll, touched, later]

theorem touchParts {xs ys : List Touch} (done : v.touchAll (xs ++ ys) = .ok (u, totals)) :
    ∃ w first rest, v.touchAll xs = .ok (w, first) ∧ w.touchAll ys = .ok (u, rest) ∧ totals = first + rest := by
  induction xs generalizing v totals with
  | nil => exact ⟨v, 0, totals, rfl, done, totals.zeroAdd.symm⟩
  | cons t xs ih =>
    obtain ⟨next, others, touched, later, rfl⟩ := touchAllCons done
    obtain ⟨w, first, rest, front, back, rfl⟩ := ih later
    exact ⟨w, v.tally t + first, rest, by simp [touchAll, touched, front], back, (Totals.addAssoc _ _ _).symm⟩

theorem evenlyCounted (weights : Totals) (each : ∀ t ∈ ts, ∀ v : Vocabulary, weights.weigh (v.tally t) = n)
    (done : v.touchAll ts = .ok (u, totals)) : weights.weigh totals = ts.length * n := by
  induction ts generalizing v totals with
  | nil =>
    cases Except.ok.inj done
    rw [Totals.weighZero, List.length_nil, Nat.zero_mul]
  | cons t rest ih =>
    obtain ⟨next, others, _, later, rfl⟩ := touchAllCons done
    obtain ⟨here, below⟩ := List.forall_mem_cons.mp each
    rw [Totals.weighAdd, here, ih below later, List.length_cons, Nat.succ_mul, Nat.add_comm]

theorem followTotals {steps : List Placed} (followed : v.follow steps = .ok u) :
    ∃ totals, v.touchAll (steps.map Placed.touch) = .ok (u, totals) := by
  induction steps generalizing v with
  | nil => exact ⟨0, by rw [← Except.ok.inj followed]; rfl⟩
  | cons s rest ih =>
    rw [follow] at followed
    cases touched : v.touch? s.touch with
    | none => simp [touched] at followed
    | some next =>
      simp only [touched] at followed
      obtain ⟨totals, done⟩ := ih followed
      exact ⟨v.tally s.touch + totals, by simp [touchAll, touched, done]⟩

theorem foldTotals {ps : List (Patch Word)} (options : Options) (dialect : String)
    (done : v.touchAll (ps.flatMap Patch.touches) = .ok (u, totals)) :
    (foldPatches options dialect ps v).value = .ok (u, totals) := by
  induction ps generalizing v totals with
  | nil =>
    cases Except.ok.inj done
    rfl
  | cons p rest ih =>
    rw [List.flatMap_cons] at done
    obtain ⟨w, first, others, front, back, rfl⟩ := touchParts done
    have here : (p.fold options dialect v).value = .ok (w, first) := by rw [Patch.fold, Patch.apply, front]
    simp [foldPatches, here, ih back]

theorem followTouched {e : Entry} (touched : v.touchAll e.touches = .ok (u, totals)) : v.follow e.placed = .ok u := by
  have followed := followPatches {} e.name e.patches v
  rw [foldTotals {} e.name touched] at followed
  exact followed.symm

end Vocabulary

end SqlLexicon
