import SqlLexicon.Proofs.Folding.Applied
import SqlLexicon.Proofs.Folding.Commuting
import SqlLexicon.Proofs.Registration.Report

/-! Accepted patches are honoured in full. No two lists of an accepted patch are at odds over a word, so what each of them
says of a word holds after the patch, and the order of the add-lists does not matter. -/
namespace SqlLexicon

namespace Patch

structure Reads (q : Patch Word) (p : Patch String) : Prop where
  name : q.name = p.name
  remove : q.remove.map Word.text = p.remove.map normalForm
  redesignate : (q.redesignate.map fun m => (m.1.text, m.2)) = p.redesignate.map fun m => (normalForm m.1, m.2)
  additions : ∀ c, (q.additions.get c).map Word.text = (p.additions.get c).map normalForm

def Adds (q : Patch Word) (w : Word) : Prop := ∃ c, w ∈ q.additions.get c

structure Honours (q : Patch Word) (v u : Vocabulary) : Prop where
  added : ∀ c, ∀ w ∈ q.additions.get c, u[w]? = some c
  removed : ∀ w ∈ q.remove, ¬ q.Adds w → u[w]? = none
  redesignated : ∀ before m after, q.redesignate = before ++ m :: after → (∀ n ∈ after, n.1 ≠ m.1) → ¬ q.Adds m.1 →
    u[m.1]? = some m.2
  kept : ∀ w, w ∉ q.remove → (∀ m ∈ q.redesignate, m.1 ≠ w) → ¬ q.Adds w → u[w]? = v[w]?

def touchesIn (q : Patch Word) (order : List Category) : List Touch :=
  q.remove.map .drop ++ q.redesignate.map (fun m => .move m.1 m.2) ++ order.flatMap q.puts

variable {p : Patch String} {q : Patch Word} {v u : Vocabulary} {totals : Totals} {dialect : String} {w : Word}

theorem touchesInOrder (q : Patch Word) : q.touchesIn Tables.foldOrder = q.touches := by
  rw [touchesIn, touches, putsOrder]

theorem acceptParts (accepted : p.accept dialect = .ok q) :
    p.misspelling? = none ∧ q = p.toWords ∧ q.conflict? = none := by
  obtain ⟨well, rfl⟩ := spellOk (acceptSpelled accepted)
  rw [acceptSpells well] at accepted
  cases found : p.toWords.conflict? with
  | none => exact ⟨well, rfl, rfl⟩
  | some c => simp [found] at accepted

theorem toWordsReads (well : p.misspelling? = none) : p.toWords.Reads p where
  name := rfl
  remove := textsRead well .remove
  redesignate := by
    refine readAll fun m inside => ?_
    have listed : (.redesignate, m.1) ∈ p.steps := memSteps.mpr ⟨m.2, inside⟩
    obtain ⟨w, read, text⟩ := Word.ofShaped (shapedStep well listed)
    exact ⟨(w, m.2), by rw [read]; rfl, by rw [text]⟩
  additions := fun c => by
    rw [toWords, ByCategory.getMap]
    exact textsRead well (.add c)

theorem addedOnce (clear : q.conflict? = none) {c c' : Category} (one : w ∈ q.additions.get c)
    (other : w ∈ q.additions.get c') : c = c' := by
  by_contra apart
  rw [conflict?, ← scanned, firstConflictFree] at clear
  have listed {c : Category} (inside : w ∈ q.additions.get c) : (.add c, w) ∈ q.scanned := by
    simpa [scanned, addSteps, Tables.memEntries] using inside
  exact clear _ (listed one) _ (listed other) ⟨rfl, by simpa [Step.Exclusive] using apart⟩

theorem listingOnly (clear : q.conflict? = none) {c : Category} (inside : w ∈ q.additions.get c) :
    q.additions.listing? w = some c := by
  cases listing : q.additions.listing? w with
  | none => exact absurd inside (Tables.listingNone.mp listing c)
  | some c' => rw [addedOnce clear (Tables.listingListed listing) inside]

theorem applyHonours (clear : q.conflict? = none) (applied : q.apply v = .ok (u, totals)) : q.Honours v u := by
  have look := appliedLookup applied
  have unlisted {w : Word} (unadded : ¬ q.Adds w) : q.additions.listing? w = none :=
    Tables.listingNone.mpr fun c inside => unadded ⟨c, inside⟩
  have movable := applySucceeds.mp ⟨_, applied⟩
  constructor
  case added =>
    intro c w inside
    rw [look, listingOnly clear inside]
    rfl
  case removed =>
    intro w removed unadded
    have unmoved : q.moved? w = none := movedNone.mpr fun m inside same => (movable m inside).2 (same ▸ removed)
    rw [look, unlisted unadded, unmoved, if_pos removed]
    rfl
  case redesignated =>
    intro before m after whole last unadded
    rw [look, unlisted unadded, movedLast whole last]
    rfl
  case kept =>
    intro w unremoved unmoved unadded
    rw [look, unlisted unadded, movedNone.mpr unmoved, if_neg unremoved]
    rfl

theorem orderFree (clear : q.conflict? = none) (v : Vocabulary) {order : List Category}
    (orders : order.Perm Tables.foldOrder) : v.touchAll (q.touchesIn order) = q.apply v := by
  have distinct : Tables.foldOrder.Pairwise (· ≠ ·) := by decide
  have apart : Tables.foldOrder.Pairwise fun c c' => Apart (q.puts c) (q.puts c') := by
    refine distinct.imp fun other s left t right same => ?_
    obtain ⟨w, one, rfl⟩ := List.mem_map.mp left
    obtain ⟨w', two, rfl⟩ := List.mem_map.mp right
    obtain rfl : w = w' := same
    exact other (addedOnce clear one two)
  have alike := Vocabulary.alikeOrders orders.symm apart
  rw [apply, ← touchesInOrder, touchesIn, touchesIn, Vocabulary.touchAllAppend _ _ (order.flatMap _),
    Vocabulary.touchAllAppend _ _ (Tables.foldOrder.flatMap _)]
  -- a move that fails comes before all additions
  refine congrArg (Except.bind _) (funext fun mid => ?_)
  obtain ⟨r, added⟩ := putsDone q Tables.foldOrder mid.1
  rw [added, (alike _ _).mp added]

theorem patchHonoured (accepted : p.accept dialect = .ok q) : q.Reads p ∧ ∀ (options : Options) (v : Vocabulary),
    ((∃ r, (q.fold options dialect v).value = .ok r) ↔ ∀ m ∈ q.redesignate, q.Movable v m) ∧
    (∀ fault, (q.fold options dialect v).value = .error fault ↔ ∃ before m after,
      q.redesignate = before ++ m :: after ∧ (∀ n ∈ before, q.Movable v n) ∧ ¬ q.Movable v m ∧
      fault = .unknownWord dialect p.name .redesignate m.1.text) ∧
    (∀ u totals, (q.fold options dialect v).value = .ok (u, totals) → q.Honours v u) ∧
    ∀ order, order.Perm Tables.foldOrder → v.touchAll (q.touchesIn order) = q.apply v := by
  obtain ⟨well, rfl, clear⟩ := acceptParts accepted
  have reads := toWordsReads well
  refine ⟨reads, fun options v => ⟨foldSucceeds, fun fault => reads.name ▸ foldFails, fun u totals folded => ?_, ?_⟩⟩
  · exact applyHonours clear (foldApplied.mp folded)
  · exact fun _ => orderFree clear v

def label : Word := ⟨"LABEL", by decide +kernel, by decide +kernel⟩

def array : Word := ⟨"ARRAY", by decide +kernel, by decide +kernel⟩

def goto : Word := ⟨"GOTO", by decide +kernel, by decide +kernel⟩

def overlap : Patch String :=
  { name := "overlap", remove := ["label", "Label"],
    redesignate := [("Array", .reserved), ("array", .unreserved), ("goto", .unreserved)],
    additions := ⟨["goto"], ["LABEL"], ["top"]⟩ }

theorem patchHonouredOverlap :
    let q := overlap.toWords
    let v := Vocabulary.ofEntries [(label, .reserved), (array, .futureReserved), (goto, .unreserved)]
    (∃ u totals, (q.fold {} "d" v).value = .ok (u, totals) ∧
      u[label]? = some .unreserved ∧ u[array]? = some .unreserved ∧ u[goto]? = some .reserved) ∧
    v.touchAll (q.touchesIn [.unreserved, .reserved, .futureReserved]) = q.apply v ∧
    (q.fold {} "d" ∅).value = .error (.unknownWord "d" "overlap" .redesignate "ARRAY") := by
  intro q v
  have accepted : overlap.accept "d" = .ok q := by decide +kernel
  obtain ⟨_, honoured⟩ := patchHonoured accepted
  obtain ⟨succeeds, _, honours, orders⟩ := honoured {} v
  obtain ⟨⟨u, totals⟩, folded⟩ := succeeds.mpr (by decide +kernel)
  have said := honours u totals folded
  have unadded : ¬ q.Adds array := by
    intro added
    obtain ⟨c, inside⟩ := added
    revert inside
    cases c <;> decide +kernel
  have moves : q.redesignate = [(array, .reserved)] ++ (array, .unreserved) :: [(goto, .unreserved)] := by
    decide +kernel
  refine ⟨⟨u, totals, folded, ?_, ?_, ?_⟩, orders _ (by decide), ?_⟩
  · exact said.added .unreserved label (by decide +kernel)
  · exact said.redesignated _ (array, .unreserved) _ moves (by decide +kernel) unadded
  · exact said.added .reserved goto (by decide +kernel)
  · exact ((honoured {} ∅).2.1 _).mpr ⟨[], _, _, moves, by simp, fun movable => by simpa using movable.1, rfl⟩

end Patch

end SqlLexicon
