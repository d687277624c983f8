import SqlLexicon.Resolver.Folding

/-! Folding without its events. Every touch is kept with the dialect and the patch it belongs to, and a row of dialects
is one list of touches, followed from the first to the last or up to the first move that fails. -/
namespace SqlLexicon

theorem okOfMap {α β : Type} {f : α → β} {x : Except Fault α} {b : β} (mapped : x.map f = .ok b) :
    ∃ a, x = .ok a ∧ f a = b := by
  cases x with
  | error fault => simp [Except.map] at mapped
  | ok a => exact ⟨a, rfl, Except.ok.inj mapped⟩

theorem errorOfMap {α β : Type} {f : α → β} {x : Except Fault α} {fault : Fault} (mapped : x.map f = .error fault) :
    x = .error fault := by
  cases x with
  | error other => exact congrArg _ (Except.error.inj mapped)
  | ok a => simp [Except.map] at mapped

theorem errorMapped {α β : Type} {f : α → β} {x : Except Fault α} {fault : Fault} :
    x.map f = .error fault ↔ x = .error fault := by
  refine ⟨errorOfMap, fun failed => ?_⟩
  rw [failed]
  rfl

structure Placed where
  dialect : String
  patch : String
  touch : Touch
  deriving DecidableEq, Repr

def Placed.fault (s : Placed) : Fault := .unknownWord s.dialect s.patch .redesignate s.touch.word.text

def Patch.placed (dialect : String) (p : Patch Word) : List Placed := p.touches.map (⟨dialect, p.name, ·⟩)

def Entry.placed (e : Entry) : List Placed := e.patches.flatMap (Patch.placed e.name)

theorem Entry.placedDialect {e : Entry} {s : Placed} (inside : s ∈ e.placed) : s.dialect = e.name := by
  obtain ⟨p, _, here⟩ := List.mem_flatMap.mp inside
  obtain ⟨t, _, rfl⟩ := List.mem_map.mp here
  rfl

namespace Vocabulary

def follow (v : Vocabulary) : List Placed → Except Fault Vocabulary
  | [] => .ok v
  | s :: rest =>
    match v.touch? s.touch with
    | none => .error s.fault
    | some next => follow next rest

variable {v u : Vocabulary} {e : Entry} {row : List Entry} {fault : Fault}

theorem followAppend (v : Vocabulary) (xs ys : List Placed) :
    v.follow (xs ++ ys) = (v.follow xs).bind fun u => u.follow ys := by
  induction xs generalizing v with
  | nil => rfl
  | cons s rest ih =>
    simp only [List.cons_append, follow]
    cases v.touch? s.touch with
    | none => rfl
    | some next => exact ih next

theorem followFault {steps : List Placed} (failed : v.follow steps = .error fault) :
    ∃ s ∈ steps, fault = s.fault ∧ ∃ u : Vocabulary, u.touch? s.touch = none := by
  induction steps generalizing v with
  | nil => simp [follow] at failed
  | cons s rest ih =>
    unfold follow at failed
    cases touched : v.touch? s.touch with
    | none =>
      simp only [touched, Except.error.injEq] at failed
      exact ⟨s, List.mem_cons_self, failed.symm, v, touched⟩
    | some next =>
      simp only [touched] at failed
      obtain ⟨s', inside, stuck⟩ := ih failed
      exact ⟨s', List.mem_cons_of_mem s inside, stuck⟩

theorem followTouches (dialect patch : String) (ts : List Touch) (v : Vocabulary) :
    v.follow (ts.map (⟨dialect, patch, ·⟩)) =
      match v.touchAll ts with
      | .error word => .error (.unknownWord dialect patch .redesignate word.text)
      | .ok (last, _) => .ok last := by
  induction ts generalizing v with
  | nil => rfl
  | cons t rest ih =>
    simp only [List.map_cons, follow, touchAll]
    cases v.touch? t with
    | none => rfl
    | some next =>
      simp only [ih]
      cases next.touchAll rest <;> rfl

theorem followPatch (options : Options) (dialect : String) (p : Patch Word) (v : Vocabulary) :
    (p.fold options dialect v).value.map Prod.fst = v.follow (p.placed dialect) := by
  rw [Patch.placed, followTouches, Patch.fold, Patch.apply]
  cases v.touchAll p.touches <;> rfl

theorem followPatches (options : Options) (dialect : String) (ps : List (Patch Word)) (v : Vocabulary) :
    (foldPatches options dialect ps v).value.map Prod.fst = v.follow (ps.flatMap (Patch.placed dialect)) := by
  induction ps generalizing v with
  | nil => rfl
  | cons p rest ih =>
    rw [List.flatMap_cons, followAppend, ← followPatch options, foldPatches, Logged.valueBind]
    cases (p.fold options dialect v).value with
    | error fault => rfl
    | ok first =>
      simp only [Logged.valueBind, Except.map, Except.bind]
      rw [← ih first.1]
      cases (foldPatches options dialect rest first.1).value <;> rfl

theorem followEntry (options : Options) (e : Entry) (v : Vocabulary) :
    (e.fold options v).value = (v.follow e.placed).map (Lexicon.freeze e.name) := by
  rw [Entry.placed, ← followPatches options, Entry.fold, Logged.valueBind]
  cases (foldPatches options e.name e.patches v).value <;> rfl

theorem entryFault (failed : v.follow e.placed = .error fault) :
    ∃ patch word, fault = .unknownWord e.name patch .redesignate word := by
  obtain ⟨s, inside, rfl, _⟩ := followFault failed
  exact ⟨s.patch, s.touch.word.text, by rw [Placed.fault, Entry.placedDialect inside]⟩

def followRow (v : Vocabulary) (row : List Entry) : Except Fault Vocabulary := v.follow (row.flatMap Entry.placed)

theorem followRowCons (v : Vocabulary) (e : Entry) (rest : List Entry) :
    v.followRow (e :: rest) = (v.follow e.placed).bind fun u => u.followRow rest := by
  rw [followRow, List.flatMap_cons, followAppend]
  rfl

theorem followRowAppend (v : Vocabulary) (first rest : List Entry) :
    v.followRow (first ++ rest) = (v.followRow first).bind fun u => u.followRow rest := by
  rw [followRow, List.flatMap_append, followAppend]
  rfl

theorem followRowSnoc {w : Vocabulary} (inherited : w.followRow row = .ok v) :
    w.followRow (row ++ [e]) = v.follow e.placed := by
  rw [followRowAppend, inherited]
  simp [followRow, Except.bind]

def foldable (v : Vocabulary) : List Entry → List Entry
  | [] => []
  | e :: rest =>
    match v.follow e.placed with
    | .error _ => []
    | .ok next => e :: foldable next rest

theorem foldableMember (kept : e ∈ v.foldable row) : e ∈ row := by
  induction row generalizing v with
  | nil => simp [foldable] at kept
  | cons first rest ih =>
    unfold foldable at kept
    cases here : v.follow first.placed with
    | error fault => simp [here] at kept
    | ok next =>
      simp only [here, List.mem_cons] at kept ⊢
      exact kept.imp id ih

theorem foldableWhole (folded : v.followRow row = .ok u) : v.foldable row = row := by
  induction row generalizing v with
  | nil => rfl
  | cons e rest ih =>
    rw [followRowCons] at folded
    cases here : v.follow e.placed with
    | error fault => simp [here, Except.bind] at folded
    | ok next =>
      simp only [here, Except.bind] at folded
      simp only [foldable, here, ih folded]

theorem foldableFailed (failed : v.followRow row = .error fault) :
    ∃ e below u, row = v.foldable row ++ e :: below ∧ v.followRow (v.foldable row) = .ok u ∧
      u.follow e.placed = .error fault := by
  induction row generalizing v with
  | nil => simp [followRow, follow] at failed
  | cons e rest ih =>
    rw [followRowCons] at failed
    cases here : v.follow e.placed with
    | error first =>
      simp only [here, Except.bind, Except.error.injEq] at failed
      exact ⟨e, rest, v, by simp [foldable, here], by simp [foldable, here, followRow, follow], failed ▸ here⟩
    | ok next =>
      simp only [here, Except.bind] at failed
      obtain ⟨d, below, u, whole, folded, stopped⟩ := ih failed
      refine ⟨d, below, u, ?_, ?_, stopped⟩
      · simp only [foldable, here, List.cons_append]
        rw [← whole]
      · simp only [foldable, here, followRowCons, Except.bind, folded]

theorem foldableHead (v : Vocabulary) (row : List Entry) : ∃ below, row = v.foldable row ++ below := by
  cases followed : v.followRow row with
  | ok u => exact ⟨[], by rw [foldableWhole followed, List.append_nil]⟩
  | error fault =>
    obtain ⟨e, below, _, whole, _⟩ := foldableFailed followed
    exact ⟨e :: below, whole⟩

end Vocabulary

end SqlLexicon
