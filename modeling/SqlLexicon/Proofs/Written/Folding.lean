import SqlLexicon.Proofs.Written.Line
import SqlLexicon.Proofs.Folding.Row
import Mathlib.Data.List.Induction

/-! Following touches compared with their lines. Nothing is inherited, so the vocabulary that is followed so far holds
what stands in the lines so far, and the touch that fails is on the first line that moves an absent text. -/
namespace SqlLexicon

def Touch.change : Touch → Change
  | drop _ => .drop
  | move _ category => .move category
  | put _ category => .put category

def Placed.line (s : Placed) : Line := ⟨s.dialect, s.patch, s.touch.word.text, s.touch.change⟩

def Line.fault (line : Line) : Fault := .unknownWord line.dialect line.patch .redesignate line.text

theorem Word.textInj {a b : Word} : a.text = b.text ↔ a = b := by
  cases a
  cases b
  simp

namespace Vocabulary

variable {v u : Vocabulary} {t : Touch} {steps : List Placed}

theorem touchLookup (touched : v.touch? t = some u) (w : Word) :
    u[w]? = if t.word = w then t.change.leaves else v[w]? := by
  cases t with
  | drop word =>
    cases Option.some.inj touched
    by_cases same : word = w <;> simp [Touch.word, Touch.change, Change.leaves, Std.ExtTreeMap.getElem?_erase, same]
  | put word category =>
    cases Option.some.inj touched
    by_cases same : word = w <;> simp [Touch.word, Touch.change, Change.leaves, Std.ExtTreeMap.getElem?_insert, same]
  | move word category =>
    rw [touch?] at touched
    split at touched
    · cases Option.some.inj touched
      by_cases same : word = w <;> simp [Touch.word, Touch.change, Change.leaves, Std.ExtTreeMap.getElem?_insert, same]
    · contradiction

theorem touchFails : v.touch? t = none ↔ t.change.moves ∧ v[t.word]? = none := by
  cases t <;> simp [touch?, Touch.change, Change.moves, Touch.word]

theorem touchHolds (touched : v.touch? t = some u) (moves : t.change.moves) : (v[t.word]?).isSome := by
  rw [Option.isSome_iff_ne_none]
  intro absent
  exact Option.some_ne_none u (touched.symm.trans (touchFails.mpr ⟨moves, absent⟩))

inductive Followed (steps : List Placed) : Except Fault Vocabulary → Prop where
  | whole {v : Vocabulary} (all : AllPresent (steps.map Placed.line))
      (stands : ∀ w : Word, v[w]? = standing (steps.map Placed.line) w.text) : Followed steps (.ok v)
  | stopped {line : Line} (absent : FirstAbsent (steps.map Placed.line) line) : Followed steps (.error line.fault)

theorem followFollowed (steps : List Placed) : Followed steps (Vocabulary.follow ∅ steps) := by
  -- from the right, as a line is judged by the lines before it
  induction steps using List.reverseRecOn with
  | nil => exact .whole (fun before line after => by simp) (by simp [standing])
  | append_singleton steps s ih =>
    have lines : (steps ++ [s]).map Placed.line = steps.map Placed.line ++ [s.line] := by simp
    rw [followAppend]
    generalize Vocabulary.follow ∅ steps = answer at ih
    cases ih with
    | stopped absent => exact .stopped (lines ▸ firstAbsentSnoc absent)
    | @whole v all stands =>
      simp only [Except.bind, follow]
      cases touched : v.touch? s.touch with
      | none =>
        obtain ⟨moves, absent⟩ := touchFails.mp touched
        rw [stands] at absent
        have first : FirstAbsent ((steps ++ [s]).map Placed.line) s.line :=
          ⟨steps.map Placed.line, [], lines, all, moves, absent⟩
        exact Followed.stopped first
      | some u =>
        refine .whole (lines ▸ allPresentSnoc all fun moves => ?_) fun w => ?_
        · exact stands s.touch.word ▸ touchHolds touched moves
        · rw [touchLookup touched, stands, lines, standingSnoc]
          simp [Placed.line, Word.textInj]

end Vocabulary

end SqlLexicon
