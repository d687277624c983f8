import SqlLexicon.Proofs.Resolver.Reports

/-! A row of dialects against a single root that has all their patches. The two fold the same touches, so they leave the
same vocabulary or fail at the same touch, and only the dialect that a fault names differs. -/
namespace SqlLexicon

def Placed.under (dialect : String) (s : Placed) : Placed := { s with dialect }

def Fault.under (dialect : String) : Fault → Fault
  | .unknownWord _ patch step word => .unknownWord dialect patch step word
  | fault => fault

theorem Vocabulary.followUnder (dialect : String) (steps : List Placed) (v : Vocabulary) :
    v.follow (steps.map (Placed.under dialect)) = (v.follow steps).mapError (Fault.under dialect) := by
  induction steps generalizing v with
  | nil => rfl
  | cons s rest ih =>
    rw [List.map_cons, follow, follow, show (s.under dialect).touch = s.touch from rfl]
    cases v.touch? s.touch with
    | none => rfl
    | some next => exact ih next

theorem Entry.placedUnder (dialect : String) (e : Entry) :
    e.patches.flatMap (Patch.placed dialect) = e.placed.map (Placed.under dialect) := by
  simp only [placed, List.map_flatMap, Patch.placed, List.map_map]
  rfl

theorem rowUnder (dialect : String) (row : List Entry) : (row.flatMap Entry.patches).flatMap (Patch.placed dialect) =
    (row.flatMap Entry.placed).map (Placed.under dialect) := by
  simp only [List.flatMap_assoc, List.map_flatMap, Entry.placedUnder]

variable {e single : Entry} {above row : List Entry} {name : String}

theorem followJoined (named : single.name = name) (patches : single.patches = row.flatMap Entry.patches) :
    Vocabulary.followRow ∅ [single] = (Vocabulary.followRow ∅ row).mapError (Fault.under name) := by
  rw [Vocabulary.followRow, List.flatMap_singleton, Entry.placed, patches, named, rowUnder, Vocabulary.followUnder]
  rfl

namespace Resolver
open Catalog

theorem rowJoined {here there : Draft} {calls calls' : List Call} {q q' : Request}
    (found : here.catalog.sought q = some e) (line : here.catalog.Lineage e above)
    (found' : there.catalog.sought q' = some single) (top : single.parent? = none)
    (patches : single.patches = (above ++ [e]).flatMap Entry.patches) :
    let answer := ((here.finish.value.after calls).ask q).value.2
    let answer' := ((there.finish.value.after calls').ask q').value.2
    (∃ handle handle' parts, answer = .ok handle ∧ answer' = .ok handle' ∧
      handle'.lexicon.vocabulary = handle.lexicon.vocabulary ∧ handle'.lexicon.listing = handle.lexicon.listing ∧
      List.Forall₂ (fun x t => Reports (here.session (calls ++ [.ask q])).events x.name t) (above ++ [e]) parts ∧
      Reports (there.session (calls' ++ [.ask q'])).events single.name parts.sum) ∨
    ∃ culprit ∈ above ++ [e], ∃ patch word,
      answer = .error (.unknownWord culprit.name patch .redesignate word) ∧
      answer' = .error (.unknownWord single.name patch .redesignate word) := by
  intro answer answer'
  have line' : there.catalog.Lineage single [] := .root top
  have answered := askedAnswer here calls found line
  have answered' := askedAnswer there calls' found' line'
  rw [List.nil_append, followJoined rfl patches] at answered'
  cases followed : Vocabulary.followRow ∅ (above ++ [e]) with
  | ok v =>
    rw [followed] at answered answered'
    obtain ⟨handle, handed, frozen⟩ := okOfMap answered
    obtain ⟨handle', handed', frozen'⟩ := okOfMap answered'
    obtain ⟨totals, touched⟩ := Vocabulary.followTotals followed
    rw [rowTouches] at touched
    obtain ⟨parts, each, rfl⟩ := rowReports (soughtMember found) line (List.nil_append _).symm rfl touched
      (askedHeld found line handed)
    have touched' : Vocabulary.touchAll ∅ single.touches = .ok (v, parts.sum) := by
      rw [← touched, Entry.touches, patches, List.flatMap_assoc]
      rfl
    have report := reportsHeld (soughtMember found') line' rfl touched'
      (askedHeld found' line' handed' single (by simp))
    exact .inl ⟨handle, handle', parts, handed, handed', by rw [frozen', frozen]; rfl, by rw [frozen', frozen]; rfl,
      each, report⟩
  | error fault =>
    rw [followed] at answered answered'
    obtain ⟨s, inside, rfl, _⟩ := Vocabulary.followFault followed
    obtain ⟨culprit, member, here⟩ := List.mem_flatMap.mp inside
    refine .inr ⟨culprit, member, s.patch, s.touch.word.text, ?_, errorOfMap answered'⟩
    rw [← Entry.placedDialect here]
    exact errorOfMap answered

end Resolver

end SqlLexicon
