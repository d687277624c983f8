import SqlLexicon.Proofs.Folding.Balance
import SqlLexicon.Proofs.Lexicon.Listing
import SqlLexicon.Proofs.Resolver.Reports
import SqlLexicon.Proofs.Resolver.Telling
import Mathlib.Data.List.DropRight

/-! The line that tells a dialect to be done, against the lines of its patches before it. Foldings are told one after
the other and each as a whole, so a session shows which patches a report sums up, even behind a folding that fails. -/
namespace SqlLexicon

def Event.totals? : Event → Option Totals
  | .patchFolded _ _ totals => some totals
  | _ => none

def lastLines (dialect : String) (events : List Event) : List Event :=
  events.rtakeWhile fun event => event.patching? == some dialect

def Draft.Inherits (draft : Draft) (name : String) (words : Nat) : Prop :=
  match draft.catalog.parentOf? name with
  | none => words = 0
  | some parent => ∀ calls, ∃ handle, ((draft.finish.value.after calls).resolve parent).value.2 = .ok handle ∧
      handle.lexicon.size = words

section Lines

variable {options : Options} {dialect : String} {v u : Vocabulary} {ps : List (Patch Word)} {totals : Totals}
  {events lines more : List Event}

theorem lastLinesOwn (own : ∀ event ∈ lines, event.patching? = some dialect) : lastLines dialect lines = lines := by
  simpa [lastLines, List.rtakeWhile_eq_self_iff] using own

theorem lastLinesAfter (other : ∀ event ∈ events.getLast?, event.patching? ≠ some dialect) :
    lastLines dialect (events ++ more) = lastLines dialect more := by
  rcases List.eq_nil_or_concat events with rfl | ⟨initial, last, rfl⟩
  · rfl
  · have stops : (last.patching? == some dialect) = false := by simpa using other
    have whole (length : (more.reverse.takeWhile (·.patching? == some dialect)).length = more.length) :
        more.reverse.takeWhile (·.patching? == some dialect) = more.reverse :=
      (List.takeWhile_prefix _).eq_of_length (by simpa using length)
    simpa [lastLines, List.rtakeWhile, List.takeWhile_append, stops] using fun length => (whole length).symm

theorem warningsUncounted (options : Options) (dialect : String) (p : Patch Word) (v : Vocabulary) :
    (options.warnings dialect p v).filterMap Event.totals? = [] := by
  unfold Options.warnings
  split
  · simp [Event.totals?]
  · rfl

theorem patchesCounted (folded : (foldPatches options dialect ps v).value = .ok (u, totals)) :
    let told := (foldPatches options dialect ps v).events.filterMap Event.totals?
    told.length = ps.length ∧ told.sum = totals ∧ u.size + totals.removed = v.size + totals.added := by
  induction ps generalizing v totals with
  | nil =>
    cases Except.ok.inj folded
    exact ⟨rfl, rfl, rfl⟩
  | cons p rest ih =>
    obtain ⟨next, first, others, applied, rfl, later, lines⟩ := patchesDone folded
    obtain ⟨length, sum, size⟩ := ih later
    have here := Vocabulary.touchesBalance applied
    rw [lines]
    simp only [List.filterMap_append, List.filterMap_cons, Event.totals?, warningsUncounted, List.nil_append,
      List.length_cons, length, List.sum_cons, sum, Totals.removedAdd, Totals.addedAdd, true_and]
    omega

end Lines

namespace Resolver
open Catalog

variable {c : Catalog} {options : Options} {e : Entry} {v u : Vocabulary} {name : String} {patches : Nat}
  {totals : Totals} {counts : ByCategory Nat} {events before after : List Event} {above : List Entry}

theorem foldReports (told : (e.fold options v).events = before ++ .resolved name patches totals counts :: after) :
    ∃ u, foldPatches options e.name e.patches v = ⟨.ok (u, totals), before⟩ ∧
      name = e.name ∧ patches = e.patches.length ∧ counts = (Lexicon.freeze e.name u).counts := by
  have about := patchesAbout options e.name e.patches v
  cases folded : (foldPatches options e.name e.patches v).value with
  | error fault =>
    rw [entryFails folded] at told
    have here := about (.resolved name patches totals counts) (told ▸ by simp)
    cases here
  | ok result =>
    rw [entryFolds folded] at told
    rcases List.eq_nil_or_concat after with rfl | ⟨initial, last, rfl⟩
    · obtain ⟨rfl, same⟩ := List.append_inj' told rfl
      cases List.singleton_inj.mp same
      exact ⟨result.1, by rw [← folded], rfl, rfl, rfl⟩
    · have whole : _ = (before ++ .resolved name patches totals counts :: initial) ++ [last] := told.trans (by simp)
      have parts := (List.append_inj' whole rfl).1
      have here := about (.resolved name patches totals counts) (parts ▸ by simp)
      cases here

theorem foldLast
    (other : e.name = name → ∃ result, (foldPatches options e.name e.patches v).value = .ok result) :
    ∀ event ∈ (e.fold options v).events.getLast?, event.patching? ≠ some name := by
  intro event last same
  cases folded : (foldPatches options e.name e.patches v).value with
  | error fault =>
    have about := patchesAbout options e.name e.patches v event
    rw [entryFails folded] at last
    have here := about (List.mem_of_getLast? last)
    rw [same, Option.some.injEq] at here
    obtain ⟨result, done⟩ := other here.symm
    simp [folded] at done
  | ok result =>
    obtain rfl : _ = event := by simpa [entryFolds folded] using last
    cases same

structure Concludes (c : Catalog) (options : Options) (lines : List Event) (e : Entry) (above : List Entry)
    (v u : Vocabulary) (totals : Totals) : Prop where
  member : e ∈ c.entries
  line : c.Lineage e above
  inherited : Vocabulary.followRow ∅ above = .ok v
  folded : foldPatches options e.name e.patches v = ⟨.ok (u, totals), lines⟩

/- Only one folding of a dialect stands at its place, so none that fails has lines of the same dialect. -/
theorem concludesAfter {w : Vocabulary} {d : Entry} {upper : List Entry} {rest : List Event}
    (concludes : Concludes c options (lastLines e.name rest) e above v u totals) (member : d ∈ c.entries)
    (line : c.Lineage d upper) (inherited : Vocabulary.followRow ∅ upper = .ok w) :
    lastLines e.name ((d.fold options w).events ++ rest) = lastLines e.name rest := by
  refine lastLinesAfter (foldLast fun same => ?_)
  cases sameName member concludes.member same
  cases lineageUnique line concludes.line
  cases Except.ok.inj (inherited.symm.trans concludes.inherited)
  exact ⟨_, congrArg Logged.value concludes.folded⟩

theorem episodesLast (episodes : Episodes c options Event.outer events)
    (told : events = before ++ .resolved name patches totals counts :: after) :
    ∃ e above v u, Concludes c options (lastLines name before) e above v u totals ∧ name = e.name ∧
      patches = e.patches.length ∧ counts = (Lexicon.freeze e.name u).counts := by
  induction episodes generalizing before with
  | done => simp at told
  | @line event events alone _ ih =>
    cases before with
    | nil =>
      cases (List.cons.inj told).1
      cases alone
    | cons first rest =>
      obtain ⟨rfl, later⟩ := List.cons.inj told
      have apart : ∀ other ∈ [event].getLast?, other.patching? ≠ some name := by simp [outerApart alone]
      rw [← List.singleton_append, lastLinesAfter apart]
      exact ih later
  | @folding d upper w events member line inherited _ ih =>
    have behind {rest : List Event} (whole : before = (d.fold options w).events ++ rest)
        (later : events = rest ++ .resolved name patches totals counts :: after) :
        ∃ e above v u, Concludes c options (lastLines name before) e above v u totals ∧ name = e.name ∧
          patches = e.patches.length ∧ counts = (Lexicon.freeze e.name u).counts := by
      obtain ⟨e, above, v, u, concludes, rfl, more⟩ := ih later
      rw [whole, concludesAfter concludes member line inherited]
      exact ⟨e, above, v, u, concludes, rfl, more⟩
    -- the report stands behind this folding, or it is the end of it
    rcases List.append_eq_append_iff.mp told with ⟨rest, whole, later⟩ | ⟨rest, whole, later⟩
    · exact behind whole later
    · cases rest with
      | nil =>
        have ends : before = (d.fold options w).events ++ [] := by simpa using whole.symm
        exact behind ends (by simpa using later.symm)
      | cons first more =>
        obtain ⟨rfl, _⟩ := List.cons.inj later
        obtain ⟨u, folded, rfl, length, frozen⟩ := foldReports whole
        have own : lastLines d.name before = before :=
          lastLinesOwn fun event inside => patchesAbout options d.name d.patches w event (by rwa [folded])
        exact ⟨d, upper, w, u, ⟨member, line, inherited, own.symm ▸ folded⟩, rfl, length, frozen⟩

theorem parentSize {draft : Draft} (member : e ∈ draft.catalog.entries) (line : draft.catalog.Lineage e above)
    (inherited : Vocabulary.followRow ∅ above = .ok v) : draft.Inherits e.name v.size := by
  have declared : draft.catalog.parentOf? e.name = e.parent? := by simp [parentOf?, findOfMember member]
  unfold Draft.Inherits
  rw [declared]
  cases line with
  | root top =>
    rw [top]
    cases Except.ok.inj inherited
    rfl
  | @child _ a above link upper =>
    obtain ⟨parent, named, found⟩ := link
    rw [named]
    intro calls
    have answered := askedAnswer draft calls (q := .name parent) found upper
    rw [inherited] at answered
    obtain ⟨handle, handed, frozen⟩ := okOfMap answered
    exact ⟨handle, handed, by rw [frozen]; rfl⟩

theorem totalsConserved {draft : Draft} {calls : List Call}
    (told : (draft.session calls).events = before ++ .resolved name patches totals counts :: after) :
    let folded := (lastLines name before).filterMap Event.totals?
    patches = folded.length ∧ (∀ column ∈ Totals.columns, column totals = (folded.map column).sum) ∧
    (∃ e above v, draft.catalog.find? name = some e ∧ draft.catalog.Lineage e above ∧
      Vocabulary.followRow ∅ above = .ok v ∧
      (e.fold draft.options v).events = lastLines name before ++ [.resolved name patches totals counts]) ∧
    ∃ words, draft.Inherits name words ∧ totals.removed ≤ words + totals.added ∧
      counts.reserved + counts.unreserved + counts.futureReserved = words + totals.added - totals.removed := by
  intro folded
  obtain ⟨e, above, v, u, ⟨member, line, inherited, done⟩, rfl, rfl, rfl⟩ :=
    episodesLast (draftEpisodes draft calls) told
  have value := congrArg Logged.value done
  obtain ⟨length, sum, size⟩ := patchesCounted value
  rw [done] at length sum
  refine ⟨length.symm, fun column inside => ?_, ⟨e, above, v, findOfMember member, line, inherited, ?_⟩, v.size,
    parentSize member line inherited, by omega, ?_⟩
  · rw [← sum, Totals.columnsSum _ column inside]
  · rw [entryFolds value, done]
  · have counted : (Lexicon.freeze e.name u).counts.reserved + (Lexicon.freeze e.name u).counts.unreserved +
        (Lexicon.freeze e.name u).counts.futureReserved = u.size := Lexicon.entriesCounted e.name u
    rw [counted]
    omega

def hedge : Draft where
  catalog := ⟨[⟨"root", none, [Patch.toWords ⟨"base", [], [], ⟨["stem", "leaf"], ["leaf"], []⟩⟩]⟩,
    ⟨"wild", some "root", [Patch.toWords ⟨"graft", ["stem"], [("stem", .reserved)], ∅⟩]⟩,
    ⟨"trimmed", some "root", [Patch.toWords ⟨"cut", ["stem", "ghost", "stem"], [], ⟨[], ["stem"], []⟩⟩,
      Patch.toWords ⟨"grow", [], [("leaf", .reserved)], ⟨["twig", "twig"], [], []⟩⟩]⟩], by decide⟩

theorem totalsConservedHedge :
    let events := (hedge.session [.ask (.place 1), .ask (.place 2)]).events
    let folded := (lastLines "trimmed" (events.take 10)).filterMap Event.totals?
    events.drop 10 = [.resolved "trimmed" 2 ⟨1, 2, 1, 2, 0⟩ ⟨2, 1, 0⟩] ∧ folded.length = 2 ∧
    (∀ column ∈ Totals.columns, column ⟨1, 2, 1, 2, 0⟩ = (folded.map column).sum) ∧
    ∃ words, hedge.Inherits "trimmed" words ∧ 1 ≤ words + 2 ∧ 2 + 1 + 0 = words + 2 - 1 := by
  intro events folded
  have last : events.drop 10 = [.resolved "trimmed" 2 ⟨1, 2, 1, 2, 0⟩ ⟨2, 1, 0⟩] := by decide +kernel
  have told : events = events.take 10 ++ .resolved "trimmed" 2 ⟨1, 2, 1, 2, 0⟩ ⟨2, 1, 0⟩ :: [] := by
    rw [← last, List.take_append_drop]
  obtain ⟨length, sums, _, words⟩ := totalsConserved told
  exact ⟨last, length.symm, sums, words⟩

end Resolver
end SqlLexicon
