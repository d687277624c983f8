import SqlLexicon.Dialect.Draft
import Mathlib.Data.List.Forall2

/-! What successful registrations leave behind: one entry for each dialect, in the order of registration. -/
namespace SqlLexicon

theorem Catalog.enterOk {c next : Catalog} {d : Dialect} {e : Entry} (entered : c.enter d = .ok (next, e)) :
    c.has d.name = false ∧ d.accept = .ok e ∧ next.entries = c.entries ++ [e] := by
  unfold enter at entered
  split at entered
  · contradiction
  · rename_i free
    split at entered
    · contradiction
    · rename_i d' accepted
      cases Except.ok.inj entered
      exact ⟨by simpa using free, accepted, rfl⟩

namespace Draft

theorem registerAnswer (draft : Draft) (d : Dialect) :
    (draft.register d).value.2 = (draft.catalog.enter d).map fun _ => draft.catalog.size := by
  unfold register
  cases draft.catalog.enter d <;> rfl

theorem registerKept (draft : Draft) (d : Dialect) : (draft.register d).value.1.options = draft.options := by
  unfold register
  cases draft.catalog.enter d <;> rfl

theorem registerOk {draft : Draft} {d : Dialect} {place : Nat} (done : (draft.register d).value.2 = .ok place) :
    ∃ e, d.accept = .ok e ∧ (draft.register d).value.1.catalog.entries = draft.catalog.entries ++ [e] := by
  cases entered : draft.catalog.enter d with
  | error fault => simp [register, entered] at done
  | ok pair =>
    obtain ⟨_, accepted, appended⟩ := Catalog.enterOk entered
    exact ⟨pair.2, accepted, by simpa [register, entered] using appended⟩

theorem registerAllOk {draft : Draft} {ds : List Dialect} (done : (draft.registerAll ds).value.2 = .ok ()) :
    ∃ es, List.Forall₂ (fun d e => d.accept = .ok e) ds es ∧
      (draft.registerAll ds).value.1.catalog.entries = draft.catalog.entries ++ es := by
  induction ds generalizing draft with
  | nil => exact ⟨[], .nil, by simp [registerAll]⟩
  | cons d rest ih =>
    simp only [registerAll, Logged.valueBind] at done ⊢
    cases first : (draft.register d).value.2 with
    | error fault => simp [first] at done
    | ok place =>
      simp only [first] at done ⊢
      obtain ⟨e, accepted, appended⟩ := registerOk first
      obtain ⟨es, others, whole⟩ := ih done
      exact ⟨e :: es, .cons accepted others, by rw [whole, appended, List.append_assoc, List.singleton_append]⟩

end Draft

end SqlLexicon
