import SqlLexicon.Proofs.Registration.Batch
import SqlLexicon.Proofs.TransactSql.Tables

/-! Registering the built-in dialects into a draft that holds others already. Both are well formed, so only their names can
be in the way. The two are not registered together: where the second is rejected, the first stays. -/
namespace SqlLexicon.TransactSql

theorem familyBatch (draft : Draft) : draft.Batch family (register draft).value := by
  refine draft.registerAllBatch ?_ (by decide)
  exact List.forall_mem_cons.mpr ⟨transactSqlWell, List.forall_mem_singleton.mpr synapseWell⟩

theorem familyTurn (draft : Draft) :
    match draft.catalog.has "tsql", draft.catalog.has "synapse" with
    | true, _ => (register draft).value = (draft, .error (.duplicateDialect "tsql"))
    | false, true => ∃ next, draft.Appends next [transactSql] ∧
        (register draft).value = (next, .error (.duplicateDialect "synapse"))
    | false, false => ∃ next, draft.Appends next family ∧ (register draft).value = (next, .ok ()) := by
  have batch := familyBatch draft
  generalize (register draft).value = turn at batch
  cases batch with
  | whole free appended =>
    obtain ⟨first, second⟩ := List.forall_mem_cons.mp free
    have second := List.forall_mem_singleton.mp second
    simp only [show draft.catalog.has "tsql" = false from first, show draft.catalog.has "synapse" = false from second]
    exact ⟨_, appended, rfl⟩
  | @part next before after d cut free taken appended =>
    -- the batch stops at the first dialect or at the second, there being no third
    rcases before with _ | ⟨x, _ | ⟨y, before⟩⟩
    · obtain ⟨rfl, _⟩ := List.cons.inj cut
      obtain rfl := Draft.appendsNothing.mp appended
      simp only [show next.catalog.has "tsql" = true from taken]
      rfl
    · obtain ⟨rfl, rest⟩ := List.cons.inj cut
      obtain ⟨rfl, _⟩ := List.cons.inj rest
      have first := List.forall_mem_singleton.mp free
      simp only [show draft.catalog.has "tsql" = false from first, show draft.catalog.has "synapse" = true from taken]
      exact ⟨next, appended, rfl⟩
    · simp [family] at cut

theorem familyRegisters (draft : Draft) : ∃ next answer, (register draft).value = (next, answer) ∧
    (answer = .ok () ↔ draft.catalog.has "tsql" = false ∧ draft.catalog.has "synapse" = false) ∧
    (answer = .ok () → draft.Appends next [transactSql, synapse]) ∧
    (draft.catalog.has "tsql" = true → answer = .error (.duplicateDialect "tsql") ∧ next = draft) ∧
    (draft.catalog.has "tsql" = false → draft.catalog.has "synapse" = true →
      answer = .error (.duplicateDialect "synapse") ∧ draft.Appends next [transactSql]) ∧
    (∀ fault, answer = .error fault → ∃ name, fault = .duplicateDialect name) ∧
    ∀ place e, draft.catalog.entries[place]? = some e → next.catalog.entries[place]? = some e ∧
      next.catalog.place? e.name = some place ∧ next.catalog.find? e.name = some e := by
  have outcome := familyTurn draft
  cases first : draft.catalog.has "tsql" with
  | true =>
    simp only [first] at outcome
    have same : draft.Appends draft [] := Draft.appendsNothing.mpr rfl
    exact ⟨draft, _, outcome, by simp, by simp, by simp, by simp, by simp, fun _ _ => Draft.appendsKeeps same⟩
  | false =>
    cases second : draft.catalog.has "synapse" with
    | true =>
      simp only [first, second] at outcome
      obtain ⟨next, appended, turn⟩ := outcome
      exact ⟨next, _, turn, by simp, by simp, by simp, by simp [appended], by simp,
        fun _ _ => Draft.appendsKeeps appended⟩
    | false =>
      simp only [first, second] at outcome
      obtain ⟨next, appended, turn⟩ := outcome
      exact ⟨next, _, turn, by simp, fun _ => appended, by simp, by simp, by simp,
        fun _ _ => Draft.appendsKeeps appended⟩

def squatter : Dialect := .root "synapse" ⟨[], ["pool"], []⟩

theorem familyRegistersSquatter :
    let draft := Draft.attempt {} [Draft.solid, squatter]
    ∃ next, (register draft).value = (next, .error (.duplicateDialect "synapse")) ∧
      draft.Appends next [transactSql] ∧ next.catalog.place? "synapse" = some 1 := by
  intro draft
  obtain ⟨next, answer, turn, _, _, _, half, _, keeps⟩ := familyRegisters draft
  obtain ⟨rfl, appended⟩ := half (by decide +kernel) (by decide +kernel)
  have second : draft.catalog.nameAt? 1 = some "synapse" := by decide +kernel
  obtain ⟨e, here, named⟩ := Option.map_eq_some_iff.mp second
  exact ⟨next, turn, appended, named ▸ (keeps 1 e here).2.1⟩

end SqlLexicon.TransactSql
