import SqlLexicon.Proofs.Registration.Run

/-! Several dialects registered one after the other, up to the first that is rejected. Where all of them are well formed and
no two have one name, that is the first whose name is taken already. Those before it stay registered, and whatever was
registered earlier keeps its place. -/
namespace SqlLexicon.Draft

structure Appends (draft next : Draft) (ds : List Dialect) : Prop where
  options : next.options = draft.options
  entries : ∃ es, List.Forall₂ (fun d e => d.accept = .ok e) ds es ∧ next.catalog.entries = draft.catalog.entries ++ es

/- What registering all of the dialects comes to if nothing but their names can stand in the way. -/
inductive Batch (draft : Draft) (ds : List Dialect) : Draft × Except Fault Unit → Prop where
  | whole {next : Draft} (free : ∀ d ∈ ds, draft.catalog.has d.name = false) (appended : draft.Appends next ds) :
      Batch draft ds (next, .ok ())
  | part {next : Draft} {before after : List Dialect} {d : Dialect} (cut : ds = before ++ d :: after)
      (free : ∀ x ∈ before, draft.catalog.has x.name = false) (taken : draft.catalog.has d.name = true)
      (appended : draft.Appends next before) : Batch draft ds (next, .error (.duplicateDialect d.name))

variable {draft mid next : Draft} {ds more : List Dialect} {d : Dialect} {r : Draft × Except Fault Unit}

theorem appendsNothing : draft.Appends next [] ↔ next = draft := by
  constructor
  · intro appended
    obtain ⟨options, _, none, whole⟩ := appended
    cases none
    obtain ⟨own, ⟨entries, _⟩⟩ := draft
    obtain ⟨own', ⟨entries', _⟩⟩ := next
    obtain rfl : own' = own := options
    obtain rfl : entries' = entries := by simpa using whole
    rfl
  · rintro rfl
    exact ⟨rfl, [], .nil, by simp⟩

theorem appendsTrans (first : draft.Appends mid ds) (second : mid.Appends next more) :
    draft.Appends next (ds ++ more) := by
  obtain ⟨options, es, each, whole⟩ := first
  obtain ⟨options', es', each', whole'⟩ := second
  exact ⟨options'.trans options, es ++ es', List.rel_append each each', by rw [whole', whole, List.append_assoc]⟩

theorem appendsRegistered {place : Nat} (done : (draft.register d).value.2 = .ok place) :
    draft.Appends (draft.register d).value.1 [d] := by
  obtain ⟨e, accepted, whole⟩ := registerOk done
  exact ⟨registerKept draft d, [e], .cons accepted .nil, whole⟩

theorem appendsKeeps (appended : draft.Appends next ds) {place : Nat} {e : Entry}
    (here : draft.catalog.entries[place]? = some e) : next.catalog.entries[place]? = some e ∧
      next.catalog.place? e.name = some place ∧ next.catalog.find? e.name = some e := by
  obtain ⟨_, _, _, whole⟩ := appended
  have kept : next.catalog.entries[place]? = some e := by
    rw [whole, List.getElem?_append_left (List.getElem?_eq_some_iff.mp here).1, here]
  have member := List.mem_of_getElem? kept
  exact ⟨kept, by rw [Catalog.placeFound member, Catalog.placeAt kept], Catalog.findOfMember member⟩

theorem batchCons (appended : draft.Appends mid [d]) (free : draft.catalog.has d.name = false)
    (still : ∀ x ∈ ds, mid.catalog.has x.name = draft.catalog.has x.name) (batch : mid.Batch ds r) :
    draft.Batch (d :: ds) r := by
  cases batch with
  | whole others later =>
    exact .whole (List.forall_mem_cons.mpr ⟨free, fun x inside => (still x inside).symm.trans (others x inside)⟩)
      (appendsTrans appended later)
  | part cut others taken later =>
    subst cut
    refine .part (List.cons_append ..).symm ?_ ?_ (appendsTrans appended later)
    · refine List.forall_mem_cons.mpr ⟨free, fun x inside => ?_⟩
      exact (still x (List.mem_append_left _ inside)).symm.trans (others x inside)
    · exact (still _ (by simp)).symm.trans taken

theorem registerAllBatch (draft : Draft) (well : ∀ d ∈ ds, d.WellFormed) (distinct : (ds.map Dialect.name).Nodup) :
    draft.Batch ds (draft.registerAll ds).value := by
  induction ds generalizing draft with
  | nil => exact .whole (List.forall_mem_nil _) (appendsNothing.mpr rfl)
  | cons d rest ih =>
    obtain ⟨here, well⟩ := List.forall_mem_cons.mp well
    obtain ⟨new, distinct⟩ := List.nodup_cons.mp distinct
    simp only [registerAll, Logged.valueBind]
    cases taken : draft.catalog.has d.name with
    | true =>
      have rejected : (draft.register d).value.2 = .error (.duplicateDialect d.name) := by
        rw [registerAnswer, Catalog.enterTaken taken]
        rfl
      rw [rejected, registerRejected rejected]
      exact .part (List.nil_append _).symm (List.forall_mem_nil _) taken (appendsNothing.mpr rfl)
    | false =>
      obtain ⟨place, done⟩ := (registerAccepts draft d).mpr ⟨taken, here⟩
      simp only [done]
      -- no later name is the one just taken, so the rest of the batch finds its names as free as they were
      refine batchCons (appendsRegistered done) taken (fun x inside => ?_) (ih _ well distinct)
      exact registerHas fun same => new (same ▸ List.mem_map_of_mem inside)

end SqlLexicon.Draft
