import SqlLexicon.Proofs.Catalog.Locality

/-! Catalogs with other patches. A search for ancestors reads names and parents alone, so it goes the same way when
patches are exchanged, and what a dialect means stays the same if each dialect on the way does what it did before. -/
namespace SqlLexicon.Catalog

structure Revises (c : Catalog) (f : Entry → Entry) (c' : Catalog) : Prop where
  entries : c'.entries = c.entries.map f
  name : ∀ e, (f e).name = e.name
  parent : ∀ e, (f e).parent? = e.parent?

def Stands (c : Catalog) (e e' : Entry) : Prop :=
  ∀ above u, c.Lineage e above → Vocabulary.followRow ∅ above = .ok u → u.follow e'.placed = u.follow e.placed

def exchange (e e' x : Entry) : Entry := if x = e then e' else x

variable {c c' : Catalog} {f : Entry → Entry} {e e' : Entry} {above before after : List Entry} {name : String}

theorem hasRevised (revises : c.Revises f c') (name : String) : c'.has name = c.has name := by
  simp only [has, names, revises.entries, List.map_map, Function.comp_def, revises.name]

theorem findRevised (revises : c.Revises f c') (name : String) (es : List Entry) :
    (es.map f).find? (·.name == name) = (es.find? (·.name == name)).map f := by
  simp only [List.find?_map, Function.comp_def, revises.name]

theorem climbRevised (revises : c.Revises f c') (start : Entry) (path unmet : List Entry) (current : Entry) :
    c'.climb (f start) (path.map f) (unmet.map f) (f current) =
      (c.climb start path unmet current).map (List.map f) := by
  fun_induction climb c start path unmet current with
  | case1 path unmet current top => exact climbRoot ((revises.parent current).trans top)
  | case2 path unmet current name named next found ih =>
    have found' : (unmet.map f).find? (·.name == name) = some (f next) := by
      rw [findRevised revises, found, Option.map_some]
    rw [climbNext ((revises.parent current).trans named) found', ← ih]
    simp only [List.map_cons, List.eraseP_map, Function.comp_def, revises.name]
  | case3 path unmet current name named gone known =>
    have gone' : (unmet.map f).find? (·.name == name) = none := by rw [findRevised revises, gone, Option.map_none]
    rw [climbStops ((revises.parent current).trans named) gone', hasRevised revises, if_pos known]
    simp [Except.map, revises.name]
  | case4 path unmet current name named gone unknown =>
    have gone' : (unmet.map f).find? (·.name == name) = none := by rw [findRevised revises, gone, Option.map_none]
    rw [climbStops ((revises.parent current).trans named) gone', hasRevised revises, if_neg unknown, revises.name]
    rfl

theorem ancestorsRevised (revises : c.Revises f c') (e : Entry) :
    c'.ancestors (f e) = (c.ancestors e).map (List.map f) := by
  have others : c'.entries.eraseP (·.name == (f e).name) = (c.entries.eraseP (·.name == e.name)).map f := by
    simp only [revises.entries, List.eraseP_map, Function.comp_def, revises.name]
  rw [ancestors, others]
  exact climbRevised revises e [] _ e

theorem rowRevised (stands : ∀ e ∈ c.entries, c.Stands e (f e)) (member : e ∈ c.entries) (line : c.Lineage e above) :
    Vocabulary.followRow ∅ ((above ++ [e]).map f) = Vocabulary.followRow ∅ (above ++ [e]) := by
  have last {row : List Entry} {d : Entry} (inside : d ∈ c.entries) (line : c.Lineage d row)
      (upper : Vocabulary.followRow ∅ (row.map f) = Vocabulary.followRow ∅ row) :
      Vocabulary.followRow ∅ ((row ++ [d]).map f) = Vocabulary.followRow ∅ (row ++ [d]) := by
    rw [List.map_append, Vocabulary.followRowAppend, Vocabulary.followRowAppend, upper]
    cases followed : Vocabulary.followRow ∅ row with
    | error fault => rfl
    | ok u => simpa [Except.bind, Vocabulary.followRow] using stands d inside row u line followed
  induction line with
  | root top => exact last member (.root top) rfl
  | child link rest ih => exact last member (.child link rest) (ih (parentMember link))

theorem meaningRevised (revises : c.Revises f c') (stands : ∀ e ∈ c.entries, c.Stands e (f e))
    (member : e ∈ c.entries) : c'.meaning (f e) = c.meaning e := by
  have climbed := ancestorsRevised revises e
  cases answered : c.ancestors e with
  | error fault =>
    rw [answered] at climbed
    rw [(meaningUnrooted answered).1, (meaningUnrooted climbed).1]
  | ok above =>
    have line := lineageOfOk member answered
    have row := rowRevised stands member line
    rw [List.map_append, List.map_singleton] at row
    rw [answered] at climbed
    simp only [meaning, climbed, answered, Except.map, bind, Except.bind, row, revises.name]

theorem answerRevised (revises : c.Revises f c') (stands : ∀ e ∈ c.entries, c.Stands e (f e)) (name : String) :
    c'.answer (.name name) = c.answer (.name name) := by
  have found' := findRevised revises name c.entries
  rw [← revises.entries] at found'
  have same : c'.sought (.name name) = (c.sought (.name name)).map f := found'
  rw [answer, answer, same]
  cases found : c.sought (.name name) with
  | none => rfl
  | some e => exact meaningRevised revises stands (findMember found).1

theorem exchangeRevises (entries : c.entries = before ++ e :: after) (entries' : c'.entries = before ++ e' :: after)
    (named : e'.name = e.name) (parent : e'.parent? = e.parent?) : c.Revises (exchange e e') c' where
  entries := by
    have distinct : (before ++ e :: after).Nodup := entries ▸ c.distinct.of_map
    obtain ⟨_, below, apart⟩ := List.nodup_append.mp distinct
    have earlier : before.map (exchange e e') = before := by
      refine (List.map_congr_left fun x inside => if_neg ?_).trans (List.map_id' before)
      exact apart x inside e List.mem_cons_self
    have later : after.map (exchange e e') = after := by
      refine (List.map_congr_left fun x inside => if_neg fun same => ?_).trans (List.map_id' after)
      exact (List.nodup_cons.mp below).1 (same ▸ inside)
    rw [entries, entries', List.map_append, List.map_cons, earlier, later, exchange, if_pos rfl]
  name x := by
    by_cases same : x = e
    · rw [exchange, if_pos same, same, named]
    · rw [exchange, if_neg same]
  parent x := by
    by_cases same : x = e
    · rw [exchange, if_pos same, same, parent]
    · rw [exchange, if_neg same]

theorem answerExchanged (entries : c.entries = before ++ e :: after) (entries' : c'.entries = before ++ e' :: after)
    (named : e'.name = e.name) (parent : e'.parent? = e.parent?) (stands : c.Stands e e') (name : String) :
    c'.answer (.name name) = c.answer (.name name) := by
  refine answerRevised (exchangeRevises entries entries' named parent) (fun x _ => ?_) name
  by_cases same : x = e
  · rw [exchange, if_pos same, same]
    exact stands
  · rw [exchange, if_neg same]
    exact fun _ _ _ _ => rfl

end SqlLexicon.Catalog
