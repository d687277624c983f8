import SqlLexicon.Proofs.Catalog.Ancestry

/-! Registered dialects as an array, each linked to the place of its declared parent, and the search for ancestors as a
walk along these links. The walk may follow no more links than it is given, and it has no answer if these run out or if
a link leaves the array. One link for each registered dialect is enough from every place. -/
namespace SqlLexicon.Catalog
open Relation

inductive Link where
  | root
  | known (place : Nat)
  | missing (name : String)
  deriving DecidableEq, Repr

def link (c : Catalog) (e : Entry) : Link :=
  match e.parent? with
  | none => .root
  | some name =>
    match c.place? name with
    | some place => .known place
    | none => .missing name

def walk (c : Catalog) (start : Nat) : Nat → List Nat → Nat → Option (Except Fault (List Nat))
  | links, path, current =>
    match c.entries[current]? with
    | none => none
    | some e =>
      match c.link e with
      | .root => some (.ok path)
      | .missing name => some (.error (.unknownParent e.name name))
      | .known place =>
        match links with
        | 0 => none
        | links + 1 =>
          if place ∈ path ++ [start] then do
            let asked ← c.nameAt? start
            let chain ← (start :: path.reverse ++ [place]).mapM c.nameAt?
            some (.error (.cyclicDialect asked chain))
          else c.walk start links (place :: path) place

def placeOf (c : Catalog) (e : Entry) : Nat := c.entries.idxOf e

variable {c : Catalog} {e a : Entry} {start current : Entry} {path unmet : List Entry}

theorem entryAt (member : e ∈ c.entries) : c.entries[c.placeOf e]? = some e := List.getElem?_idxOf member

theorem nameAt (member : e ∈ c.entries) : c.nameAt? (c.placeOf e) = some e.name := by
  rw [nameAt?, entryAt member, Option.map_some]

theorem placeAt {place : Nat} (found : c.entries[place]? = some e) : c.placeOf e = place := by
  obtain ⟨inside, rfl⟩ := List.getElem?_eq_some_iff.mp found
  exact (c.distinct.of_map _).idxOf_getElem place inside

theorem placeFound (member : e ∈ c.entries) : c.place? e.name = some (c.placeOf e) := by
  cases found : c.place? e.name with
  | none => simpa using List.findIdx?_eq_none_iff.mp found e member
  | some place =>
    obtain ⟨inside, same, _⟩ := List.findIdx?_eq_some_iff_getElem.mp found
    have here : c.entries[place] = e := sameName (List.getElem_mem inside) member (by simpa using same)
    rw [placeAt (List.getElem?_eq_some_iff.mpr ⟨inside, here⟩)]

theorem placeNone {name : String} (unknown : c.has name = false) : c.place? name = none := by
  rw [place?, List.findIdx?_eq_none_iff]
  intro d member
  have other := List.find?_eq_none.mp (findNone unknown) d member
  simpa using other

theorem placeMember (row : List Entry) (member : e ∈ c.entries) : c.placeOf e ∈ row.map c.placeOf ↔ e ∈ row := by
  refine ⟨fun inside => ?_, List.mem_map_of_mem⟩
  obtain ⟨d, here, same⟩ := List.mem_map.mp inside
  exact (List.idxOf_inj member).mp same.symm ▸ here

theorem namesAt (row : List Entry) (registered : ∀ d ∈ row, d ∈ c.entries) :
    (row.map c.placeOf).mapM c.nameAt? = some (row.map Entry.name) := by
  induction row with
  | nil => rfl
  | cons d rest ih =>
    have here := nameAt (registered d List.mem_cons_self)
    have below := ih fun x inside => registered x (List.mem_cons_of_mem d inside)
    simp [List.mapM_cons, here, below]

theorem linkParent (up : c.Parent e a) : c.link e = .known (c.placeOf a) := by
  obtain ⟨name, named, found⟩ := up
  obtain ⟨member, rfl⟩ := findMember found
  simp only [link, named, placeFound member]

theorem linkMissing {name : String} (named : e.parent? = some name) (unknown : c.has name = false) :
    c.link e = .missing name := by
  simp only [link, named, placeNone unknown]

theorem walkKnown {links : Nat} (here : current ∈ c.entries) (up : c.Parent current a)
    (registered : ∀ d ∈ path ++ [start], d ∈ c.entries) :
    c.walk (c.placeOf start) (links + 1) (path.map c.placeOf) (c.placeOf current) =
      if a ∈ path ++ [start] then
        some (.error (.cyclicDialect start.name (start.name :: path.reverse.map Entry.name ++ [a.name])))
      else c.walk (c.placeOf start) links ((a :: path).map c.placeOf) (c.placeOf a) := by
  have member : a ∈ c.entries := parentMember up
  have first : c.nameAt? (c.placeOf start) = some start.name := nameAt (registered start (by simp))
  have chain := namesAt (c := c) (start :: path.reverse ++ [a]) fun d inside => by
    rcases List.mem_append.mp inside with met | last
    · exact registered d (by simpa [or_comm] using met)
    · exact List.mem_singleton.mp last ▸ member
  have met := placeMember (path ++ [start]) member
  simp only [List.map_append, List.map_cons, List.map_nil, List.map_reverse] at met chain
  rw [walk, entryAt here]
  simp only [linkParent up, met, first, chain, Option.bind_eq_bind, Option.bind_some, List.map_cons, List.map_reverse]

/- Each link that is followed takes one dialect out of the unmet ones, so links cannot run out before these do. -/
theorem walkClimb (inv : c.Climbing start path unmet current) {links : Nat} (enough : unmet.length < links) :
    c.walk (c.placeOf start) links (path.map c.placeOf) (c.placeOf current) =
      some ((c.climb start path unmet current).map (·.map c.placeOf)) := by
  have registered : ∀ d ∈ path ++ [start], d ∈ c.entries := fun d inside =>
    inv.parts.mem_iff.mpr (List.mem_append_right _ inside)
  have here : current ∈ c.entries := registered current (List.mem_of_head? inv.tip)
  obtain ⟨links, rfl⟩ : ∃ fewer, links = fewer + 1 := ⟨links - 1, by omega⟩
  fun_induction climb c start path unmet current generalizing links with
  | case1 path unmet current top => simp [walk, entryAt here, link, top, Except.map]
  | case2 path unmet current name named next found ih =>
    obtain ⟨up, inv'⟩ := climbStep inv named found
    have inside : next ∈ unmet := List.mem_of_find?_eq_some found
    have apart := (List.nodup_append.mp (inv.parts.nodup_iff.mp (c.distinct.of_map _))).2.2
    have shorter := List.length_eraseP_of_mem inside (List.find?_some found)
    have positive := List.length_pos_of_mem inside
    have left : (unmet.eraseP (·.name == name)).length < links := by omega
    obtain ⟨fewer, rfl⟩ : ∃ fewer, links = fewer + 1 := ⟨links - 1, by omega⟩
    rw [walkKnown here up registered, if_neg fun met => apart next inside next met rfl]
    refine ih inv' (fun d met => ?_) (parentMember up) fewer left
    rcases List.mem_cons.mp met with rfl | below
    · exact parentMember up
    · exact registered d below
  | case3 path unmet current name named gone known =>
    obtain ⟨met, inside, up, _⟩ := climbCloses inv named gone known
    obtain ⟨_, named', found⟩ := up
    cases Option.some.inj (named.symm.trans named')
    rw [walkKnown here ⟨name, named, found⟩ registered, if_pos inside, (findMember found).2]
    rfl
  | case4 path unmet current name named gone unknown =>
    simp [walk, entryAt here, linkMissing named (by simpa using unknown), Except.map]

theorem ancestorsWalk (member : e ∈ c.entries) :
    c.walk (c.placeOf e) c.size [] (c.placeOf e) = some ((c.ancestors e).map (·.map c.placeOf)) := by
  refine walkClimb (climbStart member) ?_
  have shorter := List.length_eraseP_of_mem member (p := (·.name == e.name)) (by simp)
  have positive := List.length_pos_of_mem member
  unfold size
  omega

theorem ancestorsDecided (c : Catalog) (place : Fin c.entries.length) :
    let e := c.entries[place]
    c.walk place c.size [] place = some ((c.ancestors e).map (·.map c.placeOf)) ∧
    ((∃ above, c.ancestors e = .ok above) ↔ c.Rooted e) ∧
    (∀ above, c.ancestors e = .ok above → c.Lineage e above ∧ ((above ++ [e]).map Entry.name).Nodup ∧
      ∀ a, a ∈ above ↔ TransGen c.Parent e a) ∧
    (∀ y p, c.ancestors e = .error (.unknownParent y p) ↔ c.Broken e y p) ∧
    ((∃ chain, c.ancestors e = .error (.cyclicDialect e.name chain)) ↔
      ¬ c.Rooted e ∧ ∀ y p, ¬ c.Broken e y p) ∧
    ((∃ above, c.ancestors e = .ok above) ∨ (∃ y p, c.ancestors e = .error (.unknownParent y p)) ∨
      ∃ chain, c.ancestors e = .error (.cyclicDialect e.name chain)) ∧
    ¬ (c.Rooted e ∧ ∃ y p, c.Broken e y p) := by
  intro e
  have member : e ∈ c.entries := List.getElem_mem place.isLt
  have here : c.placeOf e = place := placeAt (List.getElem?_eq_getElem place.isLt)
  refine ⟨here ▸ ancestorsWalk member, ancestorsRooted member, fun above answered => ?_,
    fun _ _ => ancestorsUnknown member, ancestorsCyclic member, ancestorsKinds member, ?_⟩
  · have line := lineageOfOk member answered
    exact ⟨line, lineageNames line member, fun _ => lineageMembers line⟩
  · intro both
    obtain ⟨rooted, y, p, broken⟩ := both
    exact rootedNotBroken rooted broken

example :
    let c : Catalog := ⟨[⟨"a", some "b", []⟩, ⟨"b", some "c", []⟩, ⟨"c", some "b", []⟩], by decide⟩
    c.walk 0 c.size [] 0 = some (.error (.cyclicDialect "a" ["a", "b", "c", "b"])) := by
  decide

end SqlLexicon.Catalog
