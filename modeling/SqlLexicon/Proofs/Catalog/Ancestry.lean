import SqlLexicon.Dialect.Lineage
import SqlLexicon.Proofs.Catalog.Parentage
import Mathlib.Data.List.Chain

/-! What the search for ancestors answers on an arbitrary parent graph: the row of proper ancestors, the first missing
parent, or a cycle. The search is compared with the parent relation alone; nothing is assumed about its end. -/
namespace SqlLexicon.Catalog
open Relation

variable {c : Catalog} {start current : Entry} {path unmet : List Entry}

theorem takenOut {α : Type} {p : α → Bool} {xs : List α} {x : α} (found : xs.find? p = some x) :
    xs.Perm (x :: xs.eraseP p) := by
  obtain ⟨holds, before, after, rfl, none⟩ := List.find?_eq_some_iff_append.mp found
  rw [List.eraseP_append_right _ (by simpa using none), List.eraseP_cons_of_pos holds]
  exact List.perm_middle

/- The climb keeps every registered dialect either met or unmet, and what it has met is one row of parent links, the
last one reached first. -/
structure Climbing (c : Catalog) (start : Entry) (path unmet : List Entry) (current : Entry) : Prop where
  parts : c.entries.Perm (unmet ++ (path ++ [start]))
  linked : (path ++ [start]).IsChain fun up down => c.Parent down up
  tip : (path ++ [start]).head? = some current

theorem climbStart (member : start ∈ c.entries) :
    c.Climbing start [] (c.entries.eraseP (·.name == start.name)) start where
  parts := (takenOut (findOfMember member)).trans (List.perm_append_singleton start _).symm
  linked := by simp
  tip := rfl

theorem climbStep {name : String} {next : Entry} (inv : c.Climbing start path unmet current)
    (named : current.parent? = some name) (found : unmet.find? (·.name == name) = some next) :
    c.Parent current next ∧ c.Climbing start (next :: path) (unmet.eraseP (·.name == name)) next := by
  have member : next ∈ c.entries :=
    inv.parts.mem_iff.mpr (List.mem_append_left _ (List.mem_of_find?_eq_some found))
  have same : next.name = name := by simpa using List.find?_some found
  have link : c.Parent current next := ⟨name, named, same ▸ findOfMember member⟩
  refine ⟨link, ?_, ?_, rfl⟩
  · refine inv.parts.trans (((takenOut found).append_right _).trans ?_)
    exact List.perm_middle.symm
  · refine List.isChain_cons.mpr ⟨fun down top => ?_, inv.linked⟩
    cases Option.some.inj (inv.tip.symm.trans top)
    exact link

theorem climbReaches (inv : c.Climbing start path unmet current) {met : Entry}
    (inside : met ∈ path ++ [start]) : c.Reaches met current := by
  obtain ⟨_, linked, tip⟩ := inv
  generalize path ++ [start] = row at linked tip inside
  induction row generalizing current with
  | nil => simp at inside
  | cons top rest ih =>
    cases Option.some.inj tip
    rcases List.mem_cons.mp inside with rfl | below
    · exact .refl
    · cases rest with
      | nil => simp at below
      | cons down rest =>
        have chain := List.isChain_cons.mp linked
        exact .tail (ih chain.2 rfl below) (chain.1 down rfl)

theorem climbCloses {name : String} (inv : c.Climbing start path unmet current)
    (named : current.parent? = some name) (gone : unmet.find? (·.name == name) = none)
    (known : c.has name = true) : ∃ met ∈ path ++ [start], c.Parent current met ∧ c.Loops current := by
  obtain ⟨met, found⟩ := hasIffFound.mp known
  obtain ⟨member, same⟩ := findMember found
  have link : c.Parent current met := ⟨name, named, found⟩
  rcases List.mem_append.mp (inv.parts.mem_iff.mp member) with free | inside
  · exact absurd same (by simpa using List.find?_eq_none.mp gone met free)
  · exact ⟨met, inside, link, .head' link (climbReaches inv inside)⟩

inductive Outcome (c : Catalog) (asked : Entry) (path : List Entry) (e : Entry) : Except Fault (List Entry) → Prop where
  | row {up : List Entry} (line : c.Lineage e up) : Outcome c asked path e (.ok (up ++ path))
  | broken {y p : String} (gap : c.Broken e y p) : Outcome c asked path e (.error (.unknownParent y p))
  | cyclic {d : Entry} {chain : List String} (way : c.Reaches e d) (loop : c.Loops d) :
      Outcome c asked path e (.error (.cyclicDialect asked.name chain))

theorem outcomeStep {asked e next : Entry} {answer : Except Fault (List Entry)} (link : c.Parent e next)
    (later : c.Outcome asked (next :: path) next answer) : c.Outcome asked path e answer := by
  cases later with
  | @row up line =>
    have longer : c.Outcome asked path e (.ok ((up ++ [next]) ++ path)) := .row (.child link line)
    simpa using longer
  | broken gap =>
    obtain ⟨d, way, rest⟩ := gap
    exact .broken ⟨d, .head link way, rest⟩
  | cyclic way loop => exact .cyclic (.head link way) loop

theorem climbOutcome (inv : c.Climbing start path unmet current) :
    c.Outcome start path current (c.climb start path unmet current) := by
  fun_induction climb c start path unmet current with
  | case1 path unmet current top => exact .row (.root top)
  | case2 path unmet current name named next found ih =>
    obtain ⟨link, inv⟩ := climbStep inv named found
    exact outcomeStep link (ih inv)
  | case3 path unmet current name named gone known =>
    obtain ⟨_, _, _, loop⟩ := climbCloses inv named gone known
    exact .cyclic .refl loop
  | case4 path unmet current name named gone unknown =>
    exact .broken ⟨current, .refl, rfl, named, by simpa using unknown⟩

variable {e : Entry} {above : List Entry}

theorem ancestorsOutcome (member : e ∈ c.entries) : c.Outcome e [] e (c.ancestors e) :=
  climbOutcome (climbStart member)

theorem ancestorsKinds (member : e ∈ c.entries) :
    (∃ above, c.ancestors e = .ok above) ∨ (∃ y p, c.ancestors e = .error (.unknownParent y p)) ∨
      ∃ chain, c.ancestors e = .error (.cyclicDialect e.name chain) := by
  generalize answered : c.ancestors e = answer
  have outcome := answered ▸ ancestorsOutcome member
  cases outcome with
  | row => exact .inl ⟨_, rfl⟩
  | broken => exact .inr (.inl ⟨_, _, rfl⟩)
  | cyclic => exact .inr (.inr ⟨_, rfl⟩)

theorem lineageOfOk (member : e ∈ c.entries) (answered : c.ancestors e = .ok above) : c.Lineage e above := by
  have outcome := answered ▸ ancestorsOutcome member
  cases outcome with
  | row line => simpa using line

theorem brokenOfUnknown {y p : String} (member : e ∈ c.entries)
    (answered : c.ancestors e = .error (.unknownParent y p)) : c.Broken e y p := by
  have outcome := answered ▸ ancestorsOutcome member
  cases outcome with
  | broken gap => exact gap

theorem neitherOfCyclic {x : String} {chain : List String} (member : e ∈ c.entries)
    (answered : c.ancestors e = .error (.cyclicDialect x chain)) : ¬ c.Rooted e ∧ ∀ y p, ¬ c.Broken e y p := by
  have outcome := answered ▸ ancestorsOutcome member
  cases outcome with
  | cyclic way loop => exact loopNeither way loop

theorem okOfRooted (member : e ∈ c.entries) (rooted : c.Rooted e) : ∃ above, c.ancestors e = .ok above := by
  rcases ancestorsKinds member with ok | ⟨y, p, unknown⟩ | ⟨chain, cyclic⟩
  · exact ok
  · exact absurd (brokenOfUnknown member unknown) (rootedNotBroken rooted)
  · exact absurd rooted (neitherOfCyclic member cyclic).1

theorem ancestorsOk (member : e ∈ c.entries) : c.ancestors e = .ok above ↔ c.Lineage e above := by
  refine ⟨lineageOfOk member, fun line => ?_⟩
  obtain ⟨found, answered⟩ := okOfRooted member (lineageRooted line)
  rw [answered, lineageUnique line (lineageOfOk member answered)]

theorem ancestorsRooted (member : e ∈ c.entries) : (∃ above, c.ancestors e = .ok above) ↔ c.Rooted e := by
  refine ⟨fun answer => ?_, okOfRooted member⟩
  obtain ⟨above, answered⟩ := answer
  exact lineageRooted (lineageOfOk member answered)

theorem rootlessIff (member : e ∈ c.entries) :
    ¬ c.Rooted e ↔ (∃ y p, c.Broken e y p) ∨ ∃ d, c.Reaches e d ∧ c.Loops d := by
  constructor
  · intro rootless
    generalize answered : c.ancestors e = answer
    have outcome := answered ▸ ancestorsOutcome member
    cases outcome with
    | row => exact absurd ((ancestorsRooted member).mp ⟨_, answered⟩) rootless
    | broken gap => exact .inl ⟨_, _, gap⟩
    | cyclic way loop => exact .inr ⟨_, way, loop⟩
  · intro lost rooted
    rcases lost with ⟨y, p, gap⟩ | ⟨d, way, loop⟩
    · exact rootedNotBroken rooted gap
    · exact (loopNeither way loop).1 rooted

theorem ancestorsUnknown {y p : String} (member : e ∈ c.entries) :
    c.ancestors e = .error (.unknownParent y p) ↔ c.Broken e y p := by
  refine ⟨brokenOfUnknown member, fun broken => ?_⟩
  rcases ancestorsKinds member with ok | ⟨y', p', unknown⟩ | ⟨chain, cyclic⟩
  · exact absurd broken (rootedNotBroken ((ancestorsRooted member).mp ok))
  · obtain ⟨rfl, rfl⟩ := brokenUnique broken (brokenOfUnknown member unknown)
    exact unknown
  · exact absurd broken ((neitherOfCyclic member cyclic).2 y p)

theorem ancestorsCyclic (member : e ∈ c.entries) :
    (∃ chain, c.ancestors e = .error (.cyclicDialect e.name chain)) ↔
      ¬ c.Rooted e ∧ ∀ y p, ¬ c.Broken e y p := by
  refine ⟨fun answer => ?_, fun neither => ?_⟩
  · obtain ⟨chain, answered⟩ := answer
    exact neitherOfCyclic member answered
  · rcases ancestorsKinds member with ok | ⟨y, p, unknown⟩ | cyclic
    · exact absurd ((ancestorsRooted member).mp ok) neither.1
    · exact absurd (brokenOfUnknown member unknown) (neither.2 y p)
    · exact cyclic

end SqlLexicon.Catalog
