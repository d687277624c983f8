import SqlLexicon.Proofs.Resolver.Inheritance

/-! Chains of cyclic ancestries. The chain of a fault follows declared parents from the dialect that was asked for and
stops at the first name that it comes back to, so it shows the cycle to be there. A dialect has such a chain exactly if
it resolves to that fault, and never more than one. -/
namespace SqlLexicon

namespace Catalog
open Relation

/- Each name declares the next one as its parent, and the last is the only name that was met before. -/
structure Circles (c : Catalog) (name : String) (chain : List String) : Prop where
  starts : chain.head? = some name
  linked : chain.IsChain fun child parent => c.parentOf? child = some parent
  distinct : chain.dropLast.Nodup
  closes : ∃ last ∈ chain.getLast?, chain.dropLast.count last = 1
  bounded : chain.length ≤ c.size + 1

variable {c : Catalog} {e a : Entry} {start current : Entry} {path unmet : List Entry} {name parent d : String}
  {chain other : List String}

theorem declaredFound (declared : c.parentOf? name = some parent) :
    ∃ e, c.find? name = some e ∧ e.parent? = some parent :=
  Option.bind_eq_some_iff.mp declared

theorem leadsReached (found : c.find? name = some e) (path : c.Leads name parent) (upper : c.find? parent = some a) :
    c.Reaches e a := by
  induction path generalizing a with
  | refl => exact Option.some.inj (found.symm.trans upper) ▸ .refl
  | tail _ link ih =>
    obtain ⟨_, here, named⟩ := declaredFound link
    exact .tail (ih here) ⟨_, named, upper⟩

theorem chainLeads (linked : (name :: chain).IsChain fun child parent => c.parentOf? child = some parent) :
    ∀ n ∈ name :: chain, c.Leads name n := by
  have below := linked.cons_induction (c.Leads name) chain (fun _ _ link path => path.tail link) .refl
  exact List.forall_mem_cons.mpr ⟨.refl, below⟩

theorem circlesCut (circles : c.Circles name chain) : ∃ way close round,
    chain = way ++ close :: (round ++ [close]) ∧ (way ++ close :: round).Nodup := by
  obtain ⟨last, final, once⟩ := circles.closes
  have met : last ∈ chain.dropLast := List.count_pos_iff.mp (by omega)
  obtain ⟨way, round, earlier⟩ := List.append_of_mem met
  refine ⟨way, last, round, ?_, earlier ▸ circles.distinct⟩
  rw [← List.dropLast_append_getLast? last final, earlier]
  simp

theorem circlesRegistered (circles : c.Circles name chain) : ∀ n ∈ chain, ∃ e, c.find? n = some e := by
  obtain ⟨way, close, round, rfl, _⟩ := circlesCut circles
  intro n inside
  have earlier : n ∈ way ++ close :: round := by
    simp only [List.mem_append, List.mem_cons, List.not_mem_nil] at inside ⊢
    tauto
  obtain ⟨before, after, whole⟩ := List.append_of_mem earlier
  have linked := circles.linked
  rw [← List.cons_append, ← List.append_assoc, whole, List.append_assoc, List.cons_append] at linked
  obtain ⟨next, rest, onward⟩ : ∃ next rest, after ++ [close] = next :: rest := List.exists_cons_of_ne_nil (by simp)
  rw [onward, List.isChain_append_cons_cons] at linked
  obtain ⟨e, found, _⟩ := declaredFound linked.2.1
  exact ⟨e, found⟩

theorem circlesLoops (circles : c.Circles name chain) : ∃ way close round,
    chain = way ++ close :: (round ++ [close]) ∧ close ∉ way ∧
    ∀ n ∈ close :: round, ∃ e, c.find? n = some e ∧ c.Loops e := by
  have registered := circlesRegistered circles
  obtain ⟨way, close, round, rfl, distinct⟩ := circlesCut circles
  refine ⟨way, close, round, rfl, fun inside => ?_, fun n inside => ?_⟩
  · exact (List.nodup_append.mp distinct).2.2 close inside close List.mem_cons_self rfl
  have linked := circles.linked.right_of_append
  obtain ⟨a, found⟩ := registered close (by simp)
  have loop : c.Loops a := by
    obtain ⟨next, rest, onward⟩ : ∃ next rest, round ++ [close] = next :: rest := List.exists_cons_of_ne_nil (by simp)
    have back : close ∈ next :: rest := onward ▸ by simp
    rw [onward, List.isChain_cons_cons] at linked
    obtain ⟨declared, later⟩ := linked
    obtain ⟨b, upper⟩ := registered next (by simp [onward])
    obtain ⟨_, here, named⟩ := declaredFound declared
    cases Option.some.inj (found.symm.trans here)
    exact .head' ⟨next, named, upper⟩ (leadsReached upper (chainLeads later close back) found)
  obtain ⟨e, here⟩ := registered n (by simp at inside ⊢; tauto)
  have path := chainLeads linked n (by simp at inside ⊢; tauto)
  exact ⟨e, here, loopsReached (leadsReached found path here) loop⟩

theorem circlesNeither (found : c.find? name = some e) (circles : c.Circles name chain) :
    ¬ c.Rooted e ∧ ∀ y p, ¬ c.Broken e y p := by
  obtain ⟨way, close, round, whole, _, loops⟩ := circlesLoops circles
  obtain ⟨a, upper, loop⟩ := loops close List.mem_cons_self
  obtain ⟨rest, rfl⟩ := List.head?_eq_some_iff.mp circles.starts
  have path := chainLeads circles.linked close (by simp [whole])
  exact loopNeither (leadsReached found path upper) loop

theorem chainPrefix {rest rest' : List String}
    (left : (name :: rest).IsChain fun child parent => c.parentOf? child = some parent)
    (right : (name :: rest').IsChain fun child parent => c.parentOf? child = some parent) :
    rest <+: rest' ∨ rest' <+: rest := by
  induction rest generalizing name rest' with
  | nil => exact .inl List.nil_prefix
  | cons next rest ih =>
    cases rest' with
    | nil => exact .inr List.nil_prefix
    | cons next' rest' =>
      obtain ⟨up, left⟩ := List.isChain_cons_cons.mp left
      obtain ⟨up', right⟩ := List.isChain_cons_cons.mp right
      cases Option.some.inj (up.symm.trans up')
      simpa [List.cons_prefix_cons] using ih left right

theorem circlesWhole {name' : String} (circles : c.Circles name chain) (circles' : c.Circles name' other)
    (begins : chain <+: other) : chain = other := by
  obtain ⟨way, close, round, whole, _⟩ := circlesCut circles
  obtain ⟨way', close', round', whole', distinct⟩ := circlesCut circles'
  have cut : other = (way' ++ close' :: round') ++ [close'] := by simp [whole']
  rw [cut, List.prefix_concat_iff] at begins
  refine begins.elim (fun same => same.trans cut.symm) fun within => ?_
  have apart := distinct.sublist within.sublist
  simp [whole, List.nodup_append] at apart

theorem circlesUnique (circles : c.Circles name chain) (circles' : c.Circles name other) : chain = other := by
  obtain ⟨rest, rfl⟩ := List.head?_eq_some_iff.mp circles.starts
  obtain ⟨rest', rfl⟩ := List.head?_eq_some_iff.mp circles'.starts
  rcases chainPrefix circles.linked circles'.linked with begins | begins
  · exact circlesWhole circles circles' ((List.prefix_cons_inj name).mpr begins)
  · exact (circlesWhole circles' circles ((List.prefix_cons_inj name).mpr begins)).symm

theorem parentDeclared (member : e ∈ c.entries) (link : c.Parent e a) : c.parentOf? e.name = some a.name := by
  obtain ⟨_, named, found⟩ := link
  obtain ⟨_, rfl⟩ := findMember found
  rw [parentOf?, findOfMember member, Option.bind_some, named]

theorem climbingCircles {met : Entry} (inv : c.Climbing start path unmet current) (inside : met ∈ path ++ [start])
    (link : c.Parent current met) : c.Circles start.name (((path ++ [start]).reverse ++ [met]).map Entry.name) := by
  obtain ⟨parts, linked, tip⟩ := inv
  have members : ∀ e ∈ (path ++ [start]).reverse ++ [met], e ∈ c.entries := by
    have before : ∀ e ∈ path ++ [start], e ∈ c.entries := fun e here => parts.mem_iff.mpr (List.mem_append_right _ here)
    intro e here
    rcases List.mem_append.mp here with here | here
    · exact before e (List.mem_reverse.mp here)
    · exact List.mem_singleton.mp here ▸ before met inside
  have row : ((path ++ [start]).reverse ++ [met]).IsChain c.Parent := by
    refine (List.isChain_reverse.mpr linked).append (List.isChain_singleton met) fun last top up only => ?_
    rw [List.getLast?_reverse, tip] at top
    cases Option.some.inj top
    cases Option.some.inj only
    exact link
  have names : ((path ++ [start]).reverse.map Entry.name).Nodup := by
    rw [List.map_reverse, List.nodup_reverse]
    have distinct := (parts.map Entry.name).nodup_iff.mp c.distinct
    rw [List.map_append] at distinct
    exact distinct.of_append_right
  have cut : (((path ++ [start]).reverse ++ [met]).map Entry.name).dropLast =
      (path ++ [start]).reverse.map Entry.name := by
    rw [List.map_append, List.map_singleton, List.dropLast_concat]
  constructor
  case starts => simp
  case linked =>
    refine (List.isChain_map _).mpr (row.imp_of_mem_imp fun e a here _ up => ?_)
    exact parentDeclared (members e here) up
  case distinct => exact cut ▸ names
  case closes =>
    refine ⟨met.name, by rw [List.map_append, List.map_singleton, List.getLast?_concat, Option.mem_some], ?_⟩
    rw [cut]
    exact List.count_eq_one_of_mem names (List.mem_map_of_mem (List.mem_reverse.mpr inside))
  case bounded =>
    have whole := parts.length_eq
    simp only [List.length_append, List.length_map, List.length_reverse, List.length_singleton, size] at whole ⊢
    omega

theorem climbCircles (inv : c.Climbing start path unmet current)
    (answered : c.climb start path unmet current = .error (.cyclicDialect d chain)) : c.Circles start.name chain := by
  fun_induction climb c start path unmet current with
  | case1 => contradiction
  | case2 path unmet current name named next found ih => exact ih (climbStep inv named found).2 answered
  | case3 path unmet current name named gone known =>
    obtain ⟨met, inside, link, _⟩ := climbCloses inv named gone known
    have closes := climbingCircles inv inside link
    obtain ⟨_, named', found⟩ := link
    cases Option.some.inj (named.symm.trans named')
    obtain ⟨_, rfl⟩ := Fault.cyclicDialect.inj (Except.error.inj answered)
    simpa [(findMember found).2] using closes
  | case4 => cases answered

theorem meaningCircles (member : e ∈ c.entries) :
    c.meaning e = .error (.cyclicDialect d chain) ↔ d = e.name ∧ c.Circles e.name chain := by
  constructor
  · intro failed
    obtain ⟨shown, answered⟩ := (ancestorsCyclic member).mpr ((meaningCyclic member).mp ⟨d, chain, failed⟩)
    have same := failed.symm.trans (meaningUnrooted answered).1
    obtain ⟨rfl, rfl⟩ := Fault.cyclicDialect.inj (Except.error.inj same)
    exact ⟨rfl, climbCircles (climbStart member) answered⟩
  · intro circles
    obtain ⟨rfl, circles⟩ := circles
    obtain ⟨shown, answered⟩ := (ancestorsCyclic member).mpr (circlesNeither (findOfMember member) circles)
    rw [(meaningUnrooted answered).1, circlesUnique (climbCircles (climbStart member) answered) circles]

end Catalog

namespace Resolver
open Catalog

/- A request is answered with a chain in any state that calls lead to, and only with the one chain of its dialect. What
a chain comes back to is a cycle of dialects, of which the dialect that was asked for need not be one. -/
theorem cyclesCertified (draft : Draft) (calls : List Call) (q : Request) (dialect : String) (chain : List String) :
    let c := draft.catalog
    (((draft.finish.value.after calls).ask q).value.2 = .error (.cyclicDialect dialect chain) ↔
      ∃ x, c.sought q = some x ∧ dialect = x.name ∧ c.Circles x.name chain) ∧
    ∀ name, c.Circles name chain → ∃ way close round, chain = way ++ close :: (round ++ [close]) ∧ close ∉ way ∧
      ∀ n ∈ close :: round, ∃ e, c.find? n = some e ∧ c.Loops e := by
  intro c
  refine ⟨?_, fun name => circlesLoops⟩
  rw [← errorMapped (f := Handle.lexicon), finishedAnswer draft calls q, answer]
  cases found : c.sought q with
  | none => simp
  | some x => simpa using meaningCircles (soughtMember found)

def tied : Draft where
  catalog := ⟨[⟨"below", some "loop", []⟩, ⟨"loop", some "loop", []⟩], by decide⟩

theorem cyclesCertifiedTied :
    ((tied.finish.value.after [.all]).ask (.place 0)).value.2 =
      .error (.cyclicDialect "below" ["below", "loop", "loop"]) ∧
    ∃ e, tied.catalog.find? "loop" = some e ∧ tied.catalog.Loops e := by
  have circles : tied.catalog.Circles "below" ["below", "loop", "loop"] :=
    ⟨rfl, by decide, by decide, ⟨"loop", rfl, by decide⟩, by decide⟩
  obtain ⟨answered, cut⟩ := cyclesCertified tied [.all] (.place 0) "below" ["below", "loop", "loop"]
  refine ⟨answered.mpr ⟨_, rfl, rfl, circles⟩, ?_⟩
  obtain ⟨way, close, round, whole, _, loops⟩ := cut "below" circles
  have last : some "loop" = some close := by
    have tip := congrArg List.getLast? whole
    rwa [← List.cons_append, ← List.append_assoc, List.getLast?_concat] at tip
  exact Option.some.inj last ▸ loops close List.mem_cons_self

end Resolver

end SqlLexicon
