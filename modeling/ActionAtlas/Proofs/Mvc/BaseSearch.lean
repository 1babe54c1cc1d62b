import ActionAtlas.Mvc.Controller
import ActionAtlas.Proofs.Graph.GenericNames
import ActionAtlas.Proofs.Graph.Lookup

/-!
The search for a controller base against the chains of bases that a graph declares.

The names a search has looked at are no controller bases, and whatever one of them leads to has
been looked at or comes next. A search that ends without success therefore has looked at every base
there is, also where bases form a cycle.
-/

namespace ActionAtlas

/-- The name of the base that the type declared under a name has. -/
def SymbolGraph.BaseAfter (graph : SymbolGraph) (name next : String) : Prop :=
  ∃ found ∈ graph.get? name, found.HasBase next

/-- The bases of a type, nearest first: the first is its own, and each further one that of the
type declared under the name before. -/
structure BaseChain (graph : SymbolGraph) (type : TypeDeclaration) (names : List String) :
    Prop where
  own : ∃ name ∈ names.head?, type.HasBase name
  linked : names.IsChain graph.BaseAfter

def SymbolGraph.baseAfter? (graph : SymbolGraph) (name : String) : Option String :=
  (graph.get? name).bind TypeDeclaration.baseName?

theorem SymbolGraph.baseAfter?_eq_some_iff {graph : SymbolGraph} {name next : String} :
    graph.baseAfter? name = some next ↔ graph.BaseAfter name next := by
  rw [baseAfter?, Option.bind_eq_some_iff]
  simp only [TypeDeclaration.baseName?_eq_some_iff]
  rfl

def SymbolGraph.ReachesBase (graph : SymbolGraph) (type : TypeDeclaration) (name : String) :
    Prop :=
  ∃ names, BaseChain graph type (names ++ [name])

namespace SymbolGraph.ReachesBase

variable {graph : SymbolGraph} {type : TypeDeclaration}

theorem first {name : String} (own : type.baseName? = some name) : graph.ReachesBase type name :=
  ⟨[], ⟨name, rfl, TypeDeclaration.baseName?_eq_some_iff.mp own⟩, List.IsChain.singleton name⟩

theorem next {name further : String} (reached : graph.ReachesBase type name)
    (link : graph.baseAfter? name = some further) : graph.ReachesBase type further := by
  obtain ⟨names, chain⟩ := reached
  refine ⟨names ++ [name], ?_, ?_⟩
  · obtain ⟨nearest, atHead, own⟩ := chain.own
    refine ⟨nearest, ?_, own⟩
    rwa [List.head?_append_of_ne_nil _ (List.append_ne_nil_of_right_ne_nil names (by simp))]
  · rw [List.isChain_append]
    refine ⟨chain.linked, List.IsChain.singleton further, ?_⟩
    intro last atEnd head atHead
    rw [List.getLast?_append, List.getLast?_singleton, Option.some_or] at atEnd
    cases atEnd
    cases atHead
    exact SymbolGraph.baseAfter?_eq_some_iff.mp link

/-- What holds of a type's own base, and of the base of each name it holds of, holds of all that
chains reach. -/
theorem induct {holds : String → Prop}
    (own : ∀ name, type.baseName? = some name → holds name)
    (step : ∀ name further, holds name → graph.baseAfter? name = some further → holds further)
    {name : String} (reached : graph.ReachesBase type name) : holds name := by
  obtain ⟨names, chain⟩ := reached
  induction names using List.reverseRecOn generalizing name with
  | nil =>
      obtain ⟨nearest, atHead, hasBase⟩ := chain.own
      cases atHead
      exact own name (TypeDeclaration.baseName?_eq_some_iff.mpr hasBase)
  | append_singleton before last ih =>
      have linked := List.isChain_append.mp chain.linked
      have shorter : BaseChain graph type (before ++ [last]) := by
        obtain ⟨nearest, atHead, hasBase⟩ := chain.own
        refine ⟨⟨nearest, ?_, hasBase⟩, linked.1⟩
        rwa [List.head?_append_of_ne_nil _
          (List.append_ne_nil_of_right_ne_nil before (by simp))] at atHead
      apply step last name (ih shorter)
      apply SymbolGraph.baseAfter?_eq_some_iff.mpr
      apply linked.2.2 last _ name rfl
      rw [List.getLast?_append, List.getLast?_singleton, Option.some_or]
      rfl

end SymbolGraph.ReachesBase

namespace Mvc

def Descends (options : Options) (graph : SymbolGraph) (type : TypeDeclaration) : Prop :=
  ∃ name ∈ options.controllerBases, graph.ReachesBase type name

namespace BaseSearch

/-- What is known of a search on its way: the names in `looked` were looked at, one after the
other, and the last of them stands first. -/
structure Underway (options : Options) (graph : SymbolGraph) (type : TypeDeclaration)
    (looked : List String) (search : BaseSearch) : Prop where
  met_eq : search.met = looked ++ [type.fullName]
  distinct : search.met.Nodup
  passed : ∀ name ∈ looked, name ∉ options.controllerBases
  reached : ∀ name, search.next? = some name → graph.ReachesBase type name
  own : ∀ name, type.baseName? = some name → name ∈ looked ∨ search.next? = some name
  closed : ∀ name ∈ looked, ∀ further, graph.baseAfter? name = some further →
    further ∈ looked ∨ search.next? = some further
  declared : search.next?.isSome →
    ∀ name ∈ search.met, name ∈ graph.types.map TypeDeclaration.fullName

variable {options : Options} {graph : SymbolGraph} {type : TypeDeclaration}

theorem underway_start_of_mem (options : Options) (member : type ∈ graph.types) :
    Underway options graph type [] (start type) where
  met_eq := rfl
  distinct := List.nodup_singleton _
  passed := by simp
  reached := fun _ own => .first own
  own := fun _ own => .inr own
  closed := by simp
  declared := by
    intro _ name met
    rw [start, List.mem_singleton] at met
    rw [met]
    exact List.mem_map_of_mem member

theorem underway_start (options : Options) (declared : graph.get? type.fullName = some type) :
    Underway options graph type [] (start type) :=
  underway_start_of_mem options (SymbolGraph.mem_of_get?_eq_some declared)

private theorem not_descends_of_closed (names : List String)
    (own : ∀ name, type.baseName? = some name → name ∈ names)
    (closed : ∀ name ∈ names, ∀ further, graph.baseAfter? name = some further → further ∈ names)
    (passed : ∀ name ∈ names, name ∉ options.controllerBases) :
    ¬Descends options graph type := by
  rintro ⟨name, wanted, reached⟩
  have inside : name ∈ names := reached.induct own fun name further member link =>
    closed name member further link
  exact passed name inside wanted

/-- What was looked at or comes next is, once it is looked at, among the names looked at. -/
private theorem mem_looked {looked : List String} {search : BaseSearch} {base name : String}
    (next : search.next? = some base) (known : name ∈ looked ∨ search.next? = some name) :
    name ∈ base :: looked := by
  rw [List.mem_cons]
  rcases known with member | same
  · exact .inr member
  · exact .inl (Option.some.inj (same.symm.trans next))

theorem Underway.passed_cons {looked : List String} {search : BaseSearch} {base : String}
    (underway : Underway options graph type looked search)
    (unwanted : ¬options.controllerBases.contains base = true) :
    ∀ name ∈ base :: looked, name ∉ options.controllerBases := by
  intro name member
  rcases List.mem_cons.mp member with same | before
  · subst same
    rwa [← List.contains_iff_mem]
  · exact underway.passed name before

/-- A search that has no base left has looked at every base. -/
theorem Underway.not_descends_of_ended {looked : List String} {search : BaseSearch}
    (underway : Underway options graph type looked search) (ended : search.next? = none) :
    ¬Descends options graph type := by
  apply not_descends_of_closed looked _ _ underway.passed
  · intro name own
    simpa [ended] using underway.own name own
  · intro name member further link
    simpa [ended] using underway.closed name member further link

/-- A base that was met before leads only to bases that were looked at. -/
theorem Underway.not_descends_of_met {looked : List String} {search : BaseSearch} {base : String}
    (underway : Underway options graph type looked search)
    (declared : graph.get? type.fullName = some type) (next : search.next? = some base)
    (unwanted : ¬options.controllerBases.contains base = true) (met : base ∈ search.met) :
    ¬Descends options graph type := by
  have after : ∀ further, graph.baseAfter? base = some further →
      further ∈ looked ∨ search.next? = some further := by
    rw [underway.met_eq, List.mem_append, List.mem_singleton] at met
    rcases met with member | same
    · exact underway.closed base member
    · -- The type was met without being looked at; its own base is the one to start from.
      intro further link
      apply underway.own
      rwa [SymbolGraph.baseAfter?, same, declared, Option.bind_some] at link
  apply not_descends_of_closed (base :: looked) _ _ (underway.passed_cons unwanted)
  · intro name own
    exact mem_looked next (underway.own name own)
  · intro name member further link
    rcases List.mem_cons.mp member with same | before
    · subst same
      exact mem_looked next (after further link)
    · exact mem_looked next (underway.closed name before further link)

theorem Underway.answered {looked : List String} {search : BaseSearch} {answer : Bool}
    (underway : Underway options graph type looked search)
    (declared : graph.get? type.fullName = some type)
    (step : search.step options graph = .answered answer) :
    answer = true ↔ Descends options graph type := by
  unfold BaseSearch.step at step
  split at step
  · next ended =>
    cases step
    exact iff_of_false Bool.false_ne_true (underway.not_descends_of_ended ended)
  · next base next =>
    split at step
    · next wanted =>
      cases step
      exact iff_of_true rfl ⟨base, List.contains_iff_mem.mp wanted, underway.reached base next⟩
    · next unwanted =>
      split at step
      · next known =>
        cases step
        have met : base ∈ search.met := List.contains_iff_mem.mp known
        exact iff_of_false Bool.false_ne_true
          (underway.not_descends_of_met declared next unwanted met)
      · cases step

theorem Underway.further {looked : List String} {search next : BaseSearch}
    (underway : Underway options graph type looked search)
    (step : search.step options graph = .further next) :
    ∃ base, search.next? = some base ∧ next.met = base :: search.met ∧
      Underway options graph type (base :: looked) next := by
  unfold BaseSearch.step at step
  split at step
  · cases step
  · next base here =>
    split at step
    · cases step
    · next unwanted =>
      split at step
      · cases step
      · next fresh =>
        cases step
        refine ⟨base, here, rfl, ?_, ?_, ?_, ?_, ?_, ?_, ?_⟩
        · rw [underway.met_eq]
          rfl
        · rw [List.nodup_cons]
          exact ⟨fun member => fresh (List.contains_iff_mem.mpr member), underway.distinct⟩
        · exact underway.passed_cons unwanted
        · intro name link
          exact (underway.reached base here).next link
        · intro name own
          exact .inl (mem_looked here (underway.own name own))
        · intro name member further link
          rcases List.mem_cons.mp member with same | before
          · subst same
            exact .inr link
          · exact .inl (mem_looked here (underway.closed name before further link))
        · intro going name member
          rcases List.mem_cons.mp member with same | before
          · subst same
            obtain ⟨further, link⟩ := Option.isSome_iff_exists.mp going
            obtain ⟨found, lookup, -⟩ := Option.bind_eq_some_iff.mp link
            exact SymbolGraph.mem_fullNames_of_get?_eq_some lookup
          · exact underway.declared (by rw [here]; rfl) name before

theorem Underway.answer?_iff {looked : List String} {search : BaseSearch} {steps : Nat}
    {answer : Bool} (underway : Underway options graph type looked search)
    (declared : graph.get? type.fullName = some type)
    (answered : search.answer? options graph steps = some answer) :
    answer = true ↔ Descends options graph type := by
  induction steps generalizing looked search with
  | zero => cases answered
  | succ steps ih =>
      rw [answer?] at answered
      split at answered
      · next given step =>
        cases answered
        exact underway.answered declared step
      · next next step =>
        obtain ⟨base, -, -, later⟩ := underway.further step
        exact ih later answered

/-- Names met while a search goes on are declared and distinct, so there are at most as many as
types. -/
theorem Underway.length_met_le {looked : List String} {search : BaseSearch}
    (underway : Underway options graph type looked search) (going : search.next?.isSome) :
    search.met.length ≤ graph.types.length := by
  have bound := underway.distinct.length_le_of_subset (underway.declared going)
  rwa [List.length_map] at bound

theorem Underway.exists_answer? {looked : List String} {search : BaseSearch}
    (underway : Underway options graph type looked search) (steps : Nat)
    (room : graph.types.length + 2 ≤ search.met.length + steps) (some_step : 0 < steps) :
    ∃ answer, search.answer? options graph steps = some answer := by
  induction steps generalizing looked search with
  | zero => cases some_step
  | succ steps ih =>
      rw [answer?]
      cases step : search.step options graph with
      | answered answer => exact ⟨answer, rfl⟩
      | further next =>
          obtain ⟨base, here, met, later⟩ := underway.further step
          have bound := underway.length_met_le (by rw [here]; rfl)
          have longer : next.met.length = search.met.length + 1 := by
            rw [met, List.length_cons]
          exact ih later (by omega) (by omega)

theorem answer?_succ {search : BaseSearch} {steps : Nat} {answer : Bool}
    (answered : search.answer? options graph steps = some answer) :
    search.answer? options graph (steps + 1) = some answer := by
  induction steps generalizing search with
  | zero => cases answered
  | succ steps ih =>
      rw [answer?] at answered ⊢
      cases step : search.step options graph with
      | answered given => rwa [step] at answered
      | further next =>
          rw [step] at answered
          exact ih answered

/-- From one step more than there are types on, the number of steps does not count. -/
theorem answer?_start (options : Options) (member : type ∈ graph.types) {steps : Nat}
    (room : graph.types.length + 1 ≤ steps) :
    (start type).answer? options graph steps = some (descendsFromBase options graph type) := by
  have underway := underway_start_of_mem options member
  obtain ⟨answer, answered⟩ := underway.exists_answer? (graph.types.length + 1)
    (by change _ ≤ 1 + _; omega) (by omega)
  have later (more : Nat) (enough : graph.types.length + 1 ≤ more) :
      (start type).answer? options graph more = some answer := by
    induction more, enough using Nat.le_induction with
    | base => exact answered
    | succ more _ ih => exact answer?_succ ih
  rw [descendsFromBase, later _ (Nat.le_succ _), later steps room, Option.getD_some]

end BaseSearch

/-- For a type that the graph declares under its name, the search ends within one step more than
there are types, and succeeds exactly if a finite chain of bases ends at a controller base. -/
theorem descendsFromBase_iff_chain (options : Options) (graph : SymbolGraph)
    (type : TypeDeclaration) (declared : graph.get? type.fullName = some type) :
    (BaseSearch.start type).answer? options graph (graph.types.length + 1) =
        some (descendsFromBase options graph type) ∧
      (descendsFromBase options graph type = true ↔
        ∃ names last, BaseChain graph type (names ++ [last]) ∧
          last ∈ options.controllerBases) := by
  have underway := BaseSearch.underway_start options declared
  obtain ⟨answer, answered⟩ := underway.exists_answer? (graph.types.length + 1)
    (by change _ ≤ 1 + _; omega) (by omega)
  have value : descendsFromBase options graph type = answer := by
    rw [descendsFromBase, BaseSearch.answer?_succ answered, Option.getD_some]
  rw [value]
  refine ⟨answered, ?_⟩
  rw [underway.answer?_iff declared answered]
  constructor
  · rintro ⟨last, wanted, names, chain⟩
    exact ⟨names, last, chain, wanted⟩
  · rintro ⟨names, last, chain, wanted⟩
    exact ⟨last, wanted, names, chain⟩

/-- A class whose base is part of a cycle. -/
def cycleEntrance : TypeDeclaration :=
  .plainClass "N" "A" (some "N.B<N.A>") []

/-- A class with a controller base behind two bases that are written with type arguments. -/
def itemPage : TypeDeclaration :=
  .plainClass "Web" "ItemPage" (some "Web.Page <Web.Item, List<Web.Item>>") []

def page : TypeDeclaration :=
  .plainClass "Web" "Page" (some "Web.Base<T>") []

def pageBase : TypeDeclaration :=
  .plainClass "Web" "Base" (some "Microsoft.AspNetCore.Mvc.Controller") []

def pageGraph : SymbolGraph :=
  .unindexed [cycleEntrance, .plainClass "N" "B" (some "N.C") [],
    .plainClass "N" "C" (some "N.B<N.C>") [], pageBase, page, itemPage]

def frameworkOptions : Options where
  controllerBases := frameworkBases
  controllerSuffix := "Controller"
  skipAbstract := true
  parallelThreshold := 256
  timeout? := none

theorem descendsFromBase_iff_chain_pages :
    pageGraph.get? itemPage.fullName = some itemPage ∧
      BaseChain pageGraph itemPage
        ["Web.Page", "Web.Base", "Microsoft.AspNetCore.Mvc.Controller"] ∧
      descendsFromBase frameworkOptions pageGraph itemPage = true ∧
      pageGraph.get? cycleEntrance.fullName = some cycleEntrance ∧
      ¬∃ names last, BaseChain pageGraph cycleEntrance (names ++ [last]) ∧
        last ∈ frameworkOptions.controllerBases := by
  have declared : pageGraph.get? itemPage.fullName = some itemPage := rfl
  have entrance : pageGraph.get? cycleEntrance.fullName = some cycleEntrance := rfl
  have own : itemPage.HasBase "Web.Page" := by
    have applied : NamesDefinition ("Web.Page" ++ " " ++ "<" ++ "Web.Item, List<Web.Item>>")
        "Web.Page" :=
      .applied (by decide) (List.forall_mem_singleton.mpr (by decide)) (by rintro c ⟨⟩; decide)
    exact ⟨_, rfl, applied⟩
  have further : page.HasBase "Web.Base" := by
    have applied : NamesDefinition ("Web.Base" ++ "" ++ "<" ++ "T>") "Web.Base" :=
      .applied (by decide) (List.forall_mem_nil _) (by rintro c ⟨⟩; decide)
    exact ⟨_, rfl, applied⟩
  have last : pageBase.HasBase "Microsoft.AspNetCore.Mvc.Controller" :=
    ⟨_, rfl, .plain (by decide)⟩
  have chain : BaseChain pageGraph itemPage
      ["Web.Page", "Web.Base", "Microsoft.AspNetCore.Mvc.Controller"] := by
    refine ⟨⟨_, rfl, own⟩, ?_⟩
    exact .cons_cons ⟨page, rfl, further⟩ (.cons_cons ⟨pageBase, rfl, last⟩ (.singleton _))
  have descends := (descendsFromBase_iff_chain frameworkOptions pageGraph itemPage declared).2
  have astray := (descendsFromBase_iff_chain frameworkOptions pageGraph cycleEntrance entrance).2
  refine ⟨declared, chain, descends.mpr ⟨["Web.Page", "Web.Base"], _, chain, by decide⟩,
    entrance, ?_⟩
  rw [← astray]
  decide +kernel

end Mvc

end ActionAtlas
