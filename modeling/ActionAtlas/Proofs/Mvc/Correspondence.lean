import ActionAtlas.Mvc.Controller
import ActionAtlas.Proofs.Graph.Lookup

/-!
Walks through two graphs that go the same way: along the bases of types that correspond, whose bases
correspond again. A part of a graph, a graph in another order and a graph that was loaded again each
have a correspondence of their own.
-/

namespace ActionAtlas.Mvc

/-- Types of two graphs that correspond have the same name and write the same base. Their bases
correspond again, unless neither has one. -/
structure Correspondence (graph other : SymbolGraph)
    (corresponds : TypeDeclaration → TypeDeclaration → Prop) : Prop where
  fullName_eq : ∀ type type', corresponds type type' → type'.fullName = type.fullName
  baseName?_eq : ∀ type type', corresponds type type' → type'.baseName? = type.baseName?
  above : ∀ type type', corresponds type type' →
    Option.Rel corresponds (graph.baseOf? type) (other.baseOf? type')

namespace Correspondence

variable {graph other : SymbolGraph} {corresponds : TypeDeclaration → TypeDeclaration → Prop}
  {type type' : TypeDeclaration}

theorem lineageFrom (matching : Correspondence graph other corresponds) (steps : Nat)
    (seen : List String) (start : corresponds type type') :
    List.Forall₂ corresponds (graph.lineageFrom steps seen type)
      (other.lineageFrom steps seen type') := by
  induction steps generalizing seen type type' with
  | zero => exact .nil
  | succ steps ih =>
      rw [SymbolGraph.lineageFrom, SymbolGraph.lineageFrom,
        matching.fullName_eq type type' start]
      refine .cons start ?_
      have above := matching.above type type' start
      generalize graph.baseOf? type = base?, other.baseOf? type' = base?' at above ⊢
      cases above with
      | none => exact .nil
      | some next =>
          simp only [matching.fullName_eq _ _ next]
          split
          · exact .nil
          · exact ih _ next

theorem lineage (matching : Correspondence graph other corresponds)
    (length_eq : other.types.length = graph.types.length) (start : corresponds type type') :
    List.Forall₂ corresponds (graph.lineage type) (other.lineage type') := by
  rw [SymbolGraph.lineage, SymbolGraph.lineage, length_eq]
  exact matching.lineageFrom _ _ start

/-- Searches that stand at the bases of types that correspond, and have met the same names, end
alike. -/
theorem answer?_eq (matching : Correspondence graph other corresponds) (options : Options)
    (steps : Nat) (met : List String) (start : corresponds type type') :
    BaseSearch.answer? options other steps ⟨met, type'.baseName?⟩ =
      BaseSearch.answer? options graph steps ⟨met, type.baseName?⟩ := by
  -- Both searches look at the same name, so they have met the same names at each step.
  induction steps generalizing met type type' with
  | zero => rfl
  | succ steps ih =>
      have above := matching.above type type' start
      rw [SymbolGraph.baseOf?, SymbolGraph.baseOf?] at above
      rw [matching.baseName?_eq type type' start] at above ⊢
      simp only [BaseSearch.answer?, BaseSearch.step]
      generalize type.baseName? = base? at above ⊢
      cases base? with
      | none => rfl
      | some base =>
          rw [Option.bind_some, Option.bind_some] at above
          by_cases wanted : options.controllerBases.contains base = true
          · simp only [if_pos wanted]
          · by_cases known : met.contains base = true
            · simp only [if_neg wanted, if_pos known]
            · simp only [if_neg wanted, if_neg known]
              generalize graph.get? base = next?, other.get? base = next?' at above ⊢
              cases above with
              | none => cases steps <;> rfl
              | some next => exact ih _ next

theorem answer?_start_eq (matching : Correspondence graph other corresponds) (options : Options)
    (steps : Nat) (start : corresponds type type') :
    (BaseSearch.start type').answer? options other steps =
      (BaseSearch.start type).answer? options graph steps := by
  rw [BaseSearch.start, BaseSearch.start, matching.fullName_eq type type' start]
  exact matching.answer?_eq options steps _ start

theorem descendsFromBase_eq (matching : Correspondence graph other corresponds)
    (options : Options) (length_eq : other.types.length = graph.types.length)
    (start : corresponds type type') :
    descendsFromBase options other type' = descendsFromBase options graph type := by
  rw [descendsFromBase, descendsFromBase, length_eq, matching.answer?_start_eq options _ start]

end Correspondence

/-! ### Types that correspond one by one -/

section

variable {graph other : SymbolGraph} {corresponds : TypeDeclaration → TypeDeclaration → Prop}
  (fullName_eq : ∀ type type', corresponds type type' → type'.fullName = type.fullName)

include fullName_eq

theorem rel_find?_of_forall₂ {types others : List TypeDeclaration}
    (each : List.Forall₂ corresponds types others) (name : String) :
    Option.Rel corresponds (types.find? fun type => type.fullName == name)
      (others.find? fun type => type.fullName == name) := by
  induction each with
  | nil => exact .none
  | cons first _ ih =>
      rw [List.find?_cons, List.find?_cons, fullName_eq _ _ first]
      split
      · exact .some first
      · exact ih

theorem rel_get?_of_forall₂ (each : List.Forall₂ corresponds graph.types other.types)
    (name : String) : Option.Rel corresponds (graph.get? name) (other.get? name) := by
  rw [SymbolGraph.get?_eq_find?, SymbolGraph.get?_eq_find?]
  exact rel_find?_of_forall₂ fullName_eq each name

theorem correspondence_of_forall₂
    (baseName?_eq : ∀ type type', corresponds type type' → type'.baseName? = type.baseName?)
    (each : List.Forall₂ corresponds graph.types other.types) :
    Correspondence graph other corresponds where
  fullName_eq := fullName_eq
  baseName?_eq := baseName?_eq
  above := by
    intro type type' start
    rw [SymbolGraph.baseOf?, SymbolGraph.baseOf?, baseName?_eq _ _ start]
    cases type.baseName? with
    | none => exact .none
    | some name => exact rel_get?_of_forall₂ fullName_eq each name

end

end ActionAtlas.Mvc
