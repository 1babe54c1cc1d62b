import ActionAtlas.Proofs.Graph.NormalForm
import ActionAtlas.Proofs.Names.Assembly

/-!
Default values in the graphs of programs are held as the types of their parameters. Loading such a
graph has nothing left to convert.
-/

namespace ActionAtlas

/-! ### Settled declarations -/

/-- All default values are held as the types of their parameters. -/
def TypeDeclaration.IsSettled (type : TypeDeclaration) : Prop :=
  ∀ method ∈ type.methods, ∀ parameter ∈ method.parameters, parameter.convert = parameter

namespace Names

theorem convert_parameter (table : NameTable) (scope : Source.Scope)
    (written : Source.Parameter) :
    (table.parameter scope written).convert = table.parameter scope written := by
  cases given : written.default? with
  | none => simp [Parameter.convert, NameTable.parameter, given]
  | some value =>
      simp [Parameter.convert, NameTable.parameter, given, Evaluated.forType_forType]

theorem isSettled_declaration (table : NameTable) (type : Source.TypeDeclaration) :
    (table.declaration type).IsSettled := by
  intro method member parameter inside
  obtain ⟨written, -, rfl⟩ := List.mem_map.mp member
  obtain ⟨source, -, rfl⟩ := List.mem_map.mp inside
  exact convert_parameter table type.innerScope source

theorem isSettled_assemble (files : List Source.File) :
    ∀ type ∈ (assemble files).types, type.IsSettled := by
  intro type member method inside
  obtain ⟨first, later, -, joins⟩ := exists_joins_of_joined? (joined?_of_mem member)
  rw [joins.methods_eq, ← List.map_cons, List.flatMap_map] at inside
  obtain ⟨part, -, own⟩ := List.mem_flatMap.mp inside
  exact isSettled_declaration _ part method own

end Names

end ActionAtlas
