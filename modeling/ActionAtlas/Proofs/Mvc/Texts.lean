import ActionAtlas.Proofs.Mvc.Seen
import ActionAtlas.Proofs.Names.Assembly

/-!
Texts that are kept for what has no value. The text of an expression without a known value, and of
a base that is no name, gets into the graph of a program or not, but never into its model.
-/

namespace ActionAtlas

/-! ### Without the texts -/

namespace Evaluated

def withoutText : Evaluated → Evaluated
  | .constant value => .constant value
  | .unresolved _ => .unresolved ""

@[simp] theorem constant?_withoutText (written : Evaluated) :
    written.withoutText.constant? = written.constant? := by
  cases written <;> rfl

theorem withoutText_eq_iff {written other : Evaluated} :
    written.withoutText = other.withoutText ↔ written.constant? = other.constant? := by
  cases written <;> cases other <;> simp [withoutText, constant?]

theorem forType_withoutText (shape : TypeShape) (written : Evaluated) :
    written.withoutText.forType shape = (written.forType shape).withoutText := by
  cases written <;> rfl

end Evaluated

def Attribute.withoutTexts (applied : Attribute) : Attribute :=
  { applied with arguments := applied.arguments.map Evaluated.withoutText }

def Parameter.withoutTexts (parameter : Parameter) : Parameter :=
  { parameter with default? := parameter.default?.map Evaluated.withoutText }

def MethodDeclaration.withoutTexts (method : MethodDeclaration) : MethodDeclaration :=
  { method with
    attributes := method.attributes.map Attribute.withoutTexts
    parameters := method.parameters.map Parameter.withoutTexts }

def TypeDeclaration.withoutTexts (type : TypeDeclaration) : TypeDeclaration :=
  { type with
    attributes := type.attributes.map Attribute.withoutTexts
    methods := type.methods.map MethodDeclaration.withoutTexts }

namespace Source

def Attribute.withoutTexts (applied : Attribute) : Attribute :=
  { applied with arguments := applied.arguments.map Evaluated.withoutText }

def Parameter.withoutTexts (parameter : Parameter) : Parameter :=
  { parameter with default? := parameter.default?.map Evaluated.withoutText }

def Method.withoutTexts (method : Method) : Method :=
  { method with
    attributes := method.attributes.map Attribute.withoutTexts
    parameters := method.parameters.map Parameter.withoutTexts }

/-- Only the names among the bases, without their type arguments. -/
def namesOfBases (bases : List TypeSyntax) : List TypeSyntax :=
  (bases.filterMap TypeSyntax.dottedName?).map fun name => .name [(name, [])]

def TypeDeclaration.withoutTexts (type : TypeDeclaration) : TypeDeclaration :=
  { type with
    bases := namesOfBases type.bases
    attributes := type.attributes.map Attribute.withoutTexts
    methods := type.methods.map Method.withoutTexts }

def File.withoutTexts (file : File) : File :=
  { file with types := file.types.map TypeDeclaration.withoutTexts }

theorem filterMap_dottedName?_namesOfBases (bases : List TypeSyntax) :
    (namesOfBases bases).filterMap TypeSyntax.dottedName? =
      bases.filterMap TypeSyntax.dottedName? := by
  have each : TypeSyntax.dottedName? ∘ (fun name => .name [(name, [])]) = some := by
    funext name
    simp [TypeSyntax.dottedName?, Text.dotted]
  rw [namesOfBases, List.filterMap_map, each, List.filterMap_some]

end Source

/-! ### Assembly -/

namespace Names

namespace NameTable

variable (table : NameTable)

theorem resolveAttributes_withoutTexts (scope : Source.Scope)
    (attributes : List Source.Attribute) :
    table.resolveAttributes scope (attributes.map Source.Attribute.withoutTexts) =
      (table.resolveAttributes scope attributes).map Attribute.withoutTexts := by
  simp only [resolveAttributes, List.map_map]
  rfl

theorem parameter_withoutTexts (scope : Source.Scope) (written : Source.Parameter) :
    table.parameter scope written.withoutTexts = (table.parameter scope written).withoutTexts := by
  simp only [NameTable.parameter, Source.Parameter.withoutTexts, Parameter.withoutTexts,
    Option.map_map, Parameter.mk.injEq, true_and]
  exact congrArg (Option.map · written.default?)
    (funext (Evaluated.forType_withoutText (table.shape scope written.type)))

theorem method_withoutTexts (owner : Source.TypeDeclaration) (written : Source.Method) :
    table.method owner.withoutTexts written.withoutTexts =
      (table.method owner written).withoutTexts := by
  have parameters : (written.parameters.map Source.Parameter.withoutTexts).map
        (table.parameter owner.innerScope) =
      (written.parameters.map (table.parameter owner.innerScope)).map
        Parameter.withoutTexts := by
    rw [List.map_map, List.map_map]
    exact congrArg (List.map · written.parameters)
      (funext (table.parameter_withoutTexts owner.innerScope))
  have attributes := table.resolveAttributes_withoutTexts owner.innerScope written.attributes
  have scope : owner.withoutTexts.innerScope = owner.innerScope := rfl
  simp only [method, Source.Method.withoutTexts, MethodDeclaration.withoutTexts, scope, parameters,
    attributes]
  rfl

theorem declaration_withoutTexts (type : Source.TypeDeclaration) :
    table.declaration type.withoutTexts = (table.declaration type).withoutTexts := by
  have bases : table.splitBases type.withoutTexts = table.splitBases type := by
    rw [splitBases, Source.TypeDeclaration.withoutTexts, Source.filterMap_dottedName?_namesOfBases]
    rfl
  have methods : (type.methods.map Source.Method.withoutTexts).map
        (table.method type.withoutTexts) =
      (type.methods.map (table.method type)).map MethodDeclaration.withoutTexts := by
    rw [List.map_map, List.map_map]
    exact congrArg (List.map · type.methods) (funext (table.method_withoutTexts type))
  have attributes := table.resolveAttributes_withoutTexts type.scope type.attributes
  simp only [declaration, bases]
  simp only [Source.TypeDeclaration.withoutTexts, TypeDeclaration.withoutTexts] at methods ⊢
  rw [methods, attributes]
  rfl

theorem ofFiles_withoutTexts (files : List Source.File) :
    ofFiles (files.map Source.File.withoutTexts) = ofFiles files := by
  simp only [ofFiles, List.flatMap_map, Source.File.withoutTexts, List.map_flatMap, List.map_map]
  rfl

end NameTable

theorem mergePart_withoutTexts (first part : TypeDeclaration) :
    mergePart first.withoutTexts part.withoutTexts = (mergePart first part).withoutTexts := by
  simp only [mergePart, TypeDeclaration.withoutTexts, List.map_append]
  rfl

namespace Assembly

theorem joined?_withoutTexts (parts : List TypeDeclaration) :
    joined? (parts.map TypeDeclaration.withoutTexts) =
      (joined? parts).map TypeDeclaration.withoutTexts := by
  cases parts with
  | nil => rfl
  | cons first later =>
      rw [List.map_cons, joined?, joined?, Option.map_some, List.foldl_map]
      congr 1
      induction later generalizing first with
      | nil => rfl
      | cons part later ih =>
          rw [List.foldl_cons, List.foldl_cons, mergePart_withoutTexts, ih]

theorem types_ofParts_withoutTexts (parts : List TypeDeclaration) :
    (ofParts (parts.map TypeDeclaration.withoutTexts)).types =
      (ofParts parts).types.map TypeDeclaration.withoutTexts := by
  have named (name : String) : partsNamed name (parts.map TypeDeclaration.withoutTexts) =
      (partsNamed name parts).map TypeDeclaration.withoutTexts := List.filter_map
  have names : fullNames (parts.map TypeDeclaration.withoutTexts) = fullNames parts := by
    rw [fullNames, List.map_map, fullNames]
    rfl
  apply List.map_injective_iff.mpr (Option.some_injective TypeDeclaration)
  rw [(holds_ofParts _).types_eq, names, List.map_map]
  have joins := congrArg (List.map (Option.map TypeDeclaration.withoutTexts))
    (holds_ofParts parts).types_eq
  rw [List.map_map, List.map_map] at joins
  simp only [named, joined?_withoutTexts]
  exact joins.symm

end Assembly

theorem types_assemble_withoutTexts (files : List Source.File) :
    (assemble (files.map Source.File.withoutTexts)).types =
      (assemble files).types.map TypeDeclaration.withoutTexts := by
  have declarations : ((files.map Source.File.withoutTexts).flatMap Source.File.types).map
        (NameTable.ofFiles files).declaration =
      ((files.flatMap Source.File.types).map (NameTable.ofFiles files).declaration).map
        TypeDeclaration.withoutTexts := by
    simp only [List.flatMap_map, List.map_flatMap, List.map_map, Source.File.withoutTexts]
    congr 1
    funext file
    exact congrArg (List.map · file.types)
      (funext (NameTable.ofFiles files).declaration_withoutTexts)
  rw [assemble, NameTable.ofFiles_withoutTexts, declarations]
  exact Assembly.types_ofParts_withoutTexts _

end Names

/-! ### Discovery -/

namespace Mvc

theorem find?_withoutTexts (marker : Marker) (attributes : List Attribute) :
    marker.find? (attributes.map Attribute.withoutTexts) =
      (marker.find? attributes).map Attribute.withoutTexts := by
  rw [Marker.find?, List.find?_map, Marker.find?]
  rfl

theorem areaArgument?_withoutTexts (marker : Attribute) :
    areaArgument? marker.withoutTexts = areaArgument? marker := by
  rw [areaArgument?, Attribute.withoutTexts, List.head?_map, areaArgument?]
  cases marker.arguments.head? with
  | none => rfl
  | some argument => rw [Option.map_some, Option.bind_some, Evaluated.constant?_withoutText]; rfl

theorem marks_withoutTexts (marker : Marker) (attributes : List Attribute) :
    marker.marks (attributes.map Attribute.withoutTexts) = marker.marks attributes := by
  rw [Marker.marks, find?_withoutTexts, Option.isSome_map, Marker.marks]

theorem ofMethod_withoutTexts (method : MethodDeclaration) :
    Action.ofMethod method.withoutTexts = Action.ofMethod method := by
  have parameters : (method.parameters.map Parameter.withoutTexts).map
        ActionParameter.ofParameter =
      method.parameters.map ActionParameter.ofParameter := by
    rw [List.map_map]
    refine List.map_congr_left fun parameter _ => ?_
    rw [Function.comp_apply, ActionParameter.ofParameter, ActionParameter.ofParameter]
    cases given : parameter.default? <;> simp [Parameter.withoutTexts, given]
  rw [Action.ofMethod, Action.ofMethod, MethodDeclaration.withoutTexts, parameters]

theorem actionsOf_withoutTexts (type : TypeDeclaration) :
    actionsOf type.withoutTexts = actionsOf type := by
  have action : isAction ∘ MethodDeclaration.withoutTexts = isAction := by
    funext method
    rw [Function.comp_apply, isAction, isAction, MethodDeclaration.withoutTexts, marks_withoutTexts]
  rw [actionsOf, TypeDeclaration.withoutTexts, List.filter_map, action, List.map_map, actionsOf]
  exact congrArg (List.map · _) (funext ofMethod_withoutTexts)

theorem seenAlike_withoutTexts (type : TypeDeclaration) : SeenAlike type type.withoutTexts where
  name_eq := rfl
  namespaceName_eq := rfl
  class_iff := .rfl
  public_iff := .rfl
  isStatic_eq := rfl
  isGeneric_eq := rfl
  isAbstract_eq := rfl
  baseName?_eq := rfl
  nonController_eq := marks_withoutTexts .nonController type.attributes
  areaMarker_eq := by
    rw [TypeDeclaration.withoutTexts, find?_withoutTexts, Option.map_map]
    exact congrArg (Option.map · _) (funext areaArgument?_withoutTexts)
  actions_eq := actionsOf_withoutTexts type

/-- The texts do not show in the model. -/
theorem discover_withoutTexts {graph other : SymbolGraph}
    (types : other.types = graph.types.map TypeDeclaration.withoutTexts) (options : Options) :
    discover options other = discover options graph := by
  apply discover_eq_of_forall₂
  rw [types, List.forall₂_map_right_iff, List.forall₂_same]
  exact fun type _ => seenAlike_withoutTexts type

/-- Files that differ in such texts only have one model. -/
theorem discover_assemble_eq {files others : List Source.File}
    (same : files.map Source.File.withoutTexts = others.map Source.File.withoutTexts)
    (options : Options) :
    discover options (Names.assemble files) = discover options (Names.assemble others) := by
  rw [← discover_withoutTexts (Names.types_assemble_withoutTexts files) options, same,
    discover_withoutTexts (Names.types_assemble_withoutTexts others) options]

end Mvc

end ActionAtlas
