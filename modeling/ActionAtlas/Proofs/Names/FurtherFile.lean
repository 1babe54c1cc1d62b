import ActionAtlas.Proofs.Names.Agreement
import ActionAtlas.Proofs.Names.Apart
import ActionAtlas.Proofs.Names.Resolution

/-!
A further source file. A name that is resolved without an alias ends in the written one, so a file
none of whose full names ends in a name that the other files write is out of their reach. Their
types stay as they are, and the types of the further file come behind them.
-/

namespace ActionAtlas.Names

/-- The name is the written one, or ends in a mark and the written one. -/
def EndsIn (name written : String) : Prop :=
  name = written ∨ '.' :: written.toList <:+ name.toList

instance : DecidableRel EndsIn := fun name written =>
  inferInstanceAs (Decidable (name = written ∨ '.' :: written.toList <:+ name.toList))

theorem endsIn_qualify (outer written : String) : EndsIn (qualify outer written) written := by
  rcases qualify_eq_or outer written with same | longer
  · exact .inl same
  · refine .inr ⟨outer.toList, ?_⟩
    rw [longer, String.toList_append, String.toList_append, List.append_assoc]
    rfl

/-- A file out of reach of the others: it declares no name of theirs, and none that ends in a name
that they write. -/
structure OutOfReach (files : List Source.File) (file : Source.File) : Prop where
  unshared : file.globalUsings = []
  unaliased : ∀ type ∈ declared files, type.scope.aliases = []
  apart : ∀ type ∈ declared files, ∀ other ∈ file.types, type.fullName ≠ other.fullName
  unnamed : ∀ type ∈ declared files, ∀ written ∈ type.writtenNames, ∀ other ∈ file.types,
    ¬EndsIn other.fullName written

namespace OutOfReach

variable {files : List Source.File} {file : Source.File} {type : Source.TypeDeclaration}
  {written name : String}

theorem declaredAs_eq_nil (reach : OutOfReach files file) (member : type ∈ declared files)
    (writes : written ∈ type.writtenNames) (ends : EndsIn name written) :
    declaredAs [file] name = [] := by
  refine List.filter_eq_nil_iff.mpr fun other inside named => ?_
  have inFile : other ∈ file.types := by simpa [declared] using inside
  apply reach.unnamed type member written writes other inFile
  rwa [eq_of_beq named]

theorem kind?_eq (reach : OutOfReach files file) (member : type ∈ declared files)
    (writes : written ∈ type.writtenNames) (ends : EndsIn name written) :
    (NameTable.ofFiles (files ++ [file])).kind? name = (NameTable.ofFiles files).kind? name := by
  rw [NameTable.kind?_ofFiles, NameTable.kind?_ofFiles, declaredAs_append,
    reach.declaredAs_eq_nil member writes ends, List.append_nil]

theorem globalUsings_eq (reach : OutOfReach files file) :
    (NameTable.ofFiles (files ++ [file])).globalUsings = (NameTable.ofFiles files).globalUsings := by
  rw [NameTable.globalUsings_ofFiles, NameTable.globalUsings_ofFiles, List.flatMap_append,
    List.flatMap_singleton, reach.unshared, List.append_nil]

/-- Without an alias a name is resolved to one that ends in it. -/
theorem endsIn_resolve (reach : OutOfReach files file) (member : type ∈ declared files)
    (all : List Source.File) (written : String) :
    EndsIn ((NameTable.ofFiles all).resolve type.scope written) written := by
  have unaliased : Unaliased type.scope written := by simp [Unaliased, reach.unaliased type member]
  rcases (resolves_resolve all type.scope written).eq_qualify unaliased with
    same | ⟨⟨outer, placed⟩, -⟩
  · exact .inl same
  · rw [placed]
    exact endsIn_qualify outer written

theorem agreesFor (reach : OutOfReach files file) (member : type ∈ declared files) :
    (NameTable.ofFiles (files ++ [file])).AgreesFor (NameTable.ofFiles files) type where
  written _ writes :=
    ⟨reach.globalUsings_eq, fun outer => reach.kind?_eq member writes (endsIn_qualify outer _)⟩
  bases name base := by
    have writes : name ∈ type.writtenNames := by
      simp [Source.TypeDeclaration.writtenNames, base]
    exact reach.kind?_eq member writes (reach.endsIn_resolve member _ name)

theorem declarations_eq (reach : OutOfReach files file) :
    (declared files).map (NameTable.ofFiles (files ++ [file])).declaration =
      (declared files).map (NameTable.ofFiles files).declaration :=
  List.map_congr_left fun _ member => (reach.agreesFor member).declaration_eq

/-- The types of the files stay as they are and in their order, and the types that the further file
makes are behind them. -/
theorem types_assemble_concat (reach : OutOfReach files file) :
    (assemble (files ++ [file])).types =
      (assemble files).types ++ typesOf (NameTable.ofFiles (files ++ [file])) file := by
  have whole : declared (files ++ [file]) = declared files ++ file.types := by simp [declared]
  have apart := namedApart_declarations (NameTable.ofFiles (files ++ [file])) reach.apart
  calc (assemble (files ++ [file])).types
      = (Assembly.ofParts ((declared (files ++ [file])).map
          (NameTable.ofFiles (files ++ [file])).declaration)).types := rfl
    _ = (Assembly.ofParts ((declared files).map
          (NameTable.ofFiles (files ++ [file])).declaration)).types
          ++ typesOf (NameTable.ofFiles (files ++ [file])) file := by
        rw [whole, List.map_append, apart.types_ofParts_append]
        rfl
    _ = (assemble files).types ++ typesOf (NameTable.ofFiles (files ++ [file])) file := by
        rw [reach.declarations_eq]
        rfl

/-- A controller with an action, and beside it the class of which the action takes a list. -/
def catalog : List Source.File :=
  let place : Source.Scope := ⟨["Shop"], [], ["System.Collections.Generic"], []⟩
  let search : Source.Method :=
    { name := "Search", kind := .ordinary, isGeneric := false, modifiers := ["public"]
      attributes := [{ name := "HttpPost", arguments := [] }]
      parameters := [{ name := "items", type := .name [("List", [.name [("Item", [])]])]
                       default? := none }] }
  [{ globalUsings := ["Microsoft.AspNetCore.Mvc"]
     types := [{ Source.TypeDeclaration.plain place "CatalogController" with
                 bases := [.name [("Controller", [])]], methods := [search] }] },
   { globalUsings := [], types := [.plain place "Item"] }]

/-- A class in another namespace that extends the controller. -/
def reports : Source.File where
  globalUsings := []
  types := [{ Source.TypeDeclaration.plain ⟨["Shop", "Office"], [], [], []⟩ "ReportController" with
              bases := [.name [("CatalogController", [])]] }]

theorem types_assemble_concat_reports :
    OutOfReach catalog reports ∧
      (assemble (catalog ++ [reports])).types =
        (assemble catalog).types ++ typesOf (NameTable.ofFiles (catalog ++ [reports])) reports ∧
      (assemble catalog).types.map TypeDeclaration.base? =
        [some "Microsoft.AspNetCore.Mvc.Controller", none] ∧
      (typesOf (NameTable.ofFiles (catalog ++ [reports])) reports).map TypeDeclaration.base? =
        [some "Shop.CatalogController"] := by
  have reach : OutOfReach catalog reports :=
    ⟨rfl, by decide +kernel, by decide +kernel, by decide +kernel⟩
  exact ⟨reach, types_assemble_concat reach, by decide +kernel, by decide +kernel⟩

end OutOfReach

end ActionAtlas.Names
