import ActionAtlas.Names.Assembly
import ActionAtlas.Proofs.FirstOccurrence

/-!
What the name table of source files holds: the namespaces that are in use everywhere, and the kind
of each declared type.
-/

namespace ActionAtlas

/-- A class of which nothing is written but its name. -/
def Source.TypeDeclaration.plain (scope : Scope) (name : String) : TypeDeclaration where
  name
  kind := .class
  modifiers := []
  isGeneric := false
  enclosingPublic := true
  bases := []
  attributes := []
  methods := []
  scope

namespace Names

open Source (Scope TypeSyntax)

def declared (files : List Source.File) : List Source.TypeDeclaration :=
  files.flatMap Source.File.types

/-- All declarations of a full name, in the order of the files and of their declaration. -/
def declaredAs (files : List Source.File) (name : String) : List Source.TypeDeclaration :=
  (declared files).filter fun type => type.fullName == name

def Declares (files : List Source.File) (name : String) : Prop :=
  ∃ type ∈ declared files, type.fullName = name

theorem declaredAs_append (files more : List Source.File) (name : String) :
    declaredAs (files ++ more) name = declaredAs files name ++ declaredAs more name := by
  simp [declaredAs, declared]

theorem fullName_of_mem_declaredAs {files : List Source.File} {name : String}
    {part : Source.TypeDeclaration} (member : part ∈ declaredAs files name) :
    part.fullName = name :=
  eq_of_beq (List.mem_filter.mp member).2

namespace NameTable

/-- New names are added in the order of their first occurrence. -/
theorem addNew_eq (names more : List String) :
    addNew names more = names ++ (more.removeAll names).eraseDups := by
  unfold addNew
  induction more using List.reverseRecOn with
  | nil => exact (List.append_nil names).symm
  | append_singleton before name ih =>
      have cut : (before ++ [name]).removeAll names =
          before.removeAll names ++ [name].removeAll names := List.filter_append ..
      rw [List.foldl_concat, ih, cut]
      by_cases known : name ∈ names
      · simp [List.removeAll, known]
      · have stays : [name].removeAll names = [name] := by simp [List.removeAll, known]
        rw [stays]
        by_cases again : name ∈ before.removeAll names
        · have present : name ∈ (before.removeAll names).eraseDups := List.mem_eraseDups.mpr again
          rw [FirstOccurrence.eraseDups_concat_of_mem again]
          simp [present]
        · have absent : name ∉ (before.removeAll names).eraseDups :=
            fun present => again (List.mem_eraseDups.mp present)
          rw [FirstOccurrence.eraseDups_concat_of_not_mem again]
          simp [known, absent]

theorem globalUsings_ofFiles (files : List Source.File) :
    (ofFiles files).globalUsings = (files.flatMap Source.File.globalUsings).eraseDups := by
  rw [ofFiles, addNew_eq, List.removeAll_nil, List.nil_append]

theorem lookup_kinds (types : List Source.TypeDeclaration) (name : String) :
    (types.map fun type => (type.fullName, type.kind)).lookup name =
      (types.find? fun type => type.fullName == name).map Source.TypeDeclaration.kind := by
  induction types with
  | nil => rfl
  | cons type others ih =>
      rw [List.map_cons, List.lookup_cons, List.find?_cons, ih, Bool.beq_comm]
      cases type.fullName == name with
      | true => rfl
      | false => rfl

/-- The kind of a declared name is that of its first declaration. -/
theorem kind?_ofFiles (files : List Source.File) (name : String) :
    (ofFiles files).kind? name = (declaredAs files name).head?.map Source.TypeDeclaration.kind := by
  rw [declaredAs, List.head?_filter]
  exact lookup_kinds (Names.declared files) name

theorem declares_ofFiles_iff {files : List Source.File} {name : String} :
    (ofFiles files).declares name = true ↔ Declares files name := by
  rw [declares, kind?_ofFiles, Option.isSome_map, declaredAs, List.head?_filter, List.find?_isSome,
    Declares]
  simp only [beq_iff_eq]

end NameTable

end Names

end ActionAtlas
