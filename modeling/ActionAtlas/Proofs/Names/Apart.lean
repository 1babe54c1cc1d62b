import ActionAtlas.Proofs.Names.Assembly

/-!
Declarations with no name in common. They do not meet in any type, so the types that they make
together are those that each of them makes alone, one after the other.
-/

namespace ActionAtlas.Names

namespace Assembly

variable {parts more : List TypeDeclaration}

def NamedApart (parts more : List TypeDeclaration) : Prop :=
  ∀ part ∈ parts, ∀ other ∈ more, part.fullName ≠ other.fullName

theorem NamedApart.fullNames_append (apart : NamedApart parts more) :
    fullNames (parts ++ more) = fullNames parts ++ fullNames more := by
  have fresh : (more.map TypeDeclaration.fullName).removeAll (parts.map TypeDeclaration.fullName) =
      more.map TypeDeclaration.fullName := by
    refine List.filter_eq_self.mpr ?_
    intro name member
    obtain ⟨other, inside, rfl⟩ := List.mem_map.mp member
    have absent : other.fullName ∉ parts.map TypeDeclaration.fullName := by
      intro known
      obtain ⟨part, here, same⟩ := List.mem_map.mp known
      exact apart part here other inside same
    simpa using absent
  rw [fullNames, List.map_append, List.eraseDups_append, fresh]
  rfl

theorem partsNamed_append (name : String) (parts more : List TypeDeclaration) :
    partsNamed name (parts ++ more) = partsNamed name parts ++ partsNamed name more :=
  List.filter_append ..

theorem NamedApart.types_ofParts_append (apart : NamedApart parts more) :
    (ofParts (parts ++ more)).types = (ofParts parts).types ++ (ofParts more).types := by
  apply List.map_injective_iff.mpr (Option.some_injective TypeDeclaration)
  rw [List.map_append, (holds_ofParts _).types_eq, (holds_ofParts _).types_eq,
    (holds_ofParts _).types_eq, apart.fullNames_append, List.map_append]
  congr 1
  · apply List.map_congr_left
    intro name known
    obtain ⟨part, here, rfl⟩ := mem_fullNames.mp known
    have absent : part.fullName ∉ fullNames more := by
      intro again
      obtain ⟨other, inside, same⟩ := mem_fullNames.mp again
      exact apart part here other inside same.symm
    rw [partsNamed_append, partsNamed_eq_nil_iff.mpr absent, List.append_nil]
  · apply List.map_congr_left
    intro name known
    obtain ⟨other, inside, rfl⟩ := mem_fullNames.mp known
    have absent : other.fullName ∉ fullNames parts := by
      intro before
      obtain ⟨part, here, same⟩ := mem_fullNames.mp before
      exact apart part here other inside same
    rw [partsNamed_append, partsNamed_eq_nil_iff.mpr absent, List.nil_append]

end Assembly

/-! ### Files -/

/-- No full name is declared in both files. -/
def DeclareApart (file other : Source.File) : Prop :=
  ∀ type ∈ file.types, ∀ otherType ∈ other.types, type.fullName ≠ otherType.fullName

instance : DecidableRel DeclareApart := fun file other =>
  inferInstanceAs (Decidable (∀ type ∈ file.types, ∀ otherType ∈ other.types,
    type.fullName ≠ otherType.fullName))

theorem DeclareApart.symm {file other : Source.File} (apart : DeclareApart file other) :
    DeclareApart other file :=
  fun type member otherType inside => (apart otherType inside type member).symm

/-- The types that the declarations of a file make by themselves. -/
def typesOf (table : NameTable) (file : Source.File) : List TypeDeclaration :=
  (Assembly.ofParts (file.types.map table.declaration)).types

theorem namedApart_declarations (table : NameTable) {types others : List Source.TypeDeclaration}
    (apart : ∀ type ∈ types, ∀ other ∈ others, type.fullName ≠ other.fullName) :
    Assembly.NamedApart (types.map table.declaration) (others.map table.declaration) := by
  intro part member other inside
  obtain ⟨type, here, rfl⟩ := List.mem_map.mp member
  obtain ⟨otherType, there, rfl⟩ := List.mem_map.mp inside
  exact apart type here otherType there

theorem types_ofParts_declared (table : NameTable) {files : List Source.File}
    (apart : files.Pairwise DeclareApart) :
    (Assembly.ofParts ((declared files).map table.declaration)).types =
      files.flatMap (typesOf table) := by
  induction files with
  | nil => rfl
  | cons file others ih =>
      obtain ⟨first, rest⟩ := List.pairwise_cons.mp apart
      have named : Assembly.NamedApart (file.types.map table.declaration)
          ((declared others).map table.declaration) := by
        refine namedApart_declarations table fun type here other inside => ?_
        obtain ⟨next, member, there⟩ := List.mem_flatMap.mp inside
        exact first next member type here other there
      have whole : declared (file :: others) = file.types ++ declared others := List.flatMap_cons
      rw [whole, List.map_append, named.types_ofParts_append, ih rest, List.flatMap_cons]
      rfl

theorem types_assemble_of_apart {files : List Source.File} (apart : files.Pairwise DeclareApart) :
    (assemble files).types = files.flatMap (typesOf (NameTable.ofFiles files)) :=
  types_ofParts_declared (NameTable.ofFiles files) apart

end ActionAtlas.Names
