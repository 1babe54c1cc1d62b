import ActionAtlas.Proofs.Mvc.TypeOrder
import ActionAtlas.Proofs.Names.Agreement
import ActionAtlas.Proofs.Names.Apart

/-!
The order of source files. Where each full name is declared in one file only, what the names in a
file stand for does not hang on the order of the files, so each file makes the same types in every
order.
-/

namespace ActionAtlas.Names

open Mvc (SameOutcome discover)

variable {files other : List Source.File}

theorem declaredAs_cons (file : Source.File) (files : List Source.File) (name : String) :
    declaredAs (file :: files) name = declaredAs [file] name ++ declaredAs files name :=
  declaredAs_append [file] files name

/-- Of files that declare apart one at most declares a name. -/
theorem DeclareApart.declaredAs_eq_nil_or {file next : Source.File}
    (apart : DeclareApart file next) (name : String) :
    declaredAs [file] name = [] ∨ declaredAs [next] name = [] := by
  by_contra both
  rw [not_or] at both
  obtain ⟨type, here⟩ := List.exists_mem_of_ne_nil _ both.1
  obtain ⟨nextType, there⟩ := List.exists_mem_of_ne_nil _ both.2
  have inFile : type ∈ file.types := by simpa [declared] using (List.mem_filter.mp here).1
  have inNext : nextType ∈ next.types := by simpa [declared] using (List.mem_filter.mp there).1
  apply apart type inFile nextType inNext
  rw [fullName_of_mem_declaredAs here, fullName_of_mem_declaredAs there]

/-- All declarations of a name stand in one file, so they keep their order. -/
theorem declaredAs_eq_of_perm (perm : other.Perm files) (apart : files.Pairwise DeclareApart)
    (name : String) : declaredAs other name = declaredAs files name := by
  induction perm with
  | nil => rfl
  | cons file _ ih =>
      rw [declaredAs_cons, ih (List.pairwise_cons.mp apart).2, ← declaredAs_cons]
  | swap file next rest =>
      have first := (List.pairwise_cons.mp apart).1 next List.mem_cons_self
      rw [declaredAs_cons next (file :: rest), declaredAs_cons file rest,
        declaredAs_cons file (next :: rest), declaredAs_cons next rest]
      rcases first.declaredAs_eq_nil_or name with nothing | nothing
      · rw [nothing, List.nil_append, List.nil_append]
      · rw [nothing, List.nil_append, List.nil_append]
  | trans _ second ih ih' =>
      rw [ih ((second.pairwise_iff fun apart => apart.symm).mpr apart), ih' apart]

theorem agrees_of_perm (unshared : ∀ file ∈ files, file.globalUsings = [])
    (apart : files.Pairwise DeclareApart) (perm : other.Perm files) :
    (NameTable.ofFiles other).Agrees (NameTable.ofFiles files) where
  globalUsings_eq := by
    rw [NameTable.globalUsings_ofFiles, NameTable.globalUsings_ofFiles,
      List.flatMap_eq_nil_iff.mpr unshared,
      List.flatMap_eq_nil_iff.mpr fun file member => unshared file (perm.mem_iff.mp member)]
  kind?_eq := by
    intro name
    rw [NameTable.kind?_ofFiles, NameTable.kind?_ofFiles, declaredAs_eq_of_perm perm apart]

theorem typesOf_eq {table table' : NameTable} (agrees : table.Agrees table') :
    typesOf table = typesOf table' := by
  funext file
  rw [typesOf, typesOf, agrees.declaration_eq]

/-- Files without names in common, and without namespaces that are in use everywhere, make a graph
of their own types each. In any other order they make the same types, in their order, and the same
controllers are found in the same areas. -/
theorem assemble_in_any_order (unshared : ∀ file ∈ files, file.globalUsings = [])
    (apart : files.Pairwise DeclareApart) (perm : other.Perm files) :
    (assemble files).types = files.flatMap (typesOf (NameTable.ofFiles files)) ∧
      (assemble other).types = other.flatMap (typesOf (NameTable.ofFiles files)) ∧
      ∀ options, SameOutcome (discover options (assemble files))
        (discover options (assemble other)) := by
  have types := types_assemble_of_apart apart
  have reordered : (assemble other).types = other.flatMap (typesOf (NameTable.ofFiles files)) := by
    have apart' := (perm.pairwise_iff fun apart => apart.symm).mpr apart
    rw [types_assemble_of_apart apart', typesOf_eq (agrees_of_perm unshared apart perm)]
  refine ⟨types, reordered, fun options => ?_⟩
  refine Mvc.sameOutcome_of_perm options ?_ (nodup_fullNames_assemble files)
  rw [types, reordered]
  exact perm.flatMap_right _

/-- A controller in two parts, and in another file the class that it extends. -/
def shopPages : List Source.File :=
  let place : Source.Scope := ⟨["Web"], [], [], []⟩
  let page : Source.TypeDeclaration :=
    { Source.TypeDeclaration.plain place "HomeController" with
      modifiers := ["public", "partial"]
      methods := [{ name := "Index", kind := .ordinary, isGeneric := false
                    modifiers := ["public"], attributes := [], parameters := [] }] }
  let base : Source.TypeDeclaration :=
    { Source.TypeDeclaration.plain place "Page" with
      modifiers := ["public", "abstract"]
      bases := [.name [("Microsoft", []), ("AspNetCore", []), ("Mvc", []), ("Controller", [])]] }
  [{ globalUsings := [], types := [{ page with bases := [.name [("Page", [])]] }, page] },
   { globalUsings := [], types := [base] }]

theorem assemble_in_any_order_shopPages :
    (∀ file ∈ shopPages, file.globalUsings = []) ∧ shopPages.Pairwise DeclareApart ∧
      shopPages.reverse.Perm shopPages ∧
      (assemble shopPages.reverse).types =
        shopPages.reverse.flatMap (typesOf (NameTable.ofFiles shopPages)) ∧
      SameOutcome (discover Mvc.frameworkOptions (assemble shopPages))
        (discover Mvc.frameworkOptions (assemble shopPages.reverse)) ∧
      (assemble shopPages.reverse).types.map TypeDeclaration.fullName =
        ["Web.Page", "Web.HomeController"] := by
  have unshared : ∀ file ∈ shopPages, file.globalUsings = [] := by simp [shopPages]
  have apart : shopPages.Pairwise DeclareApart := by decide +kernel
  have perm := List.reverse_perm shopPages
  obtain ⟨-, types, outcome⟩ := assemble_in_any_order unshared apart perm
  exact ⟨unshared, apart, perm, types, outcome _, by decide +kernel⟩

end ActionAtlas.Names
