import ActionAtlas.Proofs.Names.Assembly

/-!
Characters and their codes as default values.

Where an integer type takes a character, the code of the character may be written as well. Assembling
keeps what is written: the character stays a character, so programs that are written differently
have different graphs.
-/

namespace ActionAtlas

/-! ### Related items with one image, or with different images -/

theorem map_eq_of_forall₂ {α β : Type} {related : α → α → Prop} {image : α → β}
    (same : ∀ item other, related item other → image other = image item) {items others : List α}
    (each : List.Forall₂ related items others) : others.map image = items.map image := by
  rw [← List.forall₂_eq_eq_eq, List.forall₂_map_left_iff, List.forall₂_map_right_iff]
  exact each.flip.imp fun other item => same item other

/-- Related items that have one image are the same. -/
def TellsApart {α β : Type} (related : α → α → Prop) (image : α → β) : Prop :=
  ∀ item other, related item other → image other = image item → other = item

namespace TellsApart

variable {α β : Type} {related : α → α → Prop}

theorem map {image : α → β} (tells : TellsApart related image) :
    TellsApart (List.Forall₂ related) (List.map image) := by
  intro items others each same
  induction each with
  | nil => rfl
  | cons first _ ih =>
      rw [List.map_cons, List.map_cons, List.cons.injEq] at same
      rw [tells _ _ first same.1, ih same.2]

theorem flatMap {parts : α → List β} (tells : TellsApart related parts)
    (length_eq : ∀ item other, related item other → (parts other).length = (parts item).length) :
    TellsApart (List.Forall₂ related) (List.flatMap parts) := by
  intro items others each same
  induction each with
  | nil => rfl
  | cons first _ ih =>
      rw [List.flatMap_cons, List.flatMap_cons] at same
      obtain ⟨front, back⟩ := List.append_inj same (length_eq _ _ first)
      rw [tells _ _ first front, ih back]

end TellsApart

/-! ### Codes in place of characters -/

/-- The integer types to which characters are converted, nullable or not. -/
def TypeShape.HoldsCodes (shape : TypeShape) : Prop :=
  ∃ builtIn ∈ [Primitive.ushort, .int, .uint, .long, .ulong],
    shape = .primitive builtIn ∨ shape = .nullable (.primitive builtIn)

def Constant.codeOf (c : Char) : Constant :=
  .int (Int64.ofNat c.toNat)

/-- A default value of a type as it is written, or the code of the character that is written. -/
inductive CodedDefault (shape : TypeShape) : Option Evaluated → Option Evaluated → Prop
  | asWritten (default? : Option Evaluated) : CodedDefault shape default? default?
  | code (c : Char) (integral : shape.HoldsCodes) :
      CodedDefault shape (some (.constant (.char c))) (some (.constant (.codeOf c)))

inductive Parameter.Coded : Parameter → Parameter → Prop
  | of (parameter : Parameter) (default? : Option Evaluated)
      (coded : CodedDefault parameter.type parameter.default? default?) :
      Coded parameter { parameter with default? }

inductive MethodDeclaration.Coded : MethodDeclaration → MethodDeclaration → Prop
  | of (method : MethodDeclaration) (parameters : List Parameter)
      (coded : List.Forall₂ Parameter.Coded method.parameters parameters) :
      Coded method { method with parameters }

inductive TypeDeclaration.Coded : TypeDeclaration → TypeDeclaration → Prop
  | of (type : TypeDeclaration) (methods : List MethodDeclaration)
      (coded : List.Forall₂ MethodDeclaration.Coded type.methods methods) :
      Coded type { type with methods }

namespace Source

variable (table : Names.NameTable)

inductive Parameter.Coded (scope : Scope) : Parameter → Parameter → Prop
  | of (parameter : Parameter) (default? : Option Evaluated)
      (coded : CodedDefault (table.shape scope parameter.type) parameter.default? default?) :
      Coded scope parameter { parameter with default? }

inductive Method.Coded (scope : Scope) : Method → Method → Prop
  | of (method : Method) (parameters : List Parameter)
      (coded : List.Forall₂ (Parameter.Coded table scope) method.parameters parameters) :
      Coded scope method { method with parameters }

inductive TypeDeclaration.Coded : TypeDeclaration → TypeDeclaration → Prop
  | of (type : TypeDeclaration) (methods : List Method)
      (coded : List.Forall₂ (Method.Coded table type.innerScope) type.methods methods) :
      Coded type { type with methods }

inductive File.Coded : File → File → Prop
  | of (file : File) (types : List TypeDeclaration)
      (coded : List.Forall₂ (TypeDeclaration.Coded table) file.types types) :
      Coded file { file with types }

end Source

/-! ### Default values -/

/-- These types hold every constant as it is. -/
theorem TypeShape.HoldsCodes.forType_eq {shape : TypeShape} (integral : shape.HoldsCodes)
    (value : Constant) : value.forType shape = value := by
  have integers : ∀ builtIn ∈ [Primitive.ushort, .int, .uint, .long, .ulong],
      builtIn.isReal = false ∧ builtIn ≠ .char := by
    decide
  obtain ⟨builtIn, member, held⟩ := integral
  obtain ⟨whole, other⟩ := integers builtIn member
  have holds : value.forPrimitive builtIn = value := by
    cases value with
    | string text =>
        rw [Constant.forPrimitive]
        intro c character
        exact absurd character other
    | _ => simp [Constant.forPrimitive, whole]
  rcases held with rfl | rfl
  · exact holds
  · exact holds

theorem CodedDefault.forType {shape : TypeShape} {written coded : Option Evaluated}
    (codes : CodedDefault shape written coded) :
    CodedDefault shape (written.map (Evaluated.forType shape))
      (coded.map (Evaluated.forType shape)) := by
  cases codes with
  | asWritten => exact .asWritten _
  | code c integral =>
      simp only [Option.map_some, Evaluated.forType, integral.forType_eq]
      exact .code c integral

/-- An image that differs for a character and its code tells all default values apart. -/
theorem CodedDefault.tellsApart {β : Type} {shape : TypeShape} {image : Option Evaluated → β}
    (differs : shape.HoldsCodes → ∀ c,
      image (some (.constant (.codeOf c))) ≠ image (some (.constant (.char c)))) :
    TellsApart (CodedDefault shape) image := by
  intro written coded codes same
  cases codes with
  | asWritten => rfl
  | code c integral => exact absurd same (differs integral c)

/-! ### Resolved declarations -/

namespace Names.NameTable

variable (table : NameTable) (scope : Source.Scope)

theorem coded_parameter {written coded : Source.Parameter}
    (codes : Source.Parameter.Coded table scope written coded) :
    Parameter.Coded (table.parameter scope written) (table.parameter scope coded) := by
  cases codes with
  | of default? coded => exact .of (table.parameter scope written) _ coded.forType

theorem tellsApart_parameter :
    TellsApart (Source.Parameter.Coded table scope) (table.parameter scope) := by
  intro written coded codes same
  cases codes with
  | of default? coded =>
      have tells : TellsApart (CodedDefault (table.shape scope written.type))
          (Option.map (Evaluated.forType (table.shape scope written.type))) := by
        apply CodedDefault.tellsApart
        intro integral c
        simp [Evaluated.forType, integral.forType_eq, Constant.codeOf]
      rw [tells _ _ coded (congrArg Parameter.default? same)]

theorem coded_method (owner : Source.TypeDeclaration) {written coded : Source.Method}
    (codes : Source.Method.Coded table owner.innerScope written coded) :
    MethodDeclaration.Coded (table.method owner written) (table.method owner coded) := by
  cases codes with
  | of parameters coded =>
      refine .of (table.method owner written) _ ?_
      refine List.rel_map ?_ coded
      exact fun _ _ => table.coded_parameter owner.innerScope

theorem tellsApart_method (owner : Source.TypeDeclaration) :
    TellsApart (Source.Method.Coded table owner.innerScope) (table.method owner) := by
  intro written coded codes same
  cases codes with
  | of parameters coded =>
      rw [(table.tellsApart_parameter owner.innerScope).map _ _ coded
        (congrArg MethodDeclaration.parameters same)]

theorem coded_declaration {written coded : Source.TypeDeclaration}
    (codes : Source.TypeDeclaration.Coded table written coded) :
    TypeDeclaration.Coded (table.declaration written) (table.declaration coded) := by
  cases codes with
  | of methods coded =>
      refine .of (table.declaration written) _ ?_
      refine List.rel_map ?_ coded
      exact fun _ _ => table.coded_method written

theorem tellsApart_declaration :
    TellsApart (Source.TypeDeclaration.Coded table) table.declaration := by
  intro written coded codes same
  cases codes with
  | of methods coded =>
      have methods_eq : methods.map (table.method written) =
          written.methods.map (table.method written) :=
        congrArg TypeDeclaration.methods same
      rw [(table.tellsApart_method written).map _ _ coded methods_eq]

end Names.NameTable

/-! ### Assembly -/

namespace TypeDeclaration

theorem Coded.fullName_eq {written coded : TypeDeclaration} (codes : Coded written coded) :
    coded.fullName = written.fullName := by
  cases codes
  rfl

theorem tellsApart_methods : TellsApart Coded TypeDeclaration.methods := by
  intro written coded codes same
  cases codes with
  | of methods coded => exact congrArg (fun methods => { written with methods }) same

theorem Coded.length_methods_eq {written coded : TypeDeclaration} (codes : Coded written coded) :
    coded.methods.length = written.methods.length := by
  cases codes with
  | of methods coded => exact coded.length_eq.symm

theorem Coded.mergePart {written coded part other : TypeDeclaration} (codes : Coded written coded)
    (further : Coded part other) :
    Coded (Names.mergePart written part) (Names.mergePart coded other) := by
  cases codes with
  | of methods coded =>
      cases further with
      | of others more =>
          exact .of (Names.mergePart written part) (methods ++ others) (List.rel_append coded more)

end TypeDeclaration

namespace Names

open TypeDeclaration (Coded)

theorem coded_foldl_mergePart {parts others : List TypeDeclaration}
    (each : List.Forall₂ Coded parts others) {first other : TypeDeclaration}
    (start : Coded first other) :
    Coded (parts.foldl mergePart first) (others.foldl mergePart other) := by
  induction each generalizing first other with
  | nil => exact start
  | cons part _ ih => exact ih (start.mergePart part)

theorem coded_joined? {parts others : List TypeDeclaration}
    (each : List.Forall₂ Coded parts others) :
    Option.Rel Coded (joined? parts) (joined? others) := by
  cases each with
  | nil => exact .none
  | cons first later => exact .some (coded_foldl_mergePart later first)

/-- Joining keeps the methods of all parts in their order. -/
theorem methods_of_joined? {parts : List TypeDeclaration} {type : TypeDeclaration}
    (joined : joined? parts = some type) :
    type.methods = parts.flatMap TypeDeclaration.methods := by
  cases parts with
  | nil => cases joined
  | cons first later =>
      rw [← Option.some.inj joined]
      exact (Joins.foldl_mergePart first later).methods_eq

theorem tellsApart_joined? : TellsApart (List.Forall₂ Coded) joined? := by
  intro parts others each same
  cases joined : joined? parts with
  | none =>
      cases each with
      | nil => rfl
      | cons first later => cases joined
  | some type =>
      have methods := methods_of_joined? (same.trans joined)
      rw [methods_of_joined? joined] at methods
      exact TypeDeclaration.tellsApart_methods.flatMap
        (fun _ _ codes => codes.length_methods_eq) _ _ each methods.symm

namespace Assembly

theorem coded_partsNamed {parts others : List TypeDeclaration}
    (each : List.Forall₂ Coded parts others) (name : String) :
    List.Forall₂ Coded (partsNamed name parts) (partsNamed name others) := by
  refine List.rel_filter ?_ each
  intro part other codes
  change (part.fullName == name) = true ↔ (other.fullName == name) = true
  rw [codes.fullName_eq]

theorem fullNames_eq {parts others : List TypeDeclaration}
    (each : List.Forall₂ Coded parts others) : fullNames others = fullNames parts := by
  have names := map_eq_of_forall₂ (fun _ _ codes => Coded.fullName_eq codes) each
  rw [fullNames, names, fullNames]

theorem coded_types_ofParts {parts others : List TypeDeclaration}
    (each : List.Forall₂ Coded parts others) :
    List.Forall₂ Coded (ofParts parts).types (ofParts others).types := by
  have joined : List.Forall₂ (Option.Rel Coded) ((ofParts parts).types.map some)
      ((ofParts others).types.map some) := by
    rw [(holds_ofParts parts).types_eq, (holds_ofParts others).types_eq, fullNames_eq each,
      List.forall₂_map_left_iff, List.forall₂_map_right_iff, List.forall₂_same]
    exact fun name _ => coded_joined? (coded_partsNamed each name)
  rw [List.forall₂_map_left_iff, List.forall₂_map_right_iff] at joined
  exact joined.imp fun _ _ codes => by
    cases codes with
    | some codes => exact codes

/-- Declarations that are the same name by name are the same. -/
theorem eq_of_partsNamed_eq {parts others : List TypeDeclaration}
    (each : List.Forall₂ Coded parts others)
    (same : ∀ name, partsNamed name others = partsNamed name parts) : others = parts := by
  induction each with
  | nil => rfl
  | @cons part other parts others codes _ ih =>
      have here := same part.fullName
      simp only [partsNamed, List.filter_cons, codes.fullName_eq, beq_self_eq_true, if_true,
        List.cons.injEq] at here
      rw [here.1, ih]
      intro name
      by_cases named : part.fullName = name
      · rw [← named]
        exact here.2
      · have further := same name
        have different : (part.fullName == name) = false := beq_false_of_ne named
        simpa only [partsNamed, List.filter_cons, codes.fullName_eq, different,
          Bool.false_eq_true, if_false] using further

theorem tellsApart_types_ofParts :
    TellsApart (List.Forall₂ Coded) fun parts => (ofParts parts).types := by
  intro parts others each same
  have joined := congrArg (List.map some) same
  rw [(holds_ofParts parts).types_eq, (holds_ofParts others).types_eq, fullNames_eq each,
    List.map_inj_left] at joined
  apply eq_of_partsNamed_eq each
  intro name
  by_cases known : name ∈ fullNames parts
  · exact tellsApart_joined? _ _ (coded_partsNamed each name) (joined name known)
  · have unknown : name ∉ fullNames others := fullNames_eq each ▸ known
    rw [partsNamed_eq_nil_iff.mpr known, partsNamed_eq_nil_iff.mpr unknown]

end Assembly

/-! ### Files -/

section Files

variable {files others : List Source.File}

theorem coded_declared {table : NameTable}
    (each : List.Forall₂ (Source.File.Coded table) files others) :
    List.Forall₂ (Source.TypeDeclaration.Coded table) (declared files) (declared others) := by
  refine List.rel_flatMap each ?_
  intro file other codes
  cases codes with
  | of types coded => exact coded

theorem ofFiles_eq {table : NameTable}
    (each : List.Forall₂ (Source.File.Coded table) files others) :
    NameTable.ofFiles others = NameTable.ofFiles files := by
  have usings : others.flatMap Source.File.globalUsings =
      files.flatMap Source.File.globalUsings := by
    rw [← List.forall₂_eq_eq_eq]
    refine List.rel_flatMap each.flip ?_
    intro other file codes
    cases codes
    exact List.forall₂_refl _
  have declarations :
      ((declared others).map fun type => (type.fullName, type.kind)) =
        (declared files).map fun type => (type.fullName, type.kind) := by
    refine map_eq_of_forall₂ ?_ (coded_declared each)
    intro type other codes
    cases codes
    rfl
  rw [NameTable.ofFiles, usings]
  exact congrArg (NameTable.mk _) declarations

theorem tellsApart_types {table : NameTable} :
    TellsApart (Source.File.Coded table) Source.File.types := by
  intro file other codes same
  cases codes with
  | of types coded => exact congrArg (fun types => { file with types }) same

theorem tellsApart_declared {table : NameTable} :
    TellsApart (List.Forall₂ (Source.File.Coded table)) declared := by
  apply tellsApart_types.flatMap
  intro file other codes
  cases codes with
  | of types coded => exact coded.length_eq.symm

end Files

end Names

/-- Files in which some characters among the default values of integer types are written as their
codes. -/
def Source.Coded (files coded : List Source.File) : Prop :=
  List.Forall₂ (Source.File.Coded (Names.NameTable.ofFiles files)) files coded

namespace Names

variable {files coded : List Source.File}

theorem coded_resolved (codes : Source.Coded files coded) :
    List.Forall₂ TypeDeclaration.Coded
      ((declared files).map (NameTable.ofFiles files).declaration)
      ((declared coded).map (NameTable.ofFiles files).declaration) := by
  refine List.rel_map ?_ (coded_declared codes)
  exact fun _ _ => (NameTable.ofFiles files).coded_declaration

theorem coded_assemble (codes : Source.Coded files coded) :
    List.Forall₂ TypeDeclaration.Coded (assemble files).types (assemble coded).types := by
  refine Assembly.coded_types_ofParts ?_
  rw [ofFiles_eq codes]
  exact coded_resolved codes

/-- Every code that is written in place of a character shows in the graph. -/
theorem types_assemble_eq_iff (codes : Source.Coded files coded) :
    (assemble coded).types = (assemble files).types ↔ coded = files := by
  refine ⟨fun same => ?_, fun same => by rw [same]⟩
  simp only [assemble, ofFiles_eq codes] at same
  have resolved := Assembly.tellsApart_types_ofParts _ _ (coded_resolved codes) same
  exact tellsApart_declared _ _ codes
    ((NameTable.ofFiles files).tellsApart_declaration.map _ _ (coded_declared codes) resolved)

end Names

end ActionAtlas
