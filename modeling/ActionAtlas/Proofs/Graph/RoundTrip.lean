import ActionAtlas.Proofs.Graph.Constants
import ActionAtlas.Proofs.Graph.Lookup
import ActionAtlas.Proofs.Graph.Shape

/-!
Written graphs read back.

A written graph loads if it is not too deep and its numbers can be read, and then only its
constants differ from those of the graph: they are what JSON can tell of them, and the default
values among them are held as the types of their parameters again.
-/

namespace ActionAtlas

open Json

/-! ### Constants -/

def Decimal.Binary64.reread (x : Decimal.Binary64) : Decimal.Binary64 :=
  match (Number.float x).reread? with
  | some (.float y) => y
  | _ => x

namespace Constant

/-- What JSON can tell of a constant: a character is a text, an unsigned integer is signed where it
fits, and a double that is not finite is nothing. -/
def plain : Constant → Constant
  | .uint value =>
    if value.toNat < 0x8000000000000000 then .int (Int64.ofNat value.toNat) else .uint value
  | .float value => if value.isFinite then .float value else .null
  | .char value => .string (String.singleton value)
  | other => other

def reread : Constant → Constant
  | .float value => if value.isFinite then .float value.reread else .null
  | other => other.plain

theorem reread_integer {n : Int} (fits : Numeral.InWords n) :
    (Value.integer n).reread = .integer n := by
  simp only [Value.integer, Value.reread, Number.isFinite, if_true, Number.reread?_integer fits,
    Option.getD_some]

theorem ofJson?_reread (constant : Constant) :
    ofJson? constant.toJson.reread = some constant.reread := by
  cases constant with
  | null => rfl
  | bool value => rfl
  | int value =>
      have least := value.le_toInt
      have most := value.toInt_lt
      rw [toJson, reread_integer ⟨by omega, by omega⟩, Value.integer, ofJson?, if_neg (by omega),
        if_pos (by omega), Int64.ofInt_toInt]
      rfl
  | uint value =>
      have most := value.toNat_lt
      rw [toJson, reread_integer ⟨by omega, by omega⟩, Value.integer, ofJson?, if_neg (by omega)]
      by_cases small : value.toNat < 0x8000000000000000
      · rw [if_pos (by omega), reread, plain, if_pos small]
        · rfl
        · nofun
      · rw [if_neg (by omega), if_pos (by omega), Int.toNat_natCast, UInt64.ofNat_toNat, reread,
          plain, if_neg small]
        nofun
  | float value =>
      by_cases finite : value.isFinite = true
      · rw [toJson, if_pos finite, reread, if_pos finite, Value.reread]
        rw [if_pos (show (Number.float value).isFinite = true from finite)]
        cases read : (Number.float value).reread? with
        | none =>
            rw [Decimal.Binary64.reread, read]
            rfl
        | some number =>
            obtain ⟨other, rfl⟩ := Number.exists_float_of_reread? finite read
            rw [Decimal.Binary64.reread, read]
            rfl
      · rw [toJson, if_neg finite, reread, if_neg finite]
        rfl
  | char value => rfl
  | string value => rfl

theorem reads_decoder (constant : Constant) : Reads decoder constant.toJson constant.reread := by
  intro room
  have read := reads_value constant.toJson room
  rw [decoder, read]
  apply within_bind_ok
  simp only [ofJson?_reread]
  rfl

end Constant

/-! ### Declarations -/

theorem Evaluated.reads_decoder (written : Evaluated) :
    Reads decoder written.toJson (written.mapConstants .reread) := by
  cases written with
  | constant value => exact reads_variant rfl ((Constant.reads_decoder value).map Evaluated.constant)
  | unresolved text => exact reads_variant rfl ((reads_string text).map Evaluated.unresolved)

theorem Attribute.reads_record (applied : Attribute) :
    Reads record.read applied.toJson (applied.mapConstants .reread) := by
  apply Record.reads_of_fills (by decide)
  apply Fills.of (reads_string applied.name)
  apply Fills.of (reads_list Evaluated.toJson (Evaluated.mapConstants .reread) applied.arguments
    fun written _ => written.reads_decoder)
  exact .nil

theorem Parameter.reads_record (parameter : Parameter) :
    Reads record.read parameter.toJson (parameter.mapConstants .reread) := by
  have default : Reads (Decoder.option Evaluated.decoder)
      (optionToJson Evaluated.toJson parameter.default?)
      (parameter.default?.map (Evaluated.mapConstants .reread)) := by
    cases parameter.default? with
    | none => exact reads_option_none _
    | some written =>
        apply reads_option_some _ written.reads_decoder
        intro room
        cases written <;> rfl
  apply Record.reads_of_fills (by decide)
  apply Fills.of (reads_string parameter.name)
  apply Fills.of parameter.type.reads_decoder
  apply Fills.of default
  exact .nil

theorem MethodKind.reads_table (kind : MethodKind) :
    Reads (Decoder.choice table) (.string kind.term) kind := by
  apply reads_choice
  cases kind <;> decide

theorem Accessibility.reads_table (accessibility : Accessibility) :
    Reads (Decoder.choice table) (.string accessibility.term) accessibility := by
  apply reads_choice
  cases accessibility <;> decide

theorem TypeKind.reads_table (kind : TypeKind) :
    Reads (Decoder.choice table) (.string kind.term) kind := by
  apply reads_choice
  cases kind <;> decide

theorem MethodDeclaration.reads_record (method : MethodDeclaration) :
    Reads record.read method.toJson (method.mapConstants .reread) := by
  apply Record.reads_of_fills (by decide)
  apply Fills.of (reads_string method.name)
  apply Fills.of method.kind.reads_table
  apply Fills.of method.accessibility.reads_table
  apply Fills.of (reads_bool method.isStatic)
  apply Fills.of (reads_bool method.isGeneric)
  apply Fills.of (reads_list Attribute.toJson (Attribute.mapConstants .reread) method.attributes
    fun applied _ => applied.reads_record)
  apply Fills.of (reads_list Parameter.toJson (Parameter.mapConstants .reread) method.parameters
    fun parameter _ => parameter.reads_record)
  exact .nil

theorem TypeDeclaration.reads_record (type : TypeDeclaration) :
    Reads record.read type.toJson (type.mapConstants .reread) := by
  have base : Reads (Decoder.option Decoder.string) (optionToJson .string type.base?)
      type.base? := by
    cases type.base? with
    | none => exact reads_option_none _
    | some name => exact reads_option_some (fun _ => rfl) (reads_string name)
  have interfaces : Reads (Decoder.list Decoder.string) (.array (type.interfaces.map .string))
      type.interfaces := by
    have read := reads_list Value.string id type.interfaces fun name _ => reads_string name
    rwa [List.map_id] at read
  apply Record.reads_of_fills (by decide)
  apply Fills.of (reads_string type.name)
  apply Fills.of (reads_string type.namespaceName)
  apply Fills.of type.kind.reads_table
  apply Fills.of type.accessibility.reads_table
  apply Fills.of (reads_bool type.isAbstract)
  apply Fills.of (reads_bool type.isStatic)
  apply Fills.of (reads_bool type.isGeneric)
  apply Fills.of base
  apply Fills.of interfaces
  apply Fills.of (reads_list Attribute.toJson (Attribute.mapConstants .reread) type.attributes
    fun applied _ => applied.reads_record)
  apply Fills.of (reads_list MethodDeclaration.toJson (MethodDeclaration.mapConstants .reread)
    type.methods fun method _ => method.reads_record)
  exact .nil

theorem SymbolGraph.reads_record (graph : SymbolGraph) :
    Reads record.read graph.toJson (graph.types.map (TypeDeclaration.mapConstants .reread)) := by
  apply Record.reads_of_fills (by decide)
  apply Fills.of (reads_list TypeDeclaration.toJson (TypeDeclaration.mapConstants .reread)
    graph.types fun type _ => type.reads_record)
  exact .nil

/-! ### Numbers of a graph -/

theorem areReadable_map {α : Type} {constants : α → List Constant} {toJson : α → Value}
    (each : ∀ item, (∀ value ∈ constants item, value.toJson.isReadable = true) →
      (toJson item).isReadable = true)
    {items : List α} (all : ∀ value ∈ items.flatMap constants, value.toJson.isReadable = true) :
    Value.areReadable (items.map toJson) = true := by
  rw [Value.areReadable_eq_all, List.all_map, List.all_eq_true]
  intro item member
  apply each item
  intro value inside
  exact all value (List.mem_flatMap_of_mem member inside)

theorem areReadable_strings (texts : List String) :
    Value.areReadable (texts.map .string) = true := by
  rw [Value.areReadable_eq_all, List.all_map, List.all_eq_true]
  intro text _
  rfl

theorem Evaluated.isReadable_toJson (written : Evaluated)
    (all : ∀ value ∈ written.constants, value.toJson.isReadable = true) :
    written.toJson.isReadable = true := by
  cases written with
  | constant value =>
      have readable := all value List.mem_cons_self
      simp [toJson, Value.isReadable, Value.fieldsAreReadable, readable]
  | unresolved text => rfl

theorem Attribute.isReadable_toJson (applied : Attribute)
    (all : ∀ value ∈ applied.constants, value.toJson.isReadable = true) :
    applied.toJson.isReadable = true := by
  have arguments := areReadable_map Evaluated.isReadable_toJson all
  simp [toJson, Value.isReadable, Value.fieldsAreReadable, arguments]

theorem Parameter.isReadable_toJson (parameter : Parameter)
    (all : ∀ value ∈ parameter.constants, value.toJson.isReadable = true) :
    parameter.toJson.isReadable = true := by
  have default : (optionToJson Evaluated.toJson parameter.default?).isReadable = true := by
    unfold constants at all
    cases given : parameter.default? with
    | none => rfl
    | some written =>
        rw [given] at all
        exact written.isReadable_toJson (by simpa using all)
  simp [toJson, Value.isReadable, Value.fieldsAreReadable, parameter.type.isReadable_toJson,
    default]

theorem MethodDeclaration.isReadable_toJson (method : MethodDeclaration)
    (all : ∀ value ∈ method.constants, value.toJson.isReadable = true) :
    method.toJson.isReadable = true := by
  have attributes := areReadable_map Attribute.isReadable_toJson
    fun value member => all value (List.mem_append_left _ member)
  have parameters := areReadable_map Parameter.isReadable_toJson
    fun value member => all value (List.mem_append_right _ member)
  simp [toJson, Value.isReadable, Value.fieldsAreReadable, attributes, parameters]

theorem TypeDeclaration.isReadable_toJson (type : TypeDeclaration)
    (all : ∀ value ∈ type.constants, value.toJson.isReadable = true) :
    type.toJson.isReadable = true := by
  have base : (optionToJson .string type.base?).isReadable = true := by
    cases type.base? <;> rfl
  have attributes := areReadable_map Attribute.isReadable_toJson
    fun value member => all value (List.mem_append_left _ member)
  have methods := areReadable_map MethodDeclaration.isReadable_toJson
    fun value member => all value (List.mem_append_right _ member)
  simp [toJson, Value.isReadable, Value.fieldsAreReadable, base, areReadable_strings, attributes,
    methods]

theorem SymbolGraph.isReadable_toJson (graph : SymbolGraph)
    (all : ∀ value ∈ graph.constants, value.toJson.isReadable = true) :
    graph.toJson.isReadable = true := by
  have types := areReadable_map TypeDeclaration.isReadable_toJson all
  simp [toJson, Value.isReadable, Value.fieldsAreReadable, types]

/-- Of constants only doubles may be written as numbers that cannot be read. -/
theorem Constant.isReadable_toJson (constant : Constant)
    (readable : ∀ x, constant = .float x → (Number.float x).isReadable = true) :
    constant.toJson.isReadable = true := by
  cases constant with
  | int value =>
      have least := value.le_toInt
      have most := value.toInt_lt
      have word : Numeral.InWords value.toInt := ⟨by omega, by omega⟩
      simp [toJson, Value.integer, Value.isReadable, Number.isReadable,
        Number.reread?_integer word]
  | uint value =>
      have most := value.toNat_lt
      have word : Numeral.InWords value.toNat := ⟨by omega, by omega⟩
      simp [toJson, Value.integer, Value.isReadable, Number.isReadable,
        Number.reread?_integer word]
  | float value =>
      rw [toJson]
      split
      · exact readable value rfl
      · rfl
  | _ => rfl

/-! ### Loading -/

def TypeDeclaration.reloaded (type : TypeDeclaration) : TypeDeclaration :=
  (type.mapConstants .reread).convert

namespace SymbolGraph

def reloaded (graph : SymbolGraph) : SymbolGraph :=
  .indexed (graph.types.map TypeDeclaration.reloaded)

theorem trim_cons_ne_nil {c : Char} (visible : Text.isBlank c = false) (rest : List Char) :
    Text.trim (c :: rest) ≠ [] := by
  rw [Text.trim, Text.trimStart, List.dropWhile_cons, visible, if_neg Bool.false_ne_true,
    Text.trimEnd, ne_eq, List.reverse_eq_nil_iff, List.dropWhile_eq_nil_iff]
  intro blank
  have shown := blank c (List.mem_reverse.mpr List.mem_cons_self)
  rw [visible] at shown
  cases shown

theorem trim_written_ne_nil (graph : SymbolGraph) {text : String}
    (written : graph.toJson.WrittenAs text) : Text.trim text.toList ≠ [] := by
  have visible : Text.isBlank '\x7b' = false := by decide
  obtain ⟨blanks, -, same | same⟩ := written
  · rw [same]
    exact trim_cons_ne_nil visible _
  · rw [same]
    exact trim_cons_ne_nil visible _

/-- Exactly the graphs whose text can be read load. -/
theorem load_written (graph : SymbolGraph) {text : String}
    (written : graph.toJson.WrittenAs text) :
    load text =
      if graph.toJson.fits depthLimit then .ok graph.reloaded
      else .error (.undecodable .malformed) := by
  have visible : ¬(Text.trim text.toList).isEmpty = true := by
    rw [List.isEmpty_iff]
    exact trim_written_ne_nil graph written
  have decoded := graph.reads_record.decode written
  rw [load, if_neg visible, SymbolGraph.read, decoded, within_map]
  by_cases fits : graph.toJson.fits depthLimit = true
  · rw [fits, if_pos rfl, within, if_pos rfl]
    change Except.ok (indexed ((graph.types.map _).map TypeDeclaration.convert)) = _
    rw [List.map_map]
    rfl
  · rw [Bool.eq_false_of_not_eq_true fits]
    rfl

theorem reloaded_eq_of_load {graph : SymbolGraph} {text : String}
    (written : graph.toJson.WrittenAs text) {loaded : SymbolGraph} (loads : load text = .ok loaded) :
    graph.reloaded = loaded := by
  rw [load_written graph written] at loads
  split at loads
  · exact Except.ok.inj loads
  · cases loads

/-- A double is read back from its own text. -/
def ReadsBack (x : Decimal.Binary64) : Prop :=
  decode Document.value (Value.number (.float x)).compact = .ok (.number (.float x))

theorem readsBack_iff {x : Decimal.Binary64} (finite : x.isFinite = true) :
    ReadsBack x ↔ (Number.float x).reread? = some (.float x) := by
  have isNumber : (Number.float x).isFinite = true := finite
  rw [ReadsBack, (reads_value _).decode (Value.writtenAs_compact _), within_eq_ok_iff, Value.fits_number,
    Number.isReadable, isNumber, Value.reread, if_pos isNumber]
  cases read : (Number.float x).reread? with
  | none => simp
  | some number => simp

theorem load_compact_converted (graph : SymbolGraph) (shallow : graph.toJson.depth ≤ 127)
    (back : ∀ x, .float x ∈ graph.constants → x.isFinite = true → ReadsBack x) :
    load graph.toJson.compact =
      .ok (.indexed (graph.types.map fun type => (type.mapConstants .plain).convert)) := by
  have readable : graph.toJson.isReadable = true := by
    apply graph.isReadable_toJson
    intro value member
    apply value.isReadable_toJson
    rintro x rfl
    by_cases finite : x.isFinite = true
    · rw [Number.isReadable, (readsBack_iff finite).mp (back x member finite)]
      exact Bool.or_true _
    · rw [Number.isReadable, Number.isFinite, Bool.eq_false_of_not_eq_true finite]
      rfl
  have fits : graph.toJson.fits depthLimit = true := by
    rw [Value.fits, readable, Bool.and_true]
    exact decide_eq_true shallow
  rw [load_written graph graph.toJson.writtenAs_compact, if_pos fits, reloaded]
  congr 2
  apply List.map_congr_left
  intro type member
  rw [TypeDeclaration.reloaded, TypeDeclaration.mapConstants_congr]
  intro value inside
  cases value with
  | float x =>
      rw [Constant.reread, Constant.plain]
      by_cases finite : x.isFinite = true
      · have known := (readsBack_iff finite).mp (back x (List.mem_flatMap_of_mem member inside) finite)
        rw [if_pos finite, if_pos finite, Decimal.Binary64.reread, known]
      · rw [if_neg finite, if_neg finite]
  | _ => rfl

end SymbolGraph

/-! ### What comes back -/

/-- A parameter whose default value was told by JSON, and is held as the type of the parameter. -/
def Parameter.returned (parameter : Parameter) : Parameter :=
  { parameter with
    default? := parameter.default?.map fun written =>
      (written.mapConstants .plain).forType parameter.type }

def MethodDeclaration.returned (method : MethodDeclaration) : MethodDeclaration :=
  { method with
    attributes := method.attributes.map (Attribute.mapConstants .plain)
    parameters := method.parameters.map Parameter.returned }

def TypeDeclaration.returned (type : TypeDeclaration) : TypeDeclaration :=
  { type with
    attributes := type.attributes.map (Attribute.mapConstants .plain)
    methods := type.methods.map MethodDeclaration.returned }

theorem Parameter.convert_mapConstants_plain (parameter : Parameter) :
    (parameter.mapConstants .plain).convert = parameter.returned := by
  rw [convert, mapConstants, returned, Option.map_map]
  rfl

theorem MethodDeclaration.convert_mapConstants_plain (method : MethodDeclaration) :
    (method.mapConstants .plain).convert = method.returned := by
  have each : Parameter.convert ∘ Parameter.mapConstants .plain = Parameter.returned :=
    funext Parameter.convert_mapConstants_plain
  rw [convert, mapConstants, returned, List.map_map, each]

theorem TypeDeclaration.convert_mapConstants_plain (type : TypeDeclaration) :
    (type.mapConstants .plain).convert = type.returned := by
  have each : MethodDeclaration.convert ∘ MethodDeclaration.mapConstants .plain =
      MethodDeclaration.returned :=
    funext MethodDeclaration.convert_mapConstants_plain
  rw [convert, mapConstants, returned, List.map_map, each]

namespace SymbolGraph

/-- The compact text of a graph loads as that graph, if it is not too deep and its doubles are read
back: only what JSON cannot tell of the constants changes, and then default values are held as the
types of their parameters. -/
theorem load_compact (graph : SymbolGraph) (shallow : graph.toJson.depth ≤ 127)
    (back : ∀ x, .float x ∈ graph.constants → x.isFinite = true → ReadsBack x) :
    load graph.toJson.compact = .ok (.indexed (graph.types.map TypeDeclaration.returned)) := by
  have each : (fun type : TypeDeclaration => (type.mapConstants .plain).convert) =
      TypeDeclaration.returned :=
    funext TypeDeclaration.convert_mapConstants_plain
  rw [load_compact_converted graph shallow back, each]

/-- One method whose attribute and default values are constants of several kinds. -/
def mixedConstants : SymbolGraph :=
  let parameters : List Parameter :=
    [{ name := "mark", type := .nullable (.primitive .char),
       default? := some (.constant (.char 'é')) },
     { name := "rate", type := .primitive .double,
       default? := some (.constant (.float ⟨0x3FF8000000000000⟩)) },
     { name := "share", type := .nullable (.primitive .decimal),
       default? := some (.constant (.int 3)) },
     { name := "letter", type := .named "N.Box", default? := some (.constant (.char 'y')) },
     { name := "count", type := .array (.generic "N.Box" [.primitive .int]) 2,
       default? := some (.constant .null) },
     { name := "rest", type := .named "N.Box", default? := none }]
  let applied : Attribute :=
    ⟨"N.NoteAttribute", [.constant (.char 'x'), .constant (.uint 7),
      .constant (.float .infinity), .unresolved "nameof(Box)"]⟩
  .unindexed [{ TypeDeclaration.plainClass "N" "Prices" (some "N.Box") [] with
    methods := [{
      name := "Show"
      kind := .ordinary
      accessibility := .public
      isStatic := false
      isGeneric := false
      attributes := [applied]
      parameters }] }]

theorem load_compact_mixedConstants :
    mixedConstants.toJson.depth ≤ 127 ∧
      (∀ x, .float x ∈ mixedConstants.constants → x.isFinite = true → ReadsBack x) ∧
      ∃ loaded, load mixedConstants.toJson.compact = .ok loaded ∧
        loaded.constants = [.string "x", .int 7, .null, .char 'é', .float ⟨0x3FF8000000000000⟩,
          .float ⟨0x4008000000000000⟩, .string "y", .null] := by
  have shallow : mixedConstants.toJson.depth ≤ 127 := by decide
  have back : ∀ x, .float x ∈ mixedConstants.constants → x.isFinite = true → ReadsBack x := by
    intro x member finite
    have given : mixedConstants.constants = [.char 'x', .uint 7, .float .infinity, .char 'é',
      .float ⟨0x3FF8000000000000⟩, .int 3, .char 'y', .null] := rfl
    rw [readsBack_iff finite]
    rw [given] at member
    simp only [List.mem_cons, reduceCtorEq, Constant.float.injEq, List.not_mem_nil, or_false,
      false_or] at member
    rcases member with rfl | rfl
    · exact absurd finite (by decide)
    · decide +kernel
  exact ⟨shallow, back, _, load_compact mixedConstants shallow back, by decide⟩

end SymbolGraph

end ActionAtlas
