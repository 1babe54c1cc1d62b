import ActionAtlas.Proofs.Graph.RoundTrip
import ActionAtlas.Proofs.Graph.ShapeDepth

/-!
Loaded graphs are in normal form: writing a graph that was loaded from any text, and loading it
again, changes nothing.

Whatever form the text has, what is read of it is plain: no constant is a character yet, and no
unsigned integer fits a signed one. Converting default values leaves only what the next conversion
gives again, and no shape is written deeper than it was read.
-/

namespace ActionAtlas

open Json

/-! ### Conversion -/

theorem Constant.forPrimitive_forPrimitive (primitive : Primitive) (constant : Constant) :
    (constant.forPrimitive primitive).forPrimitive primitive = constant.forPrimitive primitive := by
  cases constant with
  | int value =>
      by_cases real : primitive.isReal = true
      · rw [forPrimitive, if_pos real, forPrimitive]
        all_goals nofun
      · rw [forPrimitive, if_neg real, forPrimitive, if_neg real]
  | uint value =>
      by_cases real : primitive.isReal = true
      · rw [forPrimitive, if_pos real, forPrimitive]
        all_goals nofun
      · rw [forPrimitive, if_neg real, forPrimitive, if_neg real]
  | string value =>
      have stays : (Constant.string value).forPrimitive primitive = .string value ∨
          ∃ c, (Constant.string value).forPrimitive primitive = .char c := by
        simp only [forPrimitive]
        split
        · exact .inr ⟨_, rfl⟩
        · exact .inl rfl
      rcases stays with same | ⟨c, same⟩
      · rw [same, same]
      · rw [same]
        rfl
  | _ => rfl

theorem Constant.forType_forType (shape : TypeShape) (constant : Constant) :
    (constant.forType shape).forType shape = constant.forType shape := by
  unfold forType
  cases shape.constantType? with
  | none => rfl
  | some primitive => exact forPrimitive_forPrimitive primitive constant

theorem Evaluated.forType_forType (shape : TypeShape) (written : Evaluated) :
    (written.forType shape).forType shape = written.forType shape := by
  cases written with
  | constant value => exact congrArg constant (value.forType_forType shape)
  | unresolved text => rfl

/-! ### Plain constants -/

namespace Constant

/-- As JSON values are read: texts of one character are texts, and integers are signed where they
fit. -/
def IsPlain : Constant → Prop
  | .uint value => 0x8000000000000000 ≤ value.toNat
  | .char _ => False
  | _ => True

/-- All doubles among the constants have a numeral. -/
def AreFinite (constants : List Constant) : Prop :=
  ∀ x, .float x ∈ constants → x.isFinite = true

theorem AreFinite.mono {constants more : List Constant} (finite : AreFinite more)
    (all : constants ⊆ more) : AreFinite constants :=
  fun x member => finite x (all member)

theorem plain_eq_self {constant : Constant} (isPlain : constant.IsPlain)
    (finite : ∀ x, constant = .float x → x.isFinite = true) : constant.plain = constant := by
  cases constant with
  | uint value => rw [plain, if_neg (Nat.not_lt.mpr isPlain)]
  | float x => rw [plain, if_pos (finite x rfl)]
  | char value => exact isPlain.elim
  | _ => rfl

/-- The conversion of a plain constant to a type leaves it plain, or makes it the character of a
text that is converted so again. -/
theorem isPlain_forPrimitive_or {constant : Constant} (isPlain : constant.IsPlain)
    (primitive : Primitive) :
    (constant.forPrimitive primitive).IsPlain ∨
      primitive = .char ∧ ∃ c, constant.forPrimitive primitive = .char c := by
  cases constant with
  | int value =>
      simp only [forPrimitive]
      split <;> exact .inl trivial
  | uint value =>
      simp only [forPrimitive]
      split
      · exact .inl trivial
      · exact .inl isPlain
  | string value =>
      simp only [forPrimitive]
      split
      · exact .inr ⟨rfl, _, rfl⟩
      · exact .inl trivial
  | char value => exact isPlain.elim
  | _ => exact .inl trivial

theorem forPrimitive_plain_forPrimitive {constant : Constant} (isPlain : constant.IsPlain)
    {primitive : Primitive}
    (finite : ∀ x, constant.forPrimitive primitive = .float x → x.isFinite = true) :
    (constant.forPrimitive primitive).plain.forPrimitive primitive =
      constant.forPrimitive primitive := by
  rcases isPlain_forPrimitive_or isPlain primitive with stays | ⟨rfl, c, same⟩
  · rw [plain_eq_self stays finite, forPrimitive_forPrimitive]
  · -- a text of one character is written, and the type takes that for the character again
    rw [same, plain]
    simp only [forPrimitive, String.toList_singleton]

theorem forType_plain_forType {constant : Constant} (isPlain : constant.IsPlain)
    {shape : TypeShape} (finite : ∀ x, constant.forType shape = .float x → x.isFinite = true) :
    (constant.forType shape).plain.forType shape = constant.forType shape := by
  cases given : shape.constantType? with
  | none =>
      simp only [forType, given] at finite ⊢
      exact plain_eq_self isPlain finite
  | some primitive =>
      simp only [forType, given] at finite ⊢
      exact forPrimitive_plain_forPrimitive isPlain finite

theorem isPlain_of_ofJson? {value : Value} {constant : Constant}
    (given : ofJson? value = some constant) : constant.IsPlain := by
  cases value with
  | number number =>
      cases number with
      | integer n =>
          simp only [ofJson?] at given
          split_ifs at given with below small fits
          · cases given
            trivial
          · cases given
            rw [IsPlain, UInt64.toNat_ofNat']
            omega
      | float x =>
          cases given
          trivial
  | array items => cases given
  | object fields => cases given
  | _ =>
      cases given
      trivial

theorem yields_decoder : Yields decoder fun _ constant => constant.IsPlain := by
  intro room document constant given
  obtain ⟨value, -, given⟩ := bind_eq_ok_iff.mp given
  split at given
  · next found =>
    cases given
    exact isPlain_of_ofJson? found
  · cases given

end Constant

/-! ### What is read -/

def ArePlain (constants : List Constant) : Prop :=
  ∀ value ∈ constants, value.IsPlain

theorem Evaluated.yields_decoder : Yields decoder fun _ written => ArePlain written.constants := by
  apply yields_variant
  · intro name result given
    cases given
  · intro name room document written given
    split_ifs at given
    · obtain ⟨value, read, rfl⟩ := map_eq_ok_iff.mp given
      have isPlain := Constant.yields_decoder room document value read
      simpa [ArePlain, constants, constant?] using isPlain
    · obtain ⟨text, -, rfl⟩ := map_eq_ok_iff.mp given
      simp [ArePlain, constants, constant?]

def Attribute.IsPlain (applied : Attribute) : Prop :=
  ArePlain applied.constants

theorem Attribute.yields_read : Yields record.read fun _ applied => applied.IsPlain := by
  apply Record.yields_read fun _ => IsPlain
  · intro room
    simp [record, IsPlain, ArePlain, constants]
  · simp only [record, List.forall_mem_cons, List.not_mem_nil, false_implies, implies_true,
      and_true]
    refine ⟨Field.keeps_of (yields_any _) fun _ _ _ _ before => before, ?_⟩
    refine Field.keeps_of Evaluated.yields_decoder.list ?_
    intro room written applied plain _ value member
    obtain ⟨argument, inside, own⟩ := List.mem_flatMap.mp member
    exact plain argument inside value own

/-- A parameter that was read where so many arrays and objects could be opened. -/
structure Parameter.IsReadWithin (room : Nat) (parameter : Parameter) : Prop where
  plain : ArePlain parameter.constants
  shallow : parameter.type.toJson.depth ≤ max room 1

theorem Parameter.yields_read : Yields record.read fun room => IsReadWithin (room - 1) := by
  apply Record.yields_read IsReadWithin
  · intro room
    constructor
    · simp [record, ArePlain, constants]
    · exact Nat.le_max_right room 1
  · simp only [record, List.forall_mem_cons, List.not_mem_nil, false_implies, implies_true,
      and_true]
    refine ⟨?_, ?_, ?_⟩
    · exact Field.keeps_of (yields_any _) fun _ _ _ _ before => ⟨before.plain, before.shallow⟩
    · refine Field.keeps_of TypeShape.yields_decoder ?_
      intro room shape parameter shallow before
      exact ⟨before.plain, shallow.trans (Nat.le_max_left room 1)⟩
    · refine Field.keeps_of Evaluated.yields_decoder.option ?_
      intro room default? parameter plain before
      refine ⟨?_, before.shallow⟩
      intro value member
      obtain ⟨written, inside, own⟩ := List.mem_flatMap.mp member
      exact plain written (Option.mem_toList.mp inside) value own

/-- The bound is the room inside of the method. -/
structure MethodDeclaration.IsReadWithin (room : Nat) (method : MethodDeclaration) : Prop where
  attributes : ∀ applied ∈ method.attributes, applied.IsPlain
  parameters : ∀ parameter ∈ method.parameters, parameter.IsReadWithin (room - 1 - 1)

theorem MethodDeclaration.yields_read : Yields record.read fun room => IsReadWithin (room - 1) := by
  apply Record.yields_read IsReadWithin
  · intro room
    constructor <;> simp [record]
  · simp only [record, List.forall_mem_cons, List.not_mem_nil, false_implies, implies_true,
      and_true]
    refine ⟨?_, ?_, ?_, ?_, ?_, ?_, ?_⟩
    case refine_6 =>
      refine Field.keeps_of Attribute.yields_read.list ?_
      exact fun room attributes method plain before => ⟨plain, before.parameters⟩
    case refine_7 =>
      refine Field.keeps_of Parameter.yields_read.list ?_
      exact fun room parameters method within before => ⟨before.attributes, within⟩
    all_goals
      refine Field.keeps_of (yields_any _) ?_
      exact fun _ _ _ _ before => ⟨before.attributes, before.parameters⟩

structure TypeDeclaration.IsReadWithin (room : Nat) (type : TypeDeclaration) : Prop where
  attributes : ∀ applied ∈ type.attributes, applied.IsPlain
  methods : ∀ method ∈ type.methods, method.IsReadWithin (room - 1 - 1)

theorem TypeDeclaration.yields_read : Yields record.read fun room => IsReadWithin (room - 1) := by
  apply Record.yields_read IsReadWithin
  · intro room
    constructor <;> simp [record]
  · simp only [record, List.forall_mem_cons, List.not_mem_nil, false_implies, implies_true,
      and_true]
    refine ⟨?_, ?_, ?_, ?_, ?_, ?_, ?_, ?_, ?_, ?_, ?_⟩
    case refine_10 =>
      refine Field.keeps_of Attribute.yields_read.list ?_
      exact fun room attributes type plain before => ⟨plain, before.methods⟩
    case refine_11 =>
      refine Field.keeps_of MethodDeclaration.yields_read.list ?_
      exact fun room methods type within before => ⟨before.attributes, within⟩
    all_goals
      refine Field.keeps_of (yields_any _) ?_
      exact fun _ _ _ _ before => ⟨before.attributes, before.methods⟩

theorem SymbolGraph.yields_read :
    Yields record.read fun room types => ∀ type ∈ types, type.IsReadWithin (room - 1 - 1 - 1) := by
  apply Record.yields_read fun room types => ∀ type ∈ types,
    TypeDeclaration.IsReadWithin (room - 1 - 1) type
  · intro room
    simp [record]
  · simp only [record, List.forall_mem_cons, List.not_mem_nil, false_implies, implies_true,
      and_true]
    exact Field.keeps_of TypeDeclaration.yields_read.list fun _ _ _ within _ => within

/-! ### Depth -/

theorem Constant.depth_toJson (constant : Constant) : constant.toJson.depth = 0 := by
  cases constant with
  | float value =>
      rw [toJson]
      split <;> rfl
  | _ => rfl

theorem Evaluated.depth_toJson (written : Evaluated) : written.toJson.depth = 1 := by
  cases written with
  | constant value => simp [toJson, Value.depth, Value.depthOfFields, Constant.depth_toJson]
  | unresolved text => rfl

theorem Attribute.depth_toJson_le (applied : Attribute) : applied.toJson.depth ≤ 3 := by
  have arguments : Value.depthOfItems (applied.arguments.map Evaluated.toJson) ≤ 1 := by
    rw [Value.depthOfItems_le_iff, List.forall_mem_map]
    exact fun written _ => written.depth_toJson.le
  simp [toJson, Value.depth, Value.depthOfFields]
  omega

theorem depthOfItems_attributes_le (attributes : List Attribute) :
    Value.depthOfItems (attributes.map Attribute.toJson) ≤ 3 := by
  rw [Value.depthOfItems_le_iff, List.forall_mem_map]
  exact fun applied _ => applied.depth_toJson_le

theorem Parameter.IsReadWithin.depth_convert_le {room : Nat} {parameter : Parameter}
    (within : parameter.IsReadWithin room) (deep : 1 ≤ room) :
    parameter.convert.toJson.depth ≤ room + 1 := by
  have shape : parameter.convert.type.toJson.depth ≤ room := by
    have shallow := within.shallow
    rwa [Nat.max_eq_left deep] at shallow
  have default : (optionToJson Evaluated.toJson parameter.convert.default?).depth ≤ 1 := by
    cases parameter.convert.default? with
    | none => exact Nat.zero_le 1
    | some written => exact written.depth_toJson.le
  simp [toJson, Value.depth, Value.depthOfFields]
  omega

theorem MethodDeclaration.IsReadWithin.depth_convert_le {room : Nat} {method : MethodDeclaration}
    (within : method.IsReadWithin room) (deep : 4 ≤ room) :
    method.convert.toJson.depth ≤ room + 1 := by
  have attributes := depthOfItems_attributes_le method.convert.attributes
  have parameters :
      Value.depthOfItems (method.convert.parameters.map Parameter.toJson) ≤ room - 1 := by
    rw [Value.depthOfItems_le_iff, List.forall_mem_map, convert, List.forall_mem_map]
    intro parameter member
    have bound := (within.parameters parameter member).depth_convert_le (by omega)
    omega
  simp [toJson, Value.depth, Value.depthOfFields]
  omega

theorem TypeDeclaration.IsReadWithin.depth_convert_le {room : Nat} {type : TypeDeclaration}
    (within : type.IsReadWithin room) (deep : 6 ≤ room) :
    type.convert.toJson.depth ≤ room + 1 := by
  have base : (optionToJson .string type.convert.base?).depth = 0 := by
    cases type.convert.base? <;> rfl
  have interfaces : Value.depthOfItems (type.convert.interfaces.map .string) ≤ 0 := by
    rw [Value.depthOfItems_le_iff, List.forall_mem_map]
    exact fun _ _ => Nat.le_refl 0
  have attributes := depthOfItems_attributes_le type.convert.attributes
  have methods :
      Value.depthOfItems (type.convert.methods.map MethodDeclaration.toJson) ≤ room - 1 := by
    rw [Value.depthOfItems_le_iff, List.forall_mem_map, convert, List.forall_mem_map]
    intro method member
    have bound := (within.methods method member).depth_convert_le (by omega)
    omega
  simp [toJson, Value.depth, Value.depthOfFields]
  omega

/-! ### Converting again -/

theorem map_eq_self {α : Type} {change : α → α} {items : List α}
    (each : ∀ item ∈ items, change item = item) : items.map change = items :=
  (List.map_congr_left each).trans (List.map_id items)

section

open Constant

theorem Attribute.IsPlain.mapConstants_plain {applied : Attribute} (isPlain : applied.IsPlain)
    (finite : AreFinite applied.constants) : applied.mapConstants .plain = applied := by
  have arguments : applied.arguments.map (Evaluated.mapConstants .plain) = applied.arguments := by
    apply map_eq_self
    intro written member
    cases written with
    | constant value =>
        have inside : value ∈ applied.constants :=
          List.mem_flatMap_of_mem member List.mem_cons_self
        apply congrArg Evaluated.constant
        apply Constant.plain_eq_self (isPlain value inside)
        rintro x rfl
        exact finite x inside
    | unresolved text => rfl
  rw [mapConstants, arguments]

theorem Parameter.IsReadWithin.convert_plain_convert {room : Nat} {parameter : Parameter}
    (within : parameter.IsReadWithin room) (finite : AreFinite parameter.convert.constants) :
    (parameter.convert.mapConstants .plain).convert = parameter.convert := by
  have isPlain := within.plain
  simp only [convert, mapConstants, constants] at isPlain finite ⊢
  cases given : parameter.default? with
  | none => rfl
  | some written =>
      cases written with
      | constant value =>
          rw [given] at isPlain finite
          have settled : (value.forType parameter.type).plain.forType parameter.type =
              value.forType parameter.type := by
            apply forType_plain_forType (isPlain value List.mem_cons_self)
            intro x same
            exact finite x (same ▸ List.mem_cons_self)
          simp only [Option.map_some, Evaluated.forType, Evaluated.mapConstants, settled]
      | unresolved text => rfl

theorem mapConstants_plain_attributes {attributes : List Attribute}
    (isPlain : ∀ applied ∈ attributes, applied.IsPlain)
    (finite : AreFinite (attributes.flatMap Attribute.constants)) :
    attributes.map (Attribute.mapConstants .plain) = attributes := by
  apply map_eq_self
  intro applied member
  apply (isPlain applied member).mapConstants_plain
  apply finite.mono
  exact fun value inside => List.mem_flatMap_of_mem member inside

theorem MethodDeclaration.IsReadWithin.convert_plain_convert {room : Nat}
    {method : MethodDeclaration} (within : method.IsReadWithin room)
    (finite : AreFinite method.convert.constants) :
    (method.convert.mapConstants .plain).convert = method.convert := by
  have attributes : method.attributes.map (Attribute.mapConstants .plain) = method.attributes :=
    mapConstants_plain_attributes within.attributes (finite.mono (List.subset_append_left _ _))
  have parameters :
      method.parameters.map (fun parameter => (parameter.convert.mapConstants .plain).convert) =
        method.parameters.map Parameter.convert := by
    apply List.map_congr_left
    intro parameter member
    apply (within.parameters parameter member).convert_plain_convert
    apply finite.mono
    intro value inside
    exact List.mem_append_right _
      (List.mem_flatMap_of_mem (List.mem_map_of_mem member) inside)
  simp only [convert, mapConstants, attributes, List.map_map, Function.comp_def, parameters]

theorem TypeDeclaration.IsReadWithin.convert_plain_convert {room : Nat} {type : TypeDeclaration}
    (within : type.IsReadWithin room) (finite : AreFinite type.convert.constants) :
    (type.convert.mapConstants .plain).convert = type.convert := by
  have attributes : type.attributes.map (Attribute.mapConstants .plain) = type.attributes :=
    mapConstants_plain_attributes within.attributes (finite.mono (List.subset_append_left _ _))
  have methods :
      type.methods.map (fun method => (method.convert.mapConstants .plain).convert) =
        type.methods.map MethodDeclaration.convert := by
    apply List.map_congr_left
    intro method member
    apply (within.methods method member).convert_plain_convert
    apply finite.mono
    intro value inside
    exact List.mem_append_right _
      (List.mem_flatMap_of_mem (List.mem_map_of_mem member) inside)
  simp only [convert, mapConstants, attributes, List.map_map, Function.comp_def, methods]

end

/-! ### Loading again -/

namespace SymbolGraph

theorem isReadWithin_of_load {text : String} {graph : SymbolGraph}
    (loaded : load text = .ok graph) :
    ∃ types : List TypeDeclaration, graph = .indexed (types.map TypeDeclaration.convert) ∧
      ∀ type ∈ types, type.IsReadWithin 124 := by
  unfold load at loaded
  split_ifs at loaded
  split at loaded
  · next unconverted given =>
    cases loaded
    obtain ⟨types, decoded, rfl⟩ := map_eq_ok_iff.mp given
    rw [decode_eq, bind_eq_ok_iff] at decoded
    obtain ⟨result, read, alone⟩ := decoded
    split_ifs at alone
    cases alone
    exact ⟨types, rfl, yields_read depthLimit _ types read⟩
  · cases loaded

theorem ReadsBack.isFinite {x : Decimal.Binary64} (back : ReadsBack x) : x.isFinite = true := by
  by_contra infinite
  have unwritten : ¬(Number.float x).isFinite = true := infinite
  rw [ReadsBack, (reads_value _).decode (Value.writtenAs_compact _), within_eq_ok_iff,
    Value.reread, if_neg unwritten] at back
  cases back.2

/-- A graph that was loaded from any text is written as a text that loads as that graph. -/
theorem load_compact_of_load {text : String} {graph : SymbolGraph} (loaded : load text = .ok graph)
    (back : ∀ x, .float x ∈ graph.constants → ReadsBack x) :
    load graph.toJson.compact = .ok graph := by
  obtain ⟨types, rfl, within⟩ := isReadWithin_of_load loaded
  have shallow : (indexed (types.map TypeDeclaration.convert)).toJson.depth ≤ 127 := by
    have each : Value.depthOfItems
        ((types.map TypeDeclaration.convert).map TypeDeclaration.toJson) ≤ 125 := by
      rw [Value.depthOfItems_le_iff, List.forall_mem_map, List.forall_mem_map]
      exact fun type member => (within type member).depth_convert_le (by omega)
    simp [toJson, indexed, Value.depth, Value.depthOfFields] at each ⊢
    omega
  rw [load_compact_converted _ shallow fun x member _ => back x member]
  congr 2
  apply map_eq_self
  intro converted member
  obtain ⟨type, inside, rfl⟩ := List.mem_map.mp member
  apply (within type inside).convert_plain_convert
  intro x float
  exact (back x (List.mem_flatMap_of_mem member float)).isFinite

/-- Loading by the characters of a text. -/
theorem load_eq {text : String} {chars : List Char} (given : text.toList = chars) :
    load text =
      if (Text.trim chars).isEmpty then .error .empty
      else
        match (record.read depthLimit (Reading.ofLexemes (Lexeme.ofText chars)).document).bind
          fun types =>
            if (Reading.ofLexemes (Lexeme.ofText chars)).trailing then .error .malformed
            else .ok types with
        | .ok types => .ok (indexed (types.map TypeDeclaration.convert))
        | .error failure => .error (.undecodable failure) := by
  subst given
  rw [load, SymbolGraph.read, decode_eq, Reading.ofText]
  cases Except.bind _ _ <;> rfl

/-- Records and shapes as arrays, a kind as an object, fields in another order and without their
default values, and default values that are converted. -/
def unusualText : String :=
  "\x7b\"note\": 1, \"types\": [[\"Prices\", \"N\", \x7b\"class\": null\x7d, \"public\", false, false,
    false, null, [], [[\"N.NoteAttribute\", [\x7b\"constant\": 18446744073709551615\x7d,
    \x7b\"constant\": 1.5\x7d]]], [\x7b\"parameters\": [\x7b\"type\": \x7b\"underlying\":
    [\"primitive\", \"char\"], \"shape\": \"nullable\"\x7d, \"default_value\":
    \x7b\"constant\": \"x\"\x7d, \"name\": \"mark\"\x7d, [\"rate\", [\"primitive\", \"double\"],
    \x7b\"constant\": 3\x7d]], \"name\": \"Show\"\x7d]]]\x7d"

set_option maxRecDepth 4000 in
theorem load_compact_of_load_unusualText :
    ∃ graph, load unusualText = .ok graph ∧
      graph.constants = [.uint 0xFFFFFFFFFFFFFFFF, .float ⟨0x3FF8000000000000⟩, .char 'x',
        .float ⟨0x4008000000000000⟩] ∧
      (∀ x, .float x ∈ graph.constants → ReadsBack x) ∧
      load graph.toJson.compact = .ok graph := by
  have read : (load unusualText).toOption.map constants =
      some [.uint 0xFFFFFFFFFFFFFFFF, .float ⟨0x3FF8000000000000⟩, .char 'x',
        .float ⟨0x4008000000000000⟩] := by
    have chars : unusualText.toList = _ := String.toList_ofList
    rw [load_eq chars]
    decide +kernel
  cases loaded : load unusualText with
  | error failure =>
      rw [loaded] at read
      cases read
  | ok graph =>
      rw [loaded] at read
      have given := Option.some.inj read
      have back : ∀ x, .float x ∈ graph.constants → ReadsBack x := by
        intro x member
        rw [given] at member
        simp only [List.mem_cons, reduceCtorEq, Constant.float.injEq, List.not_mem_nil, or_false,
          false_or] at member
        rcases member with rfl | rfl
        · exact (readsBack_iff (by decide)).mpr (by decide +kernel)
        · exact (readsBack_iff (by decide)).mpr (by decide +kernel)
      exact ⟨graph, rfl, given, back, load_compact_of_load loaded back⟩

end SymbolGraph

end ActionAtlas
