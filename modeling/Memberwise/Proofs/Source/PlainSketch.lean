import Memberwise.Proofs.Source.PlainStruct
import Memberwise.Proofs.Source.Sketch

/-!
# Sketches of plain structs

The grammar of the language fixes the tree of a plain struct: which nodes it has, in which fields of
their parents they are, and how their texts make up the text of the declaration. A parser that
follows the grammar makes this tree, whatever else it does.

The main statements: the sketch of a plain struct is one of its text, and inside the declaration
there is neither another one nor a `where` clause.
-/

namespace Memberwise.Source

open Sketch (spellingAll layOutAll token space listed)

/-! ## Sketches by the grammar -/

namespace Identifier

/-- A type, in a field of its parent. Primitive types are nodes of their own kind. -/
def typeSketch (field : Option String) (identifier : Identifier) : Sketch :=
  .leaf (if identifier.text ∈ primitiveTypes then "primitive_type" else "type_identifier") true
    field identifier.text.toList

end Identifier

/-- The name that a declaration gives, as a node of this kind. -/
def GivenName.sketch (kind : String) (field : Option String) (name : GivenName) : Sketch :=
  .leaf kind true field name.text.toList

def Integer.sketch (integer : Integer) : Sketch :=
  if integer.negative then
    .node "negative_literal" (some "value")
      [token "-", .leaf "integer_literal" true none integer.literal]
  else .leaf "integer_literal" true (some "value") integer.literal

namespace PlainParameter

def kind : PlainParameter → String
  | lifetime _ => "lifetime_parameter"
  | type _ _ _ => "type_parameter"
  | const _ _ _ => "const_parameter"

/-- The parts before any default. -/
def declaredParts : PlainParameter → List Sketch
  | lifetime name =>
    [.node "lifetime" (some "name") [token "'", name.sketch "identifier" none]]
  | type name none _ => [name.sketch "type_identifier" (some "name")]
  | type name (some bound) _ =>
    [name.sketch "type_identifier" (some "name"),
      .node "trait_bounds" (some "bounds") [token ":", space, bound.typeSketch none]]
  | const name ascribed _ =>
    [token "const", space, name.sketch "identifier" (some "name"), token ":", space,
      ascribed.typeSketch (some "type")]

def defaultValue? : PlainParameter → Option Sketch
  | lifetime _ => none
  | type _ _ default => default.map (Identifier.typeSketch (some "default_type"))
  | const _ _ default => default.map Integer.sketch

def defaultParts (parameter : PlainParameter) : List Sketch :=
  match parameter.defaultValue? with
  | none => []
  | some value => [space, token "=", space, value]

def sketch (parameter : PlainParameter) : Sketch :=
  .node parameter.kind none (parameter.declaredParts ++ parameter.defaultParts)

end PlainParameter

def PlainField.sketch (field : PlainField) : Sketch :=
  .node "field_declaration" none
    [.leaf "field_identifier" true (some "name") field.ident.text.toList, token ":", space,
      field.type.typeSketch (some "type")]

namespace PlainFields

/-- The line of a field in braces. -/
def line (field : PlainField) : List Sketch :=
  [.gap "    ".toList, field.sketch, token ",", .gap ['\n']]

def parts : PlainFields → List Sketch
  | named fields =>
    [space, .node "field_declaration_list" (some "body")
      (token "\x7b" :: .gap ['\n'] :: (fields.flatMap line ++ [token "\x7d"]))]
  | tuple types =>
    [.node "ordered_field_declaration_list" (some "body")
      (token "(" :: (listed (types.map (Identifier.typeSketch (some "type"))) ++ [token ")"])),
      token ";"]

end PlainFields

namespace PlainStruct

def parameterParts (plain : PlainStruct) : List Sketch :=
  if plain.parameters.isEmpty then []
  else
    [.node "type_parameters" (some "type_parameters")
      (token "<" :: (listed (plain.parameters.map PlainParameter.sketch) ++ [token ">"]))]

/-- The parts up to the name. -/
def nameParts (plain : PlainStruct) : List Sketch :=
  [token "struct", space, plain.name.sketch "type_identifier" (some "name")]

def parts (plain : PlainStruct) : List Sketch :=
  plain.nameParts ++ plain.parameterParts ++ plain.fields.parts

def sketch (plain : PlainStruct) : Sketch := .node "struct_item" none plain.parts

end PlainStruct

/-- The parser follows the grammar for a text that holds a plain struct and nothing else: there is a
tree, and below its root there is the declaration alone. -/
structure Parser.Follows (parser : Parser) (plain : PlainStruct) : Prop where
  refusal_eq : parser.refusal = none
  exists_root : ∃ root, parser.root? plain.source = some root ∧ root.kind = "source_file" ∧
    root.children = plain.sketch.layOut .start

/-! ## Kinds of nodes -/

/-- The kinds of nodes in plain structs, the declaration apart. -/
def partKinds : List String :=
  ["struct", "type_identifier", "type_parameters", "<", ",", ">", "lifetime_parameter", "lifetime",
    "'", "identifier", "type_parameter", "trait_bounds", ":", "=", "primitive_type",
    "const_parameter", "const", "negative_literal", "-", "integer_literal",
    "field_declaration_list", "\x7b", "\x7d", "field_declaration", "field_identifier",
    "ordered_field_declaration_list", "(", ")", ";"]

theorem Identifier.within_typeSketch (field : Option String) (identifier : Identifier) :
    (identifier.typeSketch field).Within partKinds := by
  rw [typeSketch, Sketch.within_leaf_iff]
  split <;> decide

theorem Integer.within_sketch (integer : Integer) : integer.sketch.Within partKinds := by
  rw [sketch]
  split <;> simp +decide

namespace PlainParameter

variable (parameter : PlainParameter)

theorem within_declaredParts : ∀ part ∈ parameter.declaredParts, part.Within partKinds := by
  cases parameter with
  | lifetime name => simp +decide [declaredParts, GivenName.sketch]
  | type name bound default =>
    cases bound <;> simp +decide [declaredParts, GivenName.sketch, Identifier.within_typeSketch]
  | const name ascribed default =>
    simp +decide [declaredParts, GivenName.sketch, Identifier.within_typeSketch]

theorem within_defaultParts : ∀ part ∈ parameter.defaultParts, part.Within partKinds := by
  cases parameter with
  | lifetime name => exact List.forall_mem_nil _
  | type name bound default =>
    cases default <;>
      simp +decide [defaultParts, defaultValue?, Identifier.within_typeSketch]
  | const name ascribed default =>
    cases default <;> simp +decide [defaultParts, defaultValue?, Integer.within_sketch]

theorem within_sketch : parameter.sketch.Within partKinds := by
  rw [sketch, Sketch.within_node_iff, List.forall_mem_append]
  refine ⟨?_, parameter.within_declaredParts, parameter.within_defaultParts⟩
  cases parameter <;> simp +decide [kind]

end PlainParameter

theorem PlainField.within_sketch (field : PlainField) : field.sketch.Within partKinds := by
  simp +decide [sketch, Identifier.within_typeSketch]

theorem PlainFields.within_parts (fields : PlainFields) :
    ∀ part ∈ fields.parts, part.Within partKinds := by
  cases fields with
  | named fields =>
    have hlines : ∀ part ∈ fields.flatMap line, part.Within partKinds := by
      intro part hpart
      obtain ⟨field, -, hpart⟩ := List.mem_flatMap.mp hpart
      refine (?_ : ∀ part ∈ line field, part.Within partKinds) part hpart
      simp +decide [line, field.within_sketch]
    simp only [parts, List.forall_mem_cons, Sketch.within_node_iff, List.forall_mem_append]
    exact ⟨Sketch.within_space, ⟨by decide, Sketch.within_token_iff.mpr (by decide),
      Sketch.within_gap _, hlines, by simp +decide⟩, List.forall_mem_nil _⟩
  | tuple types =>
    have htypes : ∀ part ∈ types.map (Identifier.typeSketch (some "type")),
        part.Within partKinds :=
      List.forall_mem_map.mpr fun type _ ↦ type.within_typeSketch (some "type")
    simp only [parts, List.forall_mem_cons, Sketch.within_node_iff, List.forall_mem_append]
    exact ⟨⟨by decide, Sketch.within_token_iff.mpr (by decide),
      Sketch.forall_mem_listed (by simp +decide) (by simp) htypes, by simp +decide⟩,
      by simp +decide⟩

theorem PlainStruct.within_parameterParts (plain : PlainStruct) :
    ∀ part ∈ plain.parameterParts, part.Within partKinds := by
  rw [parameterParts]
  split
  · exact List.forall_mem_nil _
  · have hparameters : ∀ part ∈ plain.parameters.map PlainParameter.sketch,
        part.Within partKinds :=
      List.forall_mem_map.mpr fun parameter _ ↦ parameter.within_sketch
    simp only [List.forall_mem_cons, Sketch.within_node_iff, List.forall_mem_append]
    exact ⟨⟨by decide, Sketch.within_token_iff.mpr (by decide),
      Sketch.forall_mem_listed (by simp +decide) (by simp) hparameters, by simp +decide⟩,
      List.forall_mem_nil _⟩

/-- Inside a plain struct there is neither another declaration nor a `where` clause. -/
theorem PlainStruct.kindsAll_parts (plain : PlainStruct) :
    Sketch.kindsAll plain.parts ⊆ partKinds := by
  have hname : ∀ part ∈ plain.nameParts, part.Within partKinds := by
    simp +decide [nameParts, GivenName.sketch]
  rw [Sketch.kindsAll_subset_iff, parts, List.forall_mem_append, List.forall_mem_append]
  exact ⟨⟨hname, plain.within_parameterParts⟩, plain.fields.within_parts⟩

/-! ## Texts of sketches -/

theorem Integer.spelling_sketch (integer : Integer) :
    integer.sketch.spelling = integer.text.toList := by
  rw [sketch, text]
  split <;> simp [Sketch.spelling, spellingAll]

namespace PlainParameter

variable (parameter : PlainParameter)

theorem spellingAll_declaredParts :
    spellingAll parameter.declaredParts = parameter.declared.toList := by
  cases parameter with
  | lifetime name => simp [declaredParts, declared, spellingAll, Sketch.spelling, GivenName.sketch]
  | type name bound default =>
    cases bound <;> simp [declaredParts, declared, spellingAll, Sketch.spelling, GivenName.sketch,
      Identifier.typeSketch]
  | const name ascribed default =>
    simp [declaredParts, declared, spellingAll, Sketch.spelling, GivenName.sketch,
      Identifier.typeSketch]

theorem spellingAll_defaultParts :
    spellingAll parameter.defaultParts = parameter.default.toList := by
  cases parameter with
  | lifetime name => rfl
  | type name bound default =>
    cases default <;> simp [defaultParts, defaultValue?, PlainParameter.default, spellingAll,
      Sketch.spelling, Identifier.typeSketch]
  | const name ascribed default =>
    cases default <;> simp [defaultParts, defaultValue?, PlainParameter.default, spellingAll,
      Integer.spelling_sketch]

theorem spelling_sketch : parameter.sketch.spelling = parameter.text.toList := by
  rw [sketch, Sketch.spelling, Sketch.spellingAll_append, spellingAll_declaredParts,
    spellingAll_defaultParts, text, String.toList_append]

end PlainParameter

theorem PlainFields.spellingAll_parts (fields : PlainFields) :
    spellingAll fields.parts = fields.text.toList := by
  cases fields with
  | named fields =>
    have hlines : spellingAll (fields.flatMap line) =
        (String.join (fields.map fun field ↦ "    " ++ field.text ++ ",\n")).toList := by
      induction fields with
      | nil => rfl
      | cons field fields ih =>
        rw [List.flatMap_cons, Sketch.spellingAll_append, ih]
        simp [line, spellingAll, Sketch.spelling, PlainField.sketch, PlainField.text,
          Identifier.typeSketch]
    simp [parts, text, spellingAll, Sketch.spelling, Sketch.spellingAll_append, hlines]
  | tuple types =>
    have htypes : (types.map (Identifier.typeSketch (some "type"))).map Sketch.spelling =
        (types.map Identifier.text).map String.toList := by
      simp [Identifier.typeSketch, Sketch.spelling, Function.comp_def]
    simp only [parts, text, spellingAll, Sketch.spelling, Sketch.spellingAll_append,
      Sketch.spellingAll_listed, htypes]
    simp [String.toList_intercalate]

namespace PlainStruct

theorem spellingAll_parameterParts (plain : PlainStruct) :
    spellingAll plain.parameterParts =
      (if plain.parameters.isEmpty then ""
        else angled (plain.parameters.map PlainParameter.text)).toList := by
  rw [parameterParts]
  split
  · rfl
  · have htexts : (plain.parameters.map PlainParameter.sketch).map Sketch.spelling =
        (plain.parameters.map PlainParameter.text).map String.toList := by
      simp [PlainParameter.spelling_sketch, Function.comp_def]
    simp only [spellingAll, Sketch.spelling, Sketch.spellingAll_append, Sketch.spellingAll_listed,
      htexts, angled]
    simp [String.toList_intercalate]

/-- The sketch of a plain struct is a sketch of its text. -/
theorem spellingAll_parts (plain : PlainStruct) :
    spellingAll plain.parts = plain.text.toList := by
  rw [parts, Sketch.spellingAll_append, Sketch.spellingAll_append, spellingAll_parameterParts,
    plain.fields.spellingAll_parts, text, String.toList_append, String.toList_append]
  simp [nameParts, spellingAll, Sketch.spelling, GivenName.sketch]

end PlainStruct

end Memberwise.Source
