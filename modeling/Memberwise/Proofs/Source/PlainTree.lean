import Memberwise.Proofs.Source.PlainSketch
import Memberwise.Proofs.Text.Ascii
import Memberwise.Proofs.Text.Pieces

/-!
# Reading plain structs

The tree that the grammar gives to a plain struct is read node by node. Fields and parameters are
lists, so what holds of one of them is carried along the list; the rest of the declaration is a
handful of nodes.

The main statement: what is read from the tree is what the plain struct declares, and nothing else.
So printing and reading undo each other.
-/

namespace Memberwise.Source

open Sketch (spellingAll layOutAll token space listed)

/-! ## Reading the parts -/

theorem Identifier.isWord_toList_text (identifier : Identifier) :
    Text.IsWord identifier.text.toList := by
  rw [toList_text]
  have hfirst := Text.isAlphanum_iff.mpr (.inl identifier.isAlpha_first)
  have hothers : ∀ c ∈ identifier.others, Text.isBlank c = false := by
    intro c hc
    rcases identifier.others_subset c hc with halphanum | rfl
    · exact Text.isBlank_of_isAlphanum halphanum
    · decide
  exact ⟨List.cons_ne_nil _ _,
    List.forall_mem_cons.mpr ⟨Text.isBlank_of_isAlphanum hfirst, hothers⟩⟩

section Reading

variable {source : SourceFile} {mark : Mark}

theorem SourceFile.nodeText?_leaf {text : String}
    (h : Placed source.text.toList mark text.toList) (kind : String) (field : Option String) :
    source.nodeText? ⟨kind, true, false, field, mark, mark.advance text.toList, []⟩ =
      some text := by
  rw [nodeText?, h.between?, String.ofList_toList]

theorem SourceFile.identText?_leaf {text : String}
    (h : Placed source.text.toList mark text.toList) (kind : String) (field : Option String) :
    source.identText? (some ⟨kind, true, false, field, mark, mark.advance text.toList, []⟩) =
      some (some text) := by
  change (source.nodeText? _).map some = _
  rw [nodeText?_leaf h, Option.map_some]

theorem SourceFile.typeText?_leaf {identifier : Identifier}
    (h : Placed source.text.toList mark identifier.text.toList) (kind : String)
    (field : Option String) :
    source.typeText?
        (some ⟨kind, true, false, field, mark, mark.advance identifier.text.toList, []⟩) =
      some (some identifier.text) := by
  have hword := identifier.isWord_toList_text
  have htrim : Text.trim identifier.text.toList = identifier.text.toList := by
    have htrimmed := Text.IsTrimmed.of_visible (List.forall_mem_nil _) hword.2
      (List.forall_mem_nil _)
    simpa using htrimmed.trim_eq
  have hvisible : (Text.trim identifier.text.toList).isEmpty = false := by
    rw [htrim, List.isEmpty_eq_false_iff]
    exact hword.1
  change (source.nodeText? _).map _ = _
  rw [nodeText?_leaf h, Option.map_some, hvisible]
  rfl

/-! ### Fields -/

theorem SourceFile.namedField?_of_declaration {child name type : Node}
    {ident typeText : Option String} (hkind : child.kind = "field_declaration")
    (hname : child.childByField? "name" = some name)
    (htype : child.childByField? "type" = some type)
    (hident : source.identText? (some name) = some ident)
    (htypeText : source.typeText? (some type) = some typeText) :
    source.namedField? child = some (some ⟨ident, typeText⟩) := by
  rw [namedField?, hkind]
  simp only [hname, htype, hident, htypeText, Option.bind_some, Option.map_some]

theorem PlainField.yields (field : PlainField) :
    Yields source.text.toList Node.isNamed source.namedField? [field.sketch]
      [some ⟨some field.ident.text, some field.type.text⟩] := by
  refine .singleton fun mark hplaced ↦ ⟨_, rfl, rfl, ?_⟩
  simp only [sketch, Sketch.spelling, spellingAll] at hplaced
  have hident := SourceFile.identText?_leaf hplaced.left "field_identifier" (some "name")
  have htype := SourceFile.typeText?_leaf hplaced.right.right.right.left
    (if field.type.text ∈ primitiveTypes then "primitive_type" else "type_identifier")
    (some "type")
  exact SourceFile.namedField?_of_declaration rfl rfl rfl hident htype

theorem PlainFields.yields_lines (fields : List PlainField) :
    Yields source.text.toList Node.isNamed source.namedField? (fields.flatMap line)
      (fields.map fun field ↦ some ⟨some field.ident.text, some field.type.text⟩) :=
  .flatMap fun field _ ↦
    .skip (fun _ ↦ rfl) (field.yields.append (.skip (fun _ ↦ rfl) (.skip (fun _ ↦ rfl) .nil)))

theorem SourceFile.namedFields?_nodeAt {kind : String} {field : Option String}
    {parts : List Sketch} {fields : List (Option Field)}
    (h : Yields source.text.toList Node.isNamed source.namedField? parts fields)
    (hplaced : Placed source.text.toList mark (spellingAll parts)) :
    source.namedFields? (Sketch.nodeAt kind field parts mark) = some (fields.filterMap id) := by
  rw [namedFields?, Node.namedChildren, Sketch.nodeAt, h mark hplaced, Option.map_some]

theorem Identifier.yields (identifier : Identifier) :
    Yields source.text.toList (fun child ↦ child.field = some "type") source.tupleField?
      [identifier.typeSketch (some "type")] [⟨none, some identifier.text⟩] := by
  refine .singleton fun mark hplaced ↦ ⟨_, rfl, rfl, ?_⟩
  rw [SourceFile.tupleField?, SourceFile.typeText?_leaf hplaced, Option.map_some]

theorem PlainFields.yields_types (types : List Identifier) :
    Yields source.text.toList (fun child ↦ child.field = some "type") source.tupleField?
      (listed (types.map (Identifier.typeSketch (some "type"))))
      (types.map fun type ↦ ⟨none, some type.text⟩) :=
  .listed (.skip (fun _ ↦ rfl) (.skip (fun _ ↦ rfl) .nil)) fun type _ ↦ type.yields

theorem SourceFile.tupleFields?_nodeAt {kind : String} {field : Option String}
    {parts : List Sketch} {fields : List Field}
    (h : Yields source.text.toList (fun child ↦ child.field = some "type") source.tupleField? parts
      fields) (hplaced : Placed source.text.toList mark (spellingAll parts)) :
    source.tupleFields? (Sketch.nodeAt kind field parts mark) = some fields :=
  h mark hplaced

/-- The node in the field for the body is read as the fields. -/
theorem PlainFields.body?_eq (fields : PlainFields) {node : Node}
    (hplaced : Placed source.text.toList mark (spellingAll fields.parts))
    (hnode : node.childByField? "body" =
      (layOutAll mark fields.parts).find? fun child ↦ child.field = some "body") :
    source.body? node = some fields.body := by
  rw [SourceFile.body?, hnode]
  cases fields with
  | named fields =>
    change (source.namedFields? (Sketch.nodeAt "field_declaration_list" (some "body") _
      (mark.advance space.spelling))).map Body.named = _
    rw [SourceFile.namedFields?_nodeAt (.skip (fun _ ↦ rfl) (.skip (fun _ ↦ rfl)
      ((yields_lines fields).append (.skip (fun _ ↦ rfl) .nil)))) hplaced.right.left]
    simp [body]
  | tuple types =>
    change (source.tupleFields? (Sketch.nodeAt "ordered_field_declaration_list" (some "body") _
      mark)).map Body.tuple = _
    rw [SourceFile.tupleFields?_nodeAt (.skip (fun _ ↦ rfl)
      ((yields_types types).append (.skip (fun _ ↦ rfl) .nil))) hplaced.left]
    simp [body]

/-! ### Generic parameters -/

namespace PlainParameter

variable (parameter : PlainParameter)

/-- The declared part consists of words with single spaces between them. -/
theorem exists_words : ∃ words : List (List Char),
    (∀ word ∈ words, Text.IsWord word) ∧ parameter.declared.toList = [' '].intercalate words := by
  have hcolon : ∀ identifier : Identifier, Text.IsWord (identifier.text.toList ++ [':']) := by
    intro identifier
    have hblank : ∀ c ∈ [':'], Text.isBlank c = false := List.forall_mem_singleton.mpr (by decide)
    exact ⟨by simp, List.forall_mem_append.mpr ⟨identifier.isWord_toList_text.2, hblank⟩⟩
  cases parameter with
  | lifetime name =>
    refine ⟨['\x27' :: name.text.toList], ?_, by simp [declared]⟩
    rw [List.forall_mem_singleton]
    exact ⟨List.cons_ne_nil _ _, List.forall_mem_cons.mpr ⟨by decide, name.isWord_toList_text.2⟩⟩
  | type name bound default =>
    cases bound with
    | none => exact ⟨[name.text.toList], by simpa using name.isWord_toList_text, by simp [declared]⟩
    | some bound =>
      refine ⟨[name.text.toList ++ [':'], bound.text.toList], ?_, by simp [declared]⟩
      simpa using ⟨hcolon name.toIdentifier, bound.isWord_toList_text⟩
  | const name ascribed default =>
    refine ⟨["const".toList, name.text.toList ++ [':'], ascribed.text.toList], ?_,
      by simp [declared]⟩
    have hconst : Text.IsWord "const".toList :=
      Text.isWord_of_mem_words (by decide : "const".toList ∈ Text.words "const".toList)
    have htype := ascribed.isWord_toList_text
    simpa using ⟨hconst, hcolon name.toIdentifier, htype⟩

theorem collapseWhitespace_declared {blanks : List Char}
    (h : ∀ c ∈ blanks, Text.isBlank c = true) :
    collapseWhitespace (String.ofList (parameter.declared.toList ++ blanks)) =
      parameter.declared := by
  obtain ⟨words, hwords, hdeclared⟩ := parameter.exists_words
  rw [collapseWhitespace, String.toList_ofList, hdeclared,
    Text.collapse_intercalate_append hwords h, ← hdeclared, String.ofList_toList]

/-- The node that the sketch becomes. -/
def nodeAt : Mark → Node :=
  Sketch.nodeAt parameter.kind none (parameter.declaredParts ++ parameter.defaultParts)

theorem sign_not_mem_kindsAll : "=" ∉ Sketch.kindsAll parameter.declaredParts := by
  have htype (field : Option String) (identifier : Identifier) :
      "=" ∉ (identifier.typeSketch field).kinds := by
    rw [Identifier.typeSketch, Sketch.kinds]
    split <;> decide
  cases parameter with
  | lifetime name =>
    simp [declaredParts, Sketch.kindsAll, Sketch.kinds, token, GivenName.sketch]
  | type name bound default =>
    cases bound <;>
      simp [declaredParts, Sketch.kindsAll, Sketch.kinds, token, space, GivenName.sketch, htype]
  | const name ascribed default =>
    simp [declaredParts, Sketch.kindsAll, Sketch.kinds, token, space, GivenName.sketch, htype]

/-- The default is cut off at its sign, and the blank before it goes away. -/
theorem withoutDefault?_nodeAt
    (hplaced : Placed source.text.toList mark parameter.sketch.spelling) :
    source.withoutDefault? (parameter.nodeAt mark) = some parameter.declared := by
  have hshown {stop : Mark} {blanks : List Char}
      (hcut : source.between? mark stop =
        some (String.ofList (parameter.declared.toList ++ blanks)))
      (hblanks : ∀ c ∈ blanks, Text.isBlank c = true) :
      (source.between? mark stop).map collapseWhitespace = some parameter.declared := by
    rw [hcut, Option.map_some, parameter.collapseWhitespace_declared hblanks]
  have hdeclared := parameter.spellingAll_declaredParts
  have hsign := Sketch.find?_kind_eq_none parameter.sign_not_mem_kindsAll mark
  rw [sketch, Sketch.spelling, Sketch.spellingAll_append, hdeclared] at hplaced
  simp only [SourceFile.withoutDefault?, nodeAt, Sketch.nodeAt, Sketch.layOutAll_append,
    List.find?_append, hsign, Option.none_or, Sketch.spellingAll_append, hdeclared]
  cases hdefault : parameter.defaultValue? with
  | none =>
    have hparts : parameter.defaultParts = [] := by rw [defaultParts, hdefault]
    rw [hparts] at hplaced ⊢
    exact hshown hplaced.between? (List.forall_mem_nil _)
  | some value =>
    have hparts : parameter.defaultParts = [space, token "=", space, value] := by
      rw [defaultParts, hdefault]
    rw [hparts] at hplaced ⊢
    have hfront : Placed source.text.toList mark (parameter.declared.toList ++ [' ']) := by
      rw [spellingAll, Sketch.spelling_space, ← List.append_assoc] at hplaced
      exact hplaced.left
    have hcut := hfront.between?
    rw [Mark.advance_append] at hcut
    exact hshown hcut (List.forall_mem_singleton.mpr (by decide))

/-- The name is found in its field. -/
theorem exists_argument? (hplaced : Placed source.text.toList mark parameter.sketch.spelling) :
    ∃ name, (parameter.nodeAt mark).argument? = some name ∧
      source.nodeText? name = some parameter.name := by
  rw [sketch, Sketch.spelling, Sketch.spellingAll_append] at hplaced
  have hdeclared := hplaced.left
  cases parameter with
  | lifetime name =>
    have hname : Placed source.text.toList mark
        (spellingAll [token "'", name.sketch "identifier" none]) := hdeclared.left
    refine ⟨_, rfl, hname.between?.trans ?_⟩
    simp [spellingAll, Sketch.spelling, GivenName.sketch, PlainParameter.name]
  | type name bound default =>
    cases bound with
    | none => exact ⟨_, rfl, SourceFile.nodeText?_leaf hdeclared.left _ _⟩
    | some bound => exact ⟨_, rfl, SourceFile.nodeText?_leaf hdeclared.left _ _⟩
  | const name ascribed default =>
    exact ⟨_, rfl, SourceFile.nodeText?_leaf hdeclared.right.right.left _ _⟩

theorem yields : Yields source.text.toList Node.isNamed source.parameter? [parameter.sketch]
    [some (parameter.declared, parameter.name)] := by
  refine .singleton fun mark hplaced ↦ ⟨parameter.nodeAt mark, rfl, rfl, ?_⟩
  obtain ⟨name, hargument, htext⟩ := parameter.exists_argument? hplaced
  rw [SourceFile.parameter?, hargument]
  simp only [parameter.withoutDefault?_nodeAt hplaced, Option.bind_some, htext, Option.map_some]

theorem yields_listed (parameters : List PlainParameter) :
    Yields source.text.toList Node.isNamed source.parameter?
      (listed (parameters.map sketch))
      (parameters.map fun parameter ↦ some (parameter.declared, parameter.name)) :=
  .listed (.skip (fun _ ↦ rfl) (.skip (fun _ ↦ rfl) .nil)) fun parameter _ ↦ parameter.yields

end PlainParameter

/-! ### The declaration -/

namespace PlainStruct

variable (plain : PlainStruct)

/-- The node that the declaration becomes at the beginning of the text. -/
def node : Node := Sketch.nodeAt "struct_item" none plain.parts .start

/-- A child is looked for up to the name first, then among the parameters, then behind them. -/
theorem childByField?_node (field : String) : plain.node.childByField? field =
    ((layOutAll .start plain.nameParts).find? fun child ↦ child.field = some field).or
      (((layOutAll (Mark.start.advance (spellingAll plain.nameParts)) plain.parameterParts).find?
        fun child ↦ child.field = some field).or
      ((layOutAll (Mark.start.advance (spellingAll (plain.nameParts ++ plain.parameterParts)))
        plain.fields.parts).find? fun child ↦ child.field = some field)) := by
  rw [Node.childByField?, node, Sketch.nodeAt, parts, Sketch.layOutAll_append,
    Sketch.layOutAll_append, List.find?_append, List.find?_append, Option.or_assoc]

/-! No two of the three parts have a child in the same field. -/

theorem childByField?_name : plain.node.childByField? "name" =
    some ⟨"type_identifier", true, false, some "name",
      Mark.start.advance (spellingAll [token "struct", space]),
      (Mark.start.advance (spellingAll [token "struct", space])).advance plain.name.text.toList,
      []⟩ := by
  rw [childByField?_node]
  rfl

theorem childByField?_body : plain.node.childByField? "body" =
    (layOutAll (Mark.start.advance (spellingAll (plain.nameParts ++ plain.parameterParts)))
      plain.fields.parts).find? fun child ↦ child.field = some "body" := by
  rw [childByField?_node, parameterParts]
  split <;> rfl

theorem childByField?_typeParameters : plain.node.childByField? "type_parameters" =
    (layOutAll (Mark.start.advance (spellingAll plain.nameParts)) plain.parameterParts).find?
      fun child ↦ child.field = some "type_parameters" := by
  have hfields : ∀ mark, ((layOutAll mark plain.fields.parts).find?
      fun child ↦ child.field = some "type_parameters") = none := by
    intro mark
    cases plain.fields <;> rfl
  rw [childByField?_node, hfields, Option.or_none]
  rfl

variable {plain} (hsource : source.text = plain.source)
include hsource

theorem placed_parts : Placed source.text.toList .start (spellingAll plain.parts) := by
  refine ⟨[], ['\n'], ?_, rfl⟩
  rw [hsource, PlainStruct.source, String.toList_append, plain.spellingAll_parts]
  rfl

theorem name?_node : source.name? plain.node = some (some plain.name.text) := by
  have hplaced := placed_parts hsource
  rw [parts, Sketch.spellingAll_append, Sketch.spellingAll_append] at hplaced
  have hname := SourceFile.identText?_leaf hplaced.left.left.right.right.left "type_identifier"
    (some "name")
  have hne : plain.name.text.isEmpty = false := by
    rw [String.isEmpty_eq_false_iff, ne_eq, ← String.toList_eq_nil_iff]
    exact plain.name.isWord_toList_text.1
  rw [SourceFile.name?, childByField?_name]
  refine (congrArg (Option.map _) hname).trans ?_
  simp [hne]

theorem body?_node : source.body? plain.node = some plain.fields.body := by
  have hplaced := placed_parts hsource
  rw [parts, Sketch.spellingAll_append] at hplaced
  exact plain.fields.body?_eq hplaced.right plain.childByField?_body

omit hsource in
theorem whereClause?_node : source.whereClause? plain.node = some none := by
  have hnone : (plain.node.namedChildren.find? fun child ↦ child.kind = "where_clause") = none := by
    rw [List.find?_eq_none]
    intro child hchild hkind
    have hmem := plain.kindsAll_parts (Sketch.kind_mem_kindsAll (List.mem_of_mem_filter hchild))
    rw [of_decide_eq_true hkind] at hmem
    exact absurd hmem (by decide)
  rw [SourceFile.whereClause?, hnone]

theorem generics?_node : source.generics? plain.node = some plain.generics? := by
  have hplaced := placed_parts hsource
  rw [parts, Sketch.spellingAll_append, Sketch.spellingAll_append] at hplaced
  have hparameters := hplaced.left.right
  rw [SourceFile.generics?, childByField?_typeParameters, generics?]
  rw [parameterParts] at hparameters ⊢
  by_cases hempty : plain.parameters.isEmpty = true
  · rw [if_pos hempty, if_pos hempty]
    rfl
  · rw [if_neg hempty] at hparameters
    rw [if_neg hempty, if_neg hempty]
    have hread := (Yields.skip (fun _ ↦ rfl) ((PlainParameter.yields_listed plain.parameters).append
      (.skip (fun _ ↦ rfl) .nil))) _ hparameters.left
    change (((Sketch.layOutAll _ _).filter Node.isNamed).mapM source.parameter?).bind _ = _
    rw [hread, Option.bind_some, whereClause?_node]
    simp [Function.comp_def]

theorem snapshot?_node : source.snapshot? plain.node =
    some (some ⟨plain.declaration, .start, Mark.start.advance plain.text.toList, ""⟩) := by
  have hindent : source.indentAt? .start = some "" := by
    rw [SourceFile.indentAt?]
    cases source.text.toList <;> rfl
  have hstop : plain.node.stop = Mark.start.advance plain.text.toList :=
    congrArg Mark.start.advance plain.spellingAll_parts
  rw [SourceFile.snapshot?, name?_node hsource, Option.bind_some]
  simp only [body?_node hsource, generics?_node hsource, Option.bind_some, hstop]
  change (source.indentAt? .start).map _ = _
  rw [hindent, Option.map_some]
  rfl

/-- The declaration is the only one in its tree. -/
theorem structs?_eq (hkind : source.root.kind = "source_file")
    (hchildren : source.root.children = plain.sketch.layOut .start) :
    source.structs? =
      some [⟨plain.declaration, .start, Mark.start.advance plain.text.toList, ""⟩] := by
  have hbelow : Node.structItemsAmong (layOutAll .start plain.parts) = [] :=
    Sketch.structItemsAmong_layOutAll .start plain.parts fun hmem ↦
      absurd (plain.kindsAll_parts hmem) (by decide)
  have hitem : plain.node.structItems = [plain.node] := by
    rw [Node.structItems_eq, if_pos (show plain.node.kind = "struct_item" from rfl)]
    exact congrArg ([plain.node] ++ ·) hbelow
  have hroot : source.root.structItems = [plain.node] := by
    rw [Node.structItems_eq, hkind, if_neg (by decide), hchildren]
    change plain.node.structItems ++ [] = _
    rw [hitem, List.append_nil]
  rw [SourceFile.structs?, hroot]
  simp [snapshot?_node hsource]

end PlainStruct

end Reading

/-! ## Reading a plain struct -/

namespace PlainStruct

/-- A plain struct that is printed is read back, and nothing else is, whatever parser follows the
grammar. The declaration takes the whole text but for the line feed at the end. -/
theorem structs?_source {parser : Parser} {plain : PlainStruct} (hparser : parser.Follows plain) :
    ∃ source, SourceFile.parse parser plain.source = .ok source ∧
      source.structs? = some
        [{ declaration := plain.declaration
           start := ⟨0, ⟨0, 0⟩⟩
           stop := ⟨Text.byteSize plain.text.toList, Text.Point.after plain.text.toList⟩
           indent := "" }] := by
  obtain ⟨root, hroot, hkind, hchildren⟩ := hparser.exists_root
  let source : SourceFile := ⟨plain.source, root⟩
  have hsource : source.text = plain.source := rfl
  refine ⟨source, ?_, ?_⟩
  · rw [SourceFile.parse, hparser.refusal_eq, hroot]
  · rw [structs?_eq hsource hkind hchildren, Mark.start_advance]
    rfl

/-- A parser that makes the tree of the grammar for one plain struct, and no tree of any other
text. -/
def parser (plain : PlainStruct) : Parser where
  refusal := none
  root? text :=
    if text = plain.source then
      some
        { kind := "source_file"
          isNamed := true
          isMissing := false
          field := none
          start := .start
          stop := Mark.start.advance plain.source.toList
          children := plain.sketch.layOut .start }
    else none

theorem parser_follows (plain : PlainStruct) : plain.parser.Follows plain where
  refusal_eq := rfl
  exists_root := ⟨_, if_pos rfl, rfl, rfl⟩

/-- A struct with each kind of parameter, its text, and what is read of it. -/
theorem structs?_source_of_parameters :
    let b : Identifier := ⟨'B', [], rfl, List.forall_mem_nil _, by decide⟩
    let d : Identifier := ⟨'D', [], rfl, List.forall_mem_nil _, by decide⟩
    let u : Identifier := ⟨'U', [], rfl, List.forall_mem_nil _, by decide⟩
    let s : GivenName := ⟨⟨'S', [], rfl, List.forall_mem_nil _, by decide⟩, by decide⟩
    let a : GivenName := ⟨⟨'a', [], rfl, List.forall_mem_nil _, by decide⟩, by decide⟩
    let t : GivenName := ⟨⟨'T', [], rfl, List.forall_mem_nil _, by decide⟩, by decide⟩
    let n : GivenName := ⟨⟨'N', [], rfl, List.forall_mem_nil _, by decide⟩, by decide⟩
    let integer : Integer :=
      ⟨true, .hexadecimal, '3', ['_'], some "i8", by decide, by decide, by decide⟩
    let plain : PlainStruct :=
      { name := s
        parameters := [.lifetime a, .type t (some b) (some d), .const n u (some integer)]
        fields := .tuple [t.toIdentifier, u] }
    plain.source = "struct S<'a, T: B = D, const N: U = -0x3_i8>(T, U);\n" ∧
      plain.declaration =
        { name := "S"
          generics := some ⟨"<'a, T: B, const N: U>", "<'a, T, N>", none⟩
          body := .tuple [⟨none, some "T"⟩, ⟨none, some "U"⟩] } ∧
      plain.parser.Follows plain ∧
      ∃ source, SourceFile.parse plain.parser plain.source = .ok source ∧
        source.structs? = some [⟨plain.declaration, ⟨0, ⟨0, 0⟩⟩, ⟨51, ⟨0, 51⟩⟩, ""⟩] := by
  intro b d u s a t n integer plain
  refine ⟨by decide +kernel, by decide +kernel, plain.parser_follows, ?_⟩
  have hstop : Text.byteSize plain.text.toList = 51 ∧
      Text.Point.after plain.text.toList = ⟨0, 51⟩ := by decide +kernel
  obtain ⟨source, hparse, hstructs⟩ := structs?_source plain.parser_follows
  rw [hstop.1, hstop.2] at hstructs
  exact ⟨source, hparse, hstructs⟩

end PlainStruct

end Memberwise.Source
