import Memberwise.Proofs.Constructor.Characters
import Memberwise.Proofs.Source.Node

/-!
# Structs of a tree that fits

A struct is read by cutting the text at the nodes of its tree. If the tree fits the text, every cut
has an answer, so the structs of the text can be read whatever the tree looks like otherwise. They
start and end on boundaries, and they are written with characters of the text, but for the visible
ASCII between their generic parameters.
-/

namespace Memberwise.Source

open Text (Over isGraphic)

/-! ## Answers with a property -/

/-- There is an answer, and it satisfies `r`. -/
def Answers {α : Type} (r : α → Prop) (answer? : Option α) : Prop :=
  ∃ answer, answer? = some answer ∧ r answer

namespace Answers

variable {α β : Type} {r : α → Prop} {s : β → Prop} {answer? : Option α}

theorem of_some {answer : α} (h : r answer) : Answers r (some answer) := ⟨answer, rfl, h⟩

theorem map {f : α → β} (h : Answers r answer?) (hf : ∀ answer, r answer → s (f answer)) :
    Answers s (answer?.map f) := by
  obtain ⟨answer, rfl, hanswer⟩ := h
  exact of_some (hf answer hanswer)

theorem bind {f : α → Option β} (h : Answers r answer?)
    (hf : ∀ answer, r answer → Answers s (f answer)) : Answers s (answer?.bind f) := by
  obtain ⟨answer, rfl, hanswer⟩ := h
  exact hf answer hanswer

theorem mapM {f : α → Option β} {elements : List α}
    (h : ∀ element ∈ elements, Answers s (f element)) :
    Answers (fun answers ↦ ∀ answer ∈ answers, s answer) (elements.mapM f) := by
  induction elements with
  | nil => exact of_some (by simp)
  | cons element others ih =>
    obtain ⟨helement, hothers⟩ := List.forall_mem_cons.mp h
    rw [List.mapM_cons]
    refine helement.bind fun answer hanswer ↦ (ih hothers).bind fun answers hanswers ↦ ?_
    exact of_some (List.forall_mem_cons.mpr ⟨hanswer, hanswers⟩)

/-- Some elements may be answered with nothing to keep. -/
theorem filterMap {f : α → Option (Option β)} {elements : List α}
    (h : ∀ element ∈ elements, Answers (fun kept? ↦ ∀ kept ∈ kept?, s kept) (f element)) :
    Answers (fun answers ↦ ∀ answer ∈ answers, s answer)
      ((elements.mapM f).map (List.filterMap id)) :=
  (mapM h).map fun _ hanswers ↦ List.forall_mem_filterMap.mpr hanswers

end Answers

/-- The struct lies between boundaries of the text, and every character of it satisfies `p`. -/
structure Located.ReadFrom (p : Char → Prop) (text : List Char) (located : Located) : Prop where
  start : located.start.IsBoundary text
  stop : located.stop.IsBoundary text
  declaration : located.declaration.WrittenIn p
  indent : Over p located.indent.toList

namespace SourceFile

variable {source : SourceFile} {p : Char → Prop}

/-! ## Texts of nodes -/

section Texts

variable (hsource : Over p source.text.toList)
include hsource

theorem answers_between? {start stop : Mark} (hstart : start.IsBoundary source.text.toList)
    (hstop : stop.IsBoundary source.text.toList) (hle : start.offset ≤ stop.offset) :
    Answers (fun text ↦ Over p text.toList) (source.between? start stop) := by
  obtain ⟨middle, hslice⟩ := hstart.exists_slice? hstop hle
  refine ⟨String.ofList middle, by rw [between?, hslice]; rfl, ?_⟩
  obtain ⟨front, back, htext⟩ := Text.exists_of_slice?_eq_some hslice
  rw [← htext, Text.over_append, Text.over_append] at hsource
  rw [String.toList_ofList]
  exact hsource.1.2

theorem answers_nodeText? {node : Node} (h : node.Fits source.text.toList) :
    Answers (fun text ↦ Over p text.toList) (source.nodeText? node) :=
  answers_between? hsource h.start h.stop h.start_le_stop

theorem answers_indentAt? {mark : Mark} (h : mark.IsBoundary source.text.toList) :
    Answers (fun indent ↦ Over p indent.toList) (source.indentAt? mark) := by
  obtain ⟨front, back, hcut, -⟩ := h.exists_splitAt?
  refine ⟨_, by rw [indentAt?, hcut]; rfl, ?_⟩
  simp only [String.toList_ofList]
  refine hsource.of_subset fun c hc ↦ ?_
  have hline : c ∈ Text.lastLine front := (List.takeWhile_subset _) hc
  have hfront : c ∈ front :=
    List.mem_reverse.mp ((List.takeWhile_subset _) (List.mem_reverse.mp hline))
  rw [← (Text.append_eq_of_splitAt?_eq_some hcut).1]
  exact List.mem_append_left back hfront

/-! ## Fields -/

theorem answers_typeText? {type? : Option Node}
    (h : ∀ type ∈ type?, type.Fits source.text.toList) :
    Answers (fun typeText ↦ ∀ text ∈ typeText, Over p text.toList) (source.typeText? type?) := by
  unfold typeText?
  split
  · exact .of_some (by simp)
  · rename_i type htype
    refine (answers_nodeText? hsource (h type (Option.filter_eq_some_iff.mp htype).1)).map ?_
    intro text htext
    split
    · simp
    · rintro _ ⟨⟩
      exact htext

theorem answers_identText? {ident? : Option Node}
    (h : ∀ ident ∈ ident?, ident.Fits source.text.toList) :
    Answers (fun ident ↦ ∀ text ∈ ident, Over p text.toList) (source.identText? ident?) := by
  unfold identText?
  split
  · exact .of_some (by simp)
  · rename_i ident hident
    refine (answers_nodeText? hsource (h ident (Option.filter_eq_some_iff.mp hident).1)).map ?_
    rintro text htext _ ⟨⟩
    exact htext

theorem answers_tupleFields? {body : Node} (h : body.Fits source.text.toList) :
    Answers (fun fields ↦ ∀ field ∈ fields, field.WrittenIn p) (source.tupleFields? body) := by
  refine .mapM fun type htype ↦ ?_
  have hfits := h.of_mem_children (List.mem_of_mem_filter htype)
  refine (answers_typeText? hsource (by rintro _ ⟨⟩; exact hfits)).map fun typeText htypeText ↦ ?_
  exact ⟨by simp, htypeText⟩

omit hsource in
theorem stripPunctuation_subset (text : List Char) : stripPunctuation text ⊆ text := by
  intro c hc
  have hopened := List.mem_reverse.mp (Text.trim_subset _ hc)
  have hclosed := List.mem_reverse.mp ((List.dropWhile_suffix _).subset hopened)
  exact Text.trim_subset text ((List.dropWhile_suffix _).subset hclosed)

theorem answers_misplacedField? {error : Node} (h : error.Fits source.text.toList) :
    Answers (fun field? ↦ ∀ field ∈ field?, field.WrittenIn p)
      (source.misplacedField? error) := by
  unfold misplacedField?
  split
  · rename_i ident hident
    refine (answers_nodeText? hsource (h.of_firstDescendant? hident)).map fun text htext ↦ ?_
    rintro _ ⟨⟩
    exact ⟨by rintro _ ⟨⟩; exact htext, by simp⟩
  · refine (answers_nodeText? hsource h).map fun text htext ↦ ?_
    dsimp only
    split
    · simp
    · intro field hfield
      obtain rfl := Option.some.inj hfield
      refine ⟨by simp, fun shown hshown ↦ ?_⟩
      rw [← Option.some.inj hshown, String.toList_ofList]
      exact htext.of_subset (stripPunctuation_subset _)

theorem answers_namedField? {child : Node} (h : child.Fits source.text.toList) :
    Answers (fun field? ↦ ∀ field ∈ field?, field.WrittenIn p) (source.namedField? child) := by
  have hident := answers_identText? hsource fun ident (hmem : ident ∈ child.childByField? "name") ↦
    h.of_childByField? hmem
  have htype := answers_typeText? hsource fun type (hmem : type ∈ child.childByField? "type") ↦
    h.of_childByField? hmem
  unfold namedField?
  split
  · refine hident.bind fun ident hident ↦ htype.map fun typeText htypeText field hfield ↦ ?_
    obtain rfl := Option.some.inj hfield
    exact ⟨hident, htypeText⟩
  · exact answers_misplacedField? hsource h
  · exact .of_some (by simp)

theorem answers_namedFields? {body : Node} (h : body.Fits source.text.toList) :
    Answers (fun fields ↦ ∀ field ∈ fields, field.WrittenIn p) (source.namedFields? body) := by
  apply Answers.filterMap
  intro child hchild
  exact answers_namedField? hsource (h.of_mem_namedChildren hchild)

theorem answers_body? {node : Node} (h : node.Fits source.text.toList) :
    Answers (fun body ↦ ∀ field ∈ body.fields, field.WrittenIn p) (source.body? node) := by
  unfold body?
  split
  · exact .of_some (by simp [Body.fields])
  · rename_i body hbody
    have hfits := h.of_childByField? hbody
    split
    · exact (answers_tupleFields? hsource hfits).map fun fields hfields ↦ hfields
    · exact (answers_namedFields? hsource hfits).map fun fields hfields ↦ hfields

end Texts

/-! ## Generic parameters -/

section Parameters

variable (hp : ∀ c, isGraphic c = true → p c) (hsource : Over p source.text.toList)
include hp

theorem over_collapseWhitespace {text : String} (h : Over p text.toList) :
    Over p (collapseWhitespace text).toList := by
  rw [collapseWhitespace, String.toList_ofList]
  exact Text.over_collapse (hp ' ' (by decide)) h

theorem over_angled {texts : List String} (h : ∀ text ∈ texts, Over p text.toList) :
    Over p (angled texts).toList := by
  simp only [angled, String.toList_append, Text.over_append]
  refine ⟨⟨.of_all hp (by decide), ?_⟩, .of_all hp (by decide)⟩
  exact Text.over_toList_intercalate (.of_all hp (by decide)) h

include hsource

theorem answers_withoutDefault? {parameter : Node} (h : parameter.Fits source.text.toList) :
    Answers (fun text ↦ Over p text.toList) (source.withoutDefault? parameter) := by
  unfold withoutDefault?
  refine Answers.map (r := fun text : String ↦ Over p text.toList) ?_
    fun text htext ↦ over_collapseWhitespace hp htext
  cases hsign : parameter.children.find? fun child ↦ child.kind = "=" with
  | none => exact answers_between? hsource h.start h.stop h.start_le_stop
  | some sign =>
    have hmem := List.mem_of_find?_eq_some hsign
    exact answers_between? hsource h.start (h.of_mem_children hmem).start (h.inside hmem).1

theorem answers_parameter? {parameter : Node} (h : parameter.Fits source.text.toList) :
    Answers (fun parts? ↦ ∀ parts ∈ parts?, Over p parts.1.toList ∧ Over p parts.2.toList)
      (source.parameter? parameter) := by
  unfold parameter?
  split
  · exact .of_some (by simp)
  · rename_i name hname
    refine (answers_withoutDefault? hp hsource h).bind fun declared hdeclared ↦ ?_
    refine (answers_nodeText? hsource (h.of_argument? hname)).map fun argument hargument ↦ ?_
    rintro _ ⟨⟩
    exact ⟨hdeclared, hargument⟩

theorem answers_whereClause? {node : Node} (h : node.Fits source.text.toList) :
    Answers (fun clause? ↦ ∀ clause ∈ clause?, Over p clause.toList)
      (source.whereClause? node) := by
  unfold whereClause?
  split
  · exact .of_some (by simp)
  · rename_i clause hclause
    have hfits := h.of_mem_namedChildren (List.mem_of_find?_eq_some hclause)
    refine (answers_nodeText? hsource hfits).map fun text htext ↦ ?_
    rintro _ ⟨⟩
    exact over_collapseWhitespace hp htext

theorem answers_generics? {node : Node} (h : node.Fits source.text.toList) :
    Answers (fun generics? ↦ ∀ generics ∈ generics?, generics.WrittenIn p)
      (source.generics? node) := by
  unfold generics?
  split
  · exact .of_some (by simp)
  · rename_i list hlist
    have hfits := h.of_childByField? hlist
    refine (Answers.mapM fun parameter hparameter ↦
      answers_parameter? hp hsource (hfits.of_mem_namedChildren hparameter)).bind ?_
    intro parameters hparameters
    have hparts : ∀ parts ∈ parameters.filterMap id,
        Over p parts.1.toList ∧ Over p parts.2.toList :=
      List.forall_mem_filterMap.mpr hparameters
    refine (answers_whereClause? hp hsource h).map fun clause hclause ↦ ?_
    rintro _ ⟨⟩
    refine ⟨over_angled hp ?_, over_angled hp ?_, hclause⟩
    · intro text htext
      obtain ⟨parts, hmem, rfl⟩ := List.mem_map.mp htext
      exact (hparts parts hmem).1
    · intro text htext
      obtain ⟨parts, hmem, rfl⟩ := List.mem_map.mp htext
      exact (hparts parts hmem).2

/-! ## Structs -/

omit hp in
theorem answers_name? {node : Node} (h : node.Fits source.text.toList) :
    Answers (fun name? ↦ ∀ name ∈ name?, Over p name.toList) (source.name? node) := by
  refine (answers_identText? hsource fun name hname ↦ h.of_childByField? hname).map ?_
  intro name? hname? name hname
  exact hname? name (Option.filter_eq_some_iff.mp hname).1

theorem answers_snapshot? {node : Node} (h : node.Fits source.text.toList) :
    Answers (fun located? ↦ ∀ located ∈ located?, located.ReadFrom p source.text.toList)
      (source.snapshot? node) := by
  refine (answers_name? hsource h).bind fun name? hname ↦ ?_
  cases name? with
  | none => exact .of_some (by simp)
  | some name =>
    refine (answers_body? hsource h).bind fun body hbody ↦ ?_
    refine (answers_generics? hp hsource h).bind fun generics hgenerics ↦ ?_
    refine (answers_indentAt? hsource h.start).map fun indent hindent ↦ ?_
    rintro _ ⟨⟩
    exact ⟨h.start, h.stop, ⟨hname name rfl, hgenerics, hbody⟩, hindent⟩

theorem answers_structs? (h : source.root.Fits source.text.toList) :
    Answers (fun structs ↦ ∀ located ∈ structs, located.ReadFrom p source.text.toList)
      source.structs? := by
  apply Answers.filterMap
  intro item hitem
  exact answers_snapshot? hp hsource (h.of_mem_structItems hitem)

end Parameters

/-- The structs of a text can be read, whatever tree the parser makes, if only its trees fit. What
holds of visible ASCII and of every character of the text holds of every character of the
structs. -/
theorem exists_structs?_of_over {parser : Parser} (hparser : parser.Fits) {text : String}
    (hparse : parse parser text = .ok source) (hp : ∀ c, isGraphic c = true → p c)
    (htext : Over p text.toList) :
    ∃ structs, source.structs? = some structs ∧
      ∀ located ∈ structs, located.ReadFrom p text.toList := by
  obtain ⟨-, rfl, hroot⟩ := parse_eq_ok hparse
  exact answers_structs? hp htext (hparser source.text source.root hroot)

theorem exists_structs? {parser : Parser} (hparser : parser.Fits) {text : String}
    (hparse : parse parser text = .ok source) :
    ∃ structs, source.structs? = some structs ∧
      ∀ located ∈ structs, located.ReadFrom (fun _ ↦ True) text.toList :=
  exists_structs?_of_over hparser hparse (fun _ _ ↦ trivial) fun _ _ ↦ trivial

end SourceFile

end Memberwise.Source
