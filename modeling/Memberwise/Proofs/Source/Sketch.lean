import Memberwise.Proofs.Source.Node

/-!
# Sketches of syntax trees

A sketch says how a text is made up by a grammar: of nodes with parts of their own, and of text
between them that belongs to no node. Laid out from a mark on, it becomes nodes that stand where
their texts are. So the texts can be cut out again, and a list is read part by part.
-/

namespace Memberwise.Source

/-- A part of a text as its grammar sees it. -/
inductive Sketch where
  /-- Text outside of all nodes, as blanks are. -/
  | gap (text : List Char)
  /-- A node without children. -/
  | leaf (kind : String) (isNamed : Bool) (field : Option String) (text : List Char)
  /-- A node that consists of parts. -/
  | node (kind : String) (field : Option String) (parts : List Sketch)

namespace Sketch

/-- A sign or a word that belongs to the grammar itself. -/
def token (text : String) : Sketch := leaf text false none text.toList

def space : Sketch := gap [' ']

/-- Parts with a comma and a space between them. -/
def listed : List Sketch → List Sketch
  | [] => []
  | first :: others => first :: others.flatMap fun part ↦ [token ",", space, part]

/-! ## Texts, kinds and nodes -/

mutual

def spelling : Sketch → List Char
  | gap text => text
  | leaf _ _ _ text => text
  | node _ _ parts => spellingAll parts

def spellingAll : List Sketch → List Char
  | [] => []
  | part :: parts => part.spelling ++ spellingAll parts

end

mutual

/-- The kinds of all nodes. -/
def kinds : Sketch → List String
  | gap _ => []
  | leaf kind _ _ _ => [kind]
  | node kind _ parts => kind :: kindsAll parts

def kindsAll : List Sketch → List String
  | [] => []
  | part :: parts => part.kinds ++ kindsAll parts

end

mutual

/-- The node that a sketch becomes at a mark; a gap becomes none. -/
def layOut (mark : Mark) : Sketch → List Node
  | gap _ => []
  | leaf kind isNamed field text =>
    [⟨kind, isNamed, false, field, mark, mark.advance text, []⟩]
  | node kind field parts =>
    [⟨kind, true, false, field, mark, mark.advance (spellingAll parts), layOutAll mark parts⟩]

/-- The nodes that parts become one behind the other. -/
def layOutAll (mark : Mark) : List Sketch → List Node
  | [] => []
  | part :: parts => part.layOut mark ++ layOutAll (mark.advance part.spelling) parts

end

/-- The node that consists of parts, at a mark. -/
def nodeAt (kind : String) (field : Option String) (parts : List Sketch) (mark : Mark) : Node :=
  ⟨kind, true, false, field, mark, mark.advance (spellingAll parts), layOutAll mark parts⟩

section Append

variable (mark : Mark) (parts others : List Sketch)

theorem spellingAll_append :
    spellingAll (parts ++ others) = spellingAll parts ++ spellingAll others := by
  induction parts with
  | nil => rfl
  | cons part parts ih => simp only [List.cons_append, spellingAll, ih, List.append_assoc]

theorem layOutAll_append : layOutAll mark (parts ++ others) =
    layOutAll mark parts ++ layOutAll (mark.advance (spellingAll parts)) others := by
  induction parts generalizing mark with
  | nil => rfl
  | cons part parts ih =>
    simp only [List.cons_append, layOutAll, ih, spellingAll, Mark.advance_append,
      List.append_assoc]

end Append

@[simp] theorem spelling_token (text : String) : (token text).spelling = text.toList := rfl

@[simp] theorem spelling_space : space.spelling = [' '] := rfl

theorem spellingAll_listed (parts : List Sketch) :
    spellingAll (listed parts) = [',', ' '].intercalate (parts.map spelling) := by
  cases parts with
  | nil => rfl
  | cons first others =>
    rw [listed, spellingAll]
    induction others generalizing first with
    | nil => simp [spellingAll]
    | cons second others ih =>
      rw [List.flatMap_cons, spellingAll_append, List.map_cons, List.map_cons,
        List.intercalate_cons_cons, ← List.map_cons, ← ih second]
      simp [spellingAll]

theorem forall_mem_listed {p : Sketch → Prop} {parts : List Sketch} (hcomma : p (token ","))
    (hspace : p space) (h : ∀ part ∈ parts, p part) : ∀ part ∈ listed parts, p part := by
  cases parts with
  | nil => exact h
  | cons first others =>
    obtain ⟨hfirst, hothers⟩ := List.forall_mem_cons.mp h
    refine List.forall_mem_cons.mpr ⟨hfirst, fun part hpart ↦ ?_⟩
    obtain ⟨other, hother, hpart⟩ := List.mem_flatMap.mp hpart
    simp only [List.mem_cons, List.not_mem_nil, or_false] at hpart
    rcases hpart with rfl | rfl | rfl
    · exact hcomma
    · exact hspace
    · exact hothers part hother

/-! ## Kinds of nodes -/

/-- All nodes are of these kinds. -/
def Within (allowed : List String) (sketch : Sketch) : Prop := sketch.kinds ⊆ allowed

section Within

variable {allowed : List String}

theorem kindsAll_subset_iff {parts : List Sketch} :
    kindsAll parts ⊆ allowed ↔ ∀ part ∈ parts, part.Within allowed := by
  induction parts with
  | nil => simp [kindsAll]
  | cons part parts ih => rw [kindsAll, List.append_subset, List.forall_mem_cons, ih, Within]

@[simp] theorem within_gap (text : List Char) : (gap text).Within allowed := List.nil_subset _

@[simp] theorem within_space : space.Within allowed := List.nil_subset _

@[simp] theorem within_leaf_iff {kind : String} {isNamed : Bool} {field : Option String}
    {text : List Char} : (leaf kind isNamed field text).Within allowed ↔ kind ∈ allowed := by
  simp [Within, kinds]

@[simp] theorem within_token_iff {text : String} :
    (token text).Within allowed ↔ text ∈ allowed := within_leaf_iff

@[simp] theorem within_node_iff {kind : String} {field : Option String} {parts : List Sketch} :
    (node kind field parts).Within allowed ↔
      kind ∈ allowed ∧ ∀ part ∈ parts, part.Within allowed := by
  rw [← kindsAll_subset_iff, Within, kinds, List.cons_subset]

end Within

/-- The nodes have no other kinds than the parts. -/
theorem kind_mem_kindsAll {node : Node} {mark : Mark} {parts : List Sketch}
    (h : node ∈ layOutAll mark parts) : node.kind ∈ kindsAll parts := by
  induction parts generalizing mark with
  | nil => simp [layOutAll] at h
  | cons part parts ih =>
    rw [layOutAll, List.mem_append] at h
    rw [kindsAll, List.mem_append]
    refine h.imp (fun h ↦ ?_) ih
    cases part with
    | gap text => simp [layOut] at h
    | leaf kind isNamed field text => simp_all [layOut, kinds]
    | node kind field parts => simp_all [layOut, kinds]

theorem find?_kind_eq_none {kind : String} {parts : List Sketch} (h : kind ∉ kindsAll parts)
    (mark : Mark) : (layOutAll mark parts).find? (fun node ↦ node.kind = kind) = none := by
  rw [List.find?_eq_none]
  intro node hnode hkind
  exact h (of_decide_eq_true hkind ▸ kind_mem_kindsAll hnode)

/-! ## Struct declarations -/

mutual

theorem structItemsAmong_layOut (mark : Mark) (sketch : Sketch)
    (h : "struct_item" ∉ sketch.kinds) : Node.structItemsAmong (sketch.layOut mark) = [] := by
  cases sketch with
  | gap text => rfl
  | leaf kind isNamed field text =>
    have hkind : kind ≠ "struct_item" := by simpa [kinds, eq_comm] using h
    simp [layOut, Node.structItemsAmong, Node.structItems, hkind]
  | node kind field parts =>
    rw [kinds, List.mem_cons, not_or] at h
    have hparts := structItemsAmong_layOutAll mark parts h.2
    simp [layOut, Node.structItemsAmong, Node.structItems, Ne.symm h.1, hparts]
termination_by sizeOf sketch

/-- Where no part is a struct declaration, there is none in the nodes. -/
theorem structItemsAmong_layOutAll (mark : Mark) (parts : List Sketch)
    (h : "struct_item" ∉ kindsAll parts) : Node.structItemsAmong (layOutAll mark parts) = [] := by
  cases parts with
  | nil => rfl
  | cons part parts =>
    rw [kindsAll, List.mem_append, not_or] at h
    rw [layOutAll, Node.structItemsAmong_append, structItemsAmong_layOut mark part h.1,
      structItemsAmong_layOutAll _ parts h.2, List.append_nil]
termination_by sizeOf parts

end

end Sketch

/-! ## Texts in their place -/

/-- The text stands at the mark in the source. -/
def Placed (source : List Char) (mark : Mark) (text : List Char) : Prop :=
  ∃ front back, source = front ++ text ++ back ∧ mark = Mark.start.advance front

namespace Placed

variable {source : List Char} {mark : Mark} {text back : List Char}

theorem left (h : Placed source mark (text ++ back)) : Placed source mark text := by
  obtain ⟨front, rest, rfl, rfl⟩ := h
  exact ⟨front, back ++ rest, by simp, rfl⟩

theorem right (h : Placed source mark (text ++ back)) : Placed source (mark.advance text) back := by
  obtain ⟨front, rest, rfl, rfl⟩ := h
  exact ⟨front ++ text, rest, by simp, (Mark.advance_append ..).symm⟩

/-- A text that stands in the source can be cut out of it. -/
theorem between? {source : SourceFile} (h : Placed source.text.toList mark text) :
    source.between? mark (mark.advance text) = some (String.ofList text) := by
  obtain ⟨front, rest, hsource, rfl⟩ := h
  rw [SourceFile.between?, ← Mark.advance_append, Mark.start_advance, Mark.start_advance, hsource,
    Text.slice?_byteSize, Option.map_some]

end Placed

/-! ## Reading a list -/

/-- Wherever the parts stand in the source, those of their nodes that `keep` keeps are read by `f`
as `results`. -/
def Yields {α : Type} (source : List Char) (keep : Node → Bool) (f : Node → Option α)
    (parts : List Sketch) (results : List α) : Prop :=
  ∀ mark, Placed source mark (Sketch.spellingAll parts) →
    ((Sketch.layOutAll mark parts).filter keep).mapM f = some results

namespace Yields

variable {α β : Type} {source : List Char} {keep : Node → Bool} {f : Node → Option α}

theorem nil : Yields source keep f [] [] := fun _ _ ↦ rfl

theorem append {parts others : List Sketch} {results more : List α}
    (h : Yields source keep f parts results) (hothers : Yields source keep f others more) :
    Yields source keep f (parts ++ others) (results ++ more) := by
  intro mark hplaced
  rw [Sketch.spellingAll_append] at hplaced
  rw [Sketch.layOutAll_append, List.filter_append, List.mapM_append, h mark hplaced.left,
    hothers _ hplaced.right]
  rfl

/-- A part without a node of interest changes nothing. -/
theorem skip {part : Sketch} {parts : List Sketch} {results : List α}
    (hpart : ∀ mark, (part.layOut mark).filter keep = [])
    (h : Yields source keep f parts results) : Yields source keep f (part :: parts) results := by
  intro mark hplaced
  rw [Sketch.spellingAll] at hplaced
  rw [Sketch.layOutAll, List.filter_append, hpart, List.nil_append, h _ hplaced.right]

theorem singleton {part : Sketch} {result : α}
    (h : ∀ mark, Placed source mark part.spelling →
      ∃ node, part.layOut mark = [node] ∧ keep node = true ∧ f node = some result) :
    Yields source keep f [part] [result] := by
  intro mark hplaced
  rw [Sketch.spellingAll, Sketch.spellingAll, List.append_nil] at hplaced
  obtain ⟨node, hnode, hkeep, hresult⟩ := h mark hplaced
  rw [Sketch.layOutAll, Sketch.layOutAll, List.append_nil, hnode, List.filter_cons_of_pos hkeep]
  simp [hresult]

theorem flatMap {items : List β} {parts : β → List Sketch} {result : β → α}
    (h : ∀ item ∈ items, Yields source keep f (parts item) [result item]) :
    Yields source keep f (items.flatMap parts) (items.map result) := by
  induction items with
  | nil => exact nil
  | cons item items ih =>
    obtain ⟨hitem, hitems⟩ := List.forall_mem_cons.mp h
    exact hitem.append (ih hitems)

theorem listed {items : List β} {part : β → Sketch} {result : β → α}
    (hcomma : Yields source keep f [Sketch.token ",", Sketch.space] [])
    (h : ∀ item ∈ items, Yields source keep f [part item] [result item]) :
    Yields source keep f (Sketch.listed (items.map part)) (items.map result) := by
  cases items with
  | nil => exact nil
  | cons first others =>
    obtain ⟨hfirst, hothers⟩ := List.forall_mem_cons.mp h
    have hrest := flatMap fun item hitem ↦ hcomma.append (hothers item hitem)
    rw [List.map_cons, Sketch.listed, List.flatMap_map]
    exact hfirst.append hrest

end Yields

end Memberwise.Source
