import Memberwise.Proofs.Source.Mark
import Memberwise.Source.SourceFile

/-!
# Trees that fit their text

A parser is not known, but what it promises of the places of nodes is: a node starts and ends on
boundaries of the text, and its children lie inside it. Then the text can be cut at every node, and
what is found below a node that fits the text fits it, too.
-/

namespace Memberwise.Source

namespace Node

variable {text : List Char}

/-- The node lies between boundaries of the text, and so does everything below it, each child inside
its parent. -/
inductive Fits (text : List Char) : Node → Prop where
  | intro {node : Node} (hstart : node.start.IsBoundary text) (hstop : node.stop.IsBoundary text)
      (hle : node.start.offset ≤ node.stop.offset)
      (hinside : ∀ child ∈ node.children,
        node.start.offset ≤ child.start.offset ∧ child.stop.offset ≤ node.stop.offset)
      (hchildren : ∀ child ∈ node.children, Fits text child) : Fits text node

namespace Fits

variable {node child : Node}

theorem start (h : Fits text node) : node.start.IsBoundary text := by
  cases h with
  | intro hstart _ _ _ _ => exact hstart

theorem stop (h : Fits text node) : node.stop.IsBoundary text := by
  cases h with
  | intro _ hstop _ _ _ => exact hstop

theorem start_le_stop (h : Fits text node) : node.start.offset ≤ node.stop.offset := by
  cases h with
  | intro _ _ hle _ _ => exact hle

theorem inside (h : Fits text node) (hchild : child ∈ node.children) :
    node.start.offset ≤ child.start.offset ∧ child.stop.offset ≤ node.stop.offset := by
  cases h with
  | intro _ _ _ hinside _ => exact hinside child hchild

theorem of_mem_children (h : Fits text node) (hchild : child ∈ node.children) :
    Fits text child := by
  cases h with
  | intro _ _ _ _ hchildren => exact hchildren child hchild

theorem of_mem_namedChildren (h : Fits text node) (hchild : child ∈ node.namedChildren) :
    Fits text child :=
  h.of_mem_children (List.mem_of_mem_filter hchild)

theorem of_childByField? {name : String} (h : Fits text node)
    (hchild : node.childByField? name = some child) : Fits text child :=
  h.of_mem_children (List.mem_of_find?_eq_some hchild)

end Fits

/-! ## Walks -/

theorem structItemsAmong_append (nodes others : List Node) :
    structItemsAmong (nodes ++ others) = structItemsAmong nodes ++ structItemsAmong others := by
  induction nodes with
  | nil => rfl
  | cons node nodes ih => simp only [List.cons_append, structItemsAmong, ih, List.append_assoc]

theorem mem_structItemsAmong {nodes : List Node} {item : Node}
    (h : item ∈ structItemsAmong nodes) : ∃ child ∈ nodes, item ∈ child.structItems := by
  induction nodes with
  | nil => simp [structItemsAmong] at h
  | cons child others ih =>
    rw [structItemsAmong, List.mem_append] at h
    rcases h with h | h
    · split at h
      · exact ⟨child, List.mem_cons_self, h⟩
      · simp at h
    · obtain ⟨other, hother, hitem⟩ := ih h
      exact ⟨other, List.mem_cons_of_mem child hother, hitem⟩

theorem mem_of_firstAmong? {kinds : List String} {nodes : List Node} {found : Node}
    (h : firstAmong? kinds nodes = some found) :
    ∃ child ∈ nodes, child = found ∨ child.firstDescendant? kinds = some found := by
  induction nodes with
  | nil => simp [firstAmong?] at h
  | cons child others ih =>
    rw [firstAmong?, Option.or_eq_some_iff] at h
    rcases h with h | ⟨-, h⟩
    · refine ⟨child, List.mem_cons_self, ?_⟩
      split at h
      · split at h
        · exact .inl (Option.some.inj h)
        · exact .inr h
      · simp at h
    · obtain ⟨other, hother, hfound⟩ := ih h
      exact ⟨other, List.mem_cons_of_mem child hother, hfound⟩

theorem Fits.of_mem_structItems {node item : Node} (h : Fits text node)
    (hitem : item ∈ node.structItems) : Fits text item := by
  induction h with
  | @intro node hstart hstop hle hinside hchildren ih =>
    rw [structItems_eq, List.mem_append] at hitem
    rcases hitem with hitem | hitem
    · split at hitem
      · rw [List.mem_singleton.mp hitem]
        exact .intro hstart hstop hle hinside hchildren
      · simp at hitem
    · obtain ⟨child, hchild, hitem⟩ := mem_structItemsAmong hitem
      exact ih child hchild hitem

theorem Fits.of_firstDescendant? {node found : Node} {kinds : List String} (h : Fits text node)
    (hfound : node.firstDescendant? kinds = some found) : Fits text found := by
  induction h with
  | @intro node hstart hstop hle hinside hchildren ih =>
    rw [firstDescendant?_eq] at hfound
    obtain ⟨child, hchild, rfl | hfound⟩ := mem_of_firstAmong? hfound
    · exact hchildren child hchild
    · exact ih child hchild hfound

theorem Fits.of_argument? {node name : Node} (h : Fits text node)
    (hname : node.argument? = some name) : Fits text name := by
  unfold argument? at hname
  split at hname
  · exact Option.some.inj hname ▸ h
  · exact Option.some.inj hname ▸ h
  · exact h.of_childByField? hname
  · rcases Option.or_eq_some_iff.mp hname with hname | ⟨-, hname⟩
    · exact h.of_childByField? hname
    · exact h.of_mem_namedChildren (List.mem_of_find?_eq_some hname)
  · exact h.of_childByField? hname
  · exact h.of_childByField? hname
  · exact h.of_childByField? hname
  · simp at hname

end Node

/-- The trees of a parser fit the texts they are made from. -/
def Parser.Fits (parser : Parser) : Prop :=
  ∀ text root, parser.root? text = some root → root.Fits text.toList

namespace SourceFile

theorem parse_eq_ok {parser : Parser} {text : String} {source : SourceFile}
    (h : parse parser text = .ok source) :
    parser.refusal = none ∧ source.text = text ∧ parser.root? text = some source.root := by
  unfold parse at h
  split at h
  · simp at h
  · rename_i hrefusal
    split at h
    · simp at h
    · rename_i root hroot
      obtain rfl := Except.ok.inj h
      exact ⟨hrefusal, rfl, hroot⟩

end SourceFile

end Memberwise.Source
