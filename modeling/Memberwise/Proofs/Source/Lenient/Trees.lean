import Memberwise.Proofs.Source.Lenient.Parts
import Memberwise.Proofs.Source.Lenient.Tokens
import Memberwise.Proofs.Source.Node
import Memberwise.Source.Lenient.Parser

/-!
# The trees of the lenient parser

A node of the lenient parser is made for tokens and reaches at least as far as its children. The
tokens lie between boundaries of the text, so the trees fit the text, whatever was misread on the
way.
-/

namespace Memberwise.Source.Lenient

open Token (AllFit allFit_nil)

variable {source : List Char}

/-! ## Nodes for tokens -/

section Choices

variable {choose : Mark → Mark → Mark}

/-- Of two marks at a time one is chosen, so no other one comes out in the end. -/
theorem isBoundary_foldl (hchoose : ∀ a b, choose a b = a ∨ choose a b = b) {first : Mark}
    {marks : List Mark} (hfirst : first.IsBoundary source)
    (hmarks : ∀ mark ∈ marks, mark.IsBoundary source) :
    (marks.foldl choose first).IsBoundary source := by
  induction marks generalizing first with
  | nil => exact hfirst
  | cons mark others ih =>
    obtain ⟨hmark, hothers⟩ := List.forall_mem_cons.mp hmarks
    refine ih ?_ hothers
    rcases hchoose first mark with h | h
    · rwa [h]
    · rwa [h]

/-- What is chosen of two marks is related to both, so in the end it is related to all. -/
theorem foldl_rel {r : Nat → Nat → Prop} [Std.Refl r] [IsTrans Nat r]
    (hleft : ∀ a b, r (choose a b).offset a.offset)
    (hright : ∀ a b, r (choose a b).offset b.offset) (first : Mark) (marks : List Mark) :
    ∀ mark ∈ first :: marks, r (marks.foldl choose first).offset mark.offset := by
  induction marks generalizing first with
  | nil => simpa using refl_of r first.offset
  | cons mark others ih =>
    obtain ⟨hchosen, hothers⟩ := List.forall_mem_cons.mp (ih (choose first mark))
    refine List.forall_mem_cons.mpr ⟨trans_of r hchosen (hleft first mark), ?_⟩
    exact List.forall_mem_cons.mpr ⟨trans_of r hchosen (hright first mark), hothers⟩

end Choices

theorem earlier_cases (mark other : Mark) :
    mark.earlier other = mark ∨ mark.earlier other = other := by
  rw [Mark.earlier]
  split <;> simp

theorem later_cases (mark other : Mark) : mark.later other = mark ∨ mark.later other = other := by
  rw [Mark.later]
  split <;> simp

theorem earlier_le (mark other : Mark) :
    (mark.earlier other).offset ≤ mark.offset ∧ (mark.earlier other).offset ≤ other.offset := by
  rw [Mark.earlier]
  split <;> omega

theorem le_later (mark other : Mark) :
    mark.offset ≤ (mark.later other).offset ∧ other.offset ≤ (mark.later other).offset := by
  rw [Mark.later]
  split <;> omega

/-- A node fits where its marks and its children do. -/
theorem fits_branch {kind : String} {start stop : Mark} {children : List Node}
    (hstart : start.IsBoundary source) (hstop : stop.IsBoundary source)
    (h : ∀ child ∈ children, child.Fits source) :
    (branch kind start stop children).Fits source := by
  have hfirst := foldl_rel (r := (· ≤ ·)) (fun a b ↦ (earlier_le a b).1)
    (fun a b ↦ (earlier_le a b).2) start (children.map Node.start)
  have hlast := foldl_rel (r := (· ≥ ·)) (fun a b ↦ (le_later a b).1)
    (fun a b ↦ (le_later a b).2) (start.later stop) (children.map Node.stop)
  have hlater : (start.later stop).IsBoundary source := by
    rcases later_cases start stop with heq | heq
    · rwa [heq]
    · rwa [heq]
  refine .intro (isBoundary_foldl earlier_cases hstart ?_) (isBoundary_foldl later_cases hlater ?_)
    ?_ (fun child hchild ↦ ⟨?_, ?_⟩) h
  · simpa using fun child hchild ↦ (h child hchild).start
  · simpa using fun child hchild ↦ (h child hchild).stop
  · exact (hfirst start List.mem_cons_self).trans
      ((le_later start stop).1.trans (hlast _ List.mem_cons_self))
  · exact hfirst _ (List.mem_cons_of_mem start (List.mem_map_of_mem hchild))
  · exact hlast _ (List.mem_cons_of_mem _ (List.mem_map_of_mem hchild))

theorem fits_leaf {token : Token} (h : token.Fits source) (kind : String) :
    (token.leaf kind).Fits source :=
  fits_branch h.start h.stop (by simp)

/-- The field of a node, and whether it has a name, do not matter. -/
theorem fits_congr {node other : Node} (h : node.Fits source) (hstart : other.start = node.start)
    (hstop : other.stop = node.stop) (hchildren : other.children = node.children) :
    other.Fits source := by
  refine .intro (hstart ▸ h.start) (hstop ▸ h.stop) ?_ (fun child hchild ↦ ?_) fun child hchild ↦ ?_
  · rw [hstart, hstop]
    exact h.start_le_stop
  · rw [hstart, hstop]
    exact h.inside (hchildren ▸ hchild)
  · exact h.of_mem_children (hchildren ▸ hchild)

theorem fits_inField {node : Node} (h : node.Fits source) (name : String) :
    (inField name node).Fits source := fits_congr h rfl rfl rfl

theorem fits_branch? {kind : String} {tokens : List Token} {children : List Node} {node : Node}
    (htokens : AllFit source tokens) (hchildren : ∀ child ∈ children, child.Fits source)
    (hnode : Token.branch? kind tokens children = some node) : node.Fits source := by
  unfold Token.branch? at hnode
  split at hnode
  · simp at hnode
  · obtain ⟨hfirst, hothers⟩ := AllFit.cons_iff.mp htokens
    obtain rfl := Option.some.inj hnode
    exact fits_branch hfirst.start (hothers.stopOr hfirst.stop) hchildren

/-! ## Fields -/

theorem fits_typeNode? {tokens : List Token} {node : Node} (h : AllFit source tokens)
    (hnode : typeNode? tokens = some node) : node.Fits source := by
  obtain ⟨bare, hbare, rfl⟩ := Option.map_eq_some_iff.mp hnode
  exact fits_inField (fits_branch? h (by simp) hbare) "type"

theorem fits_tupleFields {groups : List (List Token)}
    (h : ∀ group ∈ groups, AllFit source group) :
    ∀ node ∈ tupleFields groups, node.Fits source := by
  intro node hnode
  obtain ⟨group, hgroup, hread⟩ := List.mem_filterMap.mp hnode
  obtain ⟨reading, hreading, htype⟩ := Option.bind_eq_some_iff.mp hread
  have hbare := (h group hgroup).of_subset (Token.bareField_subset group)
  exact fits_typeNode? (hbare.of_subset (Reading.subset_of_ofTokens? hreading).1) htype

theorem fits_misplaced? {tokens : List Token} (h : AllFit source tokens) :
    ∀ node ∈ (misplaced? tokens).toList, node.Fits source := by
  intro node hnode
  refine fits_branch? h (fun child hchild ↦ ?_) (Option.mem_toList.mp hnode)
  obtain ⟨name, hname, rfl⟩ := List.mem_map.mp hchild
  exact fits_leaf (h name (List.mem_of_find?_eq_some (Option.mem_toList.mp hname))) "identifier"

theorem fits_fieldNode {name : Token} {type? : Option Node} (h : name.Fits source)
    (htype : ∀ type ∈ type?, type.Fits source) : (fieldNode name type?).Fits source := by
  refine fits_branch h.start h.stop (List.forall_mem_cons.mpr ⟨?_, fun type hmem ↦ ?_⟩)
  · exact fits_inField (fits_leaf h "field_identifier") "name"
  · exact htype type (Option.mem_toList.mp hmem)

/-- The fields fit the source, and so does the identifier whose type is missing. -/
def ReadFits (source : List Char) (read : List Node × Option Token) : Prop :=
  (∀ node ∈ read.1, node.Fits source) ∧ ∀ name ∈ read.2, name.Fits source

theorem readFits_readNamedGroup {group : List Token} (h : AllFit source group) :
    ReadFits source (readNamedGroup group) := by
  have hmisplaced : ∀ {group : List Token}, AllFit source group →
      ∀ node ∈ (misplaced? (Token.dropAttributes group)).toList, node.Fits source :=
    fun hgroup ↦ fits_misplaced? (hgroup.of_subset (Token.dropAttributes_subset _))
  -- In every field with a name: the name, and what stands behind its colon.
  have hparts : ∀ {group rest : List Token} {name colon : Token}, AllFit source group →
      Token.bareField group = name :: colon :: rest →
      name.Fits source ∧ AllFit source (splitBeforeMarked rest).1 ∧
        AllFit source (splitBeforeMarked rest).2 := by
    intro group rest name colon hgroup hbare
    have hfield : AllFit source (name :: colon :: rest) :=
      hbare ▸ hgroup.of_subset (Token.bareField_subset group)
    obtain ⟨hname, hbehind⟩ := AllFit.cons_iff.mp hfield
    have hrest := (AllFit.cons_iff.mp hbehind).2
    obtain ⟨hfront, hback⟩ := Token.subset_of_splitAtTop (Prod.eta (splitBeforeMarked rest)).symm
    exact ⟨hname, hrest.of_subset hfront, hrest.of_subset hback⟩
  fun_induction readNamedGroup group with
  | case1 group => exact ⟨hmisplaced h, by simp⟩
  | case2 group name colon rest hbare hstarts parted hmarked fields pending heq ih =>
    obtain ⟨hname, -, hback⟩ := hparts h hbare
    obtain ⟨hfields, hpending⟩ := heq ▸ ih hback
    exact ⟨List.forall_mem_cons.mpr ⟨fits_fieldNode hname (by simp), hfields⟩, hpending⟩
  | case3 group name colon rest hbare =>
    refine ⟨by simp, ?_⟩
    rintro _ ⟨⟩
    exact (hparts h hbare).1
  | case4 group name colon rest hbare =>
    exact ⟨by simpa using fits_fieldNode (hparts h hbare).1 (by simp), by simp⟩
  | case5 group name colon rest hbare hstarts parted hmarked hempty reading hreading =>
    obtain ⟨hname, hfront, -⟩ := hparts h hbare
    obtain ⟨htype, hexcess⟩ := Reading.subset_of_ofTokens? hreading
    refine ⟨List.forall_mem_cons.mpr ⟨fits_fieldNode hname fun type hmem ↦ ?_, ?_⟩, by simp⟩
    · exact fits_typeNode? (hfront.of_subset htype) hmem
    · exact fits_misplaced? (hfront.of_subset hexcess)
  | case6 group => exact ⟨hmisplaced h, by simp⟩

theorem readFits_readBehind {misplaced group : List Token} (hmisplaced : AllFit source misplaced)
    (h : AllFit source group) : ReadFits source (readBehind misplaced group) := by
  unfold readBehind
  split
  · rename_i first _ name colon rest
    split
    rename_i fields pending hread
    obtain ⟨hfields, hpending⟩ := hread ▸ readFits_readNamedGroup h
    dsimp only
    split
    · have hfirst := (AllFit.cons_iff.mp hmisplaced).1
      have hbehind := (AllFit.cons_iff.mp h).2
      exact readFits_readNamedGroup (AllFit.cons_iff.mpr ⟨hfirst, hbehind⟩)
    · have hkept := fits_misplaced? (hmisplaced.of_subset (keptMisplaced_subset _))
      exact ⟨List.forall_mem_append.mpr ⟨hkept, hfields⟩, hpending⟩
  · exact readFits_readNamedGroup h

theorem fits_namedFields {misplaced : List Token} {pending : Option Token}
    {groups : List (List Token)} (hmisplaced : AllFit source misplaced)
    (hpending : ∀ name ∈ pending, name.Fits source) (h : ∀ group ∈ groups, AllFit source group) :
    ∀ node ∈ namedFields misplaced pending groups, node.Fits source := by
  fun_induction namedFields misplaced pending groups with
  | case1 misplaced pending =>
    refine List.forall_mem_append.mpr ⟨fun node hnode ↦ ?_, fits_misplaced? hmisplaced⟩
    obtain ⟨name, hname, rfl⟩ := Option.map_eq_some_iff.mp (Option.mem_toList.mp hnode)
    exact fits_fieldNode (hpending name hname) (by simp)
  | case2 misplaced group groups own name tokens hempty ih =>
    obtain ⟨-, hgroups⟩ := List.forall_mem_cons.mp h
    exact List.forall_mem_cons.mpr
      ⟨fits_fieldNode (hpending name rfl) (by simp), ih allFit_nil (by simp) hgroups⟩
  | case3 misplaced group groups own name tokens hempty hstarts fields next hread ih =>
    obtain ⟨hgroup, hgroups⟩ := List.forall_mem_cons.mp h
    obtain ⟨hfields, hnext⟩ :=
      hread ▸ readFits_readNamedGroup (hgroup.of_subset (Token.dropComma_subset group))
    have huntyped : (fieldNode name none).Fits source :=
      fits_fieldNode (hpending name rfl) (by simp)
    exact List.forall_mem_append.mpr
      ⟨List.forall_mem_cons.mpr ⟨huntyped, hfields⟩, ih allFit_nil hnext hgroups⟩
  | case4 misplaced group groups own name tokens hempty hstarts ih =>
    obtain ⟨hgroup, hgroups⟩ := List.forall_mem_cons.mp h
    refine List.forall_mem_cons.mpr ⟨?_, ih allFit_nil (by simp) hgroups⟩
    refine fits_fieldNode (hpending name rfl) fun type hmem ↦ ?_
    exact fits_typeNode? (hgroup.of_subset (Token.dropComma_subset group)) hmem
  | case5 misplaced group groups own front field hcut hempty hjoin ih =>
    obtain ⟨hgroup, hgroups⟩ := List.forall_mem_cons.mp h
    exact ih (AllFit.append_iff.mpr ⟨hmisplaced, hgroup⟩) (by simp) hgroups
  | case6 misplaced group groups own front field hcut hempty joined hjoin fields next hread ih =>
    obtain ⟨hgroup, hgroups⟩ := List.forall_mem_cons.mp h
    have hjoined : AllFit source joined :=
      (hgroup.of_subset (Token.dropComma_subset group)).of_subset (subset_of_joinField? hjoin)
    obtain ⟨hfields, hnext⟩ := hread ▸ readFits_readNamedGroup hjoined
    rw [List.append_assoc]
    exact List.forall_mem_append.mpr ⟨fits_misplaced? hmisplaced,
      List.forall_mem_append.mpr ⟨hfields, ih allFit_nil hnext hgroups⟩⟩
  | case7 misplaced group groups own front field hcut hempty fields next hread ih =>
    obtain ⟨hgroup, hgroups⟩ := List.forall_mem_cons.mp h
    have hall : AllFit source (misplaced ++ own) :=
      AllFit.append_iff.mpr ⟨hmisplaced, hgroup.of_subset (Token.dropComma_subset group)⟩
    obtain ⟨hfront, hfield⟩ := subset_of_splitBeforeField hcut
    obtain ⟨hfields, hnext⟩ :=
      hread ▸ readFits_readBehind (hall.of_subset hfront) (hall.of_subset hfield)
    exact List.forall_mem_append.mpr ⟨hfields, ih allFit_nil hnext hgroups⟩

/-! ## Generic parameters -/

theorem fits_parameterNode? {tokens : List Token} {node : Node} (h : AllFit source tokens)
    (hnode : parameterNode? tokens = some node) : node.Fits source := by
  have htrimmed := (h.of_subset (Token.trimBroken_subset tokens)).of_subset
    (Token.dropAttributes_subset _)
  unfold parameterNode? at hnode
  dsimp only at hnode
  generalize Token.dropAttributes (Token.trimBroken tokens) = trimmed at htrimmed hnode
  have hnamed : ∀ {kind : String} {name : Token}, name ∈ trimmed →
      Token.branch? kind trimmed (inField "name" (name.leaf "identifier") ::
        (defaultSign? trimmed).toList.map fun sign ↦ { sign.leaf "=" with isNamed := false }) =
          some node → node.Fits source := by
    intro kind name hname hbranch
    refine fits_branch? htrimmed (List.forall_mem_cons.mpr ⟨?_, fun child hchild ↦ ?_⟩) hbranch
    · exact fits_inField (fits_leaf (htrimmed name hname) "identifier") "name"
    · obtain ⟨sign, hsign, rfl⟩ := List.mem_map.mp hchild
      have hmem := (Token.subset_of_splitAtTop (Prod.eta _).symm).2
        (List.mem_of_head? (Option.mem_toList.mp hsign))
      exact fits_congr (fits_leaf (htrimmed sign hmem) "=") rfl rfl rfl
  split at hnode
  · simp at hnode
  · split at hnode
    · split at hnode
      · split at hnode
        · exact hnamed (by simp) hnode
        · simp at hnode
      · simp at hnode
    · split at hnode
      · exact hnamed (by simp) hnode
      · split at hnode
        · exact hnamed (by simp) hnode
        · simp at hnode

theorem fits_parametersNode {start stop : Mark} {tokens : List Token}
    (hstart : start.IsBoundary source) (hstop : stop.IsBoundary source)
    (h : AllFit source tokens) : (parametersNode start stop tokens).Fits source := by
  refine fits_inField (fits_branch hstart hstop fun node hnode ↦ ?_) "type_parameters"
  obtain ⟨group, hgroup, hread⟩ := List.mem_filterMap.mp hnode
  exact fits_parameterNode? (h.of_subset (Token.subset_of_mem_commaGroups hgroup)) hread

theorem fits_clauseNode? {clause : List Token} (h : AllFit source clause) :
    ∀ node ∈ clauseNode? clause, node.Fits source := by
  intro node hnode
  obtain ⟨first, hfirst, rfl⟩ := Option.map_eq_some_iff.mp hnode
  have hmark := (h first (List.mem_of_head? hfirst)).start
  cases hbranch : Token.branch? "where_clause" (Token.trimBroken clause) [] with
  | none => exact fits_branch hmark hmark (by simp)
  | some shown =>
    exact fits_branch? (h.of_subset (Token.trimBroken_subset clause)) (by simp) hbranch

/-! ## Tails -/

namespace StructTail

/-- The body and the `where` clause fit the source, and the end is a boundary of it. -/
structure Fits (source : List Char) (tail : StructTail) : Prop where
  body : ∀ node ∈ tail.body, node.Fits source
  whereClause : AllFit source tail.whereClause
  stop : tail.stop.IsBoundary source

/-- Without a body and without a clause only the end matters. -/
theorem Fits.of_unit {stop : Mark} (hstop : stop.IsBoundary source) (skipped : Option Mark)
    (repair : Repair) : Fits source { body := none, stop, skipped, repair } :=
  ⟨by simp, allFit_nil, hstop⟩

theorem fits_tupleBody {paren : Token} {tokens : List Token} (hparen : paren.Fits source)
    (h : AllFit source tokens) : (tupleBody paren tokens).Fits source := by
  refine fits_inField (fits_branch hparen.start (h.stopOr hparen.stop) ?_) "body"
  exact fits_tupleFields fun _ hgroup ↦ h.of_subset (Token.subset_of_mem_commaGroups hgroup)

theorem fits_namedBody {brace : Token} {tokens : List Token} (hbrace : brace.Fits source)
    (h : AllFit source tokens) : (namedBody brace tokens).Fits source := by
  refine fits_inField (fits_branch hbrace.start (h.stopOr hbrace.stop) ?_) "body"
  exact fits_namedFields allFit_nil (by simp) fun _ hgroup ↦
    h.of_subset (Token.subset_of_mem_commaEndedGroups hgroup)

theorem fits_afterTuple {body : Option Node} {paren : Token} {tokens : List Token}
    (hbody : ∀ node ∈ body, node.Fits source) (hparen : paren.Fits source)
    (h : AllFit source tokens) : (afterTuple body paren tokens).Fits source := by
  unfold afterTuple
  split
  rename_i clause back hcut
  obtain ⟨hclause, hback⟩ : AllFit source clause ∧ AllFit source back := by
    split at hcut
    · obtain ⟨hfront, hrest⟩ := Token.subset_of_splitBeforeItem hcut
      exact ⟨h.of_subset hfront, h.of_subset hrest⟩
    · obtain ⟨rfl, rfl⟩ := Prod.mk.inj hcut
      exact ⟨allFit_nil, h.of_subset (Token.subset_of_splitStray (Prod.eta _).symm).2⟩
  have hplain : Fits source
      { body, whereClause := clause, stop := Token.stopOr paren.stop clause } :=
    ⟨hbody, hclause, hclause.stopOr hparen.stop⟩
  split
  · split
    · rename_i shown comment hend
      obtain ⟨hshown, hcomment⟩ := Token.subset_of_splitBrokenEnd hend
      have hlast := hclause comment (hcomment (by simp))
      exact ⟨hbody, hclause.of_subset hshown, hlast.stop⟩
    · exact hplain
  · rename_i last others
    have hlast := (AllFit.cons_iff.mp hback).1
    split
    · exact ⟨hbody, hclause, hlast.stop⟩
    · split
      · exact ⟨hbody, allFit_nil, hlast.stop⟩
      · exact hplain

theorem fits_unclosedTuple? {opening : Token} {tokens : List Token} {tail : StructTail}
    (hopening : opening.Fits source) (h : AllFit source tokens)
    (hread : unclosedTuple? opening tokens = some tail) : tail.Fits source := by
  unfold unclosedTuple? at hread
  split at hread
  rename_i listed rest hcut
  obtain ⟨hlisted, hrest⟩ := Token.subset_of_splitAtTop hcut
  obtain ⟨last, hlast, rfl⟩ := Option.map_eq_some_iff.mp hread
  have hstop := (h last (hrest (List.mem_of_head? hlast))).stop
  split
  rename_i shown comment hend
  obtain ⟨hshown, -⟩ := Token.subset_of_splitBrokenEnd hend
  have hbody : ∀ node ∈ some (tupleBody opening shown), node.Fits source := by
    rintro _ ⟨⟩
    exact fits_tupleBody hopening ((h.of_subset hlisted).of_subset hshown)
  dsimp only
  split
  · exact ⟨hbody, allFit_nil, hstop⟩
  · split
    · exact ⟨hbody, allFit_nil, hstop⟩
    · exact .of_unit hstop _ _

theorem fits_tuple? {opening : Token} {tokens : List Token} {tail : StructTail}
    (hopening : opening.Fits source) (h : AllFit source tokens)
    (hread : tuple? opening tokens = some tail) : tail.Fits source := by
  unfold tuple? at hread
  split at hread
  rename_i inner back hcut
  obtain ⟨hinner, hback⟩ := Token.subset_of_splitAtTop hcut
  split at hread
  · exact fits_unclosedTuple? hopening (h.of_subset hinner) hread
  · obtain ⟨hparen, hbehind⟩ := AllFit.cons_iff.mp (h.of_subset hback)
    split at hread
    · obtain rfl := Option.some.inj hread
      refine fits_afterTuple ?_ hparen hbehind
      rintro _ ⟨⟩
      exact fits_tupleBody hopening (h.of_subset hinner)
    · exact fits_unclosedTuple? hopening (h.of_subset hinner) hread

theorem fits_unclosedNamed? {clause tokens : List Token} {brace : Token} {tail : StructTail}
    (hclause : AllFit source clause) (hbrace : brace.Fits source) (h : AllFit source tokens)
    (hread : unclosedNamed? clause brace tokens = some tail) : tail.Fits source := by
  unfold unclosedNamed? at hread
  split at hread
  rename_i listed rest hcut
  obtain ⟨hlisted, hrest⟩ := Token.subset_of_splitAtTop hcut
  split at hread
  rename_i shown comment hend
  obtain ⟨hshown, -⟩ := Token.subset_of_splitBrokenEnd hend
  have hbody : ∀ node ∈ some (namedBody brace shown), node.Fits source := by
    rintro _ ⟨⟩
    exact fits_namedBody hbrace ((h.of_subset hlisted).of_subset hshown)
  have hnamed : ∀ repair : Repair, Fits source
      { body := namedBody brace shown
        whereClause := clause
        stop := Token.stopOr brace.stop listed
        repair } :=
    fun _ ↦ ⟨hbody, hclause, (h.of_subset hlisted).stopOr hbrace.stop⟩
  dsimp only at hread
  split at hread
  · split at hread
    · obtain rfl := Option.some.inj hread
      exact hnamed _
    · simp at hread
  · split at hread
    · obtain rfl := Option.some.inj hread
      exact hnamed _
    · simp at hread
  · rename_i last _
    have hlast := h last (hrest List.mem_cons_self)
    obtain rfl := Option.some.inj hread
    split
    · exact hnamed _
    · exact .of_unit hlast.stop _ _
  · rename_i last _ _
    have hlast := h last (hrest List.mem_cons_self)
    obtain rfl := Option.some.inj hread
    split
    · exact hnamed _
    · exact .of_unit hlast.stop _ _

theorem fits_named? {clause tokens : List Token} {brace : Token} {tail : StructTail}
    (hclause : AllFit source clause) (hbrace : brace.Fits source) (h : AllFit source tokens)
    (hread : named? clause brace tokens = some tail) : tail.Fits source := by
  unfold named? at hread
  split at hread
  rename_i inner back hcut
  obtain ⟨hinner, hback⟩ := Token.subset_of_splitBeforeItem hcut
  split at hread
  · exact fits_unclosedNamed? hclause hbrace (h.of_subset hinner) hread
  · rename_i close _
    have hclose := h close (hback List.mem_cons_self)
    obtain rfl := Option.some.inj hread
    refine ⟨?_, hclause, ?_⟩
    · rintro _ ⟨⟩
      exact fits_namedBody hbrace (h.of_subset hinner)
    · dsimp only
      split
      · exact hclose.stop
      · exact (h.of_subset hinner).stopOr hbrace.stop

theorem fits_readPlain? {last : Mark} {tokens : List Token} {tail : StructTail}
    (hlast : last.IsBoundary source) (h : AllFit source tokens)
    (hread : readPlain? last tokens = some tail) : tail.Fits source := by
  unfold readPlain? at hread
  split at hread
  · obtain rfl := Option.some.inj hread
    exact .of_unit hlast _ _
  rename_i first others
  obtain ⟨hfirst, hothers⟩ := AllFit.cons_iff.mp h
  split at hread
  · obtain rfl := Option.some.inj hread
    exact .of_unit hfirst.stop _ _
  split at hread
  · exact fits_tuple? hfirst hothers hread
  split at hread
  · exact fits_named? allFit_nil hfirst hothers hread
  split at hread
  · split at hread
    rename_i clause back hcut
    obtain ⟨hclause, hback⟩ := Token.subset_of_splitAtTop hcut
    split at hread
    · split at hread
      · simp at hread
      · obtain rfl := Option.some.inj hread
        exact .of_unit hlast _ _
    · obtain ⟨hnext, hinner⟩ := AllFit.cons_iff.mp (h.of_subset hback)
      split at hread
      · obtain rfl := Option.some.inj hread
        exact .of_unit hnext.stop _ _
      · exact fits_named? (h.of_subset hclause) hnext hinner hread
  split at hread
  · obtain rfl := Option.some.inj hread
    exact .of_unit hfirst.stop _ _
  split at hread
  · simp at hread
  · obtain rfl := Option.some.inj hread
    exact .of_unit hlast _ _

theorem fits_read? {last : Mark} {tokens : List Token} {tail : StructTail}
    (hlast : last.IsBoundary source) (h : AllFit source tokens)
    (hread : read? last tokens = some tail) : tail.Fits source := by
  unfold read? at hread
  split at hread
  rename_i misplaced back hcut
  obtain ⟨plain, hplain, rfl⟩ := Option.map_eq_some_iff.mp hread
  have hfits := fits_readPlain? hlast (h.of_subset (Token.subset_of_splitStray hcut).2) hplain
  exact ⟨hfits.body, hfits.whereClause, hfits.stop⟩

end StructTail

/-! ## Declarations -/

namespace StructItem

theorem fits_read? {start : Mark} {tokens : List Token} {item : StructItem}
    (hstart : start.IsBoundary source) (h : AllFit source tokens)
    (hread : read? start tokens = some item) : item.node.Fits source := by
  simp only [read?, Option.bind_eq_bind, Option.bind_eq_some_iff, Prod.exists] at hread
  obtain ⟨name, rest, hname, parameters, last, after, hparameters, tail, htail, heq⟩ := hread
  obtain rfl := Option.some.inj heq
  obtain ⟨hword, hrest⟩ := subset_of_splitName? hname
  obtain ⟨hshown, hafter, hmark⟩ := subset_of_splitParameters? hparameters
  have hbehind := h.of_subset hrest
  have hlast : last.IsBoundary source := by
    rcases hmark with rfl | ⟨token, htoken, rfl | rfl⟩
    · exact (h name hword).stop
    · exact (hbehind token htoken).start
    · exact (hbehind token htoken).stop
  have hfits := StructTail.fits_read? hlast (hbehind.of_subset hafter) htail
  refine fits_branch hstart hfits.stop ?_
  refine List.forall_mem_append.mpr ⟨List.forall_mem_append.mpr ⟨?_, fun node hnode ↦ ?_⟩,
    fun node hnode ↦ hfits.body node (Option.mem_toList.mp hnode)⟩
  · refine List.forall_mem_cons.mpr ⟨?_, fun node hnode ↦ ?_⟩
    · exact fits_inField (fits_leaf (h name hword) "type_identifier") "name"
    · obtain ⟨shown, hmem, rfl⟩ := Option.map_eq_some_iff.mp (Option.mem_toList.mp hnode)
      exact fits_parametersNode (h name hword).stop hlast (hbehind.of_subset (hshown shown hmem))
  · exact fits_clauseNode? hfits.whereClause node (Option.mem_toList.mp hnode)

theorem fits_of_mem_readAll {finish : Mark} {since : Nat} {before tokens : List Token}
    (hbefore : AllFit source before) (h : AllFit source tokens) {item : StructItem}
    (hitem : item ∈ readAll finish before since tokens) : item.node.Fits source := by
  induction tokens generalizing before since with
  | nil => simp [readAll] at hitem
  | cons token others ih =>
    obtain ⟨htoken, hothers⟩ := AllFit.cons_iff.mp h
    have hlater : AllFit source (token :: before) := AllFit.cons_iff.mpr ⟨htoken, hbefore⟩
    rw [readAll] at hitem
    split at hitem
    · exact ih hlater hothers hitem
    · rename_i found hfound
      rcases List.mem_cons.mp hitem with rfl | hitem
      · split at hfound
        · obtain ⟨hread, -⟩ := Option.filter_eq_some_iff.mp hfound
          refine fits_read? ?_ hothers hread
          cases hvisible : Token.visibilityStart? before with
          | none => exact htoken.start
          | some mark =>
            obtain ⟨first, hfirst, rfl⟩ := exists_of_visibilityStart? hvisible
            exact (hbefore first hfirst).start
        · simp at hfound
      · exact ih hlater hothers hitem

end StructItem

theorem fits_root (text : String) : (root text).Fits text.toList := by
  refine fits_branch ⟨[], List.nil_prefix, rfl⟩ ⟨_, List.prefix_refl _, rfl⟩ fun node hnode ↦ ?_
  obtain ⟨item, hitem, rfl⟩ := List.mem_map.mp hnode
  exact StructItem.fits_of_mem_readAll allFit_nil (Token.allFit_breakUnclosed_ofSource _) hitem

end Memberwise.Source.Lenient

namespace Memberwise.Source

/-- The trees of the lenient parser fit their texts. -/
theorem Parser.fits_lenient : Parser.lenient.Fits := by
  rintro text _ ⟨⟩
  exact Lenient.fits_root text

theorem SourceFile.parse_lenient (text : String) :
    SourceFile.parse .lenient text = .ok (SourceFile.lenient text) := rfl

end Memberwise.Source
