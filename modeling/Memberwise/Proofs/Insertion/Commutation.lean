import Memberwise.Proofs.Insertion.Point

/-!
# Two insertions into one text

Two declarations of a text get a block each. The block of the earlier one moves the later one on and
leaves what belongs to it as it was; the block of the later one may end the line of the earlier one,
but not where anything that belongs to that one would be cut off.

The main statement: whichever block is inserted first, both come to stand in the same places, and
the text is the same.
-/

namespace Memberwise.Insertion

open Text

section Cut

variable {source : String} {offset : Nat} (front back : List Char)

theorem point?_eq (hsource : source = String.ofList (front ++ back))
    (hoffset : offset = byteSize front) (h : endsVisibly front = true) :
    point? source offset = some (byteSize (front ++ trailer back)) := by
  rw [point?, hsource, hoffset, String.toList_ofList, splitAt?_byteSize, Option.map_some,
    pointAfter_eq h]

theorem splice?_eq (hsource : source = String.ofList (front ++ back))
    (hoffset : offset = byteSize front) (block : String) :
    splice? source offset block = some (between front block.toList back) := by
  rw [splice?, hsource, hoffset, String.toList_ofList, splitAt?_byteSize, Option.map_some]

end Cut

/-! ## The earlier declaration -/

/-- What belongs to a declaration that visible text follows stays the same when a block goes behind
that text and what belongs to it, unless that text belongs to the declaration itself. -/
theorem trailer_append_lineFeed {text back : List Char} (htext : endsVisibly text = true)
    (h : byteSize (trailer (text ++ back)) < byteSize text) (other : List Char) :
    trailer (text ++ trailer back ++ '\n' :: other) = trailer (text ++ back) := by
  by_cases hline : '\n' ∈ text
  · simp only [trailer, List.append_assoc, lineRest_append_of_mem hline]
  · have hrest := lineRest_append_of_not_mem hline back
    have hnone : isTrailer (text ++ lineRest back) = false := by
      by_contra hsome
      rw [Bool.not_eq_false] at hsome
      rw [trailer, hrest, if_pos hsome, trimEnd_append htext, byteSize_append] at h
      omega
    have hfree : '\n' ∉ text ++ trailer back := by
      intro hmem
      rcases List.mem_append.mp hmem with hmem | hmem
      · exact hline hmem
      · exact lineFeed_not_mem_lineRest back ((trailer_isPrefix_lineRest back).subset hmem)
    have hshort : isTrailer (text ++ trailer back) = false := by
      by_contra hsome
      rw [Bool.not_eq_false] at hsome
      have hlong := isTrailer_append_of_isPrefix htext (trailer_isPrefix_lineRest back) hsome
      exact Bool.false_ne_true (hnone.symm.trans hlong)
    have hcut : lineRest (text ++ trailer back ++ '\n' :: other) = text ++ trailer back := by
      rw [lineRest_append_of_not_mem hfree]
      simp [lineRest]
    rw [trailer, hcut, if_neg (by simp [hshort]), trailer, hrest, if_neg (by simp [hnone])]

/-! ## Both declarations -/

/-- A character boundary behind a visible character, as every declaration ends with one. -/
def isEnd (source : String) (offset : Nat) : Bool :=
  (splitAt? offset source.toList).any fun cut ↦ endsVisibly cut.1

theorem exists_cut_of_isEnd {source : String} {offset : Nat} (h : isEnd source offset = true) :
    ∃ front back, source = String.ofList (front ++ back) ∧ byteSize front = offset ∧
      endsVisibly front = true := by
  rw [isEnd, Option.any_eq_true] at h
  obtain ⟨⟨front, back⟩, hcut, hends⟩ := h
  obtain ⟨htext, hsize⟩ := append_eq_of_splitAt?_eq_some hcut
  exact ⟨front, back, by rw [htext, String.ofList_toList], hsize, hends⟩

/-- A text with two ends, cut there and behind what belongs to each of them. -/
structure Layout (source : String) (early point late : Nat)
    (front own middle others back : List Char) : Prop where
  source_eq : source = String.ofList (front ++ own ++ middle ++ others ++ back)
  early_eq : early = byteSize front
  point_eq : point = byteSize (front ++ own)
  late_eq : late = byteSize (front ++ own ++ middle)
  front_visible : endsVisibly front = true
  middle_visible : endsVisibly middle = true
  others_eq : trailer (others ++ back) = others
  /-- A line end behind what belongs to the later end takes nothing away from the earlier one. -/
  own_eq : ∀ next, trailer (own ++ middle ++ others ++ '\n' :: next) = own

theorem exists_layout {source : String} {early late point : Nat}
    (hearly : isEnd source early = true) (hlate : isEnd source late = true) (hlt : early < late)
    (hpoint : point? source early = some point) (hbefore : point < late) :
    ∃ front own middle others back,
      Layout source early point late front own middle others back := by
  obtain ⟨front, behind, hsource, rfl, hfront⟩ := exists_cut_of_isEnd hearly
  obtain ⟨before, rest, hother, rfl, hbeforeVisible⟩ := exists_cut_of_isEnd hlate
  have hsame : front ++ behind = before ++ rest :=
    String.ofList_injective (hsource.symm.trans hother)
  obtain ⟨text, rfl⟩ : front <+: before :=
    prefix_of_byteSize_le (List.prefix_append front behind)
      (hsame ▸ List.prefix_append before rest) hlt.le
  obtain rfl : behind = text ++ rest := by simpa using hsame
  have htext : endsVisibly text = true := by
    refine endsVisibly_of_append hbeforeVisible ?_
    rintro rfl
    simp at hlt
  have heq : byteSize (front ++ trailer (text ++ rest)) = point :=
    Option.some.inj ((point?_eq front (text ++ rest) hsource rfl hfront).symm.trans hpoint)
  have hshort : byteSize (trailer (text ++ rest)) < byteSize text := by
    rwa [← heq, byteSize_append, byteSize_append, Nat.add_lt_add_iff_left] at hbefore
  have hkept := trailer_append_lineFeed htext hshort
  obtain ⟨middle, hmiddle⟩ : trailer (text ++ rest) <+: text :=
    prefix_of_byteSize_le (trailer_isPrefix _) (List.prefix_append text rest) hshort.le
  have hne : middle ≠ [] := by
    rintro rfl
    rw [← congrArg byteSize hmiddle, List.append_nil] at hshort
    exact Nat.lt_irrefl _ hshort
  obtain ⟨back, hback⟩ := trailer_isPrefix rest
  refine ⟨front, trailer (text ++ rest), middle, trailer rest, back, ?_, rfl, heq.symm, ?_, hfront,
    endsVisibly_of_append (hmiddle.symm ▸ htext) hne, by rw [hback], ?_⟩
  · rw [hsource, List.append_assoc front, hmiddle, List.append_assoc _ (trailer rest), hback,
      List.append_assoc]
  · rw [List.append_assoc, hmiddle]
  · intro next
    rw [hmiddle]
    exact hkept next

/-- Whichever block is inserted first, the text is the same. The place of the later one moves by an
empty line and the earlier block, and that of the earlier one stays. -/
theorem text_splice?_comm {source : String} {early late point : Nat}
    (hearly : isEnd source early = true) (hlate : isEnd source late = true) (hlt : early < late)
    (hpoint : point? source early = some point) (hbefore : point < late) (first second : String) :
    ∃ other one two both,
      point? source late = some other ∧
      splice? source point first = some one ∧
      splice? source other second = some two ∧
      point? one.text (late + (2 + first.utf8ByteSize)) =
        some (other + (2 + first.utf8ByteSize)) ∧
      point? two.text early = some point ∧
      (splice? one.text (other + (2 + first.utf8ByteSize)) second).map text = some both ∧
      (splice? two.text point first).map text = some both := by
  obtain ⟨front, own, middle, others, back, h⟩ :=
    exists_layout hearly hlate hlt hpoint hbefore
  have hgrowth : ∀ behind : List Char,
      byteSize (front ++ own ++ behind) + (2 + first.utf8ByteSize) =
        byteSize (front ++ own ++ emptyLine ++ first.toList ++ behind) := by
    intro behind
    have hline : byteSize emptyLine = 2 := rfl
    simp only [byteSize_append, byteSize_toList, hline]
    omega
  let one := between (front ++ own) first.toList (middle ++ others ++ back)
  let two := between (front ++ own ++ middle ++ others) second.toList back
  let both := String.ofList (front ++ own ++ emptyLine ++ first.toList ++ middle ++ others ++
    emptyLine ++ second.toList ++ back)
  have hlater : point? source late = some (byteSize (front ++ own ++ middle ++ others)) := by
    rw [point?_eq (front ++ own ++ middle) (others ++ back)
      (by simp only [h.source_eq, List.append_assoc]) h.late_eq
      (endsVisibly_append h.middle_visible _), h.others_eq]
  have hone : splice? source point first = some one :=
    splice?_eq _ _ (by simp only [h.source_eq, List.append_assoc]) h.point_eq first
  have htwo : splice? source (byteSize (front ++ own ++ middle ++ others)) second = some two :=
    splice?_eq _ _ h.source_eq rfl second
  have hmoved : point? one.text (late + (2 + first.utf8ByteSize)) =
      some (byteSize (front ++ own ++ middle ++ others) + (2 + first.utf8ByteSize)) := by
    rw [point?_eq (front ++ own ++ emptyLine ++ first.toList ++ middle) (others ++ back)
      (by simp only [one, between, List.append_assoc]) (by rw [h.late_eq, hgrowth])
      (endsVisibly_append h.middle_visible _), h.others_eq,
      List.append_assoc _ middle others, List.append_assoc _ middle others, hgrowth]
  have hstays : point? two.text early = some point := by
    rw [point?_eq front (own ++ middle ++ others ++ '\n' :: '\n' :: (second.toList ++ back))
      (by simp [two, between, emptyLine]) h.early_eq h.front_visible, h.own_eq, h.point_eq]
  refine ⟨_, one, two, both, hlater, hone, htwo, hmoved, hstays, ?_, ?_⟩
  · rw [splice?_eq (front ++ own ++ emptyLine ++ first.toList ++ (middle ++ others)) back
      (by simp only [one, between, List.append_assoc])
      (by rw [List.append_assoc _ middle others, hgrowth])]
    simp only [Option.map_some, between, both, List.append_assoc]
  · rw [splice?_eq (front ++ own) (middle ++ others ++ emptyLine ++ second.toList ++ back)
      (by simp only [two, between, List.append_assoc]) h.point_eq]
    simp only [Option.map_some, between, both, List.append_assoc]

/-- Both declarations on one line, with a comment between them and another one behind. -/
theorem text_splice?_comm_of_one_line :
    let source := "struct A; /* a */ struct B; // b\n"
    isEnd source 9 = true ∧ isEnd source 27 = true ∧ point? source 9 = some 9 ∧
      ∃ one two both,
        splice? source 9 "impl A {}" = some one ∧ splice? source 32 "impl B {}" = some two ∧
        (splice? one.text 43 "impl B {}").map text = some both ∧
        (splice? two.text 9 "impl A {}").map text = some both := by
  intro source
  have hearly : isEnd source 9 = true := by decide +kernel
  have hlate : isEnd source 27 = true := by decide +kernel
  have hpoint : point? source 9 = some 9 := by decide +kernel
  obtain ⟨other, one, two, both, hother, hone, htwo, -, -, hfirst, hsecond⟩ :=
    text_splice?_comm hearly hlate (by decide) hpoint (by decide) "impl A {}" "impl B {}"
  obtain rfl : 32 = other := by
    have hplace : point? source 27 = some 32 := by decide +kernel
    exact Option.some.inj (hplace.symm.trans hother)
  exact ⟨hearly, hlate, hpoint, one, two, both, hone, htwo, hfirst, hsecond⟩

end Memberwise.Insertion
