import Memberwise.Proofs.FileMap.Directory

/-!
# Files at plain paths

A plain path joins names that lead to files and directories of their own by single slashes. It
needs no resolving: it leads to its own names if all but the last are those of a directory, and what
it finds is the entry under the path itself.

The main statement: at a plain path a replacement fails exactly if there is no directory for the
file or a directory in its place, and an application fails before that if the file does not hold
what was expected. What succeeds changes one entry, and what fails changes none; of the temporary
file nothing is left in either case.
-/

namespace Memberwise.FileMap

/-! ## Plain names -/

/-- A name that leads to a file or a directory of its own. -/
structure IsPlain (name : String) : Prop where
  ne_empty : name ≠ ""
  ne_here : name ≠ "."
  ne_above : name ≠ ".."
  slash : '/' ∉ name.toList

instance (name : String) : Decidable (IsPlain name) :=
  decidable_of_iff (name ≠ "" ∧ name ≠ "." ∧ name ≠ ".." ∧ '/' ∉ name.toList)
    ⟨fun ⟨hempty, hhere, habove, hslash⟩ ↦ ⟨hempty, hhere, habove, hslash⟩,
      fun h ↦ ⟨h.ne_empty, h.ne_here, h.ne_above, h.slash⟩⟩

theorem IsPlain.isName {name : String} (h : IsPlain name) : IsName name where
  staysPut := by simp [FileMap.staysPut, h.ne_empty, h.ne_here]
  slash := h.slash

variable {files : FileMap} {names : List String}

theorem isDirectory_eq_false_of_prefix {outer inner : List String} (hfront : outer <+: inner)
    (h : files.isDirectory outer = false) : files.isDirectory inner = false := by
  rw [← Bool.not_eq_true] at h ⊢
  exact fun hinner ↦ h <| isDirectory_of_prefix hfront hinner

/-! ## Resolving -/

/-- Of the directories on the way only the last one has to be looked for. -/
theorem resolveFrom_of_plain (files : FileMap) (hplain : ∀ name ∈ names, IsPlain name)
    (directory : List String) :
    files.resolveFrom directory names =
      if names = [] ∨ files.isDirectory (directory ++ names.dropLast) = true then
        some (directory ++ names)
      else none := by
  induction names generalizing directory with
  | nil => simp [resolveFrom]
  | cons name others ih =>
    obtain ⟨hname, hothers⟩ := List.forall_mem_cons.mp hplain
    cases hdirectory : files.isDirectory directory with
    | false =>
      have hinner := isDirectory_eq_false_of_prefix
        (List.prefix_append directory (name :: others).dropLast) hdirectory
      simp [resolveFrom, hdirectory, hinner]
    | true =>
      have hstep : files.resolveFrom directory (name :: others) =
          files.resolveFrom (directory ++ [name]) others := by
        simp [resolveFrom, hdirectory, hname.isName.staysPut, hname.ne_above]
      rw [hstep, ih hothers]
      cases others with
      | nil => simp [hdirectory]
      | cons next rest => simp

theorem resolve_of_plain (files : FileMap) (hne : names ≠ [])
    (hplain : ∀ name ∈ names, IsPlain name) :
    files.resolve (pathOfNames names) =
      if files.isDirectory names.dropLast = true then some names else none := by
  have hpieces := pathPieces_pathOfNames hne fun name hname ↦ (hplain name hname).slash
  -- a path that is empty or begins with a slash has an empty first piece
  have hfirst : "" ∉ names := fun hmem ↦ (hplain "" hmem).ne_empty rfl
  have hpath : files.resolve (pathOfNames names) = files.resolveFrom [] names := by
    rw [resolve]
    split
    · rename_i hnil
      rw [pathPieces, hnil] at hpieces
      exact absurd (hpieces ▸ List.mem_cons_self) hfirst
    · rename_i rest hslash
      rw [pathPieces, hslash] at hpieces
      exact absurd (hpieces ▸ List.mem_cons_self) hfirst
    · rw [hpieces]
  rw [hpath, resolveFrom_of_plain files hplain]
  simp [hne]

/-! ## The directory -/

theorem directoryPart_concat {directory : List String} {name : String} (hne : directory ≠ [])
    (hplain : ∀ outer ∈ directory, IsPlain outer) (hname : IsPlain name) :
    directoryPart (pathOfNames (directory ++ [name])) = pathOfNames directory := by
  obtain ⟨above, last, rfl⟩ : ∃ above last, directory = above ++ [last] :=
    ⟨directory.dropLast, directory.getLast hne, (List.dropLast_concat_getLast hne).symm⟩
  have hlast : IsPlain last := hplain last (by simp)
  have hjoined : pathOfNames (above ++ [last] ++ [name]) =
      String.ofList ((pathOfNames (above ++ [last])).toList ++ '/' :: name.toList) := by
    rw [pathOfNames, String.intercalate_append_of_ne_nil hne (List.cons_ne_nil name [])]
    simp [← String.toList_inj, pathOfNames]
  have hend : ∃ rest, (pathOfNames (above ++ [last])).toList.reverse =
      last.toList.reverse ++ rest := by
    by_cases habove : above = []
    · exact ⟨[], by simp [habove, pathOfNames]⟩
    · refine ⟨((pathOfNames above).toList ++ ['/']).reverse, ?_⟩
      rw [pathOfNames, String.intercalate_append_of_ne_nil habove (List.cons_ne_nil last [])]
      simp [pathOfNames]
  obtain ⟨rest, hrest⟩ := hend
  have hstays : staysPut (String.ofList name.toList) = false := by
    rw [String.ofList_toList]
    exact hname.isName.staysPut
  have hstaysLast : staysPut (String.ofList last.toList) = false := by
    rw [String.ofList_toList]
    exact hlast.isName.staysPut
  have htail : dropTail (pathOfNames (above ++ [last])).toList.reverse =
      (pathOfNames (above ++ [last])).toList.reverse := by
    rw [hrest, dropTail_append_name hstaysLast hlast.slash]
  have hnonempty : (pathOfNames (above ++ [last])).toList.reverse.isEmpty = false := by
    rw [hrest]
    simp [hlast.ne_empty]
  rw [hjoined, directoryPart_of_append hstays hname.slash, htail, hnonempty]
  simp

theorem filter_directoryPart_of_plain (files : FileMap) {directory : List String} {name : String}
    (hplain : ∀ outer ∈ directory ++ [name], IsPlain outer) :
    (files.resolve (directoryPart (pathOfNames (directory ++ [name])))).filter files.isDirectory =
      if files.isDirectory directory = true then some directory else none := by
  have hname : IsPlain name := hplain name (by simp)
  have hdirectory : ∀ outer ∈ directory, IsPlain outer :=
    fun outer houter ↦ hplain outer (List.mem_append_left _ houter)
  by_cases hne : directory = []
  · subst hne
    have hpart : directoryPart (pathOfNames ([] ++ [name])) = "." := by
      have hstays : staysPut (String.ofList name.toList) = false := by
        rw [String.ofList_toList]
        exact hname.isName.staysPut
      simpa [pathOfNames] using directoryPart_of_name hstays hname.slash
    have hhere : files.resolve "." = some [] := rfl
    rw [hpart, hhere]
    rfl
  · rw [directoryPart_concat hne hdirectory hname, resolve_of_plain files hne hdirectory]
    cases hexists : files.isDirectory directory with
    | false =>
      split <;> simp [hexists]
    | true =>
      have houter := isDirectory_of_prefix (List.dropLast_prefix directory) hexists
      simp [houter, hexists]

/-! ## Entries -/

theorem lookup_eq_find? (entries : List (String × ByteArray)) (key : String) :
    entries.lookup key = (entries.find? fun entry ↦ entry.1 = key).map Prod.snd := by
  induction entries with
  | nil => rfl
  | cons entry others ih =>
    rw [List.lookup_cons, List.find?_cons, ih]
    by_cases hkey : entry.1 = key
    · simp [hkey]
    · simp [hkey, beq_false_of_ne (Ne.symm hkey)]

theorem lookup_eq_none_iff_not_mem_keys {key : String} :
    files.entries.lookup key = none ↔ key ∉ files.keys := by
  rw [List.lookup_eq_none_iff, keys, List.mem_map]
  constructor
  · rintro h ⟨entry, hentry, rfl⟩
    simpa using h entry hentry
  · intro h entry hentry
    simpa using fun heq ↦ h ⟨entry, hentry, heq.symm⟩

theorem mem_filePaths_of_lookup (hplain : ∀ name ∈ names, IsPlain name) {bytes : ByteArray}
    (h : files.entries.lookup (pathOfNames names) = some bytes) : names ∈ files.filePaths := by
  have hkey : pathOfNames names ∈ files.keys := by
    by_contra hnone
    rw [lookup_eq_none_iff_not_mem_keys.mpr hnone] at h
    simp at h
  rw [filePaths_eq_map_keys, ← pathNames_pathOfNames fun name hname ↦ (hplain name hname).isName]
  exact List.mem_map_of_mem hkey

theorem isDirectory_dropLast (hne : names ≠ []) (h : names ∈ files.filePaths) :
    files.isDirectory names.dropLast = true := by
  refine isDirectory_iff.mpr (Or.inr ⟨names, h, List.dropLast_prefix names, ?_⟩)
  rw [List.length_dropLast]
  exact Nat.sub_lt (List.length_pos_iff.mpr hne) Nat.one_pos

/-- A plain path finds the entry under the path itself. -/
theorem find?_of_plain (files : FileMap) (hne : names ≠ [])
    (hplain : ∀ name ∈ names, IsPlain name) :
    files.find? (pathOfNames names) = files.entries.lookup (pathOfNames names) := by
  rw [find?, resolve_of_plain files hne hplain, lookup_eq_find?]
  split
  · rfl
  · rename_i hmissing
    cases hlookup : files.entries.lookup (pathOfNames names) with
    | none => rw [← lookup_eq_find?, hlookup]; rfl
    | some bytes =>
      exact absurd (isDirectory_dropLast hne (mem_filePaths_of_lookup hplain hlookup)) hmissing

/-- `after` is `before` with these bytes under `key`, and with no other entry new, gone or
changed. -/
structure Puts (before : FileMap) (key : String) (contents : ByteArray) (after : FileMap) :
    Prop where
  keys : after.keys = if key ∈ before.keys then before.keys else before.keys ++ [key]
  lookup : ∀ other, after.entries.lookup other =
    if other = key then some contents else before.entries.lookup other

theorem lookup_map_rewriteEntry (entries : List (String × ByteArray)) (key : String)
    (contents : ByteArray) (other : String) :
    (entries.map (rewriteEntry key contents)).lookup other =
      (entries.lookup other).map fun bytes ↦ if other = key then contents else bytes := by
  rw [lookup_eq_find?, lookup_eq_find?, find?_map_rewriteEntry]
  cases hentry : entries.find? fun entry ↦ entry.1 = other with
  | none => rfl
  | some entry =>
    have hother : entry.1 = other := by simpa using List.find?_some hentry
    simp only [Option.map_some, rewriteEntry, hother]
    split <;> rfl

theorem puts_insert (files : FileMap) (key : String) (contents : ByteArray) :
    files.Puts key contents (files.insert key contents) := by
  by_cases hkey : key ∈ files.keys
  · have hrewrites := rewrites_insert hkey contents
    refine ⟨by rw [hrewrites.keys_eq, if_pos hkey], fun other ↦ ?_⟩
    rw [hrewrites.entries, lookup_map_rewriteEntry]
    by_cases hother : other = key
    · obtain ⟨bytes, hbytes⟩ := Option.ne_none_iff_exists'.mp
        (mt lookup_eq_none_iff_not_mem_keys.mp (not_not_intro hkey))
      simp [hother, hbytes]
    · simp [hother]
  · rw [insert_of_not_mem hkey]
    refine ⟨by rw [if_neg hkey]; simp [FileMap.keys], fun other ↦ ?_⟩
    rw [List.lookup_append, List.lookup_cons]
    by_cases hother : other = key
    · simp [hother, lookup_eq_none_iff_not_mem_keys.mpr hkey]
    · simp [hother, beq_false_of_ne hother]

/-! ## Replacing -/

/-- What comes of a replacement at the plain path that joins `names`. -/
structure ReplacedAt (names : List String) (contents : String) (before : FileMap)
    (result : Except FileError Unit) (after : FileMap) : Prop where
  /-- There is a directory in the place of the file, or none for it. -/
  fails_iff : (∃ cause, result = .error cause) ↔
    before.isDirectory names = true ∨ before.isDirectory names.dropLast = false
  puts : result = .ok () → before.Puts (pathOfNames names) contents.toUTF8 after
  unchanged : result ≠ .ok () → after = before

theorem replaceBy_of_plain (naming : Naming) (files : FileMap) (hne : names ≠ [])
    (hplain : ∀ name ∈ names, IsPlain name) (contents : String) :
    files.replaceBy naming (pathOfNames names) contents =
      if files.isDirectory names.dropLast = true then
        if files.isDirectory names = true then
          (.error (.notReplaced (pathOfNames names) (moveError (pathOfNames names))), files)
        else (.ok (), files.insert (pathOfNames names) contents.toUTF8)
      else (.error (.noDirectory (directoryPart (pathOfNames names))), files) := by
  have hconcat : names = names.dropLast ++ [names.getLast hne] :=
    (List.dropLast_concat_getLast hne).symm
  have hdirectory := filter_directoryPart_of_plain files (hconcat ▸ hplain)
  rw [← hconcat] at hdirectory
  rw [replaceBy_eq, hdirectory, resolve_of_plain files hne hplain]
  cases files.isDirectory names.dropLast with
  | false => rfl
  | true => cases hplace : files.isDirectory names <;> simp [Option.filter_some, hplace]

theorem replacedAt (naming : Naming) (files : FileMap) (hne : names ≠ [])
    (hplain : ∀ name ∈ names, IsPlain name) (contents : String) :
    ReplacedAt names contents files (files.replaceBy naming (pathOfNames names) contents).1
      (files.replaceBy naming (pathOfNames names) contents).2 := by
  rw [replaceBy_of_plain naming files hne hplain]
  cases hdirectory : files.isDirectory names.dropLast with
  | false => exact ⟨by simp [hdirectory], by simp, fun _ ↦ rfl⟩
  | true =>
    cases hplace : files.isDirectory names with
    | true => exact ⟨by simp [hdirectory, hplace], by simp, fun _ ↦ rfl⟩
    | false => exact ⟨by simp [hdirectory, hplace], fun _ ↦ puts_insert _ _ _, by simp⟩

/-! ## Applying -/

/-- What comes of an application at the plain path that joins `names`. -/
structure AppliedAt (names : List String) (expected : String) (insertion : Insertion)
    (before : FileMap) (result : Except FileError Unit) (after : FileMap) : Prop where
  /-- The file held what was expected. -/
  held : result = .ok () → before.entries.lookup (pathOfNames names) = some expected.toUTF8
  puts : result = .ok () → before.Puts (pathOfNames names) insertion.text.toUTF8 after
  unchanged : result ≠ .ok () → after = before
  changed : ∀ bytes, before.entries.lookup (pathOfNames names) = some bytes →
    bytes.IsValidUTF8 → bytes ≠ expected.toUTF8 → result = .error (.changed (pathOfNames names))
  undecodable : ∀ bytes, before.entries.lookup (pathOfNames names) = some bytes →
    ¬ bytes.IsValidUTF8 → result = .error (.unreadableAgain (pathOfNames names))
  missing : before.entries.lookup (pathOfNames names) = none →
    result = .error (.unreadableAgain (pathOfNames names))
  directory : before.Proper → before.isDirectory names = true →
    result = .error (.unreadableAgain (pathOfNames names))
  applied : before.Proper →
    before.entries.lookup (pathOfNames names) = some expected.toUTF8 → result = .ok ()

theorem readText?_of_plain (files : FileMap) (hne : names ≠ [])
    (hplain : ∀ name ∈ names, IsPlain name) :
    files.readText? (pathOfNames names) =
      (files.entries.lookup (pathOfNames names)).bind String.fromUTF8? := by
  rw [readText?, find?_of_plain files hne hplain]

section Refused

variable {naming : Naming} {path expected : String} {insertion : Insertion}

theorem applyBy_of_unreadable (h : files.readText? path = none) :
    files.applyBy naming path expected insertion = (.error (.unreadableAgain path), files) := by
  rw [applyBy, h]

theorem applyBy_of_changed {current : String} (h : files.readText? path = some current)
    (hne : current ≠ expected) :
    files.applyBy naming path expected insertion = (.error (.changed path), files) := by
  rw [applyBy, h]
  exact if_neg hne

theorem applyBy_of_expected (h : files.readText? path = some expected) :
    files.applyBy naming path expected insertion = files.replaceBy naming path insertion.text := by
  rw [applyBy, h]
  exact if_pos rfl

theorem appliedAt_of_missing (h : files.entries.lookup (pathOfNames names) = none) :
    AppliedAt names expected insertion files
      (.error (.unreadableAgain (pathOfNames names))) files where
  held := by simp
  puts := by simp
  unchanged _ := rfl
  changed := by simp [h]
  undecodable _ _ _ := rfl
  missing _ := rfl
  directory _ _ := rfl
  applied := by simp [h]

variable {bytes : ByteArray} (h : files.entries.lookup (pathOfNames names) = some bytes)
include h

theorem appliedAt_of_undecodable (hinvalid : ¬ bytes.IsValidUTF8) :
    AppliedAt names expected insertion files
      (.error (.unreadableAgain (pathOfNames names))) files where
  held := by simp
  puts := by simp
  unchanged _ := rfl
  changed other hother hvalid := absurd (Option.some.inj (h.symm.trans hother) ▸ hvalid) hinvalid
  undecodable _ _ _ := rfl
  missing _ := rfl
  directory _ _ := rfl
  applied _ hexpected := by
    obtain rfl := Option.some.inj (h.symm.trans hexpected)
    exact absurd expected.isValidUTF8 hinvalid

theorem appliedAt_of_changed (hplain : ∀ name ∈ names, IsPlain name)
    (hvalid : bytes.IsValidUTF8) (hne : bytes ≠ expected.toUTF8) :
    AppliedAt names expected insertion files (.error (.changed (pathOfNames names))) files where
  held := by simp
  puts := by simp
  unchanged _ := rfl
  changed _ _ _ _ := rfl
  undecodable other hother hinvalid :=
    absurd hvalid (Option.some.inj (h.symm.trans hother) ▸ hinvalid)
  missing hmissing := by simp [h] at hmissing
  directory hproper hdirectory := by
    simp [hproper names (mem_filePaths_of_lookup hplain h)] at hdirectory
  applied _ hexpected := absurd (Option.some.inj (h.symm.trans hexpected)) hne

omit h in
/-- The check is passed, and the file is replaced. -/
theorem appliedAt_of_expected (hne : names ≠ []) (hplain : ∀ name ∈ names, IsPlain name)
    (h : files.entries.lookup (pathOfNames names) = some expected.toUTF8) :
    AppliedAt names expected insertion files
      (files.replaceBy naming (pathOfNames names) insertion.text).1
      (files.replaceBy naming (pathOfNames names) insertion.text).2 := by
  have hpath := mem_filePaths_of_lookup hplain h
  have hreplaced := replacedAt naming files hne hplain insertion.text
  refine ⟨fun _ ↦ h, hreplaced.puts, hreplaced.unchanged, fun bytes hbytes _ hother ↦ ?_,
    fun bytes hbytes hinvalid ↦ ?_, by simp [h], fun hproper hdirectory ↦ ?_, fun hproper _ ↦ ?_⟩
  · exact absurd (Option.some.inj (h.symm.trans hbytes)).symm hother
  · obtain rfl := Option.some.inj (h.symm.trans hbytes)
    exact absurd expected.isValidUTF8 hinvalid
  · simp [hproper names hpath] at hdirectory
  · cases hresult : (files.replaceBy naming (pathOfNames names) insertion.text).1 with
    | ok value => rfl
    | error cause =>
      rcases hreplaced.fails_iff.mp ⟨cause, hresult⟩ with hdirectory | hmissing
      · simp [hproper names hpath] at hdirectory
      · simp [isDirectory_dropLast hne hpath] at hmissing

end Refused

theorem appliedAt (naming : Naming) (files : FileMap) (hne : names ≠ [])
    (hplain : ∀ name ∈ names, IsPlain name) (expected : String) (insertion : Insertion) :
    AppliedAt names expected insertion files
      (files.applyBy naming (pathOfNames names) expected insertion).1
      (files.applyBy naming (pathOfNames names) expected insertion).2 := by
  have hread := readText?_of_plain files hne hplain
  cases hlookup : files.entries.lookup (pathOfNames names) with
  | none =>
    rw [hlookup, Option.bind_none] at hread
    rw [applyBy_of_unreadable hread]
    exact appliedAt_of_missing hlookup
  | some bytes =>
    rw [hlookup, Option.bind_some] at hread
    by_cases hvalid : bytes.IsValidUTF8
    · obtain ⟨current, hcurrent⟩ := Text.exists_fromUTF8? hvalid
      obtain rfl := Text.toUTF8_of_fromUTF8? hcurrent
      rw [hcurrent] at hread
      by_cases hexpected : current = expected
      · subst hexpected
        rw [applyBy_of_expected hread]
        exact appliedAt_of_expected hne hplain hlookup
      · rw [applyBy_of_changed hread hexpected]
        exact appliedAt_of_changed hlookup hplain hvalid (mt String.toByteArray_inj.mp hexpected)
    · rw [Text.fromUTF8?_eq_none hvalid] at hread
      rw [applyBy_of_unreadable hread]
      exact appliedAt_of_undecodable hlookup hvalid

/-- Whatever is at a plain path, and however temporary files are called, a replacement and an
application there either change the entry under that path and no other, or change nothing. -/
theorem replace_and_apply_at_plain_path (naming : Naming) (files : FileMap) {names : List String}
    (hne : names ≠ []) (hplain : ∀ name ∈ names, IsPlain name) (contents expected : String)
    (insertion : Insertion) :
    ReplacedAt names contents files (files.replaceBy naming (pathOfNames names) contents).1
      (files.replaceBy naming (pathOfNames names) contents).2 ∧
    AppliedAt names expected insertion files
      (files.applyBy naming (pathOfNames names) expected insertion).1
      (files.applyBy naming (pathOfNames names) expected insertion).2 :=
  ⟨replacedAt naming files hne hplain contents,
    appliedAt naming files hne hplain expected insertion⟩

/-- A source file next to one that is no text: what can be applied and replaced there, and what
not. -/
theorem replace_and_apply_at_plain_path_of_two_files :
    let files : FileMap := ⟨[("src/lib.rs", "struct S;".toUTF8), ("src/raw", ⟨#[0xff]⟩)]⟩
    let insertion : Insertion := ⟨"struct S;\n\nimpl S {}", ⟨3, 9⟩⟩
    (files.apply "src/lib.rs" "struct S;" insertion).1 = .ok () ∧
    (files.apply "src/lib.rs" "struct S; " insertion).1 = .error (.changed "src/lib.rs") ∧
    (files.apply "src/lib.rs" "struct S; " insertion).2 = files ∧
    (files.apply "src/raw" "struct S;" insertion).1 = .error (.unreadableAgain "src/raw") ∧
    (files.apply "src" "struct S;" insertion).1 = .error (.unreadableAgain "src") ∧
    (∃ cause, (files.replace "src" "").1 = .error cause) ∧
    (∃ cause, (files.replace "doc/lib.rs" "").1 = .error cause) ∧
    (files.replace "doc/lib.rs" "").2 = files := by
  intro files insertion
  have hproper : files.Proper := by decide +kernel
  have hat (names : List String) (hne : names ≠ []) (hplain : ∀ name ∈ names, IsPlain name)
      (expected : String) :=
    replace_and_apply_at_plain_path .longest files hne hplain "" expected insertion
  have hread := (hat ["src", "lib.rs"] (by decide) (by decide) "struct S;").2
  have hstale := (hat ["src", "lib.rs"] (by decide) (by decide) "struct S; ").2
  have hraw := (hat ["src", "raw"] (by decide) (by decide) "struct S;").2
  obtain ⟨hover, hinside⟩ := hat ["src"] (by decide) (by decide) "struct S;"
  have hmissing := (hat ["doc", "lib.rs"] (by decide) (by decide) "").1
  have hchanged := hstale.changed "struct S;".toUTF8 (by decide +kernel) (by decide +kernel)
    (by decide +kernel)
  obtain ⟨cause, hcause⟩ := hmissing.fails_iff.mpr (Or.inr (by decide +kernel))
  refine ⟨hread.applied hproper (by decide +kernel), hchanged, hstale.unchanged ?_,
    hraw.undecodable ⟨#[0xff]⟩ (by decide +kernel) (by decide +kernel),
    hinside.directory hproper (by decide +kernel), hover.fails_iff.mpr (Or.inl (by decide +kernel)),
    ⟨cause, hcause⟩, hmissing.unchanged ?_⟩
  · rw [hchanged]
    simp
  · rw [hcause]
    simp

end Memberwise.FileMap
