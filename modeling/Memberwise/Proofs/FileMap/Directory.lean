import Memberwise.Proofs.FileMap.Replacement

/-!
# The directory of a file

A temporary file goes where the path says without its last name. If the path leads to a file, it is
cut before the name of the file, and what remains leads to the directory that the file lies in:
slashes at its end, and names there that stand for the directory itself, may be left out.

The main statement: in a file map in which no file is a directory, every file that can be read can
be replaced. So an insertion is applied exactly if the file still holds what was expected.
-/

namespace Memberwise.FileMap

variable {files : FileMap}

/-! ## Part of a path -/

theorem resolveFrom_append (files : FileMap) (directory front back : List String) :
    files.resolveFrom directory (front ++ back) =
      (files.resolveFrom directory front).bind fun between ↦ files.resolveFrom between back := by
  induction front generalizing directory with
  | nil => rfl
  | cons piece others ih =>
    simp only [List.cons_append, resolveFrom, ih]
    split
    · rfl
    split
    · rfl
    split
    · split <;> rfl
    · rfl

theorem resolveFrom_of_staysPut {directory names : List String} {piece : String}
    (hpiece : staysPut piece = true) (h : files.resolveFrom directory [piece] = some names) :
    names = directory ∧ files.isDirectory directory = true := by
  cases hdirectory : files.isDirectory directory with
  | false => simp [resolveFrom, hdirectory] at h
  | true =>
    have hnames : directory = names := by simpa [resolveFrom, hdirectory, hpiece] using h
    exact ⟨hnames.symm, rfl⟩

/-- The last step to a file goes from a directory, by a name. -/
theorem resolveFrom_to_file {directory names : List String} {piece : String}
    (h : files.resolveFrom directory [piece] = some names)
    (hfile : files.isDirectory names = false) :
    files.isDirectory directory = true ∧ staysPut piece = false := by
  cases hpiece : staysPut piece with
  | true =>
    obtain ⟨rfl, hdirectory⟩ := resolveFrom_of_staysPut hpiece h
    simp [hdirectory] at hfile
  | false =>
    cases hdirectory : files.isDirectory directory with
    | false => simp [resolveFrom, hdirectory] at h
    | true => exact ⟨rfl, rfl⟩

theorem pathPieces_append_slash (front back : List Char) :
    pathPieces (String.ofList (front ++ '/' :: back)) =
      pathPieces (String.ofList front) ++ pathPieces (String.ofList back) := by
  simp only [pathPieces, String.toList_ofList, Text.splitAtEach_eq_splitOnP]
  rw [List.splitOnP_append_cons front back (by rfl), List.map_append]

theorem pathPieces_of_no_slash {piece : List Char} (h : '/' ∉ piece) :
    pathPieces (String.ofList piece) = [String.ofList piece] := by
  have hnone : ∀ c ∈ piece, (c == '/') = false := by
    intro c hc
    exact beq_eq_false_iff_ne.mpr fun heq ↦ h (heq ▸ hc)
  rw [pathPieces, String.toList_ofList, Text.splitAtEach_eq_splitOnP,
    List.splitOnP_eq_singleton hnone]
  rfl

theorem resolve_append_slash (files : FileMap) (front back : List Char) :
    files.resolve (String.ofList (front ++ '/' :: back)) =
      (files.resolve (String.ofList front)).bind fun directory ↦
        files.resolveFrom directory (pathPieces (String.ofList back)) := by
  rcases front with _ | ⟨c, rest⟩
  · simp [resolve]
  · by_cases hc : c = '/'
    · subst hc
      simp [resolve]
    · have hfront : files.resolve (String.ofList (c :: rest)) =
          files.resolveFrom [] (pathPieces (String.ofList (c :: rest))) := by
        simp [resolve, hc]
      have hwhole : files.resolve (String.ofList ((c :: rest) ++ '/' :: back)) =
          files.resolveFrom [] (pathPieces (String.ofList ((c :: rest) ++ '/' :: back))) := by
        simp [resolve, hc]
      rw [hwhole, hfront, pathPieces_append_slash, resolveFrom_append]

/-! ## What precedes the last name -/

/-- A path without its tail leads where the path leads. -/
theorem resolve_dropTail (path : List Char) {directory : List String}
    (h : files.resolve (String.ofList path.reverse) = some directory) :
    files.resolve (String.ofList (dropTail path).reverse) = some directory := by
  have hcut : ∀ front back : List Char, staysPut (String.ofList back) = true → '/' ∉ back →
      files.resolve (String.ofList (front ++ '/' :: back)) = some directory →
        files.resolve (String.ofList front) = some directory := by
    intro front back hstays hslash hwhole
    rw [resolve_append_slash, pathPieces_of_no_slash hslash] at hwhole
    obtain ⟨between, hfront, hlast⟩ := Option.bind_eq_some_iff.mp hwhole
    exact (resolveFrom_of_staysPut hstays hlast).1 ▸ hfront
  fun_induction dropTail path with
  | case1 earlier ih =>
    exact ih (hcut earlier.reverse [] rfl (by simp) (by simpa using h))
  | case2 earlier ih =>
    exact ih (hcut earlier.reverse ['.'] rfl (by simp) (by simpa using h))
  | case3 => exact h

/-- A name at the end of a path is no tail. -/
theorem dropTail_append_name {name : List Char} (hname : staysPut (String.ofList name) = false)
    (hslash : '/' ∉ name) (rest : List Char) :
    dropTail (name.reverse ++ rest) = name.reverse ++ rest := by
  have hne : name ≠ [] := by
    rintro rfl
    simp [staysPut] at hname
  have hdot : name ≠ ['.'] := by
    rintro rfl
    simp [staysPut] at hname
  have hbackward : '/' ∉ name.reverse := mt List.mem_reverse.mp hslash
  obtain ⟨c, before, hreverse⟩ := List.exists_cons_of_ne_nil (mt List.reverse_eq_nil_iff.mp hne)
  rw [hreverse, List.mem_cons, not_or] at hbackward
  rw [hreverse, List.cons_append, dropTail]
  · intro earlier heq
    exact hbackward.1 (List.cons.inj heq).1.symm
  · intro earlier heq
    obtain ⟨rfl, hrest⟩ := List.cons.inj heq
    cases before with
    | nil => exact hdot (by simpa using congrArg List.reverse hreverse)
    | cons d others => exact hbackward.2 ((List.cons.inj hrest).1 ▸ List.mem_cons_self)

theorem dropWhile_name_append {name : List Char} (hslash : '/' ∉ name) (rest : List Char) :
    (name.reverse ++ rest).dropWhile (· ≠ '/') = rest.dropWhile (· ≠ '/') := by
  apply List.dropWhile_append_of_pos
  intro c hc
  have hne : c ≠ '/' := fun heq ↦ hslash (heq ▸ List.mem_reverse.mp hc)
  simpa using hne

theorem directoryPart_of_name {name : List Char} (hname : staysPut (String.ofList name) = false)
    (hslash : '/' ∉ name) : directoryPart (String.ofList name) = "." := by
  have htail := dropTail_append_name hname hslash []
  have hrest := dropWhile_name_append hslash []
  rw [List.append_nil] at htail hrest
  simp only [directoryPart, String.toList_ofList, htail, hrest]
  rfl

theorem directoryPart_of_append {front name : List Char}
    (hname : staysPut (String.ofList name) = false) (hslash : '/' ∉ name) :
    directoryPart (String.ofList (front ++ '/' :: name)) =
      if (dropTail front.reverse).isEmpty then "/"
      else String.ofList (dropTail front.reverse).reverse := by
  have hbackward : (front ++ '/' :: name).reverse = name.reverse ++ '/' :: front.reverse := by
    simp
  have hrest := dropWhile_name_append hslash ('/' :: front.reverse)
  rw [List.dropWhile_cons_of_neg (by simp)] at hrest
  simp only [directoryPart, String.toList_ofList, hbackward, dropTail_append_name hname hslash,
    hrest, dropTail]
  simp

theorem exists_last_slash {path : List Char} (h : '/' ∈ path) :
    ∃ front name, path = front ++ '/' :: name ∧ '/' ∉ name := by
  obtain ⟨back, rest, hpath, hback⟩ := List.eq_append_cons_of_mem (List.mem_reverse.mpr h)
  refine ⟨rest.reverse, back.reverse, ?_, mt List.mem_reverse.mp hback⟩
  simpa using congrArg List.reverse hpath

theorem filter_directoryPart_of_append {front name : List Char} {names : List String}
    (hslash : '/' ∉ name)
    (h : files.resolve (String.ofList (front ++ '/' :: name)) = some names)
    (hfile : files.isDirectory names = false) :
    ∃ directory, (files.resolve (directoryPart (String.ofList (front ++ '/' :: name)))).filter
      files.isDirectory = some directory := by
  rw [resolve_append_slash, pathPieces_of_no_slash hslash] at h
  obtain ⟨directory, hfront, hlast⟩ := Option.bind_eq_some_iff.mp h
  obtain ⟨hdirectory, hstays⟩ := resolveFrom_to_file hlast hfile
  have htail := resolve_dropTail front.reverse (by rwa [List.reverse_reverse])
  have hne : (dropTail front.reverse).isEmpty = false := by
    cases htext : dropTail front.reverse with
    | nil => simp [htext, resolve] at htail
    | cons c rest => rfl
  refine ⟨directory, Option.filter_eq_some_iff.mpr ⟨?_, hdirectory⟩⟩
  rw [directoryPart_of_append hstays hslash, hne]
  exact htail

theorem filter_directoryPart_of_name {name : List Char} {names : List String}
    (hslash : '/' ∉ name) (h : files.resolve (String.ofList name) = some names)
    (hfile : files.isDirectory names = false) :
    ∃ directory, (files.resolve (directoryPart (String.ofList name))).filter files.isDirectory =
      some directory := by
  have hlast : files.resolveFrom [] [String.ofList name] = some names := by
    rw [resolve] at h
    split at h
    · simp at h
    · simp at h
    · rwa [pathPieces_of_no_slash hslash] at h
  obtain ⟨hdirectory, hstays⟩ := resolveFrom_to_file hlast hfile
  refine ⟨[], Option.filter_eq_some_iff.mpr ⟨?_, hdirectory⟩⟩
  rw [directoryPart_of_name hstays hslash]
  rfl

/-- The directory in the path of a file exists. -/
theorem filter_directoryPart {path : String} {names : List String}
    (h : files.resolve path = some names) (hfile : files.isDirectory names = false) :
    ∃ directory, (files.resolve (directoryPart path)).filter files.isDirectory =
      some directory := by
  rw [← String.ofList_toList (s := path)] at h ⊢
  by_cases hslash : '/' ∈ path.toList
  · obtain ⟨front, name, hpath, hname⟩ := exists_last_slash hslash
    rw [hpath] at h ⊢
    exact filter_directoryPart_of_append hname h hfile
  · exact filter_directoryPart_of_name hslash h hfile

/-! ## Files that can be replaced -/

/-- No file is a directory as well, as it is on every disk. -/
def Proper (files : FileMap) : Prop := ∀ path ∈ files.filePaths, files.isDirectory path = false

instance (files : FileMap) : Decidable files.Proper :=
  inferInstanceAs (Decidable (∀ path ∈ files.filePaths, files.isDirectory path = false))

theorem Rewrites.proper {before after : FileMap} {key : String} {contents : ByteArray}
    (h : before.Rewrites key contents after) (hproper : before.Proper) : after.Proper := by
  intro path hpath
  rw [h.isDirectory_eq]
  exact hproper path (h.filePaths_eq ▸ hpath)

theorem isDirectory_of_readText? {path text : String} {names : List String}
    (hproper : files.Proper) (hread : files.readText? path = some text)
    (hresolve : files.resolve path = some names) : files.isDirectory names = false := by
  have hkey := mem_keys_of_readText? hread hresolve
  apply hproper
  rw [filePaths_eq_map_keys, ← pathNames_pathOfNames (isName_of_resolve hresolve)]
  exact List.mem_map_of_mem hkey

/-- A file that can be read can be replaced. -/
theorem replaceBy_of_readText? (naming : Naming) {path text : String} (hproper : files.Proper)
    (hread : files.readText? path = some text) (contents : String) :
    ∃ names, files.resolve path = some names ∧
      files.replaceBy naming path contents =
        (.ok (), files.insert (pathOfNames names) contents.toUTF8) := by
  obtain ⟨bytes, hfind, -⟩ := Option.bind_eq_some_iff.mp hread
  obtain ⟨names, hresolve, -⟩ := Option.bind_eq_some_iff.mp hfind
  have hfile := isDirectory_of_readText? hproper hread hresolve
  obtain ⟨directory, hdirectory⟩ := filter_directoryPart hresolve hfile
  refine ⟨names, hresolve, ?_⟩
  rw [replaceBy_eq, hdirectory, hresolve, Option.filter_some, if_pos (by simp [hfile])]

/-- What `applyBy` comes to. Only a file that holds other text, or none, is refused. -/
inductive Application (path expected : String) (insertion : Insertion) (before : FileMap) :
    Except FileError Unit → FileMap → Prop where
  | written {after : FileMap} {names : List String}
      (hread : before.readText? path = some expected)
      (hresolve : before.resolve path = some names)
      (hafter : before.Rewrites (pathOfNames names) insertion.text.toUTF8 after) :
      Application path expected insertion before (.ok ()) after
  | changed {current : String} (hread : before.readText? path = some current)
      (hne : current ≠ expected) :
      Application path expected insertion before (.error (.changed path)) before
  | unreadable (hread : before.readText? path = none) :
      Application path expected insertion before (.error (.unreadableAgain path)) before

/-- An insertion is applied exactly if the file still holds what was expected. -/
theorem Proper.application {files : FileMap} (hproper : files.Proper) (naming : Naming)
    (path expected : String) (insertion : Insertion) :
    Application path expected insertion files (files.applyBy naming path expected insertion).1
      (files.applyBy naming path expected insertion).2 := by
  rw [applyBy]
  cases hread : files.readText? path with
  | none => exact .unreadable hread
  | some current =>
    by_cases hexpected : current = expected
    · subst hexpected
      obtain ⟨names, hresolve, hreplace⟩ :=
        replaceBy_of_readText? naming hproper hread insertion.text
      simp only [if_true, hreplace]
      exact .written hread hresolve (rewrites_insert (mem_keys_of_readText? hread hresolve) _)
    · simp only [if_neg hexpected]
      exact .changed hread hexpected

theorem Application.proper {path expected : String} {insertion : Insertion}
    {before after : FileMap} {result : Except FileError Unit}
    (h : Application path expected insertion before result after) (hproper : before.Proper) :
    after.Proper := by
  cases h with
  | written hread hresolve hafter => exact hafter.proper hproper
  | changed hread hne => exact hproper
  | unreadable hread => exact hproper

end Memberwise.FileMap
