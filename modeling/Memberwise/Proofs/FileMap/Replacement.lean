import Memberwise.Proofs.FileMap.Path
import Memberwise.Proofs.Text.Encoding

/-!
# Replacing a file

A replacement creates a temporary file, writes it and moves it. The temporary file lies in a
directory that exists, under a name that no file has, so while it is there every path leads where it
led before; and afterwards it is gone, whether the replacement succeeded or not.

The main statements: a failed replacement leaves the files as they were, and a successful one
changes the bytes of one file, at the place that the path leads to.
-/

namespace Memberwise.FileMap

theorem any_entries_iff_mem_keys {files : FileMap} {key : String} :
    (files.entries.any fun entry ↦ entry.1 = key) = true ↔ key ∈ files.keys := by
  simp [keys]

theorem ne_of_not_mem_keys {files : FileMap} {key : String} (h : key ∉ files.keys)
    {entry : String × ByteArray} (hentry : entry ∈ files.entries) : entry.1 ≠ key :=
  fun heq ↦ h (List.mem_map.mpr ⟨entry, hentry, heq⟩)

theorem filePaths_eq_map_keys (files : FileMap) : files.filePaths = files.keys.map pathNames := by
  rw [filePaths, keys, List.map_map]
  rfl

/-- An entry, its bytes replaced if its path is `key`. -/
def rewriteEntry (key : String) (contents : ByteArray) (entry : String × ByteArray) :
    String × ByteArray :=
  if entry.1 = key then (key, contents) else entry

@[simp] theorem rewriteEntry_fst (key : String) (contents : ByteArray)
    (entry : String × ByteArray) : (rewriteEntry key contents entry).1 = entry.1 := by
  rw [rewriteEntry]
  split
  · rename_i hkey
    exact hkey.symm
  · rfl

/-- Rewriting moves no entry, so what is found under a key is rewritten in its place. -/
theorem find?_map_rewriteEntry (entries : List (String × ByteArray)) (key : String)
    (contents : ByteArray) (other : String) :
    (entries.map (rewriteEntry key contents)).find? (fun entry ↦ entry.1 = other) =
      (entries.find? fun entry ↦ entry.1 = other).map (rewriteEntry key contents) := by
  have hsame : (fun entry : String × ByteArray ↦ decide (entry.1 = other)) ∘
      rewriteEntry key contents = fun entry ↦ decide (entry.1 = other) := by
    funext entry
    simp
  rw [List.find?_map, hsame]

theorem insert_of_mem {files : FileMap} {key : String} (h : key ∈ files.keys)
    (contents : ByteArray) :
    files.insert key contents = ⟨files.entries.map (rewriteEntry key contents)⟩ := by
  rw [insert, if_pos (any_entries_iff_mem_keys.mpr h)]
  rfl

theorem insert_of_not_mem {files : FileMap} {key : String} (h : key ∉ files.keys)
    (contents : ByteArray) :
    files.insert key contents = ⟨files.entries ++ [(key, contents)]⟩ := by
  rw [insert, if_neg (mt any_entries_iff_mem_keys.mp h)]

/-! ## A temporary file -/

theorem erase_insert {files : FileMap} {key : String} (h : key ∉ files.keys)
    (contents : ByteArray) : (files.insert key contents).erase key = files := by
  have hothers : files.entries.filter (fun entry ↦ entry.1 ≠ key) = files.entries := by
    apply List.filter_eq_self.mpr
    intro entry hentry
    simpa using ne_of_not_mem_keys h hentry
  rw [insert_of_not_mem h, erase, List.filter_append, hothers]
  simp

theorem insert_insert {files : FileMap} {key : String} (h : key ∉ files.keys)
    (first second : ByteArray) :
    (files.insert key first).insert key second = files.insert key second := by
  have hmem : key ∈ (files.insert key first).keys := by simp [insert_of_not_mem h, keys]
  have hothers : files.entries.map (rewriteEntry key second) = files.entries := by
    conv_rhs => rw [← List.map_id files.entries]
    apply List.map_congr_left
    intro entry hentry
    exact if_neg (ne_of_not_mem_keys h hentry)
  rw [insert_of_mem hmem, insert_of_not_mem h, insert_of_not_mem h, List.map_append, hothers]
  simp [rewriteEntry]

theorem move_insert {files : FileMap} {key : String} (h : key ∉ files.keys)
    (contents : ByteArray) (target : String) :
    (files.insert key contents).move key target = files.insert target contents := by
  have hnone : files.entries.find? (fun entry ↦ entry.1 = key) = none := by
    rw [List.find?_eq_none]
    intro entry hentry
    simpa using ne_of_not_mem_keys h hentry
  have hfound : (files.insert key contents).entries.find? (fun entry ↦ entry.1 = key) =
      some (key, contents) := by
    rw [insert_of_not_mem h, List.find?_append, hnone]
    simp
  rw [move, hfound, erase_insert h]

/-- A file in a directory opens no other directory. -/
theorem isDirectory_insert {files : FileMap} {names : List String} {name : String}
    (hdirectory : files.isDirectory names = true) (hnames : ∀ name ∈ names, IsName name)
    (hname : IsName name) (hfresh : pathOfNames (names ++ [name]) ∉ files.keys)
    (contents : ByteArray) :
    (files.insert (pathOfNames (names ++ [name])) contents).isDirectory = files.isDirectory := by
  have hall : ∀ other ∈ names ++ [name], IsName other := by
    intro other hother
    rcases List.mem_append.mp hother with hother | hother
    · exact hnames other hother
    · exact List.mem_singleton.mp hother ▸ hname
  have hpaths : (files.insert (pathOfNames (names ++ [name])) contents).filePaths =
      files.filePaths ++ [names ++ [name]] := by
    rw [insert_of_not_mem hfresh, filePaths, List.map_append, filePaths]
    simp [pathNames_pathOfNames hall]
  funext directory
  rw [Bool.eq_iff_iff, isDirectory_iff, hpaths]
  constructor
  · rintro (rfl | ⟨path, hpath, hfront, hlength⟩)
    · rfl
    · rcases List.mem_append.mp hpath with hpath | hpath
      · exact isDirectory_iff.mpr (Or.inr ⟨path, hpath, hfront, hlength⟩)
      · -- a directory above the new file is `names` or lies above it
        obtain rfl := List.mem_singleton.mp hpath
        have hle : directory.length ≤ names.length := by
          simpa [Nat.lt_succ_iff] using hlength
        have hwithin : directory <+: names :=
          List.prefix_of_prefix_length_le hfront (List.prefix_append names [name]) hle
        exact isDirectory_of_prefix hwithin hdirectory
  · intro h
    rcases isDirectory_iff.mp h with rfl | ⟨path, hpath, hfront, hlength⟩
    · exact Or.inl rfl
    · exact Or.inr ⟨path, List.mem_append_left _ hpath, hfront, hlength⟩

/-! ## Replacing and applying -/

namespace Temporary

variable {naming : Naming} {files : FileMap} {directory : String} {temporary : Temporary}

/-- The directory exists, nothing in it has the name of the new file, and the new file is empty. -/
structure IsNew (files : FileMap) (temporary : Temporary) : Prop where
  path_not_mem_keys : temporary.path ∉ files.keys
  files_eq : temporary.files = files.insert temporary.path ByteArray.empty
  isDirectory_insert : ∀ contents,
    (files.insert temporary.path contents).isDirectory = files.isDirectory

/-- A temporary file can be created exactly if there is a directory for it. -/
theorem create_cases (naming : Naming) (files : FileMap) (directory : String) :
    ((files.resolve directory).filter files.isDirectory = none ∧
      create naming files directory = .error (.noDirectory directory)) ∨
    (∃ names temporary, (files.resolve directory).filter files.isDirectory = some names ∧
      create naming files directory = .ok temporary ∧ IsNew files temporary) := by
  rw [create]
  cases hfilter : (files.resolve directory).filter files.isDirectory with
  | none => exact .inl ⟨rfl, rfl⟩
  | some names =>
    obtain ⟨hresolve, hdirectory⟩ := Option.filter_eq_some_iff.mp hfilter
    have hfree := naming.isFree files names
    exact .inr ⟨names, _, rfl, rfl, hfree, rfl, fun contents ↦
      isDirectory_insert hdirectory (isName_of_resolve hresolve) (naming.isName files names)
        hfree contents⟩

namespace IsNew

variable (h : IsNew files temporary) (contents : String)
include h

theorem files_write : (temporary.write contents).files =
    files.insert temporary.path contents.toUTF8 := by
  rw [write, h.files_eq, insert_insert h.path_not_mem_keys]

theorem discard_write : (temporary.write contents).discard = files := by
  rw [discard, h.files_write]
  exact erase_insert h.path_not_mem_keys _

/-- A temporary file that was written is moved where the path leads without it. -/
theorem persist_write (path : String) : (temporary.write contents).persist path =
    match (files.resolve path).filter fun target ↦ !files.isDirectory target with
    | none => .error (moveError path)
    | some target => .ok (files.insert (pathOfNames target) contents.toUTF8) := by
  have hsame := h.isDirectory_insert contents.toUTF8
  simp only [persist, h.files_write, hsame, resolve_congr hsame]
  cases (files.resolve path).filter fun target ↦ !files.isDirectory target with
  | none => rfl
  | some target => exact congrArg _ (move_insert h.path_not_mem_keys _ _)

end IsNew

end Temporary

/-- What a replacement comes to, however the temporary file is called. Nothing is left of it. -/
theorem replaceBy_eq (naming : Naming) (files : FileMap) (path contents : String) :
    files.replaceBy naming path contents =
      match (files.resolve (directoryPart path)).filter files.isDirectory with
      | none => (.error (.noDirectory (directoryPart path)), files)
      | some _ =>
        match (files.resolve path).filter fun target ↦ !files.isDirectory target with
        | none => (.error (.notReplaced path (moveError path)), files)
        | some target => (.ok (), files.insert (pathOfNames target) contents.toUTF8) := by
  rw [replaceBy]
  rcases Temporary.create_cases naming files (directoryPart path) with
    ⟨hfilter, hcreate⟩ | ⟨names, temporary, hfilter, hcreate, hnew⟩
  · rw [hfilter, hcreate]
  · simp only [hfilter, hcreate, hnew.persist_write, hnew.discard_write]
    cases (files.resolve path).filter fun target ↦ !files.isDirectory target <;> rfl

section Outcome

variable {naming : Naming} {files after : FileMap} {path : String}

theorem replaceBy_eq_error {contents : String} {cause : FileError}
    (h : files.replaceBy naming path contents = (.error cause, after)) : after = files := by
  rw [replaceBy_eq] at h
  split at h
  · exact (Prod.mk.inj h).2.symm
  · split at h
    · exact (Prod.mk.inj h).2.symm
    · simp at h

theorem replaceBy_eq_ok {contents : String}
    (h : files.replaceBy naming path contents = (.ok (), after)) :
    ∃ target, files.resolve path = some target ∧
      after = files.insert (pathOfNames target) contents.toUTF8 := by
  rw [replaceBy_eq] at h
  split at h
  · simp at h
  · split at h
    · simp at h
    · rename_i target hfilter
      exact ⟨target, (Option.filter_eq_some_iff.mp hfilter).1, (Prod.mk.inj h).2.symm⟩

end Outcome

/-! ## What changed -/

/-- `after` is `before` with other bytes in the file at `key`, a file that there was. -/
structure Rewrites (before : FileMap) (key : String) (contents : ByteArray) (after : FileMap) :
    Prop where
  mem_keys : key ∈ before.keys
  entries : after.entries = before.entries.map (rewriteEntry key contents)

namespace Rewrites

variable {before after : FileMap} {key : String} {contents : ByteArray}

theorem keys_eq (h : before.Rewrites key contents after) : after.keys = before.keys := by
  rw [keys, keys, h.entries, List.map_map]
  exact List.map_congr_left fun entry _ ↦ rewriteEntry_fst key contents entry

theorem filePaths_eq (h : before.Rewrites key contents after) :
    after.filePaths = before.filePaths := by
  rw [filePaths_eq_map_keys, h.keys_eq, filePaths_eq_map_keys]

theorem isDirectory_eq (h : before.Rewrites key contents after) :
    after.isDirectory = before.isDirectory := by
  funext names
  rw [isDirectory, isDirectory, h.filePaths_eq]

theorem resolve_eq (h : before.Rewrites key contents after) : after.resolve = before.resolve :=
  resolve_congr h.isDirectory_eq

/-- A path that leads to the rewritten file finds the new bytes, and any other finds what it found
before. -/
theorem find?_eq (h : before.Rewrites key contents after) (path : String) :
    after.find? path =
      if (before.resolve path).map pathOfNames = some key then some contents
      else before.find? path := by
  rw [find?, find?, h.resolve_eq, h.entries]
  cases before.resolve path with
  | none => simp
  | some names =>
    simp only [Option.bind_some, Option.map_some, Option.some.injEq, find?_map_rewriteEntry]
    cases hentry : before.entries.find? fun entry ↦ entry.1 = pathOfNames names with
    | none =>
      have hkey : pathOfNames names ≠ key := by
        rintro rfl
        obtain ⟨entry, hmem, heq⟩ := List.mem_map.mp h.mem_keys
        exact List.find?_eq_none.mp hentry entry hmem (by simpa using heq)
      rw [if_neg hkey]
      rfl
    | some entry =>
      have heq : entry.1 = pathOfNames names := by simpa using List.find?_some hentry
      rw [Option.map_some, Option.map_some, rewriteEntry, heq]
      split <;> rfl

theorem readText?_eq {path : String} {names : List String} {text : String}
    (h : before.Rewrites (pathOfNames names) text.toUTF8 after)
    (hresolve : before.resolve path = some names) : after.readText? path = some text := by
  rw [readText?, h.find?_eq, hresolve, if_pos (by simp), Option.bind_some,
    Text.fromUTF8?_toUTF8]

end Rewrites

theorem rewrites_insert {files : FileMap} {key : String} (h : key ∈ files.keys)
    (contents : ByteArray) : files.Rewrites key contents (files.insert key contents) :=
  ⟨h, by rw [insert_of_mem h]⟩

/-! ## Replacing a file that was read -/

theorem mem_keys_of_readText? {files : FileMap} {path text : String} {names : List String}
    (hread : files.readText? path = some text) (hresolve : files.resolve path = some names) :
    pathOfNames names ∈ files.keys := by
  obtain ⟨bytes, hfind, _⟩ := Option.bind_eq_some_iff.mp hread
  rw [find?, hresolve, Option.bind_some] at hfind
  obtain ⟨entry, hentry, _⟩ := Option.map_eq_some_iff.mp hfind
  have heq : entry.1 = pathOfNames names := by simpa using List.find?_some hentry
  exact List.mem_map.mpr ⟨entry, List.mem_of_find?_eq_some hentry, heq⟩

section Applying

variable {naming : Naming} {files after : FileMap} {path expected : String} {insertion : Insertion}

theorem applyBy_eq_error {cause : FileError}
    (h : files.applyBy naming path expected insertion = (.error cause, after)) :
    after = files := by
  rw [applyBy] at h
  split at h
  · exact (Prod.mk.inj h).2.symm
  · split at h
    · exact replaceBy_eq_error h
    · exact (Prod.mk.inj h).2.symm

/-- What was expected is replaced, in the file that the path leads to. -/
theorem applyBy_eq_ok
    (h : files.applyBy naming path expected insertion = (.ok (), after)) :
    files.readText? path = some expected ∧
      ∃ names, files.resolve path = some names ∧
        files.Rewrites (pathOfNames names) insertion.text.toUTF8 after := by
  rw [applyBy] at h
  split at h
  · simp at h
  rename_i current hread
  split at h
  · rename_i hexpected
    obtain ⟨names, hresolve, rfl⟩ := replaceBy_eq_ok h
    have hkey := mem_keys_of_readText? hread hresolve
    exact ⟨hexpected ▸ hread, names, hresolve, rewrites_insert hkey _⟩
  · simp at h

end Applying

end Memberwise.FileMap
