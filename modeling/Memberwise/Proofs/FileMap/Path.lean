import Memberwise.FileMap
import Memberwise.Proofs.Text.Runs

/-!
# Paths and names

A path in shortest form is a list of names, joined by slashes. Joining loses nothing: the names can
be read back. A path is resolved against the directories alone, and leads to nothing but names.

The main statements: `pathNames` reads back what `pathOfNames` joins, what a path resolves to has
only names, and two file maps with the same directories resolve every path alike.
-/

namespace Memberwise

namespace FileMap

/-! ## Joining and reading back -/

theorem pathPieces_pathOfNames {names : List String} (hne : names ≠ [])
    (h : ∀ name ∈ names, '/' ∉ name.toList) : pathPieces (pathOfNames names) = names := by
  have htexts : ∀ text ∈ names.map String.toList, '/' ∉ text := by simpa using h
  have hsplit := List.splitOn_intercalate '/' htexts (by simpa using hne)
  rw [pathPieces, pathOfNames, String.toList_intercalate, Text.splitAtEach_eq_splitOnP]
  calc
    ((("/".toList).intercalate (names.map String.toList)).splitOnP (· == '/')).map String.ofList =
        (names.map String.toList).map String.ofList := congrArg (List.map String.ofList) hsplit
    _ = names := by simp

theorem pathNames_pathOfNames {names : List String} (h : ∀ name ∈ names, IsName name) :
    pathNames (pathOfNames names) = names := by
  cases names with
  | nil => rfl
  | cons first others =>
    rw [pathNames, pathPieces_pathOfNames (List.cons_ne_nil first others)
      fun name hname ↦ (h name hname).slash]
    apply List.filter_eq_self.mpr
    intro name hname
    rw [(h name hname).staysPut]
    rfl

theorem slash_not_mem_of_mem_pathPieces {path piece : String} (h : piece ∈ pathPieces path) :
    '/' ∉ piece.toList := by
  obtain ⟨text, htext, rfl⟩ := List.mem_map.mp h
  intro hslash
  have hfalse := Text.not_isSeparator_of_mem_splitAtEach htext
    (by simpa using hslash : '/' ∈ text)
  simp at hfalse

/-! ## Resolving -/

theorem isName_of_resolveFrom {files : FileMap} {directory pieces names : List String}
    (hpieces : ∀ piece ∈ pieces, '/' ∉ piece.toList) (hdirectory : ∀ name ∈ directory, IsName name)
    (h : files.resolveFrom directory pieces = some names) : ∀ name ∈ names, IsName name := by
  induction pieces generalizing directory with
  | nil =>
    rw [resolveFrom, Option.some.injEq] at h
    exact h ▸ hdirectory
  | cons piece others ih =>
    have hothers : ∀ other ∈ others, '/' ∉ other.toList :=
      fun other hother ↦ hpieces other (List.mem_cons_of_mem piece hother)
    rw [resolveFrom] at h
    split at h
    · simp at h
    split at h
    · exact ih hothers hdirectory h
    rename_i hstays
    split at h
    · split at h
      · simp at h
      · exact ih hothers (fun name hname ↦ hdirectory name (List.dropLast_subset directory hname)) h
    · refine ih hothers (fun name hname ↦ ?_) h
      rcases List.mem_append.mp hname with hname | hname
      · exact hdirectory name hname
      · rw [List.mem_singleton.mp hname]
        exact ⟨by simpa using hstays, hpieces piece List.mem_cons_self⟩

theorem isName_of_resolve {files : FileMap} {path : String} {names : List String}
    (h : files.resolve path = some names) : ∀ name ∈ names, IsName name := by
  rw [resolve] at h
  split at h
  · simp at h
  · simp at h
  · exact isName_of_resolveFrom (fun _ hpiece ↦ slash_not_mem_of_mem_pathPieces hpiece)
      (fun _ hname ↦ absurd hname List.not_mem_nil) h

theorem resolveFrom_congr {files others : FileMap} (h : files.isDirectory = others.isDirectory)
    (directory pieces : List String) :
    files.resolveFrom directory pieces = others.resolveFrom directory pieces := by
  induction pieces generalizing directory with
  | nil => rfl
  | cons piece rest ih => simp only [resolveFrom, h, ih]

/-- Only directories matter on the way to a file. -/
theorem resolve_congr {files others : FileMap} (h : files.isDirectory = others.isDirectory) :
    files.resolve = others.resolve := by
  funext path
  simp only [resolve, resolveFrom_congr h]

/-! ## Directories -/

theorem isDirectory_iff {files : FileMap} {names : List String} :
    files.isDirectory names = true ↔
      names = [] ∨ ∃ path ∈ files.filePaths, names <+: path ∧ names.length < path.length := by
  simp [isDirectory]

/-- What a directory lies in is a directory. -/
theorem isDirectory_of_prefix {files : FileMap} {outer inner : List String}
    (hfront : outer <+: inner) (h : files.isDirectory inner = true) :
    files.isDirectory outer = true := by
  rw [isDirectory_iff] at h ⊢
  rcases h with rfl | ⟨path, hpath, hinner, hlength⟩
  · exact Or.inl (List.prefix_nil.mp hfront)
  · exact Or.inr ⟨path, hpath, hfront.trans hinner, Nat.lt_of_le_of_lt hfront.length_le hlength⟩

end FileMap

end Memberwise
