import Memberwise.Insertion

/-!
# Files

A file map gives the bytes of each regular file by its path, which is relative and in shortest form.
Directories exist as far as files need them.

The contents of a file are replaced by way of a temporary file in its directory, which is then moved
over it. This fails if there is no such directory, and it fails if the path is no place for a file,
as the path of a directory; the temporary file is then removed again. How a temporary file is called
is left open, but for what every choice of names has to promise.
-/

namespace Memberwise

/-- The bytes of the regular files, each under its path in shortest form. -/
structure FileMap where
  entries : List (String × ByteArray)

/-- Why no file can be moved to a path. -/
inductive MoveError where
  | missing
  /-- The path ends with a name that stands for a directory. -/
  | busy
  | notDirectory
  | isDirectory
deriving DecidableEq, Repr

namespace MoveError

def text : MoveError → String
  | missing => "No such file or directory (os error 2)"
  | busy => "Device or resource busy (os error 16)"
  | notDirectory => "Not a directory (os error 20)"
  | isDirectory => "Is a directory (os error 21)"

end MoveError

/-- Why an operation on files failed. -/
inductive FileError where
  /-- There is no such file, or it is no text. -/
  | unreadable (path : String)
  /-- The file was read, but has no syntax tree. -/
  | unparsable (path reason : String)
  /-- As `unreadable`, at the check before a file is replaced. -/
  | unreadableAgain (path : String)
  | changed (path : String)
  /-- There is no such directory. -/
  | noDirectory (directory : String)
  | notReplaced (path : String) (cause : MoveError)
deriving DecidableEq, Repr

namespace FileError

def message : FileError → String
  | unreadable path => "Failed to read " ++ path
  | unparsable path reason => path ++ ": " ++ reason
  | unreadableAgain path => "Failed to re-read " ++ path
  | changed path => path ++ " changed while the constructor was being generated"
  | noDirectory directory => "Failed to create a temporary file in " ++ directory
  | notReplaced path cause => "Failed to replace " ++ path ++ ": " ++ cause.text

end FileError

namespace FileMap

/-- What stands between the slashes of a path. -/
def pathPieces (path : String) : List String :=
  (Text.splitAtEach (· == '/') path.toList).map String.ofList

/-- Whether a piece of a path leads nowhere else. -/
def staysPut (piece : String) : Bool := piece.isEmpty || piece = "."

/-- The names in a path. -/
def pathNames (path : String) : List String :=
  (pathPieces path).filter fun piece ↦ !staysPut piece

/-- The path that consists of these names. -/
def pathOfNames (names : List String) : String := "/".intercalate names

/-- The names in the paths of the files. -/
def filePaths (files : FileMap) : List (List String) :=
  files.entries.map fun entry ↦ pathNames entry.1

/-- Whether some file lies in the directory or below it. The top directory always exists. -/
def isDirectory (files : FileMap) (names : List String) : Bool :=
  names.isEmpty ||
    files.filePaths.any fun path ↦ names.isPrefixOf path && names.length < path.length

/-- The names that a path leads to from the directory `directory`, if every directory on the way
exists and none lies above the top one. A slash can only follow a directory. -/
def resolveFrom (files : FileMap) (directory : List String) : List String → Option (List String)
  | [] => some directory
  | piece :: others =>
    if !files.isDirectory directory then none
    else if staysPut piece then resolveFrom files directory others
    else if piece = ".." then
      if directory.isEmpty then none else resolveFrom files directory.dropLast others
    else resolveFrom files (directory ++ [piece]) others

/-- The names of a relative path in shortest form. -/
def resolve (files : FileMap) (path : String) : Option (List String) :=
  match path.toList with
  | [] => none
  | '/' :: _ => none
  | _ => files.resolveFrom [] (pathPieces path)

def find? (files : FileMap) (path : String) : Option ByteArray :=
  (files.resolve path).bind fun names ↦
    (files.entries.find? fun entry ↦ entry.1 = pathOfNames names).map Prod.snd

/-- The text of a file. -/
def readText? (files : FileMap) (path : String) : Option String :=
  (files.find? path).bind String.fromUTF8?

/-- The map with the bytes of one file replaced, or a file added. -/
def insert (files : FileMap) (key : String) (contents : ByteArray) : FileMap :=
  if files.entries.any (·.1 = key) then
    ⟨files.entries.map fun entry ↦ if entry.1 = key then (key, contents) else entry⟩
  else ⟨files.entries ++ [(key, contents)]⟩

/-- A path in backward order without the slashes at its end and the names there that stand for the
directory itself. A path that is such a name stays. -/
def dropTail : List Char → List Char
  | '/' :: earlier => dropTail earlier
  | '.' :: '/' :: earlier => dropTail earlier
  | path => path

/-- What a path says before its last name: the directory of the file, or the current one. -/
def directoryPart (path : String) : String :=
  let backward := (dropTail path.toList.reverse).dropWhile (· ≠ '/')
  let directory := (dropTail backward).reverse
  if directory.isEmpty then (if backward.isEmpty then "." else "/") else String.ofList directory

/-- The map without a file. -/
def erase (files : FileMap) (key : String) : FileMap :=
  ⟨files.entries.filter fun entry ↦ entry.1 ≠ key⟩

/-- A file under another path, in place of the file that was there. -/
def move (files : FileMap) (source target : String) : FileMap :=
  match files.entries.find? fun entry ↦ entry.1 = source with
  | none => files
  | some (_, contents) => (files.erase source).insert target contents

/-- Why no file can be moved to a path that is no place for one. -/
def moveError (path : String) : MoveError :=
  match (pathPieces path).reverse.dropWhile String.isEmpty with
  | [] => .missing
  | last :: _ =>
    if last = "." ∨ last = ".." then .busy
    else if path.toList.getLast? = some '/' then .notDirectory
    else .isDirectory

/-- The paths of the files. -/
def keys (files : FileMap) : List String := files.entries.map Prod.fst

/-- A name of a file or a directory. -/
structure IsName (name : String) : Prop where
  staysPut : staysPut name = false
  slash : '/' ∉ name.toList

/-! ## Temporary files -/

/-- A choice of names for new files. Nothing is known of a name but that it is one, and that the
directory holds no such file. -/
structure Naming where
  name : FileMap → List String → String
  isName : ∀ files directory, IsName (name files directory)
  isFree : ∀ files directory, pathOfNames (directory ++ [name files directory]) ∉ files.keys

/-- A temporary file, with all files there are. -/
structure Temporary where
  path : String
  files : FileMap

namespace Temporary

/-- A new empty file in a directory that exists. -/
def create (naming : Naming) (files : FileMap) (directory : String) :
    Except FileError Temporary :=
  match (files.resolve directory).filter files.isDirectory with
  | none => .error (.noDirectory directory)
  | some names =>
    let path := pathOfNames (names ++ [naming.name files names])
    .ok ⟨path, files.insert path ByteArray.empty⟩

def write (temporary : Temporary) (contents : String) : Temporary :=
  { temporary with files := temporary.files.insert temporary.path contents.toUTF8 }

/-- Move the file to a path, in place of the file that may be there. -/
def persist (temporary : Temporary) (path : String) : Except MoveError FileMap :=
  let files := temporary.files
  match (files.resolve path).filter fun target ↦ !files.isDirectory target with
  | none => .error (moveError path)
  | some target => .ok (files.move temporary.path (pathOfNames target))

/-- The files without the temporary one. -/
def discard (temporary : Temporary) : FileMap := temporary.files.erase temporary.path

end Temporary

/-! ## Replacing -/

/-- Replace the contents of a file, which need not exist: write a temporary file in its directory
and move it to its path. Gives the result and the files afterwards. -/
def replaceBy (files : FileMap) (naming : Naming) (path contents : String) :
    Except FileError Unit × FileMap :=
  match Temporary.create naming files (directoryPart path) with
  | .error cause => (.error cause, files)
  | .ok created =>
    let written := created.write contents
    match written.persist path with
    | .error cause => (.error (.notReplaced path cause), written.discard)
    | .ok after => (.ok (), after)

/-- Replace the contents of a file, provided that it still holds `expected`. -/
def applyBy (files : FileMap) (naming : Naming) (path expected : String) (insertion : Insertion) :
    Except FileError Unit × FileMap :=
  match files.readText? path with
  | none => (.error (.unreadableAgain path), files)
  | some current =>
    if current = expected then files.replaceBy naming path insertion.text
    else (.error (.changed path), files)

/-! ## Names that are longer than all paths -/

/-- A name for a new file. It is longer than every path, so no file has it. -/
def freeName (files : FileMap) : String :=
  let letters := files.entries.flatMap fun entry ↦ entry.1.toList
  String.ofList ('.' :: 't' :: letters.map fun _ ↦ 't')

theorem isName_freeName (files : FileMap) : IsName files.freeName := by
  constructor
  · have hdot : files.freeName ≠ "." := by
      rw [freeName, ne_eq, ← String.toList_inj]
      simp
    rw [FileMap.staysPut, Bool.or_eq_false_iff, decide_eq_false_iff_not]
    exact ⟨by simp [freeName], hdot⟩
  · rw [freeName, String.toList_ofList]
    simp

theorem length_lt_length_freeName {files : FileMap} {key : String} (h : key ∈ files.keys) :
    key.length < files.freeName.length := by
  obtain ⟨entry, hentry, rfl⟩ := List.mem_map.mp h
  have hmem : entry.1.toList ∈ files.entries.map fun entry ↦ entry.1.toList :=
    List.mem_map.mpr ⟨entry, hentry, rfl⟩
  have hsublist := (List.sublist_flatten_of_mem hmem).length_le
  rw [← List.flatMap_def, String.length_toList] at hsublist
  rw [freeName, String.length_ofList, List.length_cons, List.length_cons, List.length_map]
  omega

theorem length_le_length_pathOfNames (names : List String) (name : String) :
    name.length ≤ (pathOfNames (names ++ [name])).length := by
  rw [pathOfNames]
  cases names with
  | nil => simp
  | cons first others =>
    rw [String.intercalate_append_of_ne_nil (List.cons_ne_nil first others)
      (List.cons_ne_nil name [])]
    simp

namespace Naming

/-- The name for a new file that is longer than every path. -/
def longest : Naming where
  name files _ := files.freeName
  isName files _ := isName_freeName files
  isFree files directory h := by
    have hshort := length_lt_length_freeName h
    have hlong := length_le_length_pathOfNames directory files.freeName
    omega

end Naming

def replace (files : FileMap) (path contents : String) : Except FileError Unit × FileMap :=
  files.replaceBy .longest path contents

def apply (files : FileMap) (path expected : String) (insertion : Insertion) :
    Except FileError Unit × FileMap :=
  files.applyBy .longest path expected insertion

end FileMap

end Memberwise
