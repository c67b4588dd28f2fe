import SequentCalculus.Text.Quoted

/-!
# Files — what a path leads to

A path leads to the bytes of a file or to nothing that can be read, for one of a few reasons.  All
that the rest of the library knows of the world is such a function from paths; a `Folder` is one,
given by the files under the current directory.
-/

namespace SequentCalculus

/-- Why a path cannot be read. -/
inductive FileError where
  | missing
  | notDirectory
  | isDirectory
  | nameTooLong
  /-- The path holds a null character, which no name does. -/
  | nullInName
  deriving DecidableEq, Repr

/-- The text of the error for a path. -/
def FileError.message (path : String) : FileError → String
  | missing => "[Errno 2] No such file or directory: " ++ Text.quoted path
  | notDirectory => "[Errno 20] Not a directory: " ++ Text.quoted path
  | isDirectory => "[Errno 21] Is a directory: " ++ Text.quoted path
  | nameTooLong => "[Errno 36] File name too long: " ++ Text.quoted path
  | nullInName => "embedded null byte"

/-- What a path leads to: a file or an error. -/
abbrev FileEntry := Except FileError ByteArray

namespace FileEntry

/-- Whether there is a file. -/
def isFile : FileEntry → Bool
  | .ok _ => true
  | .error _ => false

end FileEntry

/-- What paths lead to. -/
abbrev Files := String → FileEntry

/-- The bytes are no UTF-8 text. -/
inductive DecodeError where
  | notUtf8
  deriving DecidableEq, Repr

/-- The text of the error. -/
def DecodeError.message : DecodeError → String
  | notUtf8 => "the file is no UTF-8 text"

/-- The text that bytes encode in UTF-8. -/
def decodeText (bytes : ByteArray) : Except DecodeError String :=
  match String.fromUTF8? bytes with
  | some s => .ok s
  | none => .error .notUtf8

/-- **Bytes are read as a text exactly if they are its encoding.** -/
theorem decodeText_eq_ok_iff {bytes : ByteArray} {text : String} :
    decodeText bytes = .ok text ↔ bytes = text.toUTF8 := by
  constructor
  · intro h
    unfold decodeText String.fromUTF8? at h
    split at h
    · rename_i s hs
      obtain rfl := Except.ok.inj h
      split at hs
      · obtain rfl := Option.some.inj hs
        rfl
      · cases hs
    · cases h
  · rintro rfl
    have hdecode : String.fromUTF8? text.toUTF8 = some text := dif_pos text.isValidUTF8
    rw [decodeText, hdecode]

/-- Bytes that are the encoding of no text cannot be read. -/
theorem decodeText_eq_error {bytes : ByteArray} (h : ∀ text : String, bytes ≠ text.toUTF8) :
    decodeText bytes = .error .notUtf8 := by
  cases hdecode : decodeText bytes with
  | error e => cases e; rfl
  | ok text => exact absurd (decodeText_eq_ok_iff.1 hdecode) (h text)

/-- The names of a path. -/
def pathNames (path : String) : List String := path.splitOn "/"

/-- What stands under the current directory: directories and files, each by the names that lead to
it. -/
structure Folder where
  directories : List (List String)
  /-- The newest file comes first. -/
  files : List (List String × ByteArray)

namespace Folder

/-- Whether names lead to a directory. -/
def isDirectory (folder : Folder) (names : List String) : Bool :=
  names.isEmpty || folder.directories.contains names

/-- Follows names from above the folder, where no file is known. -/
def followAbove : List String → FileEntry
  | [] => .error .isDirectory
  | name :: names =>
    if name = "" ∨ name = "." ∨ name = ".." then followAbove names
    else if 255 < name.utf8ByteSize then .error .nameTooLong
    else .error .missing

/-- Follows names from a directory of the folder. -/
def follow (folder : Folder) : List String → List String → FileEntry
  | _, [] => .error .isDirectory
  | here, name :: names =>
    if name = "" ∨ name = "." then follow folder here names
    else if name = ".." then
      if here.isEmpty then followAbove names else follow folder here.dropLast names
    else if 255 < name.utf8ByteSize then .error .nameTooLong
    else
      let there := here ++ [name]
      match folder.files.find? (·.1 = there) with
      | some f => if names.isEmpty then .ok f.2 else .error .notDirectory
      | none => if folder.isDirectory there then follow folder there names else .error .missing

/-- What paths lead to from the folder. -/
def lookup (folder : Folder) (path : String) : FileEntry :=
  if path.toList.contains '\x00' then .error .nullInName
  else if path = "" ∨ path.front = '/' then .error .missing
  else if 4096 ≤ path.utf8ByteSize then .error .nameTooLong
  else folder.follow [] (pathNames path)

/-- The directories that a walk along some names goes through. -/
def trail (here : List String) : List String → List (List String)
  | [] => [here]
  | name :: names =>
    if name = "" ∨ name = "." then trail here names
    else if name = ".." then here :: trail here.dropLast names
    else here :: trail (here ++ [name]) names

/-- Writes a file, and makes the directories that its path goes through. -/
def write (folder : Folder) (path : String) (bytes : ByteArray) : Folder :=
  let names := pathNames path
  let directories := trail [] names.dropLast
  let place := directories.getLastD [] ++ names.getLast?.toList
  ⟨folder.directories ++ directories, (place, bytes) :: folder.files⟩

/-- The folder after writing files one after the other. -/
def ofFiles (files : List (String × ByteArray)) : Folder :=
  files.foldl (fun folder (path, bytes) => folder.write path bytes) ⟨[], []⟩

end Folder

end SequentCalculus
