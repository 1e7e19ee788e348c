import ReversePolish.Source.Decoding
import ReversePolish.Source.Path

/-!
# ReversePolish.Source.Folder

A **working folder** and the opening of files in it.

A path is followed name by name from the working folder, or from the root if it
starts with a slash. What lies outside the working folder holds nothing, except
that the way up never ends.

Design points:

* A path as a whole and each name in it have a greatest length, counted in
  bytes. The whole is checked first, a name when it is looked up, so a name
  behind a file is never found too long.
* A path that ends in a slash names a folder, and so does one that ends in `.`
  or `..`; a folder is not opened.
-/

namespace ReversePolish

/-- Why a file cannot be opened. -/
inductive OpenFault
  | noSuchFile
  | notADirectory
  | isADirectory
  | nameTooLong
  deriving Repr, DecidableEq

namespace OpenFault

/-- The number of a fault. -/
def number : OpenFault → Nat
  | noSuchFile => 2
  | notADirectory => 20
  | isADirectory => 21
  | nameTooLong => 36

/-- What a fault says, without the path. -/
def text : OpenFault → Text
  | noSuchFile => "No such file or directory".toList
  | notADirectory => "Not a directory".toList
  | isADirectory => "Is a directory".toList
  | nameTooLong => "File name too long".toList

/-- The wording of a fault for a path. -/
def message (fault : OpenFault) (path : Text) : Text :=
  "[Errno ".toList ++ Text.natural fault.number ++ "] ".toList ++ fault.text ++ ": ".toList ++
    Text.quote path

end OpenFault

/-- What a path may name. -/
inductive FolderItem
  | file (bytes : List UInt8)
  | folder
  deriving Repr, DecidableEq

/-- The contents of a working folder: every item with the names that lead to
it. -/
structure Folder where
  items : List (List Text × FolderItem)
  deriving Repr, DecidableEq

/-- A point on the way along a path. -/
inductive Place
  /-- The item that these names lead to. -/
  | inside (names : List Text)
  /-- A folder around the working folder. -/
  | outside
  deriving Repr, DecidableEq

namespace Folder

/-- The names that lead to an item of a listing. -/
def listedNames (path : Text) : List Text :=
  (Path.names path).filter fun name => name != Path.current

/-- The folders on the way to an item. -/
def wayTo (names : List Text) : List (List Text) :=
  (List.range (names.length - 1)).map fun count => names.take (count + 1)

/-- The working folder with these folders and files in it, and with the folders
on the way to each of them. -/
def ofListing (folders : List Text) (files : List (Text × List UInt8)) : Folder :=
  let folderNames := folders.map listedNames
  let fileNames := files.map fun (path, _) => listedNames path
  ⟨files.map (fun (path, bytes) => (listedNames path, .file bytes)) ++
    (folderNames ++ (folderNames ++ fileNames).flatMap wayTo).map fun names => (names, .folder)⟩

/-- The most bytes of a name. -/
def nameLimit : Nat := 255

/-- The most bytes of a path. -/
def pathLimit : Nat := 4095

/-- The item that names lead to; no names at all lead to the folder itself. -/
def item? (folder : Folder) (names : List Text) : Option FolderItem :=
  if names.isEmpty then some .folder else folder.items.lookup names

/-- One name further. -/
def enter (folder : Folder) (place : Place) (name : Text) : Except OpenFault Place :=
  let isLong := nameLimit < (encodeUtf8 name).length
  match place with
  | .outside =>
    if name == Path.current || name == Path.parent then .ok .outside
    else .error (if isLong then .nameTooLong else .noSuchFile)
  | .inside names =>
    if folder.item? names != some .folder then .error .notADirectory
    else if name == Path.current then .ok place
    else if name == Path.parent then
      .ok (if names.isEmpty then .outside else .inside names.dropLast)
    else if isLong then .error .nameTooLong
    else if (folder.item? (names ++ [name])).isNone then .error .noSuchFile
    else .ok (.inside (names ++ [name]))

/-- The contents of the file at a place. -/
def contents (folder : Folder) (place : Place) (wantsFolder : Bool) :
    Except OpenFault (List UInt8) :=
  match place with
  | .outside => .error .isADirectory
  | .inside names =>
    match folder.item? names with
    | some (.file bytes) => if wantsFolder then .error .notADirectory else .ok bytes
    | _ => .error .isADirectory

/-- The contents of the file that a path names. -/
def open? (folder : Folder) (path : Text) : Except OpenFault (List UInt8) :=
  if pathLimit < (encodeUtf8 path).length then .error .nameTooLong
  else if path.isEmpty then .error .noSuchFile
  else
    let start := if path.head? == some '/' then Place.outside else .inside []
    match (Path.names path).foldlM folder.enter start with
    | .error fault => .error fault
    | .ok place => folder.contents place (path.getLast? == some '/')

end Folder

end ReversePolish
