import FunctionForge.Fields
import FunctionForge.Files.Path

/-!
# File trees

`FileTree` holds the files and folders below the folder that a program runs in, and `read`,
`createFolders` and `write` do to it what an operating system does: a path is walked name by name,
every name but the last has to be a folder, and `..` leads out of a folder. Outside of the tree
there are folders on the way up and nothing else; what is written there is not kept.
-/

namespace FunctionForge.Files

/-- What a file holds. -/
inductive FileData where
  | text (content : String)
  /-- Bytes that are no text. -/
  | bytes
  deriving Repr, DecidableEq

/-- Why a file or folder cannot be used. -/
inductive FileError where
  | missing
  | isFolder
  | notFolder
  | taken
  | nameTooLong
  | badName
  | notText
  deriving Repr, DecidableEq

/-- The words of the operating system. -/
def FileError.message : FileError → String
  | .missing => "No such file or directory (os error 2)"
  | .isFolder => "Is a directory (os error 21)"
  | .notFolder => "Not a directory (os error 20)"
  | .taken => "File exists (os error 17)"
  | .nameTooLong => "File name too long (os error 36)"
  | .badName => "file name contained an unexpected NUL byte"
  | .notText => "stream did not contain valid UTF-8"

/-- What stands in a folder under a name. -/
inductive Entry where
  | file (data : FileData)
  | folder (entries : List (String × Entry))
  deriving Repr

namespace Entry

/-- The entries of a folder; a file has none. -/
def entries : Entry → Fields Entry
  | .file _ => []
  | .folder entries => entries

/-- What names lead to from an entry. -/
def find? (entry : Entry) : List String → Option Entry
  | [] => some entry
  | name :: rest => (entry.entries.get? name).bind fun inner => inner.find? rest

/-- An entry from which names lead to `target`. Folders that are missing on the way are added. -/
def put (entry target : Entry) : List String → Entry
  | [] => target
  | name :: rest =>
    let inner := (entry.entries.get? name).getD (.folder [])
    .folder (entry.entries.insert name (inner.put target rest))

mutual

/-- The files at and below an entry to which `names` lead, each with the names that lead to it. -/
def files (names : List String) : Entry → List (List String × FileData)
  | .file data => [(names, data)]
  | .folder entries => filesBelow names entries

/-- The files at and below the entries of a folder to which `names` lead. -/
def filesBelow (names : List String) : List (String × Entry) → List (List String × FileData)
  | [] => []
  | (name, entry) :: rest => entry.files (names ++ [name]) ++ filesBelow names rest

end

end Entry

/-- The files and folders below a folder. -/
structure FileTree where
  entries : Fields Entry
  deriving Repr

/-- Where a path leads. -/
inductive Location where
  /-- Below the folder of the tree: the names that lead there, the last one first, each with what is
  found under it. -/
  | inside (trail : List (String × Option Entry))
  /-- A folder above the tree. -/
  | above
  /-- A name in a folder above the tree. -/
  | beyond
  deriving Repr

namespace Location

/-- The location of a name in a folder, with what is found there. -/
def child (location : Location) (name : String) (entry : Option Entry) : Location :=
  match location with
  | .inside trail => .inside ((name, entry) :: trail)
  | .above => .beyond
  | .beyond => .beyond

/-- The folder that holds a location. -/
def outer : Location → Location
  | .inside [] => .above
  | .inside (_ :: trail) => .inside trail
  | .above => .above
  | .beyond => .above

/-- The names that lead to a location below the folder of the tree. -/
def names? : Location → Option (List String)
  | .inside trail => some (trail.map Prod.fst).reverse
  | .above => none
  | .beyond => none

end Location

namespace FileTree

/-- Nothing. -/
def empty : FileTree := ⟨[]⟩

/-- The folder of the tree. -/
def root (tree : FileTree) : Entry :=
  .folder tree.entries

/-- What names lead to. -/
def find? (tree : FileTree) (names : List String) : Option Entry :=
  tree.root.find? names

/-- A tree in which names lead to an entry. -/
def put (tree : FileTree) (names : List String) (entry : Entry) : FileTree :=
  ⟨(tree.root.put entry names).entries⟩

/-- What is found at a location. Of a folder above the tree, nothing but the tree is known. -/
def entry? (tree : FileTree) : Location → Option Entry
  | .inside [] => some tree.root
  | .inside ((_, entry) :: _) => entry
  | .above => some (.folder [])
  | .beyond => none

/-- The greatest length of a name, in bytes. -/
def nameLimit : Nat := 255

/-- The length of a path, in bytes, from which on it is too long. -/
def pathLimit : Nat := 4096

/-- Walks along names from a location. The last name need not be there. -/
def walk (tree : FileTree) (location : Location) : List String → Except FileError Location
  | [] => .ok location
  | name :: rest =>
    match tree.entry? location with
    | none => .error .missing
    | some (.file _) => .error .notFolder
    | some (.folder entries) =>
      if name = "" ∨ name = "." then walk tree location rest
      else if name = ".." then walk tree location.outer rest
      else if name.utf8ByteSize > nameLimit then .error .nameTooLong
      else walk tree (location.child name (Fields.get? entries name)) rest

/-- Where a path leads. The last name need not be there. -/
def locate (tree : FileTree) (path : Path) : Except FileError Location :=
  if path.text.toList.contains (Char.ofNat 0) then .error .badName
  else if path.text.utf8ByteSize ≥ pathLimit then .error .nameTooLong
  else if path.text.isEmpty then .error .missing
  else
    let names := Text.cut '/' path.text
    if path.isAbsolute then tree.walk .above names.tail else tree.walk (.inside []) names

/-! ### Reading -/

/-- The text of a file. -/
def read (tree : FileTree) (path : Path) : Except FileError String := do
  match tree.entry? (← tree.locate path) with
  | some (.file (.text content)) => return content
  | some (.file .bytes) => .error .notText
  | some (.folder _) => .error .isFolder
  | none => .error .missing

/-- Whether something is found at a path. -/
def has (tree : FileTree) (path : Path) : Bool :=
  match tree.locate path with
  | .ok location => (tree.entry? location).isSome
  | .error _ => false

/-- Whether a folder is found at a path. -/
def isFolder (tree : FileTree) (path : Path) : Bool :=
  match tree.locate path with
  | .ok location =>
    match tree.entry? location with
    | some (.folder _) => true
    | _ => false
  | .error _ => false

/-! ### Writing -/

/-- A tree with an entry at a location. Outside of the tree, nothing is kept. -/
def putAt (tree : FileTree) (location : Location) (entry : Entry) : FileTree :=
  match location.names? with
  | some names => tree.put names entry
  | none => tree

/-- Writes a file in a folder that is there. -/
def write (tree : FileTree) (path : Path) (content : String) : Except FileError FileTree := do
  let location ← tree.locate path
  match tree.entry? location with
  | some (.folder _) => .error .isFolder
  | _ => return tree.putAt location (.file (.text content))

/-- Creates one folder in a folder that is there. -/
def createFolder (tree : FileTree) (path : Path) : Except FileError FileTree := do
  let location ← tree.locate path
  match tree.entry? location with
  | some _ => .error .taken
  | none => return tree.putAt location (.folder [])

/-- What a folder that cannot be created comes down to: nothing, if it is there already. -/
def refusal (tree : FileTree) (path : Path) (cause : FileError) : Option FileError :=
  if tree.isFolder path then none else some cause

/-- Creates a folder and the folders on the way to it; `fuel` bounds their number. Folders that were
created stay if a later one cannot be. -/
def createFoldersWithin : Nat → FileTree → Path → FileTree × Option FileError
  | 0, tree, _ => (tree, some .missing)
  | fuel + 1, tree, path =>
    if path.text.isEmpty then (tree, none)
    else
      match tree.createFolder path with
      | .ok tree => (tree, none)
      | .error cause =>
        if cause = .missing then
          match path.parent? with
          | none => (tree, some cause)
          | some parent =>
            match createFoldersWithin fuel tree parent with
            | (tree, some cause) => (tree, some cause)
            | (tree, none) =>
              match tree.createFolder path with
              | .ok tree => (tree, none)
              | .error cause => (tree, tree.refusal path cause)
        else (tree, tree.refusal path cause)

/-- Creates a folder and the folders on the way to it, as far as they are not there. Tells what
stood in the way. -/
def createFolders (tree : FileTree) (path : Path) : FileTree × Option FileError :=
  createFoldersWithin (path.text.length + 1) tree path

/-! ### Comparing -/

/-- The texts of the files of a tree that are new or hold something else than before. -/
def changes (before after : FileTree) : List (List String × String) :=
  (after.root.files []).filterMap fun (names, data) =>
    match data, before.find? names with
    | .bytes, _ => none
    | .text content, some (.file old) => if old = data then none else some (names, content)
    | .text content, _ => some (names, content)

end FileTree

end FunctionForge.Files
