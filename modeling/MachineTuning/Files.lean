import MachineTuning.Files.SystemError
import MachineTuning.Text.Split
import MachineTuning.Text.Utf8

namespace MachineTuning

/-!
# Files — what stands at a path

A `FileSystem` answers each path with the bytes that stand there or with the error of reading
them; the rest of the library asks for nothing more.  A `Disk` is a file system spelled out: the
tree of all folders and files, without links, and the folder in it where relative paths start.
-/

/-- What reading each path gives. -/
abbrev FileSystem := String → Except SystemError (List UInt8)

/-- Whether a path starts at the top of all folders. -/
def isAbsolute (path : String) : Bool :=
  path.toList.head? = some '/'

/-- The path that leads from one path along another.  A path from the top replaces the first. -/
def joinPath (base path : String) : String :=
  if isAbsolute path then path
  else if base.isEmpty ∨ base.toList.getLast? = some '/' then base ++ path
  else base ++ "/" ++ path

/-- A file, or a folder with named entries. -/
inductive FileTree where
  | file (content : List UInt8)
  | folder (entries : List (String × FileTree))

namespace FileTree

/-- The folder without entries. -/
def empty : FileTree := .folder []

/-- The longest name of an entry, in bytes. -/
def maxName : Nat := 255

/-- What stands at the end of a way of names, if there is anything. -/
def follow : List String → FileTree → Option FileTree
  | [], tree => some tree
  | name :: way, .folder entries => (entries.lookup name).bind (follow way)
  | _ :: _, .file _ => none

/-- The way to which a piece of a path leads on from another way.  It leads on from folders only:
    nowhere, to the folder around, or to an entry. -/
def step (root : FileTree) (way : List String) (piece : String) :
    Except SystemError (List String) :=
  match follow way root with
  | none => .error .notFound
  | some (.file _) => .error .notADirectory
  | some (.folder entries) =>
    -- Two slashes in a row and a single point lead nowhere.
    if piece = "" ∨ piece = "." then .ok way
    else if piece = ".." then .ok way.dropLast
    else if maxName < Text.byteCount piece then .error .nameTooLong
    else if (entries.lookup piece).isNone then .error .notFound
    else .ok (way ++ [piece])

/-- An entry put under its name; one already there gives way. -/
def setEntry (name : String) (tree : FileTree) :
    List (String × FileTree) → List (String × FileTree)
  | [] => [(name, tree)]
  | entry :: rest =>
    if entry.1 = name then (name, tree) :: rest else entry :: setEntry name tree rest

/-- The tree in which the entries of the folder at the end of a way are changed. -/
def alter (change : List (String × FileTree) → List (String × FileTree)) :
    List String → FileTree → FileTree
  | [], .folder entries => .folder (change entries)
  | name :: way, .folder entries =>
    match entries.lookup name with
    | some tree => .folder (setEntry name (alter change way tree) entries)
    | none => .folder entries
  | _, .file content => .file content

/-- The step along a piece of a path, with a folder made where it leads if nothing is there. -/
def makeStep : FileTree × List String → String → Except SystemError (FileTree × List String)
  | (root, way), piece =>
    match root.step way piece with
    | .ok way => .ok (root, way)
    | .error cause =>
      if cause = .notFound then .ok (root.alter (setEntry piece empty) way, way ++ [piece])
      else .error cause

end FileTree

/-- All files and folders, and the way to the folder where relative paths start. -/
structure Disk where
  root : FileTree := .empty
  workingDirectory : List String := []

namespace Disk

/-- The longest path, in bytes. -/
def maxPath : Nat := 4095

/-- Refuses texts that are no paths. -/
def checkPath (path : String) : Except SystemError Unit :=
  if path.toList.contains '\x00' then .error .nulInName
  else if path.isEmpty then .error .notFound
  else if maxPath < Text.byteCount path then .error .nameTooLong
  else .ok ()

/-- Where the way of a path starts. -/
def start (disk : Disk) (path : String) : List String :=
  if isAbsolute path then [] else disk.workingDirectory

/-! ### Reading -/

/-- The way of names that a path describes. -/
def locate (disk : Disk) (path : String) : Except SystemError (List String) := do
  checkPath path
  (Text.split '/' path).foldlM disk.root.step (disk.start path)

/-- What stands at a path. -/
def at? (disk : Disk) (path : String) : Except SystemError FileTree := do
  match disk.root.follow (← disk.locate path) with
  | some tree => .ok tree
  | none => .error .notFound

/-- The bytes of the file at each path. -/
def read (disk : Disk) : FileSystem := fun path => do
  match ← disk.at? path with
  | .file content => .ok content
  | .folder _ => .error .isADirectory

/-! ### Changing -/

/-- The way to the folder that a path leads into, and the name at the end of the path. -/
def slot (disk : Disk) (path : String) : Except SystemError (List String × String) := do
  checkPath path
  match (Text.split '/' path).reverse.dropWhile (· = "") with
  -- Slashes alone are the path of the folder around all others.
  | [] => .error .isADirectory
  | name :: outer =>
    let way ← outer.reverse.foldlM disk.root.step (disk.start path)
    match disk.root.follow way with
    | none => .error .notFound
    | some (.file _) => .error .notADirectory
    | some (.folder _) =>
      if name = "." ∨ name = ".." ∨ path.toList.getLast? = some '/' then .error .isADirectory
      else if FileTree.maxName < Text.byteCount name then .error .nameTooLong
      else .ok (way, name)

/-- The disk with a file at a path.  One that is there is written over. -/
def writeFile (disk : Disk) (path : String) (content : List UInt8) : Except SystemError Disk := do
  let (way, name) ← disk.slot path
  match disk.root.follow (way ++ [name]) with
  | some (.folder _) => .error .isADirectory
  | _ => .ok { disk with root := disk.root.alter (FileTree.setEntry name (.file content)) way }

/-- The disk without the file at a path. -/
def removeFile (disk : Disk) (path : String) : Except SystemError Disk := do
  let way ← disk.locate path
  -- The path may lead through points, so that the name is that of the way.
  let removed := disk.root.alter (·.filter fun entry => way.getLast? ≠ some entry.1) way.dropLast
  match disk.root.follow way with
  | none => .error .notFound
  | some (.folder _) => .error .isADirectory
  | some (.file _) => .ok { disk with root := removed }

/-- The disk with a folder at a path and with all folders around it, what is there kept. -/
def makeFolder (disk : Disk) (path : String) : Except SystemError Disk := do
  if path.isEmpty then return disk
  checkPath path
  let (root, way) ← (Text.split '/' path).foldlM FileTree.makeStep (disk.root, disk.start path)
  match root.follow way with
  | none => .error .notFound
  | some (.file _) => .error .fileExists
  | some (.folder _) => .ok { disk with root }

end Disk

end MachineTuning
