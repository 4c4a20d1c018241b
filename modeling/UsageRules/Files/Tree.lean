import UsageRules.Files.Error
import UsageRules.Files.Path
import UsageRules.SortedMap

/-! A tree of directories and files, as a map from the names on the way to an entry. The root is a
directory that is always there. -/

namespace UsageRules

instance : TotalOrder (List String) where
  irrefl := List.lt_irrefl
  trans := List.lt_trans
  connected := Std.lt_trichotomy

inductive Entry where
  | directory
  | file (bytes : ByteArray)

structure FileTree where
  entries : SortedMap (List String) Entry
  /-- The names of the directory at which paths begin that do not begin at the root. -/
  home : List String := []

/-- Where a path leads. -/
inductive Place where
  /-- To a directory, without a name of its own at the end of the path. -/
  | directory (names : List String)
  /-- To a name in a directory, where an entry may be or not. -/
  | entry (directory : List String) (name : String)

namespace FileTree

def empty : FileTree := { entries := ∅ }

def entry? (t : FileTree) (names : List String) : Option Entry :=
  if names.isEmpty then some .directory else t.entries.get? names

def put (t : FileTree) (names : List String) (e : Entry) : FileTree :=
  { t with entries := t.entries.insert names e }

/-- The tree that has just the directories on the way to a home. -/
def ofHome (home : List String) : FileTree :=
  (List.range home.length).foldl (fun t i => t.put (home.take (i + 1)) .directory)
    { entries := ∅, home }

/-! ## Following paths -/

/-- The names that lead to a name in a directory. Names of more than 255 bytes cannot be. -/
def below (directory : List String) (name : String) : Except FileError (List String) :=
  if 255 < name.utf8ByteSize then .error .nameTooLong else .ok (directory ++ [name])

/-- The directory that names lead to from another one. -/
def enter (t : FileTree) (names : List String) : List String → Except FileError (List String)
  | [] => .ok names
  | "." :: rest => enter t names rest
  | ".." :: rest => enter t names.dropLast rest
  | name :: rest => do
    let names ← below names name
    match t.entry? names with
    | none => .error .notFound
    | some (.file _) => .error .notADirectory
    | some .directory => enter t names rest

/-- Where a path leads: all its names but the last must be those of directories. A path has less
than 4096 bytes. -/
def locate (t : FileTree) (path : String) : Except FileError Place :=
  if path.toList.contains '\x00' then .error .notAPath
  else if 4096 ≤ path.utf8ByteSize then .error .nameTooLong
  else if path.isEmpty then .error .notFound
  else
    let names := Path.names path
    match names.getLast? with
    | none => .ok (.directory [])
    | some last => do
      let directory ← t.enter (if Path.isAbsolute path then [] else t.home) names.dropLast
      if last = "." then .ok (.directory directory)
      else if last = ".." then .ok (.directory directory.dropLast)
      else .ok (.entry directory last)

/-- The entry that a path leads to, and its names. A slash at the end asks for a directory. -/
def find (t : FileTree) (path : String) : Except FileError (List String × Entry) := do
  match ← t.locate path with
  | .directory names => .ok (names, .directory)
  | .entry directory name =>
    let names ← below directory name
    match t.entry? names with
    | none => .error .notFound
    | some .directory => .ok (names, .directory)
    | some (.file bytes) =>
      if Path.endsInSlash path then .error .notADirectory else .ok (names, .file bytes)

/-! ## Operations -/

def pathExists (t : FileTree) (path : String) : Bool := (t.find path).isOk

def isDirectory (t : FileTree) (path : String) : Bool :=
  match t.find path with
  | .ok (_, .directory) => true
  | _ => false

def read (t : FileTree) (path : String) : Except FileError ByteArray := do
  match ← t.find path with
  | (_, .file bytes) => .ok bytes
  | (_, .directory) => .error .isADirectory

/-- The names of the entries of a directory, in their order. -/
def list (t : FileTree) (path : String) : Except FileError (List String) := do
  match ← t.find path with
  | (_, .file _) => .error .notADirectory
  | (names, .directory) => .ok <| t.entries.entries.filterMap fun e =>
    match names.isPrefixOf? e.1 with
    | some [name] => some name
    | _ => none

/-- Writes a file, which is made if it is not there. -/
def write (t : FileTree) (path : String) (bytes : ByteArray) : Except FileError FileTree := do
  match ← t.locate path with
  | .directory _ => .error .isADirectory
  | .entry directory name =>
    if Path.endsInSlash path then .error .isADirectory
    else
      let names ← below directory name
      match t.entry? names with
      | some .directory => .error .isADirectory
      | _ => .ok (t.put names (.file bytes))

/-- Makes a directory in one that is there. -/
def makeDirectory (t : FileTree) (path : String) : Except FileError FileTree := do
  match ← t.locate path with
  | .directory _ => .error .alreadyExists
  | .entry directory name =>
    let names ← below directory name
    match t.entry? names with
    | none => .ok (t.put names .directory)
    | some _ => .error .alreadyExists

def remove (t : FileTree) (path : String) : Except FileError FileTree := do
  match ← t.find path with
  | (_, .directory) => .error .isADirectory
  | (names, .file _) => .ok { t with entries := t.entries.erase names }

end FileTree

end UsageRules
