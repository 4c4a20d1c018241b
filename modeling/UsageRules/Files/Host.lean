import UsageRules.Files.Tree

/-! What a program can ask of the place it runs at: operations on files, and the time. A file tree
is such a place, in which the time stands still. -/

namespace UsageRules

/-- The place at which a program runs. -/
class FileHost (m : Type → Type) where
  readBytes : String → m (Except FileError ByteArray)
  writeBytes : String → ByteArray → m (Except FileError Unit)
  /-- Makes a directory in one that is there. -/
  makeDirectory : String → m (Except FileError Unit)
  list : String → m (Except FileError (List String))
  pathExists : String → m Bool
  isDirectory : String → m Bool
  timeStamp : m String

namespace FileHost

variable {m : Type → Type} [Monad m] [FileHost m]

def readText (path : String) : m (Except FileError String) := do
  match ← readBytes path with
  | .error e => return .error e
  | .ok bytes => match String.fromUTF8? bytes with
    | some text => return .ok text
    | none => return .error .notUtf8

def writeText (path text : String) : m (Except FileError Unit) := writeBytes path text.toUTF8

/-- Makes a directory in one that is there, unless it is there itself. -/
def ensureDirectory (path : String) : m (Except FileError Unit) := do
  match ← makeDirectory path with
  | .error .alreadyExists =>
    if ← isDirectory path then return .ok () else return .error .alreadyExists
  | result => return result

/-- Makes the first of some directories; if it has nowhere to be, the others are made before. -/
def ensureAll : List String → m (Except FileError Unit)
  | [] => return .ok ()
  | path :: rest => do
    match ← ensureDirectory path with
    | .error .notFound => match ← ensureAll rest with
      | .ok () => ensureDirectory path
      | failed => return failed
    | result => return result

/-- Makes a directory and those it lies in, as far as they are not there. -/
def makeDirectories (path : String) : m (Except FileError Unit) := ensureAll (Path.ancestors path)

end FileHost

namespace FileTree

/-- An operation that may change the tree; if it fails the tree stays as it is. -/
def change (f : FileTree → Except FileError FileTree) : StateM FileTree (Except FileError Unit) :=
  fun t => match f t with
  | .ok t' => (.ok (), t')
  | .error e => (.error e, t)

instance : FileHost (StateM FileTree) where
  readBytes path := fun t => (t.read path, t)
  writeBytes path bytes := change (·.write path bytes)
  makeDirectory path := change (·.makeDirectory path)
  list path := fun t => (t.list path, t)
  pathExists path := fun t => (t.pathExists path, t)
  isDirectory path := fun t => (t.isDirectory path, t)
  timeStamp := fun t => ("1970-01-01T00:00:00Z", t)

end FileTree

end UsageRules
