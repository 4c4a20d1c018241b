import UsageRules.Text.Search

/-! Paths: names between slashes. -/

namespace UsageRules.Path

/-- The names of a path; slashes in a row are as good as one. -/
def names (path : String) : List String :=
  ((Text.splitAll '/' path.toList).map String.ofList).filter (· ≠ "")

def endsInSlash (path : String) : Bool := path.toList.getLast? = some '/'

def isAbsolute (path : String) : Bool := path.toList.head? = some '/'

/-- The names of a path without those that stay in place, except at the beginning of a path that
does not begin at the root. -/
def components (path : String) : List String :=
  match names path with
  | "." :: rest =>
    if isAbsolute path then rest.filter (· ≠ ".") else "." :: rest.filter (· ≠ ".")
  | all => all.filter (· ≠ ".")

/-- The path of the first components of a path. -/
def upTo (path : String) (count : Nat) : String :=
  (if isAbsolute path then "/" else "") ++ "/".intercalate ((components path).take count)

/-- The path without its last component; the root and the empty path have none. -/
def parent? (path : String) : Option String :=
  match components path with
  | [] => none
  | names => some (upTo path (names.length - 1))

/-- A path and those of the directories it lies in, from the longest to the shortest. The root and
the empty path, which lead to what is always there, are left out. -/
def ancestors (path : String) : List String :=
  match components path with
  | [] => []
  | _ :: rest => path :: (List.range rest.length).reverse.map fun i => upTo path (i + 1)

def join (directory name : String) : String :=
  if directory.isEmpty || endsInSlash directory then directory ++ name
  else directory ++ "/" ++ name

end UsageRules.Path
