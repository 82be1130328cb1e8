import DeviceScript.Files.Path

/-! A tree of files and directories, and paths looked up in it one component at a time. -/

namespace DeviceScript

open Text

inductive PathProblem where
  | notFound
  | notDirectory
  | isDirectory
  | nameTooLong
  | invalid
deriving Repr, DecidableEq

namespace PathProblem

def description : PathProblem → Text
  | notFound => "no such file or directory"
  | notDirectory => "not a directory"
  | isDirectory => "is a directory"
  | nameTooLong => "file name too long"
  | invalid => "invalid argument"

/-- The message of a failed reading. Directories can be opened but not read. -/
def message (path : Text) : PathProblem → Text
  | isDirectory => "read " ++ path ++ ": " ++ isDirectory.description
  | other => "open " ++ path ++ ": " ++ other.description

end PathProblem

/-- Files with their contents, and directories, by their components from the root. -/
structure FileTree where
  cwd : List Text
  files : List (List Text × Text)
  directories : List (List Text)
deriving Repr, DecidableEq

inductive Place where
  | file (components : List Text) (content : Text)
  | directory (components : List Text)
deriving Repr, DecidableEq

namespace FileTree

def components (p : Text) : List Text :=
  (splitOn Path.slash p).filter fun component => !component.isEmpty

def pathOf (components : List Text) : Text := Path.slash :: joinWith [Path.slash] components

def empty (cwd : Text) : FileTree :=
  let cwd := components cwd
  ⟨cwd, [], (List.range (cwd.length + 1)).map cwd.take⟩

def content? (t : FileTree) (at' : List Text) : Option Text :=
  (t.files.find? fun entry => entry.1 == at').map Prod.snd

def isDirectory (t : FileTree) (at' : List Text) : Bool := t.directories.contains at'

def follow (t : FileTree) : List Text → List Text → Except PathProblem Place
  | here, [] => .ok (.directory here)
  | here, component :: rest =>
      if component.isEmpty || component == ofString "." then follow t here rest
      else if component == ofString ".." then follow t here.dropLast rest
      else if 255 < component.length then .error .nameTooLong
      else
        let next := here ++ [component]
        if t.isDirectory next then follow t next rest
        else
          match t.content? next with
          | none => .error .notFound
          | some content => if rest.isEmpty then .ok (.file next content) else .error .notDirectory

def find (t : FileTree) (path : Text) : Except PathProblem Place :=
  if path.isEmpty then .error .notFound
  else if path.contains 0 then .error .invalid
  else t.follow (if Path.isAbsolute path then [] else t.cwd) (splitOn Path.slash path)

def read (t : FileTree) (path : Text) : Except PathProblem Text :=
  match t.find path with
  | .error problem => .error problem
  | .ok (.directory _) => .error .isDirectory
  | .ok (.file _ content) => .ok content

def isFile (t : FileTree) (path : Text) : Bool :=
  match t.find path with
  | .ok (.file _ _) => true
  | _ => false

def makeDirectory (t : FileTree) (at' : List Text) : FileTree :=
  let missing := ((List.range (at'.length + 1)).map at'.take).filter fun d => !t.isDirectory d
  { t with directories := t.directories ++ missing }

/-- The components of a path from the root, with dots resolved. -/
def locate (t : FileTree) (path : Text) : List Text :=
  components (Path.absolute (pathOf t.cwd) path)

def write (t : FileTree) (path content : Text) : FileTree :=
  let at' := t.locate path
  if t.isDirectory at' then t
  else
    let t := t.makeDirectory at'.dropLast
    { t with files := t.files.filter (fun entry => entry.1 != at') ++ [(at', content)] }

/-- Puts an entry into the tree; a path that ends with a slash is a directory. -/
def put (t : FileTree) (path content : Text) : FileTree :=
  if path.getLast? == some Path.slash then t.makeDirectory (t.locate path)
  else t.write path content

/-- Removes a file, or a directory that nothing stands in. -/
def remove (t : FileTree) (path : Text) : FileTree :=
  let at' := t.locate path
  let inUse := (t.files.map Prod.fst ++ t.directories).any fun other =>
    at'.isPrefixOf other && other != at'
  { t with
    files := t.files.filter fun entry => entry.1 != at'
    directories := if inUse then t.directories else t.directories.filter (· != at') }

/-- The files under the working directory, by their paths from it, in order. -/
def listing (t : FileTree) : List Text :=
  sorted (t.files.filterMap fun entry =>
    if t.cwd.isPrefixOf entry.1 then some (joinWith [Path.slash] (entry.1.drop t.cwd.length))
    else none)

end FileTree
end DeviceScript
