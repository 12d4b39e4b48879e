import EcosystemSetup.Text.Split

/-!
# File trees

A directory tree as data, and the two questions asked of it: the text of a file and the names in a
directory. Paths are resolved component by component as an operating system does: empty components
and `.` stay where they are, `..` goes up, and every component but the last must be a directory.
-/

namespace EcosystemSetup

/-- Why a path could not be read. -/
inductive FileError where
  | missing
  | isDirectory
  | notDirectory
  | nameTooLong
  | invalidName
  deriving DecidableEq, Repr

/-- The wording of a file error. -/
def FileError.message : FileError → String
  | .missing => "No such file or directory (os error 2)"
  | .isDirectory => "Is a directory (os error 21)"
  | .notDirectory => "Not a directory (os error 20)"
  | .nameTooLong => "File name too long (os error 36)"
  | .invalidName => "file name contained an unexpected NUL byte"

/-- The files of a tree with their texts, and the directories that are listed although they may be
empty; all by path from the top. -/
structure FileTree where
  files : List (List String × String) := []
  folders : List (List String) := []
  /-- The working directory, if the top is the root of all paths. Otherwise the top is the working
  directory, and nothing above it is known. -/
  workDir : Option (List String) := none
  deriving Repr, Inhabited

namespace FileTree

/-- The tree of a list of files by path; a path that ends in a slash is a directory. -/
def ofPaths (entries : List (String × String)) : FileTree :=
  entries.foldl (fun t e =>
    let parts := (Text.segmentsOf e.1 '/').filter (· ≠ "")
    if e.1.endsWith "/" then { t with folders := t.folders ++ [parts] }
    else { t with files := t.files ++ [(parts, e.2)] }) {}

/-- Whether a path from the top is a file. -/
def file? (t : FileTree) (path : List String) : Option String :=
  t.files.lookup path

/-- Whether a path from the top is a directory: the top, a listed one, or one on the way to a file
or a listed directory. -/
def isFolder (t : FileTree) (path : List String) : Bool :=
  path.isEmpty || t.folders.any (fun f => path.isPrefixOf f) ||
    t.files.any fun f => path.isPrefixOf f.1 && path.length < f.1.length

/-- The names found in a directory. -/
def children (t : FileTree) (path : List String) : List String :=
  let below := (t.files.map Prod.fst ++ t.folders).filter fun p =>
    path.isPrefixOf p && path.length < p.length
  (below.filterMap fun p => (p.drop path.length).head?).eraseDups

/-- Where a path leads: to a place in the tree, given by its path from the top, or to a directory
outside of it. -/
inductive Place where
  | inside (path : List String)
  | outside
  deriving DecidableEq

/-- Follows one component of a path. -/
def descend (t : FileTree) (place : Place) (part : String) : Except FileError Place :=
  match place with
  | .outside => if part = "" ∨ part = "." ∨ part = ".." then .ok .outside else .error .missing
  | .inside path =>
    if !t.isFolder path then .error .notDirectory
    else if part = "" ∨ part = "." then .ok place
    else if part = ".." then
      if path.isEmpty && t.workDir.isNone then .ok .outside else .ok (.inside path.dropLast)
    else if 255 < part.utf8ByteSize then .error .nameTooLong
    else
      let next := path ++ [part]
      if t.isFolder next || (t.file? next).isSome then .ok (.inside next) else .error .missing

/-- Where a path given as a text starts. -/
def start (t : FileTree) (path : String) : Place :=
  match t.workDir with
  | none => if path.startsWith "/" then .outside else .inside []
  | some dir => .inside (if path.startsWith "/" then [] else dir)

/-- Follows a path given as a text. -/
def locate (t : FileTree) (path : String) : Except FileError Place :=
  if path.toList.contains '\x00' then .error .invalidName
  else if path = "" then .error .missing
  else (Text.segmentsOf path '/').foldlM t.descend (t.start path)

/-- The text of a file. -/
def read (t : FileTree) (path : String) : Except FileError String :=
  match t.locate path with
  | .error e => .error e
  | .ok .outside => .error .isDirectory
  | .ok (.inside p) =>
    match t.file? p with
    | some text => .ok text
    | none => .error .isDirectory

/-- The names in a directory. -/
def list (t : FileTree) (path : String) : Except FileError (List String) :=
  match t.locate path with
  | .error e => .error e
  | .ok .outside => .ok []
  | .ok (.inside p) => if t.isFolder p then .ok (t.children p) else .error .notDirectory

/-- A path below another; an absolute one replaces it. -/
def join (base path : String) : String :=
  if path.startsWith "/" then path
  else if base = "" ∨ base.endsWith "/" then base ++ path
  else base ++ "/" ++ path

end FileTree

end EcosystemSetup
