import LimbAnimation.ClipFile.Reader

/-!
# Files

A library reads files through two questions: what a file holds, and which files
a folder holds.  A file tree in memory answers both.
-/

namespace LimbAnimation

/-- A view of a file system; a question that cannot be answered gives the
reason. -/
structure Files where
  /-- The content of the file at a path. -/
  read : String → Except String ClipFile.Bytes
  /-- The paths of the files directly inside a folder. -/
  list : String → Except String (List String)

/-- Files and folders held in memory, each under the names that lead to it. -/
structure FileTree where
  folders : List (List String)
  files : List (List String × ClipFile.Bytes)

namespace FileTree

def empty : FileTree := ⟨[[]], []⟩

/-- The place to which a part of a path leads from a folder. -/
def follow (tree : FileTree) (place : List String) (part : String) : Option (List String) :=
  if place ∈ tree.folders then
    if part = "" ∨ part = "." then some place
    else if part = ".." then (if place = [] then none else some place.dropLast)
    else some (place ++ [part])
  else none

def parts (path : String) : List String :=
  (Text.pieces (· == '/') path.toList).map String.ofList

def place? (tree : FileTree) (path : String) : Option (List String) :=
  if path = "" ∨ path.startsWith "/" then none
  else (parts path).foldlM tree.follow []

def content? (tree : FileTree) (path : String) : Option ClipFile.Bytes :=
  (tree.place? path).bind fun place => (tree.files.find? (·.1 = place)).map (·.2)

def join (path name : String) : String :=
  if path.endsWith "/" then path ++ name else path ++ "/" ++ name

/-- The paths of the files directly inside the folder at a path. -/
def filesIn? (tree : FileTree) (path : String) : Option (List String) :=
  (tree.place? path).bind fun place =>
    if place ∈ tree.folders then
      some (tree.files.filterMap fun (file, _) =>
        file.getLast?.bind fun name =>
          if file.dropLast = place then some (join path name) else none)
    else none

def asFiles (tree : FileTree) : Files where
  read path := match tree.content? path with
    | some content => .ok content
    | none => .error "no such file"
  list path := match tree.filesIn? path with
    | some paths => .ok paths
    | none => .error "no such folder"

/-- The tree with a file written; its folder has to be there. -/
def write (tree : FileTree) (path : String) (content : ClipFile.Bytes) : FileTree :=
  match tree.place? path with
  | some place =>
    if place ∈ tree.folders ∨ place.dropLast ∉ tree.folders then tree
    else { tree with files := (place, content) :: tree.files.filter (·.1 ≠ place) }
  | none => tree

/-- The tree with a folder and all folders above it. -/
def makeFolder (tree : FileTree) (path : String) : FileTree :=
  let names := (parts path).filter fun part => part ≠ "" ∧ part ≠ "."
  (List.range (names.length + 1)).foldl
    (fun tree count =>
      let place := names.take count
      if place ∈ tree.folders then tree else { tree with folders := tree.folders ++ [place] })
    tree

def unlink (tree : FileTree) (path : String) : FileTree :=
  match tree.place? path with
  | some place => { tree with files := tree.files.filter (·.1 ≠ place) }
  | none => tree

end FileTree

end LimbAnimation
