import LimbAnimation.Clip.Basic
import LimbAnimation.Text.Blank

/-!
# Paths

A path is a list of parts with slashes between them.  The last two named parts
of a path give the key of the clip in that file.
-/

namespace LimbAnimation

inductive PathPart where
  /-- The root of all folders, in front of an absolute path. -/
  | root
  /-- A single dot in front of a path. -/
  | here
  /-- Two dots. -/
  | above
  /-- The name of a file or a folder. -/
  | name (name : List Char)
  deriving DecidableEq

namespace PathPart

/-- A part that is no leading one: empty parts and single dots do not
matter. -/
def ofPiece? (piece : List Char) : Option PathPart :=
  if piece = [] ∨ piece = ['.'] then none
  else if piece = ['.', '.'] then some .above
  else some (.name piece)

def ofPath (path : List Char) : List PathPart :=
  match Text.pieces (· == '/') path with
  | [] :: piece :: rest => .root :: (piece :: rest).filterMap ofPiece?
  | ['.'] :: rest => .here :: rest.filterMap ofPiece?
  | pieces => pieces.filterMap ofPiece?

def name? : PathPart → Option (List Char)
  | .name file => some file
  | _ => none

/-- A name cut at its last dot; a dot in front cuts nothing. -/
def stemAndExtension (file : List Char) : List Char × Option (List Char) :=
  let reversed := file.reverse
  let extension := (reversed.takeWhile (· != '.')).reverse
  match reversed.dropWhile (· != '.') with
  | '.' :: stem => if stem.isEmpty then (file, none) else (stem.reverse, some extension)
  | _ => (file, none)

end PathPart

namespace ClipKey

def fileExtension : List Char := "anim".toList

/-- Whether the file at a path is taken for a clip, by its extension in any
case. -/
def isClipPath (path : String) : Bool :=
  match ((PathPart.ofPath path.toList).getLast?.bind PathPart.name?).bind fun file =>
      (PathPart.stemAndExtension file).2 with
  | some extension => Text.sameIgnoringCase extension fileExtension
  | none => false

/-- The key of the clip at a path: the name of the file without its extension
and the name of its folder, each empty where there is none. -/
def ofPath (path : String) : ClipKey :=
  let parts := PathPart.ofPath path.toList
  let file := parts.getLast?.bind PathPart.name?
  let folder := parts.dropLast.getLast?.bind PathPart.name?
  { name := String.ofList ((file.map fun file => (PathPart.stemAndExtension file).1).getD [])
    group := String.ofList (folder.getD []) }

end ClipKey

end LimbAnimation
