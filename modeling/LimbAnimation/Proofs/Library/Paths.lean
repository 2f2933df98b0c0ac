import LimbAnimation.Proofs.Library.Loads
import LimbAnimation.Proofs.Text.Numeral
import LimbAnimation.Proofs.Text.Pieces
import Mathlib.Data.List.Forall2

/-!
# Paths and keys

The path of a clip file ends in the name of its folder and the name of the file, and these
two are its key.  Further slashes, and single dots between slashes, change neither: paths
have one key exactly when folder and name are the same.
-/

namespace LimbAnimation

namespace PathPart

/-- The name of a folder: no slash is in it, and it is neither of the two that lead elsewhere. -/
structure IsFolder (folder : List Char) : Prop where
  nonempty : folder ≠ []
  noSlash : '/' ∉ folder
  notHere : folder ≠ ['.']
  notAbove : folder ≠ ['.', '.']

/-- Paths with slashes repeated, single dots put between slashes, or a slash added at the end,
with a dot behind it or without. -/
inductive Respells (path : List Char) : List Char → Prop where
  | same : Respells path path
  | slash {front rest : List Char} : Respells path (front ++ '/' :: rest) →
      Respells path (front ++ '/' :: '/' :: rest)
  | dot {front rest : List Char} : Respells path (front ++ '/' :: rest) →
      Respells path (front ++ '/' :: '.' :: '/' :: rest)
  | slashAtEnd {given : List Char} : Respells path given → Respells path (given ++ ['/'])
  | dotAtEnd {given : List Char} : Respells path given → Respells path (given ++ ['/', '.'])

variable {path given first : List Char} {others later : List (List Char)}

/-- What stands in front of the first slash of a path; nothing does when the path begins with
the slash. -/
def leading (first : List Char) (rest : List (List Char)) : List PathPart :=
  if first = [] ∧ rest ≠ [] then [.root]
  else if first = ['.'] then [.here]
  else (ofPiece? first).toList

theorem ofPath_eq (cut : Text.pieces (· == '/') path = first :: others) :
    ofPath path = leading first others ++ others.filterMap ofPiece? := by
  rw [ofPath, cut]
  split
  next piece rest same =>
      cases same
      rfl
  next rest same =>
      cases same
      rfl
  next pieces notRoot notHere =>
      have noRoot : ¬ (first = [] ∧ others ≠ []) := by
        rintro ⟨rfl, some⟩
        obtain ⟨piece, rest, rfl⟩ := List.exists_cons_of_ne_nil some
        exact notRoot piece rest rfl
      have noDot : first ≠ ['.'] := by
        rintro rfl
        exact notHere others rfl
      rw [leading, if_neg noRoot, if_neg noDot, List.filterMap_cons]
      cases ofPiece? first <;> rfl

theorem pieces_ne_singleton_nil (nonempty : path ≠ []) : Text.pieces (· == '/') path ≠ [[]] := by
  have only : ∀ character, (character == '/') = true → character = '/' :=
    fun _ same => eq_of_beq same
  intro alone
  have whole := Text.intercalate_pieces only path
  rw [alone] at whole
  exact nonempty whole.symm

/-- A further piece that is no part changes nothing. -/
theorem ofPath_insert {before : List (List Char)} {piece : List Char} (nonempty : path ≠ [])
    (some : before ≠ []) (cut : Text.pieces (· == '/') path = before ++ later)
    (cutGiven : Text.pieces (· == '/') given = before ++ piece :: later)
    (noPart : ofPiece? piece = none) : ofPath given = ofPath path := by
  obtain ⟨first, others, rfl⟩ := List.exists_cons_of_ne_nil some
  rw [List.cons_append] at cut cutGiven
  have start : leading first (others ++ piece :: later) = leading first (others ++ later) := by
    by_cases atRoot : first = []
    · have other := pieces_ne_singleton_nil nonempty
      rw [cut, atRoot, ne_eq, List.cons.injEq, not_and] at other
      simp [leading, atRoot, other rfl]
    · simp [leading, atRoot]
  rw [ofPath_eq cut, ofPath_eq cutGiven, start, List.filterMap_append, List.filterMap_append,
    List.filterMap_cons_none noPart]

theorem pieces_append_slash (front rest : List Char) :
    Text.pieces (· == '/') (front ++ '/' :: rest) =
      Text.pieces (· == '/') front ++ Text.pieces (· == '/') rest :=
  Text.pieces_append_separator rfl front rest

theorem pieces_ne_nil (path : List Char) : Text.pieces (· == '/') path ≠ [] := by
  obtain ⟨first, others, cut⟩ := Text.exists_pieces_eq_cons (· == '/') path
  rw [cut]
  exact List.cons_ne_nil first others

/-- What is spelled another way has the same parts. -/
theorem Respells.ofPath_eq (respells : Respells path given) (nonempty : path ≠ []) :
    given ≠ [] ∧ ofPath given = ofPath path := by
  have nothing : ofPiece? [] = none := by decide
  have single : ofPiece? ['.'] = none := by decide
  induction respells with
  | same => exact ⟨nonempty, rfl⟩
  | @slash front rest _ ih =>
      obtain ⟨some, same⟩ := ih
      have inserted : Text.pieces (· == '/') (front ++ '/' :: '/' :: rest) =
          Text.pieces (· == '/') front ++ [] :: Text.pieces (· == '/') rest := by
        rw [pieces_append_slash, Text.pieces_cons_of_separates rfl]
      have kept := ofPath_insert some (pieces_ne_nil front) (pieces_append_slash front rest)
        inserted nothing
      exact ⟨by simp, kept.trans same⟩
  | @dot front rest _ ih =>
      obtain ⟨some, same⟩ := ih
      have inserted : Text.pieces (· == '/') (front ++ '/' :: '.' :: '/' :: rest) =
          Text.pieces (· == '/') front ++ ['.'] :: Text.pieces (· == '/') rest := by
        rw [pieces_append_slash, ← List.singleton_append, pieces_append_slash]
        rfl
      have kept := ofPath_insert some (pieces_ne_nil front) (pieces_append_slash front rest)
        inserted single
      exact ⟨by simp, kept.trans same⟩
  | @slashAtEnd given _ ih =>
      obtain ⟨some, same⟩ := ih
      have kept := ofPath_insert some (pieces_ne_nil given) (List.append_nil _).symm
        (pieces_append_slash given []) nothing
      exact ⟨by simp, kept.trans same⟩
  | @dotAtEnd given _ ih =>
      obtain ⟨some, same⟩ := ih
      have kept := ofPath_insert some (pieces_ne_nil given) (List.append_nil _).symm
        (pieces_append_slash given ['.']) single
      exact ⟨by simp, kept.trans same⟩

theorem pieces_of_noSlash {piece : List Char} (noSlash : '/' ∉ piece) :
    Text.pieces (· == '/') piece = [piece] := by
  apply Text.pieces_of_none
  intro character member
  rw [beq_eq_false_iff_ne]
  rintro rfl
  exact noSlash member

theorem IsFolder.ofPiece? {folder : List Char} (isFolder : IsFolder folder) :
    ofPiece? folder = some (.name folder) := by
  rw [PathPart.ofPiece?, if_neg (by simp [isFolder.nonempty, isFolder.notHere]),
    if_neg isFolder.notAbove]

/-- A path that goes through a folder to a file ends in their names. -/
theorem ofPath_folder_file {directory folder file : List Char}
    (isDirectory : directory = [] ∨ ∃ outer, directory = outer ++ ['/'])
    (isFolder : IsFolder folder) (isFile : IsFolder file) :
    ∃ outer, ofPath (directory ++ folder ++ '/' :: file) = outer ++ [.name folder, .name file] := by
  have ending : Text.pieces (· == '/') (folder ++ '/' :: file) = [folder, file] := by
    rw [pieces_append_slash, pieces_of_noSlash isFolder.noSlash, pieces_of_noSlash isFile.noSlash]
    rfl
  rcases isDirectory with rfl | ⟨outer, rfl⟩
  · refine ⟨[], ?_⟩
    rw [List.nil_append, PathPart.ofPath_eq ending, leading, if_neg (by simp [isFolder.nonempty]),
      if_neg isFolder.notHere, isFolder.ofPiece?]
    simp [isFile.ofPiece?]
  · obtain ⟨first, others, cut⟩ := Text.exists_pieces_eq_cons (· == '/') outer
    have whole : Text.pieces (· == '/') (outer ++ ['/'] ++ folder ++ '/' :: file) =
        first :: (others ++ [folder, file]) := by
      rw [List.append_assoc, List.append_assoc, List.singleton_append, pieces_append_slash, cut,
        ending, List.cons_append]
    refine ⟨leading first (others ++ [folder, file]) ++ others.filterMap PathPart.ofPiece?, ?_⟩
    rw [PathPart.ofPath_eq whole, List.filterMap_append, List.append_assoc]
    simp [isFolder.ofPiece?, isFile.ofPiece?]

/-- A name is cut in front of its last dot. -/
theorem stemAndExtension_append {stem extension : List Char} (nonempty : stem ≠ [])
    (noDot : '.' ∉ extension) :
    stemAndExtension (stem ++ '.' :: extension) = (stem, some extension) := by
  have plain : ∀ character ∈ extension.reverse, (character != '.') = true := by
    intro character member
    rw [bne_iff_ne]
    rintro rfl
    exact noDot (List.mem_reverse.mp member)
  have reversed :
      (stem ++ '.' :: extension).reverse = extension.reverse ++ '.' :: stem.reverse := by
    simp
  have tail : ('.' :: stem.reverse).takeWhile (· != '.') = [] := rfl
  have rest : ('.' :: stem.reverse).dropWhile (· != '.') = '.' :: stem.reverse := rfl
  simp only [stemAndExtension, reversed, List.takeWhile_append_of_pos plain,
    List.dropWhile_append_of_pos plain, tail, rest, List.append_nil, List.reverse_reverse,
    List.isEmpty_reverse, List.isEmpty_iff, nonempty, if_false]

end PathPart

/-- What has been loaded is found under the key of its path. -/
theorem Library.get?_loadFile {library : Library} {files : Files} {path : String} {clip : Clip}
    (loaded : (library.loadFile files path).result = .ok clip) :
    (library.loadFile files path).library.get? (.ofPath path) = some clip := by
  cases found : library.get? (.ofPath path) with
  | some present =>
      rw [loadFile_of_present found] at loaded ⊢
      cases loaded
      exact found
  | none =>
      have stores := loadFile_of_absent found files
      rw [stores.result] at loaded
      rw [stores.library, loaded, keeping, get?_insert, Files.key_of_clip loaded, if_pos rfl]

/-- Where a clip file lies: in some directory, in a folder there, under a name with the
extension of clips, each letter of which may be a small or a capital one. -/
structure ClipPlace where
  directory : String
  group : String
  name : String
  extension : String
  isDirectory : directory = "" ∨ ∃ outer, directory = outer ++ "/"
  isFolder : PathPart.IsFolder group.toList
  isName : name ≠ "" ∧ '/' ∉ name.toList
  inAnyCase : List.Forall₂ (fun letter given => given = letter ∨ given = letter.toUpper)
    ClipKey.fileExtension extension.toList

namespace ClipPlace

variable (place : ClipPlace)

def file : List Char := place.name.toList ++ '.' :: place.extension.toList

def path : String :=
  place.directory ++ place.group ++ "/" ++ place.name ++ "." ++ place.extension

def key : ClipKey := ⟨place.name, place.group⟩

/-- Whether a path leads to the place, spelled with further slashes and dots or without. -/
def IsReachedBy (path : String) : Prop := PathPart.Respells place.path.toList path.toList

theorem path_toList : place.path.toList =
    place.directory.toList ++ place.group.toList ++ '/' :: place.file := by
  simp [path, file, String.toList_append]

theorem directory_toList : place.directory.toList = [] ∨
    ∃ outer, place.directory.toList = outer ++ ['/'] := by
  rcases place.isDirectory with none | ⟨outer, ends⟩
  · exact .inl (String.toList_eq_nil_iff.mpr none)
  · refine .inr ⟨outer.toList, ?_⟩
    rw [ends, String.toList_append]
    rfl

/-- The letters of an extension, in whatever case, tell no part of a path from another. -/
theorem extension_plain : '.' ∉ place.extension.toList ∧ '/' ∉ place.extension.toList := by
  have plain : ∀ letter ∈ ClipKey.fileExtension, ∀ mark ∈ ['.', '/'],
      mark ≠ letter ∧ mark ≠ letter.toUpper := by decide
  have absent : ∀ mark ∈ ['.', '/'], mark ∉ place.extension.toList := by
    intro mark isMark member
    obtain ⟨index, inside, same⟩ := List.mem_iff_getElem.mp member
    have known : index < ClipKey.fileExtension.length := place.inAnyCase.length_eq ▸ inside
    have letter := place.inAnyCase.get known inside
    obtain ⟨notSmall, notLarge⟩ := plain _ (List.getElem_mem known) mark isMark
    rw [List.get_eq_getElem, List.get_eq_getElem, same] at letter
    exact letter.elim notSmall notLarge
  exact ⟨absent '.' (by decide), absent '/' (by decide)⟩

theorem sameIgnoringCase_extension :
    Text.sameIgnoringCase place.extension.toList ClipKey.fileExtension = true := by
  have lower : ∀ letter ∈ ClipKey.fileExtension, letter.toUpper.toLower = letter.toLower := by
    decide
  rw [Text.sameIgnoringCase, beq_iff_eq]
  have matched := place.inAnyCase
  generalize place.extension.toList = extension at matched ⊢
  generalize ClipKey.fileExtension = letters at matched lower ⊢
  induction matched with
  | nil => rfl
  | cons here _ ih =>
      obtain ⟨own, others⟩ := List.forall_mem_cons.mp lower
      rw [List.map_cons, List.map_cons, ih others]
      rcases here with rfl | rfl
      · rfl
      · rw [own]

theorem file_isFolder : PathPart.IsFolder place.file := by
  have length : place.file.length = place.name.toList.length + 5 := by
    rw [file, List.length_append, List.length_cons, ← place.inAnyCase.length_eq]
    rfl
  constructor
  · intro none
    rw [none] at length
    cases length
  · simp [file, place.isName.2, place.extension_plain.2]
  · intro here
    rw [here] at length
    cases length
  · intro above
    rw [above] at length
    cases length

/-- Every spelling of the path ends in the folder and the file. -/
theorem IsReachedBy.ofPath_eq {place : ClipPlace} {path : String}
    (reached : place.IsReachedBy path) :
    ∃ outer, PathPart.ofPath path.toList =
      outer ++ [.name place.group.toList, .name place.file] := by
  have nonempty : place.path.toList ≠ [] := by
    rw [path_toList]
    simp
  rw [(PathPart.Respells.ofPath_eq reached nonempty).2, path_toList]
  exact PathPart.ofPath_folder_file place.directory_toList place.isFolder place.file_isFolder

theorem IsReachedBy.isClipPath_and_key {place : ClipPlace} {path : String}
    (reached : place.IsReachedBy path) :
    ClipKey.isClipPath path = true ∧ ClipKey.ofPath path = place.key := by
  obtain ⟨outer, parts⟩ := reached.ofPath_eq
  have cut : PathPart.stemAndExtension place.file =
      (place.name.toList, some place.extension.toList) :=
    PathPart.stemAndExtension_append (mt String.toList_eq_nil_iff.mp place.isName.1)
      place.extension_plain.1
  have file : (PathPart.ofPath path.toList).getLast? = some (.name place.file) := by
    simp [parts]
  have folder : (PathPart.ofPath path.toList).dropLast.getLast? =
      some (.name place.group.toList) := by
    simp [parts]
  constructor
  · simp [ClipKey.isClipPath, file, PathPart.name?, cut, place.sameIgnoringCase_extension]
  · simp [ClipKey.ofPath, file, folder, PathPart.name?, cut, key]

/-- A path to a clip file is taken for one, and its key is the name of the file in the folder.
So two such paths have one key exactly when both names are the same, and then what is loaded
through the one is there for the other. -/
theorem paths_correspond_to_keys :
    (∀ (place : ClipPlace) (path : String), place.IsReachedBy path →
      ClipKey.isClipPath path = true ∧ ClipKey.ofPath path = ⟨place.name, place.group⟩) ∧
      ∀ (place other : ClipPlace) (path otherPath : String), place.IsReachedBy path →
        other.IsReachedBy otherPath →
          (ClipKey.ofPath path = ClipKey.ofPath otherPath ↔
            place.name = other.name ∧ place.group = other.group) ∧
            (place.name = other.name → place.group = other.group →
              ∀ (library : Library) (files laterFiles : Files) (clip : Clip),
                let attempt := library.loadFile files path
                attempt.result = .ok clip →
                  attempt.library.loadFile laterFiles otherPath =
                    ⟨attempt.library, .ok clip, []⟩) := by
  refine ⟨fun place path reached => reached.isClipPath_and_key, ?_⟩
  intro place other path otherPath reached otherReached
  have keys : ClipKey.ofPath path = ClipKey.ofPath otherPath ↔
      place.name = other.name ∧ place.group = other.group := by
    rw [reached.isClipPath_and_key.2, otherReached.isClipPath_and_key.2, key, key,
      ClipKey.mk.injEq]
  refine ⟨keys, ?_⟩
  intro sameName sameGroup library files laterFiles clip attempt loaded
  have found := Library.get?_loadFile loaded
  rw [keys.mpr ⟨sameName, sameGroup⟩] at found
  exact Library.loadFile_of_present found laterFiles

/-- A name with dots in it, one of them in front. -/
def hiddenWalk (directory extension : String)
    (isDirectory : directory = "" ∨ ∃ outer, directory = outer ++ "/")
    (inAnyCase : List.Forall₂ (fun letter given => given = letter ∨ given = letter.toUpper)
      ClipKey.fileExtension extension.toList) : ClipPlace where
  directory := directory
  group := "guard"
  name := ".walk.v2"
  extension := extension
  isDirectory := isDirectory
  isFolder := ⟨by decide, by decide, by decide, by decide⟩
  isName := by decide
  inAnyCase := inAnyCase

theorem hidden_walk_has_one_key :
    let place := hiddenWalk "clips/" "aNIM" (.inr ⟨"clips", by decide⟩) (by decide)
    let other := hiddenWalk "" "anim" (.inl rfl) (by decide)
    place.IsReachedBy "clips//./guard/.walk.v2.aNIM/." ∧
      other.IsReachedBy "guard/.walk.v2.anim" ∧
        ClipKey.ofPath "clips//./guard/.walk.v2.aNIM/." = ⟨".walk.v2", "guard"⟩ ∧
          ClipKey.ofPath "clips//./guard/.walk.v2.aNIM/." =
            ClipKey.ofPath "guard/.walk.v2.anim" := by
  intro place other
  have plain : PathPart.Respells place.path.toList
      ("clips".toList ++ '/' :: "guard/.walk.v2.aNIM".toList) := by
    have same : place.path.toList = "clips".toList ++ '/' :: "guard/.walk.v2.aNIM".toList := by
      decide
    rw [← same]
    exact .same
  have reached : place.IsReachedBy "clips//./guard/.walk.v2.aNIM/." :=
    .dotAtEnd (@PathPart.Respells.dot _ "clips/".toList "guard/.walk.v2.aNIM".toList plain.slash)
  have otherReached : other.IsReachedBy "guard/.walk.v2.anim" := by
    have same : "guard/.walk.v2.anim".toList = other.path.toList := by decide
    rw [IsReachedBy, same]
    exact .same
  obtain ⟨found, correspond⟩ := paths_correspond_to_keys
  exact ⟨reached, otherReached, (found place _ reached).2,
    (correspond place other _ _ reached otherReached).1.mpr ⟨rfl, rfl⟩⟩

end ClipPlace

end LimbAnimation
