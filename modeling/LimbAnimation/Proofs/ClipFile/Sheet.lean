import LimbAnimation.ClipFile.Reader
import Mathlib.Data.List.Forall2

/-!
# The grammar of clip files

A clip file is the spelling of a sheet: after the version line come settings, and
then passages, each a header with the entries of one block.  The clip of a sheet is
computed passage by passage, without regard to the order of reading.
-/

namespace LimbAnimation.ClipFile

/-- What a line says, given its text. -/
inductive Spells : List Char → Line → Prop where
  /-- A directive is told by the first word; the second one is its payload. -/
  | directive {text : List Char} {more : List (List Char)} (directive : Directive) :
      Text.words text = directive.word.toList :: more →
      Spells text (.directive directive (more.head?.getD []))
  /-- The other keywords fill the line. -/
  | header (header : Header) : Spells header.word.toList (.header header)
  | switch (switch : Switch) : Spells switch.word.toList (.switch switch)
  | aim : Spells "aim".toList .aim
  | keyframe {text : List Char} :
      (∀ (directive : Directive) more, Text.words text ≠ directive.word.toList :: more) →
      (∀ header : Header, text ≠ header.word.toList) →
      (∀ switch : Switch, text ≠ switch.word.toList) → text ≠ "aim".toList →
      Spells text (.keyframe text)

/-- The texts that are neither blank nor comments. -/
def significant : List (List Char) → List (List Char)
  | [] => []
  | first :: rest =>
    (lineText true first :: rest.map (lineText false)).filter fun text => !isSkipped text

/-- A line before the first header. -/
inductive Setting where
  | directive (directive : Directive) (payload : List Char)
  | switch (switch : Switch)
  deriving DecidableEq

/-- A line within a block. -/
inductive Entry where
  | aim
  | keyframe (text : List Char)
  deriving DecidableEq

/-- A block: its header and the lines up to the next one. -/
structure Passage where
  header : Header
  entries : List Entry

structure Sheet where
  settings : List Setting
  passages : List Passage

def Setting.line : Setting → Line
  | directive name payload => .directive name payload
  | switch name => .switch name

def Entry.line : Entry → Line
  | aim => .aim
  | keyframe text => .keyframe text

def Passage.lines (passage : Passage) : List Line :=
  .header passage.header :: passage.entries.map Entry.line

def Sheet.lines (sheet : Sheet) : List Line :=
  sheet.settings.map Setting.line ++ sheet.passages.flatMap Passage.lines

namespace Setting

/-- The number that a directive of the given name sets, if the line is one and
its payload can be read. -/
def value? {α : Type} (name : Directive) (read? : List Char → Option α) : Setting → Option α
  | directive other payload => if other = name then read? payload else none
  | switch _ => none

/-- Whether a line before the first header can be read: a speed always can. -/
def Readable : Setting → Prop
  | directive .fps payload => (Reader.fps? payload).isSome
  | directive .scale payload => (Text.readSingle? payload).isSome
  | directive .speed _ => True
  | switch _ => True

end Setting

/-- The last number that a directive has set, or the given one. -/
def lastValue {α : Type} (settings : List Setting) (name : Directive)
    (read? : List Char → Option α) (standard : α) : α :=
  (settings.filterMap (Setting.value? name read?)).getLast?.getD standard

/-- The numbers that the settings leave in force. -/
def inForce (standard : Settings) (settings : List Setting) : Settings where
  fps := lastValue settings .fps Reader.fps? standard.fps
  speed := lastValue settings .speed Reader.speed? standard.speed
  scale := lastValue settings .scale Text.readSingle? standard.scale

structure Note where
  keyframe : Keyframe
  restrictions : Option Restrictions

def Note.entry? (note : Note) : Option RestrictionEntry :=
  note.restrictions.map fun restrictions => ⟨note.keyframe.time, restrictions⟩

/-- What a keyframe line notes, if it is well-formed. -/
def note? (numbers : Settings) (inHand : Bool) (text : List Char) : Option Note :=
  Except.toOption do
    let draft ← Draft.ofLine numbers inHand text
    let keyframe ← draft.keyframe numbers
    return ⟨keyframe, draft.restrictions⟩

/-- What the keyframe lines among some entries note. -/
def notes (numbers : Settings) (inHand : Bool) : List Entry → List Note
  | [] => []
  | .aim :: rest => notes numbers inHand rest
  | .keyframe text :: rest => (note? numbers inHand text).toList ++ notes numbers inHand rest

/-- All keyframe lines among some entries are well-formed. -/
def AllNoted (numbers : Settings) (inHand : Bool) (entries : List Entry) : Prop :=
  ∀ text, .keyframe text ∈ entries → (note? numbers inHand text).isSome

namespace Passage

def inHand (passage : Passage) : Bool := passage.header == .hand

def Readable (numbers : Settings) (passage : Passage) : Prop :=
  AllNoted numbers passage.inHand passage.entries

def notes (numbers : Settings) (passage : Passage) : List Note :=
  ClipFile.notes numbers passage.inHand passage.entries

def block (numbers : Settings) (limb : Limb) (passage : Passage) : Block where
  limb := limb
  followsAim := decide (.aim ∈ passage.entries)
  keyframes := (passage.notes numbers).map Note.keyframe

def track (numbers : Settings) (limb : Limb) (passage : Passage) : Track :=
  (passage.block numbers limb).track

/-- The restrictions that the passage gives, in the order of its lines. -/
def restrictions (numbers : Settings) (passage : Passage) : List RestrictionEntry :=
  (passage.notes numbers).filterMap Note.entry?

end Passage

def headed (header : Header) (passages : List Passage) : List Passage :=
  passages.filter fun passage => passage.header = header

namespace Sheet

/-- The numbers by which the keyframes are converted. -/
def numbers (sheet : Sheet) : Settings := inForce .standard sheet.settings

structure WellFormed (sheet : Sheet) : Prop where
  settings : ∀ setting ∈ sheet.settings, setting.Readable
  oneBody : (headed .body sheet.passages).length ≤ 1
  oneHead : (headed .head sheet.passages).length ≤ 1
  passages : ∀ passage ∈ sheet.passages, passage.Readable sheet.numbers

def clip (key : ClipKey) (sheet : Sheet) : Clip :=
  let body := (headed .body sheet.passages).head?.map (Passage.track sheet.numbers .body)
  let head := (headed .head sheet.passages).head?.map (Passage.track sheet.numbers .head)
  let hands := (headed .hand sheet.passages).mapIdx fun index passage =>
    passage.track sheet.numbers (.hand index)
  { key := key
    body := body
    head := head
    hands := hands
    restrictions :=
      RestrictionTimeline.sorted ⟨sheet.passages.flatMap (Passage.restrictions sheet.numbers)⟩
    duration := Reader.longest (body.toList ++ head.toList ++ hands)
    smooth := decide (.switch .smooth ∈ sheet.settings)
    relativeHands := decide (.switch .relative ∈ sheet.settings) }

/-- A file that is written after a sheet: all its lines are text, and those that
are neither blank nor comments are a version line and the lines of the sheet. -/
def Written (content : Bytes) (sheet : Sheet) : Prop :=
  ∃ texts version rest,
    (Delivery.whole content).lines.mapM decode? = some texts ∧
      significant texts = version :: rest ∧ List.Forall₂ Spells rest sheet.lines

end Sheet

end LimbAnimation.ClipFile
