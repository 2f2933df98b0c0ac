import LimbAnimation.ClipFile.Block
import LimbAnimation.ClipFile.Line

/-!
# Reading clip files

A clip file is read line by line.  The reader keeps what the lines so far have
given: the settings, the block that is open, and the tracks of the closed ones.
A block closes when the next header comes or when the file ends.  The first
faulty line ends the reading.
-/

namespace LimbAnimation.ClipFile

structure Reader where
  key : ClipKey
  lineCount : Nat
  /-- Whether the version line has been read. -/
  versionSeen : Bool
  settings : Settings
  block : Option Block
  body : Option Track
  head : Option Track
  hands : List Track
  restrictions : RestrictionTimeline
  smooth : Bool
  relativeHands : Bool
  deriving DecidableEq

namespace Reader

def start (key : ClipKey) : Reader where
  key := key
  lineCount := 0
  versionSeen := false
  settings := .standard
  block := none
  body := none
  head := none
  hands := []
  restrictions := .empty
  smooth := false
  relativeHands := false

/-- The reader after its open block, if there is one, has become a track. -/
def closed (reader : Reader) : Reader :=
  match reader.block with
  | none => reader
  | some block =>
    let reader := { reader with block := none }
    match block.limb with
    | .body => { reader with body := some block.track }
    | .head => { reader with head := some block.track }
    | .hand _ => { reader with hands := reader.hands ++ [block.track] }

/-- The reader after a header: the open block closes first, and body and head
have one block each. -/
def opened (reader : Reader) (header : Header) : Except Fault Reader :=
  let reader := reader.closed
  let withBlock (limb : Limb) : Reader := { reader with block := some (.start limb) }
  match header with
  | .body =>
    if reader.body.isSome then .error (.duplicateBlock header.word) else .ok (withBlock .body)
  | .head =>
    if reader.head.isSome then .error (.duplicateBlock header.word) else .ok (withBlock .head)
  | .hand => .ok (withBlock (.hand reader.hands.length))

/-- A number of frames in a second: positive and of 32 bits. -/
def fps? (payload : List Char) : Option Nat :=
  (Text.readBounded? 10 (2 ^ (32 : Nat)) payload).filter (0 < ·)

/-- A speed: a positive decimal. -/
def speed? (payload : List Char) : Option Single :=
  (Text.readSingle? payload).filter fun speed => (0 : Single) < speed

/-- The settings after a directive; a speed that is no positive number leaves
the earlier one. -/
def directed (settings : Settings) (directive : Directive) (payload : List Char) :
    Except Fault Settings :=
  match directive with
  | .fps =>
    match fps? payload with
    | some fps => .ok { settings with fps := fps }
    | none => .error (.invalidFps (String.ofList payload))
  | .speed =>
    match speed? payload with
    | some speed => .ok { settings with speed := speed }
    | none => .ok settings
  | .scale =>
    match Text.readSingle? payload with
    | some scale => .ok { settings with scale := scale }
    | none => .error (.invalidScale (String.ofList payload))

def keyframe (reader : Reader) (text : List Char) : Except Fault Reader :=
  match reader.block with
  | none => .error .keyframeOutsideBlock
  | some block => do
    let draft ← Draft.ofLine reader.settings (isHand block.limb) text
    let keyframe ← draft.keyframe reader.settings
    let restrictions := match draft.restrictions with
      | some restrictions => reader.restrictions.add ⟨keyframe.time, restrictions⟩
      | none => reader.restrictions
    return { reader with
      block := some { block with keyframes := block.keyframes ++ [keyframe] }
      restrictions := restrictions }

/-- The reader after a line that is neither blank nor a comment nor the version
line. -/
def entered (reader : Reader) : Line → Except Fault Reader
  | .header header => reader.opened header
  | .directive directive payload =>
    if reader.block.isSome then .error (.directiveInsideBlock directive.word)
    else do
      let settings ← directed reader.settings directive payload
      return { reader with settings := settings }
  | .switch switch =>
    if reader.block.isSome then .error (.directiveInsideBlock switch.word)
    else match switch with
      | .smooth => .ok { reader with smooth := true }
      | .relative => .ok { reader with relativeHands := true }
  | .aim =>
    match reader.block with
    | some block => .ok { reader with block := some { block with followsAim := true } }
    | none => .error (.directiveOutsideBlock "aim")
  | .keyframe text => reader.keyframe text

def fed (reader : Reader) (raw : List Char) : Except Fault Reader :=
  let text := lineText (reader.lineCount == 0) raw
  let reader := { reader with lineCount := reader.lineCount + 1 }
  if isSkipped text then .ok reader
  else if !reader.versionSeen then .ok { reader with versionSeen := true }
  else reader.entered (.ofText text)

/-- The notices when the open block, if there is one, closes. -/
def closingNotices (reader : Reader) : List Notice :=
  match reader.block with
  | some block => block.notices reader.key
  | none => []

/-- The notices for a line that is neither blank nor a comment nor the version
line. -/
def entryNotices (reader : Reader) : Line → List Notice
  | .header _ => reader.closingNotices
  | .directive .speed payload =>
    if reader.block.isNone ∧ (speed? payload).isNone then
      [.speedIgnored reader.key (String.ofList payload) (reader.lineCount + 1)]
    else []
  | _ => []

def lineNotices (reader : Reader) (raw : List Char) : List Notice :=
  let text := lineText (reader.lineCount == 0) raw
  if isSkipped text ∨ !reader.versionSeen then [] else reader.entryNotices (.ofText text)

def longest (tracks : List Track) : Single :=
  tracks.foldl (fun longest track => longest.larger track.duration) 0

def clip (reader : Reader) : Clip :=
  let tracks := reader.body.toList ++ reader.head.toList ++ reader.hands
  { key := reader.key
    body := reader.body
    head := reader.head
    hands := reader.hands
    restrictions := reader.restrictions.sorted
    duration := longest tracks
    smooth := reader.smooth
    relativeHands := reader.relativeHands }

def finished (reader : Reader) : Except FaultyLine Clip :=
  if reader.versionSeen then .ok reader.closed.clip
  else .error ⟨max 1 reader.lineCount, .missingVersion⟩

def endNotices (reader : Reader) : List Notice :=
  if reader.versionSeen then
    let clip := reader.closed.clip
    reader.closingNotices ++ [.clipRead reader.key clip.hands.length clip.duration]
  else []

end Reader

abbrev Bytes := List UInt8

def decode? (line : Bytes) : Option (List Char) :=
  (String.fromUTF8? ⟨line.toArray⟩).map String.toList

namespace Reader

def readLine (reader : Reader) (line : Bytes) : Except FaultyLine Reader :=
  let result := match decode? line with
    | some text => reader.fed text
    | none => .error .notText
  result.mapError fun fault => ⟨reader.lineCount + 1, fault⟩

def notices (reader : Reader) (line : Bytes) : List Notice :=
  match decode? line with
  | some text => reader.lineNotices text
  | none => []

def readLines (reader : Reader) (lines : List Bytes) : Except FaultyLine Reader :=
  lines.foldlM readLine reader

end Reader

def newline : UInt8 := 10

/-- What a source has delivered: a whole file, or some bytes before it failed. -/
inductive Delivery where
  | whole (content : Bytes)
  | interrupted (content : Bytes) (reason : String)

namespace Delivery

/-- The lines that can be read: a last line without a newline counts only when
the file is whole and the line is not empty. -/
def lines : Delivery → List Bytes
  | whole content =>
    let parts := Text.pieces (· == newline) content
    if parts.getLast? = some [] then parts.dropLast else parts
  | interrupted content _ => (Text.pieces (· == newline) content).dropLast

/-- What the reader makes of the end of a delivery. -/
def conclude (delivery : Delivery) (reader : Reader) : Except FaultyLine Clip :=
  match delivery with
  | whole _ => reader.finished
  | interrupted _ reason => .error ⟨reader.lineCount + 1, .readFailed reason⟩

def lastNotices (delivery : Delivery) (reader : Reader) : List Notice :=
  match delivery with
  | whole _ => reader.endNotices
  | interrupted .. => []

def readClip (delivery : Delivery) (key : ClipKey) : Except FaultyLine Clip :=
  ((Reader.start key).readLines delivery.lines).bind delivery.conclude

/-- The notices while some lines and then the end of a delivery are read. -/
def noticesFrom (delivery : Delivery) (reader : Reader) : List Bytes → List Notice
  | [] => delivery.lastNotices reader
  | line :: rest =>
    reader.notices line ++
      match reader.readLine line with
      | .ok reader => delivery.noticesFrom reader rest
      | .error _ => []

def notices (delivery : Delivery) (key : ClipKey) : List Notice :=
  delivery.noticesFrom (.start key) delivery.lines

end Delivery

def readClip (key : ClipKey) (content : Bytes) : Except FaultyLine Clip :=
  (Delivery.whole content).readClip key

end LimbAnimation.ClipFile
