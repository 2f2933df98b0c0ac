/-!
# Blanks, pieces and words

Text is handled as a list of characters.  A character is blank when it has the
Unicode property `White_Space`.  Words are the longest runs without a blank.
-/

namespace LimbAnimation.Text

/-- The Unicode property `White_Space`. -/
def isBlank (character : Char) : Bool :=
  let code := character.toNat
  (9 ≤ code && code ≤ 13) || code == 0x20 || code == 0x85 || code == 0xA0 ||
    code == 0x1680 || (0x2000 ≤ code && code ≤ 0x200A) || code == 0x2028 ||
    code == 0x2029 || code == 0x202F || code == 0x205F || code == 0x3000

def trim (text : List Char) : List Char :=
  (text.dropWhile isBlank).reverse.dropWhile isBlank |>.reverse

/-- The parts of a list between separating elements, empty ones included; there
is always at least one part. -/
def pieces (separates : α → Bool) : List α → List (List α)
  | [] => [[]]
  | head :: rest =>
    match separates head, pieces separates rest with
    | true, parts => [] :: parts
    | false, [] => [[head]]
    | false, part :: parts => (head :: part) :: parts

/-- The longest runs of characters that are not blank. -/
def words (text : List Char) : List (List Char) :=
  (pieces isBlank text).filter (!·.isEmpty)

/-- Equality of texts up to the case of ASCII letters. -/
def sameIgnoringCase (left right : List Char) : Bool :=
  left.map Char.toLower == right.map Char.toLower

/-- What follows `start` in a text that begins with it. -/
def dropPrefix? [DecidableEq α] : (start text : List α) → Option (List α)
  | [], text => some text
  | _ :: _, [] => none
  | expected :: start, head :: text =>
    if expected = head then dropPrefix? start text else none

/-- What precedes `ending` in a text that ends with it. -/
def dropSuffix? [DecidableEq α] (ending text : List α) : Option (List α) :=
  (dropPrefix? ending.reverse text.reverse).map List.reverse

end LimbAnimation.Text
