/-!
Blank characters, and the cutting of text into trimmed pieces, words and lines. Text that is
scanned is a list of characters here, so that every function is a recursion on the list.
-/
namespace GlPlayback.Text

/-- Blank means Unicode's `White_Space` property. -/
def isBlank (c : Char) : Bool :=
  let n := c.toNat
  (9 ≤ n && n ≤ 13) || n == 0x20 || n == 0x85 || n == 0xA0 || n == 0x1680 ||
    (0x2000 ≤ n && n ≤ 0x200A) || n == 0x2028 || n == 0x2029 || n == 0x202F ||
    n == 0x205F || n == 0x3000

def trimStart (s : List Char) : List Char :=
  s.dropWhile isBlank

def trimEnd (s : List Char) : List Char :=
  (s.reverse.dropWhile isBlank).reverse

def trim (s : List Char) : List Char :=
  trimEnd (trimStart s)

/-- What follows `mark` when the text starts with it. -/
def afterMark? : (mark text : List Char) → Option (List Char)
  | [], text => some text
  | _ :: _, [] => none
  | m :: ms, c :: cs => if m = c then afterMark? ms cs else none

/-- The pieces between the characters that satisfy `p`; never empty. -/
def splitWhere (p : Char → Bool) : List Char → List (List Char)
  | [] => [[]]
  | c :: rest =>
      match splitWhere p rest with
      | [] => [[]]
      | piece :: pieces => if p c then [] :: piece :: pieces else (c :: piece) :: pieces

/-- The two sides of the first `mark`, which itself belongs to neither. -/
def splitFirst? (mark : Char) : List Char → Option (List Char × List Char)
  | [] => none
  | c :: rest =>
      if c = mark then some ([], rest)
      else (splitFirst? mark rest).map fun (before, after) => (c :: before, after)

/-- The two sides of the last `mark`, which itself belongs to neither. -/
def splitLast? (mark : Char) : List Char → Option (List Char × List Char)
  | [] => none
  | c :: rest =>
      match splitLast? mark rest with
      | some (before, after) => some (c :: before, after)
      | none => if c = mark then some ([], rest) else none

def words (s : List Char) : List (List Char) :=
  (splitWhere isBlank s).filter fun piece => !piece.isEmpty

def unwords : List (List Char) → List Char
  | [] => []
  | [w] => w
  | w :: ws => w ++ ' ' :: unwords ws

/-- A line ends at a line feed, and a carriage return right before that belongs to the end. -/
def dropCarriageReturn (line : List Char) : List Char :=
  match line.reverse with
  | '\r' :: rest => rest.reverse
  | _ => line

/-- The lines of a text. An unterminated last line counts unless it is empty. -/
def lines (s : List Char) : List (List Char) :=
  let pieces := splitWhere (· == '\n') s
  let last := pieces.getLastD []
  pieces.dropLast.map dropCarriageReturn ++ if last.isEmpty then [] else [last]

end GlPlayback.Text
