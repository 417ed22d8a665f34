import GlPlayback.Shader.CompileError
import GlPlayback.Text.Blank
import GlPlayback.Text.Numeral

/-!
Shader source on its way to declarations: comments and preprocessor lines are taken out without
moving anything to another line, brackets are checked, and the rest is cut into top-level items.
-/
namespace GlPlayback.Shader

open Text

/-- Where a scan for comments stands. A block comment remembers whether an asterisk came last. -/
inductive CommentScan where
  | code
  | line
  | block (star : Bool)
  deriving DecidableEq, Repr

/-- Leaves out comments. Line feeds stay, and one space marks the end of a block comment, also of
one that the text never closes. -/
def stripCommentsFrom : CommentScan → List Char → List Char
  | .code, '/' :: '/' :: rest => stripCommentsFrom .line rest
  | .code, '/' :: '*' :: rest => stripCommentsFrom (.block false) rest
  | .code, c :: rest => c :: stripCommentsFrom .code rest
  | .line, c :: rest =>
      if c = '\n' then '\n' :: stripCommentsFrom .code rest else stripCommentsFrom .line rest
  | .block star, c :: rest =>
      if star && c == '/' then ' ' :: stripCommentsFrom .code rest
      else if c = '\n' then '\n' :: stripCommentsFrom (.block false) rest
      else stripCommentsFrom (.block (c == '*')) rest
  | .block _, [] => [' ']
  | .code, [] | .line, [] => []

def stripComments (source : List Char) : List Char :=
  stripCommentsFrom .code source

/-- The text of a preprocessor line, behind its mark and blanks. -/
def directive? (line : List Char) : Option (List Char) :=
  (afterMark? ['#'] (trimStart line)).map trimStart

/-- Empties preprocessor lines, the first of which has the number `line`. An `#error` line is a
compile error with the rest of the line as its text. Every line ends in a line feed afterwards. -/
def blankDirectivesFrom (line : Nat) : List (List Char) → Except CompileError (List Char)
  | [] => .ok []
  | text :: rest =>
      match directive? text with
      | some body =>
          match afterMark? "error".toList body with
          | some reason => .error (.errorDirective line (String.ofList (trim reason)))
          | none => do
              let code ← blankDirectivesFrom (line + 1) rest
              return '\n' :: code
      | none => do
          let code ← blankDirectivesFrom (line + 1) rest
          return text ++ '\n' :: code

def blankDirectives (source : List Char) : Except CompileError (List Char) :=
  blankDirectivesFrom 1 (lines source)

/-- Checks that brackets nest, given those still open, the innermost first, with their lines. -/
def checkBracketsFrom (line : Nat) :
    List (Bracket × Nat) → List Char → Except CompileError Unit
  | [], [] => .ok ()
  | (bracket, openedAt) :: _, [] => .error (.unclosed openedAt bracket)
  | stack, c :: rest =>
      if c = '\n' then checkBracketsFrom (line + 1) stack rest
      else match Bracket.ofOpening? c with
        | some bracket => checkBracketsFrom line ((bracket, line) :: stack) rest
        | none =>
            match Bracket.ofClosing? c with
            | none => checkBracketsFrom line stack rest
            | some bracket =>
                match stack with
                | [] => .error (.unmatched line bracket)
                | (innermost, _) :: below =>
                    if innermost = bracket then checkBracketsFrom line below rest
                    else .error (.unmatched line bracket)

def checkBrackets (code : List Char) : Except CompileError Unit :=
  checkBracketsFrom 1 [] code

/-- Some word of the text is followed by the two others, in order. -/
def hasRun (a b c : List Char) : List (List Char) → Bool
  | x :: y :: z :: rest => (x == a && y == b && z == c) || hasRun a b c (y :: z :: rest)
  | _ => false

/-- The entry point shows as the words `void`, `main` and an opening parenthesis. Only blanks and
opening parentheses separate words here. -/
def definesMain (code : List Char) : Bool :=
  let spaced := code.flatMap fun c => if c = '(' then [' ', '(', ' '] else [c]
  hasRun "void".toList "main".toList ['('] (words spaced)

/-- The value of the first `location` entry that holds a number. -/
def locationIn? (qualifiers : List Char) : Option UInt32 :=
  (splitWhere (· == ',') qualifiers).findSome? fun qualifier => do
    let (key, value) ← splitFirst? '=' qualifier
    if trim key = "location".toList then uint32? (trim value) else none

/-- Takes a leading `layout(...)` off a declaration, with the location it asks for. Where there is
none the declaration only loses its leading blanks. -/
def takeLayout (text : List Char) : Option UInt32 × List Char :=
  let trimmed := trimStart text
  match (afterMark? "layout".toList trimmed).map trimStart with
  | some ('(' :: inside) =>
      match splitFirst? ')' inside with
      | some (qualifiers, rest) => (locationIn? qualifiers, rest)
      | none => (none, trimmed)
  | _ => (none, trimmed)

/-- A parenthesis stands before the first brace, so the brace opens a function body. -/
def isFunction (text : List Char) : Bool :=
  match splitFirst? '\x7b' (takeLayout text).2 with
  | some (head, _) => head.contains '('
  | none => false

/-- A top-level piece of a shader: a function with its body, or what a semicolon ends. -/
structure Item where
  /-- The line of the first character that is not blank. -/
  line : Nat
  text : List Char
  /-- Whether a semicolon, which is not part of the text, ended it. -/
  semicolon : Bool
  deriving DecidableEq, Repr

/-- The items of the text and what is left behind the last of them. `started` is the line of the
current item's first visible character, and `taken` its text so far, backwards. -/
def itemsFrom (depth line : Nat) (started : Option Nat) (taken : List Char) :
    List Char → List Item × List Char
  | [] => ([], taken.reverse)
  | c :: rest =>
      let line := if c = '\n' then line + 1 else line
      let started := if isBlank c then started else some (started.getD line)
      if (Bracket.ofOpening? c).isSome then
        itemsFrom (depth + 1) line started (c :: taken) rest
      else if (Bracket.ofClosing? c).isSome then
        let text := (c :: taken).reverse
        if c = '\x7d' ∧ depth - 1 = 0 ∧ isFunction text then
          let more := itemsFrom (depth - 1) line none [] rest
          (⟨started.getD line, text, false⟩ :: more.1, more.2)
        else itemsFrom (depth - 1) line started (c :: taken) rest
      else if c = ';' ∧ depth = 0 then
        let more := itemsFrom depth line none [] rest
        (⟨started.getD line, taken.reverse, true⟩ :: more.1, more.2)
      else itemsFrom depth line started (c :: taken) rest

def items (code : List Char) : List Item :=
  (itemsFrom 0 1 none [] code).1

end GlPlayback.Shader
