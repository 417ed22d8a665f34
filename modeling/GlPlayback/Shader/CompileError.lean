/-!
Why a shader does not compile, and the line that its info log shows for it.
-/
namespace GlPlayback

inductive Bracket where
  | brace
  | paren
  | square
  deriving DecidableEq, Repr

namespace Bracket

def opening : Bracket → Char
  | brace => '\x7b'
  | paren => '('
  | square => '['

def closing : Bracket → Char
  | brace => '\x7d'
  | paren => ')'
  | square => ']'

def ofOpening? (c : Char) : Option Bracket :=
  if c = opening brace then some brace
  else if c = opening paren then some paren
  else if c = opening square then some square
  else none

def ofClosing? (c : Char) : Option Bracket :=
  if c = closing brace then some brace
  else if c = closing paren then some paren
  else if c = closing square then some square
  else none

end Bracket

inductive CompileError where
  /-- An `#error` line, with its text. -/
  | errorDirective (line : Nat) (text : String)
  /-- A closing bracket that does not match. -/
  | unmatched (line : Nat) (bracket : Bracket)
  /-- A bracket that is still open at the end. -/
  | unclosed (line : Nat) (bracket : Bracket)
  | noMain
  /-- A declaration that stops making sense at a token. -/
  | unexpected (line : Nat) (token : String)
  deriving DecidableEq, Repr

namespace CompileError

def note (line : Nat) (token text : String) : String :=
  "ERROR: 0:" ++ toString line ++ ": '" ++ token ++ "' : " ++ text

/-- The info log. Line 0 stands for the shader as a whole. -/
def message : CompileError → String
  | errorDirective line text => note line "#error" text
  | unmatched line bracket => note line (String.singleton bracket.closing) "syntax error"
  | unclosed line bracket =>
      note line (String.singleton bracket.opening) "syntax error, unexpected end of file"
  | noMain => note 0 "main" "function not defined"
  | unexpected line token => note line token "syntax error"

end CompileError

end GlPlayback
