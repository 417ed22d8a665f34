import GlPlayback.Json.Literal
import GlPlayback.Text.Hex

/-!
JSON values as their text gives them: members keep their order and may repeat a name, and numbers
are kept as written. Rendering writes a value back.
-/
namespace GlPlayback

inductive Json where
  | null
  | bool (b : Bool)
  | number (literal : Json.Literal)
  | string (text : String)
  | array (elements : List Json)
  | object (members : List (String × Json))
  /-- A string with half a surrogate pair, or an object with such a member name. It is sound as
  text, but no value can be made of it. -/
  | broken
  deriving Repr, Inhabited

namespace Json

def int (n : Int) : Json :=
  .number (.ofInt n)

def nat (n : Nat) : Json :=
  int n

/-- An optional value, absence being null. -/
def orNull {α : Type} (write : α → Json) : Option α → Json
  | some a => write a
  | none => .null

def list {α : Type} (write : α → Json) (xs : List α) : Json :=
  .array (xs.map write)

/-- A character inside quotes. Only quotes, backslashes and controls are escaped. -/
def escaped (c : Char) : List Char :=
  if c = '"' then ['\\', '"']
  else if c = '\\' then ['\\', '\\']
  else if c = '\n' then ['\\', 'n']
  else if c = '\r' then ['\\', 'r']
  else if c = '\t' then ['\\', 't']
  else if c = '\x08' then ['\\', 'b']
  else if c = '\x0c' then ['\\', 'f']
  else if c.toNat < 0x20 then
    ['\\', 'u', '0', '0', Hex.digit (c.toNat / 16), Hex.digit (c.toNat % 16)]
  else [c]

/-- Appends a text in quotes. -/
def quote (out text : String) : String :=
  (text.foldl (fun out c => (escaped c).foldl String.push out) (out.push '"')).push '"'

mutual

/-- Appends a value without any blanks. -/
def append (out : String) : Json → String
  | .null | .broken => out ++ "null"
  | .bool b => out ++ if b then "true" else "false"
  | .number l => l.text.foldl String.push out
  | .string s => quote out s
  | .array [] => out ++ "[]"
  | .array (x :: xs) => (appendElements (append (out.push '[') x) xs).push ']'
  | .object [] => out ++ "\x7b\x7d"
  | .object ((name, value) :: ms) =>
      (appendMembers (append ((quote (out.push '\x7b') name).push ':') value) ms).push '\x7d'

def appendElements (out : String) : List Json → String
  | [] => out
  | x :: xs => appendElements (append (out.push ',') x) xs

def appendMembers (out : String) : List (String × Json) → String
  | [] => out
  | (name, value) :: ms =>
      appendMembers (append ((quote (out.push ',') name).push ':') value) ms

end

def render (value : Json) : String :=
  append "" value

/-- A new line, indented by two blanks for each level. -/
def breakLine (out : String) (depth : Nat) : String :=
  (List.replicate (2 * depth) ' ').foldl String.push (out.push '\n')

mutual

/-- Appends a value over several lines. Empty containers stay on one. -/
def appendPretty (depth : Nat) (out : String) : Json → String
  | .array (x :: xs) =>
      let body := appendPretty (depth + 1) (breakLine (out.push '[') (depth + 1)) x
      (breakLine (prettyElements (depth + 1) body xs) depth).push ']'
  | .object ((name, value) :: ms) =>
      let label := quote (breakLine (out.push '\x7b') (depth + 1)) name ++ ": "
      let body := appendPretty (depth + 1) label value
      (breakLine (prettyMembers (depth + 1) body ms) depth).push '\x7d'
  | value => append out value

def prettyElements (depth : Nat) (out : String) : List Json → String
  | [] => out
  | x :: xs => prettyElements depth (appendPretty depth (breakLine (out.push ',') depth) x) xs

def prettyMembers (depth : Nat) (out : String) : List (String × Json) → String
  | [] => out
  | (name, value) :: ms =>
      let label := quote (breakLine (out.push ',') depth) name ++ ": "
      prettyMembers depth (appendPretty depth label value) ms

end

def pretty (value : Json) : String :=
  appendPretty 0 "" value

end Json

end GlPlayback
