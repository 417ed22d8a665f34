import GlPlayback.Json.Basic

/-!
Reading JSON text, strictly: one value with blanks around it and nothing else. Comments, trailing
commas, byte order marks, control characters in strings and leading zeros are refused.
-/
namespace GlPlayback.Json

def skipBlanks : List Char → List Char
  | c :: rest =>
      if c = ' ' ∨ c = '\n' ∨ c = '\t' ∨ c = '\r' then skipBlanks rest else c :: rest
  | [] => []

def digit? (c : Char) : Option (Fin 10) :=
  if '0' ≤ c ∧ c ≤ '9' then some (Literal.digitOf c) else none

def takeDigits : List Char → List (Fin 10) × List Char
  | [] => ([], [])
  | c :: rest =>
      match digit? c with
      | none => ([], c :: rest)
      | some d =>
          let more := takeDigits rest
          (d :: more.1, more.2)

/-- An exponent behind its mark. -/
def exponent? (s : List Char) : Option (Int × List Char) :=
  let (negative, body) := match s with
    | '+' :: rest => (false, rest)
    | '-' :: rest => (true, rest)
    | _ => (false, s)
  match takeDigits body with
  | ([], _) => none
  | (digits, rest) =>
      let n : Int := Literal.valueOf digits
      some (if negative then -n else n, rest)

def literalTail (negative : Bool) (whole fraction : List (Fin 10)) :
    List Char → Option (Literal × List Char)
  | c :: rest =>
      if c = 'e' ∨ c = 'E' then
        (exponent? rest).map fun (e, rest) => (⟨negative, whole, fraction, some e⟩, rest)
      else some (⟨negative, whole, fraction, none⟩, c :: rest)
  | [] => some (⟨negative, whole, fraction, none⟩, [])

/-- A number. The digits before the point start with a zero only if it stands alone. -/
def literal? (s : List Char) : Option (Literal × List Char) :=
  let (negative, body) := match s with
    | '-' :: rest => (true, rest)
    | _ => (false, s)
  match takeDigits body with
  | ([], _) | (0 :: _ :: _, _) => none
  | (whole, '.' :: rest) =>
      match takeDigits rest with
      | ([], _) => none
      | (fraction, rest) => literalTail negative whole fraction rest
  | (whole, rest) => literalTail negative whole [] rest

def unit? (a b c d : Char) : Option Nat := do
  let high := (← Hex.value? a) * 16 + (← Hex.value? b)
  return (high * 16 + (← Hex.value? c)) * 16 + (← Hex.value? d)

def isHighHalf (n : Nat) : Bool :=
  0xD800 ≤ n && n < 0xDC00

def isLowHalf (n : Nat) : Bool :=
  0xDC00 ≤ n && n < 0xE000

/-- The character that a letter stands for behind a backslash. -/
def escapeOf? (c : Char) : Option Char :=
  if c = '"' ∨ c = '\\' ∨ c = '/' then some c
  else if c = 'n' then some '\n'
  else if c = 't' then some '\t'
  else if c = 'r' then some '\r'
  else if c = 'b' then some '\x08'
  else if c = 'f' then some '\x0c'
  else none

/-- The text of a string up to its closing quote, given what came before it, backwards. There is
no text if half a surrogate pair stands somewhere; `high` is such a half that comes right before
and may still be completed. -/
def stringFrom? (taken : Option (List Char)) (high : Option Nat) :
    List Char → Option (Option String × List Char)
  | '"' :: rest =>
      some (if high.isSome then none else taken.map fun cs => String.ofList cs.reverse, rest)
  | '\\' :: 'u' :: a :: b :: c :: d :: rest => do
      let n ← unit? a b c d
      match high with
      | some h =>
          if isLowHalf n then
            let whole := 0x10000 + (h - 0xD800) * 0x400 + (n - 0xDC00)
            stringFrom? (taken.map (Char.ofNat whole :: ·)) none rest
          else stringFrom? none none rest
      | none =>
          if isHighHalf n then stringFrom? taken (some n) rest
          else if isLowHalf n then stringFrom? none none rest
          else stringFrom? (taken.map (Char.ofNat n :: ·)) none rest
  | '\\' :: e :: rest => do
      let c ← escapeOf? e
      stringFrom? (if high.isSome then none else taken.map (c :: ·)) none rest
  | c :: rest =>
      if c.toNat < 0x20 ∨ c = '\\' then none
      else stringFrom? (if high.isSome then none else taken.map (c :: ·)) none rest
  | [] => none

def string? (s : List Char) : Option (Option String × List Char) :=
  stringFrom? (some []) none s

mutual

/-- A value at the start of a text, and the rest. Every step uses up a character, so a bound of
the text's length is never reached. -/
def value? : (bound : Nat) → List Char → Option (Json × List Char)
  | 0, _ => none
  | bound + 1, s =>
      match skipBlanks s with
      | 'n' :: 'u' :: 'l' :: 'l' :: rest => some (.null, rest)
      | 't' :: 'r' :: 'u' :: 'e' :: rest => some (.bool true, rest)
      | 'f' :: 'a' :: 'l' :: 's' :: 'e' :: rest => some (.bool false, rest)
      | '"' :: rest => (string? rest).map fun (text, rest) => (text.elim .broken .string, rest)
      | '[' :: rest =>
          match skipBlanks rest with
          | ']' :: rest => some (.array [], rest)
          | rest => (elements? bound rest).map fun (xs, rest) => (.array xs, rest)
      | '\x7b' :: rest =>
          match skipBlanks rest with
          | '\x7d' :: rest => some (.object [], rest)
          | rest => (members? bound rest).map fun (ms, rest) => (ms.elim .broken .object, rest)
      | rest => (literal? rest).map fun (l, rest) => (.number l, rest)

/-- The elements of an array up to its closing bracket; there is at least one. -/
def elements? : (bound : Nat) → List Char → Option (List Json × List Char)
  | 0, _ => none
  | bound + 1, s =>
      match value? bound s with
      | none => none
      | some (x, rest) =>
          match skipBlanks rest with
          | ',' :: rest => (elements? bound rest).map fun (xs, rest) => (x :: xs, rest)
          | ']' :: rest => some ([x], rest)
          | _ => none

/-- The members of an object up to its closing brace; there is at least one. A name that is no
text spoils them all. -/
def members? : (bound : Nat) → List Char → Option (Option (List (String × Json)) × List Char)
  | 0, _ => none
  | bound + 1, s =>
      match skipBlanks s with
      | '"' :: rest =>
          match string? rest with
          | none => none
          | some (name, rest) =>
              match skipBlanks rest with
              | ':' :: rest =>
                  match value? bound rest with
                  | none => none
                  | some (x, rest) =>
                      let first := name.map fun name => (name, x)
                      match skipBlanks rest with
                      | ',' :: rest =>
                          (members? bound rest).map fun (ms, rest) =>
                            (first.bind fun m => ms.map (m :: ·), rest)
                      | '\x7d' :: rest => some (first.map fun m => [m], rest)
                      | _ => none
              | _ => none
      | _ => none

end

def read? (text : String) : Option Json :=
  let cs := text.toList
  match value? (cs.length + 1) cs with
  | some (value, rest) => if (skipBlanks rest).isEmpty then some value else none
  | none => none

end GlPlayback.Json
