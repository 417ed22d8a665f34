/-!
Whole numbers in decimal, bounded above. A sign `+` may stand in front; a sign `-` only where
negative numbers are read. Digits are ASCII, at least one is needed, and leading zeros are fine.
-/
namespace GlPlayback.Text

def digitValue? (c : Char) : Option Nat :=
  if '0' ≤ c ∧ c ≤ '9' then some (c.toNat - '0'.toNat) else none

/-- The value of digits that follow a prefix of value `acc`. -/
def digitsFrom? (acc : Nat) : List Char → Option Nat
  | [] => some acc
  | c :: rest => do digitsFrom? (acc * 10 + (← digitValue? c)) rest

def digits? : List Char → Option Nat
  | [] => none
  | s => digitsFrom? 0 s

def unsigned? (bound : Nat) (s : List Char) : Option Nat := do
  let body := match s with
    | '+' :: rest => rest
    | _ => s
  let n ← digits? body
  if n < bound then some n else none

/-- A number from `-half` up to and without `half`. -/
def signed? (half : Nat) : List Char → Option Int
  | '-' :: rest => do
      let n ← digits? rest
      if n ≤ half then some (-(n : Int)) else none
  | s => do
      let n ← unsigned? half s
      some n

def uint32? (s : List Char) : Option UInt32 :=
  (unsigned? UInt32.size s).map UInt32.ofNat

def int32? (s : List Char) : Option Int32 :=
  (signed? 0x80000000 s).map Int32.ofInt

end GlPlayback.Text
