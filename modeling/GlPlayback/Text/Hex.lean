/-!
Hexadecimal text of words and bytes, in small letters and with leading zeros.
-/
namespace GlPlayback.Hex

def digit (n : Nat) : Char :=
  if n < 10 then Char.ofNat ('0'.toNat + n) else Char.ofNat ('a'.toNat + n - 10)

/-- The lowest `width` digits of a number, the highest first. -/
def digits (width n : Nat) : List Char :=
  match width with
  | 0 => []
  | width + 1 => digits width (n / 16) ++ [digit (n % 16)]

def ofWord (width n : Nat) : String :=
  String.ofList (digits width n)

def ofBytes (bytes : List UInt8) : String :=
  String.ofList (bytes.flatMap fun b => digits 2 b.toNat)

def value? (c : Char) : Option Nat :=
  if '0' ≤ c ∧ c ≤ '9' then some (c.toNat - '0'.toNat)
  else if 'a' ≤ c ∧ c ≤ 'f' then some (c.toNat - 'a'.toNat + 10)
  else if 'A' ≤ c ∧ c ≤ 'F' then some (c.toNat - 'A'.toNat + 10)
  else none

def toNat? (s : String) : Option Nat :=
  s.toList.foldlM (fun n c => (value? c).map (n * 16 + ·)) 0

def bytesOf? : List Char → Option (List UInt8)
  | [] => some []
  | high :: low :: rest => do
      let byte := UInt8.ofNat ((← value? high) * 16 + (← value? low))
      return byte :: (← bytesOf? rest)
  | [_] => none

def toBytes? (s : String) : Option (List UInt8) :=
  bytesOf? s.toList

end GlPlayback.Hex
