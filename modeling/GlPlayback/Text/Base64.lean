/-!
Base64 text of bytes, in the standard alphabet and with padding. Every list of bytes has one
written form: bits that no byte uses have to be zero.
-/
namespace GlPlayback.Base64

def alphabet : List Char :=
  "ABCDEFGHIJKLMNOPQRSTUVWXYZabcdefghijklmnopqrstuvwxyz0123456789+/".toList

/-- The six bits that a letter stands for. -/
def value? (c : Char) : Option Nat :=
  alphabet.idxOf? c

def decodeLast? (a b c : Char) : Option (List UInt8) := do
  let high := (← value? a) * 64 + (← value? b)
  if c = '=' then
    if high % 16 = 0 then some [.ofNat (high / 16)] else none
  else
    let n := high * 64 + (← value? c)
    if n % 4 = 0 then some [.ofNat (n / 1024), .ofNat (n / 4)] else none

def decodeQuad? (a b c d : Char) : Option (List UInt8) := do
  let n := (((← value? a) * 64 + (← value? b)) * 64 + (← value? c)) * 64 + (← value? d)
  return [.ofNat (n / 65536), .ofNat (n / 256), .ofNat n]

def decode? : List Char → Option (List UInt8)
  | [] => some []
  | [a, b, c, '='] => decodeLast? a b c
  | a :: b :: c :: d :: rest => do return (← decodeQuad? a b c d) ++ (← decode? rest)
  | _ => none

end GlPlayback.Base64
