import GlPlayback.Number.Double

/-!
Number literals of JSON text. A literal is kept as it is written; what number it stands for is
asked later, as a whole number or as a double.
-/
namespace GlPlayback.Json

/-- A number as written: digits, digits behind the point, and a power of ten. -/
structure Literal where
  negative : Bool
  whole : List (Fin 10)
  fraction : List (Fin 10)
  exponent : Option Int
  deriving DecidableEq, Repr

namespace Literal

def valueOf (digits : List (Fin 10)) : Nat :=
  digits.foldl (fun n d => n * 10 + d.val) 0

def digitOf (c : Char) : Fin 10 :=
  Fin.ofNat 10 (c.toNat - '0'.toNat)

def digitsOf (n : Nat) : List (Fin 10) :=
  (Nat.toDigits 10 n).map digitOf

def ofInt (n : Int) : Literal :=
  ⟨n < 0, digitsOf n.natAbs, [], none⟩

/-- The whole number that a literal without point and exponent stands for, if it lies from `-2^63`
up to and without `2^64`. Negative zero is none. -/
def toInt? (l : Literal) : Option Int :=
  if l.fraction.isEmpty && l.exponent.isNone then
    let n := valueOf l.whole
    if l.negative then if 0 < n ∧ n ≤ 0x8000000000000000 then some (-(n : Int)) else none
    else if n < UInt64.size then some n else none
  else none

/-- Appends digits to a significand until one would not fit in 64 bits; returns the rest. -/
def absorb (significand : Nat) : List (Fin 10) → Nat × List (Fin 10)
  | [] => (significand, [])
  | d :: rest =>
      let longer := significand * 10 + d.val
      if longer < UInt64.size then absorb longer rest else (significand, d :: rest)

/-- The literal's magnitude as a 64-bit significand times a power of ten. Digits beyond the
significand's room only count for the power. -/
def scaled (l : Literal) : Nat × Int :=
  let (leading, spared) := absorb 0 l.whole
  let (significand, dropped) := absorb leading l.fraction
  let places : Int := dropped.length - l.fraction.length
  (significand, spared.length + places + l.exponent.getD 0)

def powerOfTen (n : Nat) : Double :=
  OfScientific.ofScientific 1 false n

/-- A significand times a power of ten, scaled by one double operation, or by two when the power
is below the normal range. A product beyond all doubles has no value. -/
def scale? (significand : Nat) (exponent : Int) : Option Double :=
  let f := Double.ofUInt64 significand.toUInt64
  if significand = 0 then some 0
  else if exponent > 308 then none
  else if exponent ≥ 0 then
    let product := f * powerOfTen exponent.toNat
    if product.isInfinite then none else some product
  else if exponent ≥ -308 then some (f / powerOfTen (-exponent).toNat)
  else if exponent ≥ -616 then some (f / powerOfTen 308 / powerOfTen (-exponent - 308).toNat)
  else some 0

def toDouble? (l : Literal) : Option Double :=
  let (significand, exponent) := l.scaled
  (scale? significand exponent).map fun f => if l.negative then -f else f

def digitText (digits : List (Fin 10)) : List Char :=
  digits.map fun d => Char.ofNat ('0'.toNat + d.val)

def text (l : Literal) : List Char :=
  (if l.negative then ['-'] else []) ++ digitText l.whole ++
    (if l.fraction.isEmpty then [] else '.' :: digitText l.fraction) ++
    match l.exponent with
    | none => []
    | some e => 'e' :: (toString e).toList

end Literal

end GlPlayback.Json
