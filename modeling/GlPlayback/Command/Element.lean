import GlPlayback.Number.Single

/-!
Payloads are bytes that hold elements of one type. Elements are kept as words, little-endian, so
that no bit of them is lost.
-/
namespace GlPlayback

inductive ElementType where
  | int8
  | uint8
  | int16
  | uint16
  | int32
  | uint32
  | float32
  | float64
  deriving DecidableEq, Repr

inductive ElementError where
  | unknownType (name : String)
  /-- A number of bytes that the size of an element does not divide. -/
  | length (bytes elementSize : Nat)
  /-- A range that reaches beyond the elements. -/
  | outOfRange (start stop count : Nat)
  deriving DecidableEq, Repr

def ElementError.message : ElementError → String
  | unknownType name => "unknown element type '" ++ name ++ "'"
  | length bytes elementSize =>
      "payload of " ++ toString bytes ++ " bytes is not a multiple of the " ++
        toString elementSize ++ "-byte element"
  | outOfRange start stop count =>
      "element range " ++ toString start ++ ".." ++ toString stop ++
        " outside a payload of " ++ toString count ++ " elements"

namespace ElementType

def all : List ElementType :=
  [int8, uint8, int16, uint16, int32, uint32, float32, float64]

def name : ElementType → String
  | int8 => "int8"
  | uint8 => "uint8"
  | int16 => "int16"
  | uint16 => "uint16"
  | int32 => "int32"
  | uint32 => "uint32"
  | float32 => "float32"
  | float64 => "float64"

def size : ElementType → Nat
  | int8 | uint8 => 1
  | int16 | uint16 => 2
  | int32 | uint32 | float32 => 4
  | float64 => 8

def ofName (name : String) : Except ElementError ElementType :=
  match all.find? fun type => type.name == name with
  | some type => .ok type
  | none => .error (.unknownType name)

end ElementType

/-- The number that bytes stand for, the lowest first. -/
def wordOfBytes : List UInt8 → Nat
  | [] => 0
  | b :: rest => b.toNat + 256 * wordOfBytes rest

/-- The lowest bytes of a number, the lowest first. -/
def bytesOfWord : (size word : Nat) → List UInt8
  | 0, _ => []
  | size + 1, word => UInt8.ofNat word :: bytesOfWord size (word / 256)

/-- The first `count` words of `size` bytes each. -/
def wordsOfBytes (size : Nat) : (count : Nat) → List UInt8 → List Nat
  | 0, _ => []
  | count + 1, bytes =>
      wordOfBytes (bytes.take size) :: wordsOfBytes size count (bytes.drop size)

/-- The number that the `size` bytes from `start` on stand for where they lie, the lowest first. -/
def wordAt : (size : Nat) → List UInt8 → (start : Nat) → Nat
  | 0, _, _ => 0
  | size + 1, bytes, start => (bytes.getD start 0).toNat + 256 * wordAt size bytes (start + 1)

/-- All whole words of bytes, read where they lie. -/
def wordsInPlace (size : Nat) (bytes : List UInt8) : List Nat :=
  (List.range (bytes.length / size)).map fun i => wordAt size bytes (i * size)

/-- Elements of one type, each as a word of its size. -/
structure Elements where
  type : ElementType
  words : List Nat
  deriving DecidableEq, Repr

namespace Elements

def decode (type : ElementType) (bytes : List UInt8) : Except ElementError Elements :=
  if bytes.length % type.size ≠ 0 then .error (.length bytes.length type.size)
  else .ok ⟨type, wordsOfBytes type.size (bytes.length / type.size) bytes⟩

/-- Bytes that lie at an address are read in place if it is a multiple of the size of an element,
and copied word by word if it is not. -/
def decodeAt (address : Nat) (type : ElementType) (bytes : List UInt8) :
    Except ElementError Elements :=
  if bytes.length % type.size ≠ 0 then .error (.length bytes.length type.size)
  else if address % type.size = 0 then .ok ⟨type, wordsInPlace type.size bytes⟩
  else .ok ⟨type, wordsOfBytes type.size (bytes.length / type.size) bytes⟩

def count (e : Elements) : Nat :=
  e.words.length

def bytes (e : Elements) : List UInt8 :=
  e.words.flatMap (bytesOfWord e.type.size)

/-- The bytes of the elements from `start` on, `limit` many or all. An end beyond 64 bits counts
as the largest number they hold. -/
def slice (e : Elements) (start : Nat) (limit : Option Nat) :
    Except ElementError (List UInt8) :=
  let stop := limit.elim e.count fun n => min (start + n) (UInt64.size - 1)
  if e.count < start ∨ e.count < stop then .error (.outOfRange start stop e.count)
  else .ok ((e.bytes.drop (start * e.type.size)).take ((stop - start) * e.type.size))

def asSingles? (e : Elements) : Option (List Single) :=
  if e.type = .float32 then some (e.words.map fun w => ⟨UInt32.ofNat w⟩) else none

def asInts? (e : Elements) : Option (List Int32) :=
  if e.type = .int32 then some (e.words.map fun w => (UInt32.ofNat w).toInt32) else none

def asUInts? (e : Elements) : Option (List UInt32) :=
  if e.type = .uint32 then some (e.words.map UInt32.ofNat) else none

end Elements

end GlPlayback
