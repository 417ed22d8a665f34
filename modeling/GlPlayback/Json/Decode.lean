import GlPlayback.Json.Basic
import GlPlayback.Number.Single

/-!
Reading typed values out of JSON. A record comes as an object, whose order and unknown members do
not matter, or as an array of its fields in order. Naming a known field twice is refused.
-/
namespace GlPlayback.Json

/-- The value of the field that goes by any of these names, if there is one; there may not be two
of them. -/
def member? (names : List String) (members : List (String × Json)) : Option (Option Json) :=
  match members.filter fun m => names.contains m.1 with
  | [] => some none
  | [m] => some (some m.2)
  | _ => none

def fields? (fields : List (List String)) : Json → Option (List (Option Json))
  | .object members => fields.mapM fun names => member? names members
  | .array elements =>
      if elements.length ≤ fields.length then
        some (elements.map some ++ List.replicate (fields.length - elements.length) none)
      else none
  | _ => none

def asBool? : Json → Option Bool
  | .bool b => some b
  | _ => none

def asString? : Json → Option String
  | .string s => some s
  | _ => none

/-- A whole number from `low` up to and without `high`. -/
def asIntIn? (low high : Int) : Json → Option Int
  | .number l => do
      let n ← l.toInt?
      if low ≤ n ∧ n < high then some n else none
  | _ => none

def asInt32? (value : Json) : Option Int32 :=
  (asIntIn? (-0x80000000) 0x80000000 value).map Int32.ofInt

def asUInt32? (value : Json) : Option UInt32 :=
  (asIntIn? 0 UInt32.size value).map fun n => UInt32.ofNat n.toNat

/-- A signed number of 64 bits. -/
def asInt64? (value : Json) : Option Int :=
  asIntIn? (-0x8000000000000000) 0x8000000000000000 value

/-- An unsigned number of 64 bits: a count, an index or an offset. -/
def asCount? (value : Json) : Option Nat :=
  (asIntIn? 0 UInt64.size value).map Int.toNat

def asDouble? : Json → Option Double
  | .number l => l.toDouble?
  | _ => none

/-- A single; whole numbers are rounded once, others go by way of a double. -/
def asSingle? : Json → Option Single
  | .number l =>
      match l.toInt? with
      | some n => some (Single.ofInt n)
      | none => l.toDouble?.map Single.ofDouble
  | _ => none

def asList? {α : Type} (read : Json → Option α) : Json → Option (List α)
  | .array elements => elements.mapM read
  | _ => none

/-- A value that may be null. -/
def asNullable? {α : Type} (read : Json → Option α) : Json → Option (Option α)
  | .null => some none
  | value => (read value).map some

def required {α : Type} (read : Json → Option α) (field : Option Json) : Option α :=
  field.bind read

def withDefault {α : Type} (absent : α) (read : Json → Option α) : Option Json → Option α
  | none => some absent
  | some value => read value

/-- A field that may be absent or null. -/
def optional {α : Type} (read : Json → Option α) : Option Json → Option (Option α) :=
  withDefault none (asNullable? read)

mutual

/-- Whether a value can be held as it stands: every string is text, every number has a value, and
brackets nest at most `levels` deep. -/
def isHeld (levels : Nat) : Json → Bool
  | .broken => false
  | .number l => l.toInt?.isSome || l.toDouble?.isSome
  | .array elements => levels != 0 && areHeld (levels - 1) elements
  | .object members => levels != 0 && membersHeld (levels - 1) members
  | _ => true

def areHeld (levels : Nat) : List Json → Bool
  | [] => true
  | x :: xs => isHeld levels x && areHeld levels xs

def membersHeld (levels : Nat) : List (String × Json) → Bool
  | [] => true
  | (_, x) :: ms => isHeld levels x && membersHeld levels ms

end

end GlPlayback.Json
