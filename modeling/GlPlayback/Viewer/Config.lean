import GlPlayback.Json.Decode
import GlPlayback.Json.Reader
import GlPlayback.Linear.Matrix4

/-!
What the host may set about a viewer, with defaults for everything.
-/
namespace GlPlayback

/-- How shaders declare the matrices of the view block. -/
inductive MatrixMajor where
  | row
  | column
  deriving DecidableEq, Repr

structure ViewerConfig where
  width : UInt32 := 700
  height : UInt32 := 500
  position : Vec3 Double := ⟨0, 50, 200⟩
  /-- Degrees about the second axis. -/
  yaw : Double := 0
  /-- Degrees about the first axis. -/
  pitch : Double := 0
  mouseSpeed : Double := 1
  moveSpeed : Double := 1
  /-- The keys for forward, left, back and right. -/
  moveKeys : String := "wasd"
  matrixMajor : MatrixMajor := .row

inductive ConfigError where
  | emptySize (width height : UInt32)
  | keyCount (keys : String)
  | unknownLogFormat (name : String)
  deriving DecidableEq, Repr

def ConfigError.message : ConfigError → String
  | emptySize width height =>
      "viewer size must be non-zero, got " ++ toString width ++ "x" ++ toString height
  | keyCount keys => "move_keys needs exactly 4 keys, got '" ++ keys ++ "'"
  | unknownLogFormat name => "unknown log format '" ++ name ++ "'"

namespace MatrixMajor

def name : MatrixMajor → String
  | row => "row_major"
  | column => "column_major"

/-- The layout of a name. The name may also stand as the only member of an object, with null. -/
def ofJson? : Json → Option MatrixMajor
  | .string s => ofName? s
  | .object [(s, .null)] => ofName? s
  | _ => none
where
  ofName? (s : String) : Option MatrixMajor :=
    if s = "row_major" then some row else if s = "column_major" then some column else none

end MatrixMajor

namespace ViewerConfig

def checkSize (width height : UInt32) : Except ConfigError Unit :=
  if width = 0 ∨ height = 0 then .error (.emptySize width height) else .ok ()

def checkKeys (keys : String) : Except ConfigError Unit :=
  if keys.length ≠ 4 then .error (.keyCount keys) else .ok ()

def validate (c : ViewerConfig) : Except ConfigError Unit := do
  checkSize c.width c.height
  checkKeys c.moveKeys

/-- The move key of a direction: 0 forward, 1 left, 2 back, 3 right. -/
def moveKey? (c : ViewerConfig) (direction : Nat) : Option Char :=
  c.moveKeys.toList[direction]?

def vec3OfJson? : Json → Option (Vec3 Double)
  | .array [x, y, z] => do return ⟨← x.asDouble?, ← y.asDouble?, ← z.asDouble?⟩
  | _ => none

def fieldNames : List (List String) :=
  [["width"], ["height"], ["camera_pos"], ["camera_yaw"], ["camera_pitch"], ["mouse_speed"],
   ["move_speed"], ["move_keys"], ["shader_matrix_major"]]

open Json in
/-- A config as it is written, valid or not. -/
def ofJson? (value : Json) : Option ViewerConfig := do
  let [width, height, position, yaw, pitch, mouseSpeed, moveSpeed, moveKeys, matrixMajor] ←
    fields? fieldNames value | none
  let unset : ViewerConfig := {}
  return {
    width := ← withDefault unset.width asUInt32? width
    height := ← withDefault unset.height asUInt32? height
    position := ← withDefault unset.position vec3OfJson? position
    yaw := ← withDefault unset.yaw asDouble? yaw
    pitch := ← withDefault unset.pitch asDouble? pitch
    mouseSpeed := ← withDefault unset.mouseSpeed asDouble? mouseSpeed
    moveSpeed := ← withDefault unset.moveSpeed asDouble? moveSpeed
    moveKeys := ← withDefault unset.moveKeys asString? moveKeys
    matrixMajor := ← withDefault unset.matrixMajor MatrixMajor.ofJson? matrixMajor }

end ViewerConfig

end GlPlayback
