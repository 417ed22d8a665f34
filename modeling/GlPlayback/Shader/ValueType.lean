/-!
The value types of the shading language: their keywords, their numeric codes and the names by
which a context reports them.
-/
namespace GlPlayback

inductive Component where
  | float
  | int
  | uint
  | bool
  deriving DecidableEq, Repr

/-- How many components a vector has, or columns or rows a matrix. -/
inductive Extent where
  | two
  | three
  | four
  deriving DecidableEq, Repr

def Extent.count : Extent → UInt32
  | .two => 2
  | .three => 3
  | .four => 4

/-- What a sampler reads: the component it yields and the kind of texture behind it. -/
inductive Sampler where
  | flat
  | volume
  | cube
  | flatShadow
  | layered
  | layeredShadow
  | cubeShadow
  | intFlat
  | intVolume
  | intCube
  | intLayered
  | uintFlat
  | uintVolume
  | uintCube
  | uintLayered
  deriving DecidableEq, Repr

inductive ValueType where
  | scalar (component : Component)
  | vector (component : Component) (size : Extent)
  | matrix (columns rows : Extent)
  | sampler (kind : Sampler)
  deriving DecidableEq, Repr

namespace ValueType

def code : ValueType → UInt32
  | scalar .float => 0x1406
  | scalar .int => 0x1404
  | scalar .uint => 0x1405
  | scalar .bool => 0x8B56
  | vector .float .two => 0x8B50
  | vector .float .three => 0x8B51
  | vector .float .four => 0x8B52
  | vector .int .two => 0x8B53
  | vector .int .three => 0x8B54
  | vector .int .four => 0x8B55
  | vector .uint .two => 0x8DC6
  | vector .uint .three => 0x8DC7
  | vector .uint .four => 0x8DC8
  | vector .bool .two => 0x8B57
  | vector .bool .three => 0x8B58
  | vector .bool .four => 0x8B59
  | matrix .two .two => 0x8B5A
  | matrix .two .three => 0x8B65
  | matrix .two .four => 0x8B66
  | matrix .three .two => 0x8B67
  | matrix .three .three => 0x8B5B
  | matrix .three .four => 0x8B68
  | matrix .four .two => 0x8B69
  | matrix .four .three => 0x8B6A
  | matrix .four .four => 0x8B5C
  | sampler .flat => 0x8B5E
  | sampler .volume => 0x8B5F
  | sampler .cube => 0x8B60
  | sampler .flatShadow => 0x8B62
  | sampler .layered => 0x8DC1
  | sampler .layeredShadow => 0x8DC4
  | sampler .cubeShadow => 0x8DC5
  | sampler .intFlat => 0x8DCA
  | sampler .intVolume => 0x8DCB
  | sampler .intCube => 0x8DCC
  | sampler .intLayered => 0x8DCF
  | sampler .uintFlat => 0x8DD2
  | sampler .uintVolume => 0x8DD3
  | sampler .uintCube => 0x8DD4
  | sampler .uintLayered => 0x8DD7

/-- The name under which a context reports the type. -/
def label : ValueType → String
  | scalar .float => "FLOAT"
  | scalar .int => "INT"
  | scalar .uint => "UNSIGNED_INT"
  | scalar .bool => "BOOL"
  | vector .float .two => "FLOAT_VEC2"
  | vector .float .three => "FLOAT_VEC3"
  | vector .float .four => "FLOAT_VEC4"
  | vector .int .two => "INT_VEC2"
  | vector .int .three => "INT_VEC3"
  | vector .int .four => "INT_VEC4"
  | vector .uint .two => "UNSIGNED_INT_VEC2"
  | vector .uint .three => "UNSIGNED_INT_VEC3"
  | vector .uint .four => "UNSIGNED_INT_VEC4"
  | vector .bool .two => "BOOL_VEC2"
  | vector .bool .three => "BOOL_VEC3"
  | vector .bool .four => "BOOL_VEC4"
  | matrix .two .two => "FLOAT_MAT2"
  | matrix .two .three => "FLOAT_MAT2x3"
  | matrix .two .four => "FLOAT_MAT2x4"
  | matrix .three .two => "FLOAT_MAT3x2"
  | matrix .three .three => "FLOAT_MAT3"
  | matrix .three .four => "FLOAT_MAT3x4"
  | matrix .four .two => "FLOAT_MAT4x2"
  | matrix .four .three => "FLOAT_MAT4x3"
  | matrix .four .four => "FLOAT_MAT4"
  | sampler .flat => "SAMPLER_2D"
  | sampler .volume => "SAMPLER_3D"
  | sampler .cube => "SAMPLER_CUBE"
  | sampler .flatShadow => "SAMPLER_2D_SHADOW"
  | sampler .layered => "SAMPLER_2D_ARRAY"
  | sampler .layeredShadow => "SAMPLER_2D_ARRAY_SHADOW"
  | sampler .cubeShadow => "SAMPLER_CUBE_SHADOW"
  | sampler .intFlat => "INT_SAMPLER_2D"
  | sampler .intVolume => "INT_SAMPLER_3D"
  | sampler .intCube => "INT_SAMPLER_CUBE"
  | sampler .intLayered => "INT_SAMPLER_2D_ARRAY"
  | sampler .uintFlat => "UNSIGNED_INT_SAMPLER_2D"
  | sampler .uintVolume => "UNSIGNED_INT_SAMPLER_3D"
  | sampler .uintCube => "UNSIGNED_INT_SAMPLER_CUBE"
  | sampler .uintLayered => "UNSIGNED_INT_SAMPLER_2D_ARRAY"

/-- The keywords of all types; square matrices have two spellings. -/
def keywords : List (String × ValueType) :=
  [("float", scalar .float), ("vec2", vector .float .two), ("vec3", vector .float .three),
   ("vec4", vector .float .four),
   ("int", scalar .int), ("ivec2", vector .int .two), ("ivec3", vector .int .three),
   ("ivec4", vector .int .four),
   ("uint", scalar .uint), ("uvec2", vector .uint .two), ("uvec3", vector .uint .three),
   ("uvec4", vector .uint .four),
   ("bool", scalar .bool), ("bvec2", vector .bool .two), ("bvec3", vector .bool .three),
   ("bvec4", vector .bool .four),
   ("mat2", matrix .two .two), ("mat2x2", matrix .two .two), ("mat3", matrix .three .three),
   ("mat3x3", matrix .three .three), ("mat4", matrix .four .four),
   ("mat4x4", matrix .four .four),
   ("mat2x3", matrix .two .three), ("mat2x4", matrix .two .four),
   ("mat3x2", matrix .three .two), ("mat3x4", matrix .three .four),
   ("mat4x2", matrix .four .two), ("mat4x3", matrix .four .three),
   ("sampler2D", sampler .flat), ("sampler3D", sampler .volume),
   ("samplerCube", sampler .cube), ("sampler2DShadow", sampler .flatShadow),
   ("sampler2DArray", sampler .layered), ("sampler2DArrayShadow", sampler .layeredShadow),
   ("samplerCubeShadow", sampler .cubeShadow), ("isampler2D", sampler .intFlat),
   ("isampler3D", sampler .intVolume), ("isamplerCube", sampler .intCube),
   ("isampler2DArray", sampler .intLayered), ("usampler2D", sampler .uintFlat),
   ("usampler3D", sampler .uintVolume), ("usamplerCube", sampler .uintCube),
   ("usampler2DArray", sampler .uintLayered)]

def ofKeyword? (keyword : String) : Option ValueType :=
  keywords.lookup keyword

def ofCode? (code : UInt32) : Option ValueType :=
  (keywords.find? fun entry => entry.2.code == code).map (·.2)

/-- Columns of a matrix, one for everything else. -/
def columns : ValueType → UInt32
  | matrix c _ => c.count
  | _ => 1

def isSampler : ValueType → Bool
  | sampler _ => true
  | _ => false

/-- Alignment and size in bytes of one value in the standard block layout. The columns of a
matrix lie four components apart, and opaque types count as one such column. -/
def layout : ValueType → UInt32 × UInt32
  | scalar _ => (4, 4)
  | vector _ .two => (8, 8)
  | vector _ .three => (16, 12)
  | vector _ .four => (16, 16)
  | t => (16, t.columns * 16)

end ValueType

/-- Upper-case hexadecimal, filled up with zeros to four digits. -/
def hexCode (n : UInt32) : String :=
  let digits := (Nat.toDigits 16 n.toNat).map Char.toUpper
  "0x" ++ String.ofList (List.replicate (4 - digits.length) '0' ++ digits)

/-- The name of a type's code; a code of no type is written in hexadecimal. -/
def typeLabel (code : UInt32) : String :=
  match ValueType.ofCode? code with
  | some t => t.label
  | none => hexCode code

end GlPlayback
