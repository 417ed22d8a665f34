import GlPlayback.Gl.Enumerant
import GlPlayback.Number.Single
import GlPlayback.Shader.Interface
import GlPlayback.Store.Table

/-!
The objects that a context holds in its tables, each named by a number.
-/
namespace GlPlayback

/-- The number of an object, or of a uniform's location; no two have the same. -/
abbrev ObjectId := Nat

/-- Four components of one kind. -/
structure Quad (α : Type) where
  x : α
  y : α
  z : α
  w : α
  deriving DecidableEq, Repr

def Quad.toList {α : Type} (q : Quad α) : List α :=
  [q.x, q.y, q.z, q.w]

def Stage.ofCode? (code : UInt32) : Option Stage :=
  if code = Enumerant.vertexShader then some .vertex
  else if code = Enumerant.fragmentShader then some .fragment
  else none

def Stage.code : Stage → UInt32
  | .vertex => Enumerant.vertexShader
  | .fragment => Enumerant.fragmentShader

structure ShaderObject where
  stage : Stage
  source : String := ""
  compiled : Bool := false
  log : String := ""
  deleted : Bool := false
  interface : ShaderInterface := {}
  deriving DecidableEq, Repr

/-- An active uniform or attribute as a program reports it. -/
structure ActiveVariable where
  name : String
  type : ValueType
  size : Int32
  deriving DecidableEq, Repr

/-- Where a linked uniform lives: at a location of its own, or at an offset in a block. -/
inductive UniformPlace where
  | loose (location : ObjectId)
  | member (block : Nat) (offset : UInt32)
  deriving DecidableEq, Repr

namespace UniformPlace

def location? : UniformPlace → Option ObjectId
  | loose location => some location
  | member .. => none

/-- The index of the uniform's block, -1 outside all blocks. -/
def blockIndex : UniformPlace → Int32
  | loose _ => -1
  | member block _ => Int32.ofNat block

/-- The byte offset in the uniform's block, -1 outside all blocks. -/
def offset : UniformPlace → Int32
  | loose _ => -1
  | member _ offset => offset.toInt32

end UniformPlace

structure LinkedUniform where
  active : ActiveVariable
  place : UniformPlace
  deriving DecidableEq, Repr

structure LinkedBlock where
  name : String
  dataSize : UInt32
  binding : UInt32
  activeUniforms : Nat
  deriving DecidableEq, Repr

structure LinkedAttribute where
  active : ActiveVariable
  location : UInt32
  deriving DecidableEq, Repr

structure ProgramObject where
  vertexShader : Option ObjectId := none
  fragmentShader : Option ObjectId := none
  linked : Bool := false
  validated : Bool := false
  log : String := ""
  deleted : Bool := false
  /-- Attribute locations asked for, which the next link applies. -/
  wanted : Table String UInt32 := ∅
  uniforms : List LinkedUniform := []
  blocks : List LinkedBlock := []
  attributes : List LinkedAttribute := []
  deriving DecidableEq, Repr

structure BufferObject where
  /-- The first target the buffer was bound to. -/
  target : Option UInt32 := none
  usage : UInt32 := 0
  data : List UInt8 := []
  deleted : Bool := false
  deriving DecidableEq, Repr

structure AttributePointer where
  enabled : Bool := false
  size : Int32 := 0
  type : UInt32 := 0
  normalized : Bool := false
  integer : Bool := false
  stride : Int32 := 0
  offset : Int32 := 0
  buffer : Option ObjectId := none
  deriving DecidableEq, Repr

abbrev attributeSlots : Nat := 16

structure VertexArrayObject where
  slots : Vector AttributePointer attributeSlots := Vector.replicate attributeSlots {}
  elementBuffer : Option ObjectId := none
  deriving DecidableEq, Repr

inductive GenericAttribute where
  | float (values : Quad Single)
  | int (values : Quad Int32)
  | uint (values : Quad UInt32)
  deriving DecidableEq, Repr

structure TextureObject where
  target : Option UInt32 := none
  width : UInt32 := 0
  height : UInt32 := 0
  depth : UInt32 := 0
  levels : UInt32 := 0
  internalFormat : UInt32 := 0
  format : UInt32 := 0
  immutable : Bool := false
  mipmapped : Bool := false
  data : List UInt8 := []
  intParameters : Table UInt32 Int32 := ∅
  floatParameters : Table UInt32 Single := ∅
  deriving DecidableEq, Repr

structure TextureAttachment where
  texture : ObjectId
  textureTarget : UInt32
  level : Int32
  deriving DecidableEq, Repr

structure FramebufferObject where
  attachments : Table UInt32 TextureAttachment := ∅
  drawBuffers : List UInt32 := []
  deriving DecidableEq, Repr

/-- What was last uploaded to a uniform. -/
inductive UniformValue where
  | float (components : Nat) (data : List Single)
  | int (components : Nat) (data : List Int32)
  | uint (components : Nat) (data : List UInt32)
  | matrix (columns rows : Nat) (transpose : Bool) (data : List Single)
  deriving DecidableEq, Repr

end GlPlayback
