import GlPlayback.Shader.ValueType

/-!
What a shader exposes to the linker: vertex inputs, loose uniforms and uniform blocks.
-/
namespace GlPlayback

inductive Stage where
  | vertex
  | fragment
  deriving DecidableEq, Repr

/-- A uniform outside all blocks, or the declaration part of a block member. -/
structure UniformDecl where
  name : String
  type : ValueType
  /-- The array length, 1 for a plain uniform. -/
  size : Int32
  isArray : Bool
  deriving DecidableEq, Repr

/-- Arrays are active under the name of their first element. -/
def UniformDecl.activeName (u : UniformDecl) : String :=
  if u.isArray then u.name ++ "[0]" else u.name

structure BlockMember where
  decl : UniformDecl
  offset : UInt32
  deriving DecidableEq, Repr

structure UniformBlock where
  name : String
  /-- The name of the block's instance, if it is declared with one. -/
  instanceName : Option String
  members : List BlockMember
  dataSize : UInt32
  deriving DecidableEq, Repr

/-- Members of a block that has an instance are active under the block's name. -/
def UniformBlock.memberName (b : UniformBlock) (m : BlockMember) : String :=
  match b.instanceName with
  | some _ => b.name ++ "." ++ m.decl.activeName
  | none => m.decl.activeName

structure AttributeDecl where
  name : String
  type : ValueType
  size : Int32
  /-- The location that the shader itself asks for. -/
  location : Option UInt32
  deriving DecidableEq, Repr

/-- An array length as a count: at least one element. -/
def elementCount (size : Int32) : UInt32 :=
  if size < 1 then 1 else size.toUInt32

def AttributeDecl.slots (a : AttributeDecl) : UInt32 :=
  a.type.columns * elementCount a.size

structure ShaderInterface where
  attributes : List AttributeDecl := []
  uniforms : List UniformDecl := []
  blocks : List UniformBlock := []
  deriving DecidableEq, Repr

end GlPlayback
