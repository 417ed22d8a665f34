import GlPlayback.Gl.Enumerant
import GlPlayback.Gl.Error
import GlPlayback.Gl.Object

/-!
A rendering context that keeps everything in memory: fixed-function state, bindings, objects,
uploaded uniforms, a log of draws and a count of calls. It draws nothing.
-/
namespace GlPlayback

abbrev Capabilities := UInt32

namespace Capabilities

def blend : Capabilities := 0x001
def cullFace : Capabilities := 0x002
def depthTest : Capabilities := 0x004
def dither : Capabilities := 0x008
def polygonOffsetFill : Capabilities := 0x010
def sampleAlphaToCoverage : Capabilities := 0x020
def sampleCoverage : Capabilities := 0x040
def scissorTest : Capabilities := 0x080
def stencilTest : Capabilities := 0x100
def rasterizerDiscard : Capabilities := 0x200

/-- All bits that mean something. -/
def all : Capabilities := 0x3FF

end Capabilities

/-- The bits of a clear mask that mean something. -/
def clearBits : UInt32 :=
  Enumerant.colorBufferBit ||| Enumerant.depthBufferBit ||| Enumerant.stencilBufferBit

/-- State that no object owns and nothing is bound to. -/
structure FixedState where
  clearColor : Quad Single := ⟨.zero, .zero, .zero, .zero⟩
  viewport : Quad Int32
  capabilities : Capabilities := Capabilities.dither
  frontFace : UInt32 := Enumerant.counterClockwise
  cullFace : UInt32 := Enumerant.back
  depthFunc : UInt32 := Enumerant.less
  depthMask : Bool := true
  depthRange : Single × Single := (.zero, .one)
  blendColor : Quad Single := ⟨.zero, .zero, .zero, .zero⟩
  blendEquation : UInt32 × UInt32 := (Enumerant.funcAdd, Enumerant.funcAdd)
  blendFunc : Quad UInt32 := ⟨Enumerant.one, Enumerant.none, Enumerant.one, Enumerant.none⟩
  pixelStore : Table UInt32 Int32 := ∅
  extensions : Table String Unit := ∅
  deriving DecidableEq, Repr

abbrev textureUnits : Nat := 32

/-- Buffers of this many indices may serve uniform blocks. -/
def uniformBindings : UInt32 := 24

structure IndexedTarget where
  target : UInt32
  index : UInt32
  deriving DecidableEq, Repr

instance : LT IndexedTarget :=
  ⟨fun a b => a.target < b.target ∨ (a.target = b.target ∧ a.index < b.index)⟩

instance : DecidableRel ((· < ·) : IndexedTarget → IndexedTarget → Prop) :=
  fun a b => inferInstanceAs
    (Decidable (a.target < b.target ∨ (a.target = b.target ∧ a.index < b.index)))

structure BindingPoints where
  program : Option ObjectId := none
  vertexArray : Option ObjectId := none
  framebuffer : Option ObjectId := none
  buffers : Table UInt32 ObjectId := ∅
  indexed : Table IndexedTarget ObjectId := ∅
  activeTexture : Nat := 0
  /-- The textures of each unit, by target. -/
  units : Vector (Table UInt32 ObjectId) textureUnits := Vector.replicate textureUnits ∅
  /-- The draw buffers where no framebuffer is bound. -/
  drawBuffers : List UInt32 := [Enumerant.back]
  generic : Table UInt32 GenericAttribute := ∅
  deriving DecidableEq, Repr

structure ObjectTables where
  shaders : Table ObjectId ShaderObject := ∅
  programs : Table ObjectId ProgramObject := ∅
  buffers : Table ObjectId BufferObject := ∅
  textures : Table ObjectId TextureObject := ∅
  framebuffers : Table ObjectId FramebufferObject := ∅
  vertexArrays : Table ObjectId VertexArrayObject := ∅
  /-- The vertex array in use where none is bound. -/
  defaultVertexArray : VertexArrayObject := {}
  uniforms : Table ObjectId UniformValue := ∅
  deriving DecidableEq, Repr

/-- What a draw depends on, as it was at the draw. -/
structure DrawState where
  viewport : Quad Int32
  capabilities : Capabilities
  vertexArray : Option ObjectId
  framebuffer : Option ObjectId
  uniforms : Table ObjectId UniformValue
  deriving DecidableEq, Repr

inductive DrawCall where
  | clear (mask : UInt32) (color : Quad Single)
  | arrays (mode : UInt32) (first count instances : Int32) (program : ObjectId)
      (state : DrawState)
  | elements (mode : UInt32) (count : Int32) (type : UInt32) (offset instances : Int32)
      (program : ObjectId) (state : DrawState)
  deriving DecidableEq, Repr

structure Context where
  width : UInt32
  height : UInt32
  fixed : FixedState
  bindings : BindingPoints := {}
  objects : ObjectTables := {}
  draws : Array DrawCall := #[]
  /-- The number that the next object takes. -/
  nextId : ObjectId := 1
  /-- How often each call was made, by its name. -/
  calls : Table String Nat := ∅
  /-- The first error since the last one was asked for. -/
  error : Option GlError := none
  /-- A call could not be carried out at all, since it reached beyond the address space or a
  table; nothing is known of the context from then on. -/
  lost : Bool := false
  deriving DecidableEq, Repr

namespace Context

/-- A context with a drawing buffer of this size, all of which is in view. -/
def new (width height : UInt32) : Context where
  width := width
  height := height
  fixed := { viewport := ⟨0, 0, width.toInt32, height.toInt32⟩ }

def resize (ctx : Context) (width height : UInt32) : Context :=
  { ctx with width, height }

/-- Takes a number that no object has. -/
def takeId (ctx : Context) : ObjectId × Context :=
  (ctx.nextId, { ctx with nextId := ctx.nextId + 1 })

def callCount (ctx : Context) (name : String) : Nat :=
  (ctx.calls.get? name).getD 0

def resetCalls (ctx : Context) : Context :=
  { ctx with calls := ∅ }

def countCall (ctx : Context) (name : String) : Context :=
  { ctx with calls := ctx.calls.insert name (ctx.callCount name + 1) }

/-- Whether all of these capabilities are on. -/
def isEnabled (ctx : Context) (capabilities : Capabilities) : Bool :=
  ctx.fixed.capabilities &&& capabilities = capabilities

def vertexArray (ctx : Context) : VertexArrayObject :=
  (ctx.bindings.vertexArray.bind ctx.objects.vertexArrays.get?).getD
    ctx.objects.defaultVertexArray

/-- The buffer bound to a target. The vertex array in use holds the element buffer. -/
def boundBuffer? (ctx : Context) (target : UInt32) : Option ObjectId :=
  if target = Enumerant.elementArrayBuffer then ctx.vertexArray.elementBuffer
  else ctx.bindings.buffers.get? target

/-- The binding that a texture target belongs to: the faces of a cube share one. -/
def textureBinding (target : UInt32) : UInt32 :=
  if Enumerant.textureCubeMapPositiveX ≤ target ∧ target ≤ Enumerant.textureCubeMapNegativeZ then
    Enumerant.textureCubeMap
  else target

/-- The texture bound to a target on the active unit. -/
def boundTexture? (ctx : Context) (target : UInt32) : Option ObjectId :=
  ctx.bindings.units[ctx.bindings.activeTexture]?.bind fun unit =>
    unit.get? (textureBinding target)

def drawState (ctx : Context) : DrawState where
  viewport := ctx.fixed.viewport
  capabilities := ctx.fixed.capabilities
  vertexArray := ctx.bindings.vertexArray
  framebuffer := ctx.bindings.framebuffer
  uniforms := ctx.objects.uniforms

end Context

end GlPlayback
