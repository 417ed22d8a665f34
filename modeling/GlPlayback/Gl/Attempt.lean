import GlPlayback.Gl.Context

/-!
A call on a context is first attempted: it yields a new context, or it is refused with an error
and yields none. So a refused call cannot leave anything half done.
-/
namespace GlPlayback

/-- Why a call has no effect. -/
inductive Refusal where
  | error (e : GlError)
  /-- The call cannot be carried out at all. -/
  | impossible
  deriving DecidableEq, Repr

abbrev Attempt (α : Type) := Except Refusal α

namespace Attempt

def refuse {α : Type} (e : GlError) : Attempt α :=
  .error (.error e)

/-- Goes on only if the condition holds. -/
def check (condition : Bool) (e : GlError) : Attempt Unit :=
  if condition then .ok () else refuse e

def effect (changed : Attempt Context) : Attempt (Unit × Context) :=
  changed.map fun ctx => ((), ctx)

/-- A change that is never refused and answers nothing. -/
def done (changed : Context) : Attempt (Unit × Context) :=
  .ok ((), changed)

/-- A new object, which is the answer. -/
def created (made : ObjectId × Context) : Attempt (Option ObjectId × Context) :=
  .ok (some made.1, made.2)

/-- An answer that changes nothing. -/
def answer {α : Type} (ctx : Context) (reply : Attempt α) : Attempt (α × Context) :=
  reply.map fun a => (a, ctx)

end Attempt

namespace Context

open Attempt

def bufferTargets : List UInt32 :=
  [Enumerant.arrayBuffer, Enumerant.elementArrayBuffer, Enumerant.copyReadBuffer,
   Enumerant.copyWriteBuffer, Enumerant.transformFeedbackBuffer, Enumerant.uniformBuffer,
   Enumerant.pixelPackBuffer, Enumerant.pixelUnpackBuffer]

/-- Changes the buffer bound to a target. A number bound there that is no buffer stays alone. -/
def changeBuffer (ctx : Context) (target : UInt32)
    (change : BufferObject → Attempt BufferObject) : Attempt Context := do
  check (bufferTargets.contains target) .invalidEnum
  match ctx.boundBuffer? target with
  | none => refuse .invalidOperation
  | some id =>
      match ctx.objects.buffers.get? id with
      | none => return ctx
      | some buffer =>
          let changed ← change buffer
          return { ctx with objects.buffers := ctx.objects.buffers.insert id changed }

def changeTexture (ctx : Context) (target : UInt32)
    (change : TextureObject → Attempt TextureObject) : Attempt Context :=
  match ctx.boundTexture? target with
  | none => refuse .invalidOperation
  | some id =>
      match ctx.objects.textures.get? id with
      | none => return ctx
      | some texture => do
          let changed ← change texture
          return { ctx with objects.textures := ctx.objects.textures.insert id changed }

def changeVertexArray (ctx : Context) (change : VertexArrayObject → VertexArrayObject) :
    Context :=
  match ctx.bindings.vertexArray with
  | none =>
      { ctx with objects.defaultVertexArray := change ctx.objects.defaultVertexArray }
  | some id =>
      match ctx.objects.vertexArrays.get? id with
      | some array =>
          { ctx with objects.vertexArrays := ctx.objects.vertexArrays.insert id (change array) }
      | none =>
          { ctx with objects.defaultVertexArray := change ctx.objects.defaultVertexArray }

def changeShader (ctx : Context) (id : ObjectId) (change : ShaderObject → ShaderObject) :
    Attempt Context :=
  match ctx.objects.shaders.get? id with
  | none => refuse .invalidValue
  | some shader =>
      return { ctx with objects.shaders := ctx.objects.shaders.insert id (change shader) }

def changeProgram (ctx : Context) (id : ObjectId)
    (change : ProgramObject → Attempt ProgramObject) : Attempt Context :=
  match ctx.objects.programs.get? id with
  | none => refuse .invalidValue
  | some program => do
      let changed ← change program
      return { ctx with objects.programs := ctx.objects.programs.insert id changed }

/-- The framebuffer in use, unless it is the default one. -/
def framebuffer? (ctx : Context) : Option (ObjectId × FramebufferObject) := do
  let id ← ctx.bindings.framebuffer
  let framebuffer ← ctx.objects.framebuffers.get? id
  return (id, framebuffer)

/-- Attribute indices have to be below the number of slots. -/
def slot (index : UInt32) : Attempt (Fin attributeSlots) :=
  if h : index.toNat < attributeSlots then .ok ⟨index.toNat, h⟩ else refuse .invalidValue

end Context

end GlPlayback
