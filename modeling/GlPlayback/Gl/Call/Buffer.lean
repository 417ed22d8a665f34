import GlPlayback.Gl.Attempt

/-!
Calls on buffers. Sizes and offsets are numbers of 64 bits.
-/
namespace GlPlayback.Context

open Attempt

def createBuffer (ctx : Context) : ObjectId × Context :=
  let (id, ctx) := ctx.takeId
  (id, { ctx with objects.buffers := ctx.objects.buffers.insert id {} })

/-- Binds a buffer, which has to exist. It keeps the first target it was bound to. -/
def bindBuffer (ctx : Context) (target : UInt32) (buffer : Option ObjectId) :
    Attempt Context := do
  check (bufferTargets.contains target) .invalidEnum
  let ctx ← match buffer with
    | none => pure ctx
    | some id =>
        match ctx.objects.buffers.get? id with
        | none => refuse .invalidOperation
        | some b =>
            let b := { b with target := b.target <|> some target }
            pure { ctx with objects.buffers := ctx.objects.buffers.insert id b }
  if target = Enumerant.elementArrayBuffer then
    return ctx.changeVertexArray fun array => { array with elementBuffer := buffer }
  else return { ctx with bindings.buffers := ctx.bindings.buffers.set target buffer }

/-- Binds to an indexed point and to the target itself. Whether the buffer exists is not asked. -/
def bindBufferBase (ctx : Context) (target index : UInt32) (buffer : Option ObjectId) :
    Attempt Context := do
  check (target == Enumerant.uniformBuffer || target == Enumerant.transformFeedbackBuffer)
    .invalidEnum
  check (target != Enumerant.uniformBuffer || index < uniformBindings) .invalidValue
  return { ctx with
    bindings.indexed := ctx.bindings.indexed.set ⟨target, index⟩ buffer
    bindings.buffers := ctx.bindings.buffers.set target buffer }

def bufferData (ctx : Context) (target : UInt32) (data : List UInt8) (usage : UInt32) :
    Attempt Context :=
  ctx.changeBuffer target fun b => return { b with usage, data }

def bufferDataSize (ctx : Context) (target : UInt32) (size : Nat) (usage : UInt32) :
    Attempt Context :=
  ctx.changeBuffer target fun b =>
    if size < 0x8000000000000000 then return { b with usage, data := List.replicate size 0 }
    else throw .impossible

def overwrite (data : List UInt8) (start : Nat) (bytes : List UInt8) : List UInt8 :=
  data.take start ++ bytes ++ data.drop (start + bytes.length)

def bufferSubData (ctx : Context) (target : UInt32) (start : Nat) (bytes : List UInt8) :
    Attempt Context :=
  ctx.changeBuffer target fun b => do
    let stop := (start + bytes.length) % UInt64.size
    check (stop ≤ b.data.length) .invalidValue
    if stop < start then throw .impossible
    return { b with data := overwrite b.data start bytes }

def bufferParameter (ctx : Context) (target name : UInt32) : Attempt (Option Int32) :=
  match (ctx.boundBuffer? target).bind ctx.objects.buffers.get? with
  | none => return none
  | some b =>
      if name = Enumerant.bufferSize then return some (Int32.ofNat b.data.length)
      else if name = Enumerant.bufferUsage then return some b.usage.toInt32
      else refuse .invalidEnum

end GlPlayback.Context
