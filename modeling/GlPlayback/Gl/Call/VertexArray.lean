import GlPlayback.Gl.Attempt

/-!
Calls on vertex arrays and on the values of attributes whose arrays are off.
-/
namespace GlPlayback.Context

open Attempt

def createVertexArray (ctx : Context) : ObjectId × Context :=
  let (id, ctx) := ctx.takeId
  (id, { ctx with objects.vertexArrays := ctx.objects.vertexArrays.insert id {} })

def bindVertexArray (ctx : Context) (array : Option ObjectId) : Attempt Context := do
  if let some id := array then
    check (ctx.objects.vertexArrays.contains id) .invalidOperation
  return { ctx with bindings.vertexArray := array }

def changeSlot (ctx : Context) (slot : Fin attributeSlots)
    (change : AttributePointer → AttributePointer) : Context :=
  ctx.changeVertexArray fun array =>
    { array with slots := array.slots.set slot (change array.slots[slot]) }

/-- Points an attribute into the bound array buffer. Without a buffer only offset 0 makes sense. -/
def attributePointer (ctx : Context) (index : UInt32) (size : Int32) (type : UInt32)
    (normalized : Bool) (stride offset : Int32) : Attempt Context := do
  let slot ← slot index
  check (1 ≤ size && size ≤ 4 && 0 ≤ stride && 0 ≤ offset) .invalidValue
  let buffer := ctx.bindings.buffers.get? Enumerant.arrayBuffer
  check (buffer.isSome || offset == 0) .invalidOperation
  return ctx.changeSlot slot fun old =>
    { enabled := old.enabled, size, type, normalized, integer := false, stride, offset, buffer }

/-- Points an integer attribute into the bound array buffer. Floating-point types are refused;
sizes, strides and offsets are taken as they are. -/
def attributeIPointer (ctx : Context) (index : UInt32) (size : Int32) (type : UInt32)
    (stride offset : Int32) : Attempt Context := do
  let slot ← slot index
  check (type != Enumerant.float && type != Enumerant.halfFloat) .invalidEnum
  let buffer := ctx.bindings.buffers.get? Enumerant.arrayBuffer
  return ctx.changeSlot slot fun old =>
    { enabled := old.enabled, size, type, normalized := false, integer := true, stride, offset
      buffer }

def switchAttribute (ctx : Context) (index : UInt32) (enabled : Bool) : Attempt Context := do
  let slot ← slot index
  return ctx.changeSlot slot fun old => { old with enabled }

def genericAttribute (ctx : Context) (index : UInt32) (value : GenericAttribute) :
    Attempt Context := do
  let _ ← slot index
  return { ctx with bindings.generic := ctx.bindings.generic.insert index value }

/-- One to four components; missing ones are zero, and the last is one. -/
def quadOf? : List Single → Option (Quad Single)
  | [x] => some ⟨x, .zero, .zero, .one⟩
  | [x, y] => some ⟨x, y, .zero, .one⟩
  | [x, y, z] => some ⟨x, y, z, .one⟩
  | [x, y, z, w] => some ⟨x, y, z, w⟩
  | _ => none

def attributeFloats (ctx : Context) (index : UInt32) (values : List Single) :
    Attempt Context := do
  let _ ← slot index
  match quadOf? values with
  | none => refuse .invalidValue
  | some quad => ctx.genericAttribute index (.float quad)

end GlPlayback.Context
