import GlPlayback.Gl.Context
import GlPlayback.Json.Basic
import GlPlayback.Text.Hex

/-!
The state of a context as JSON, for looking at it and for comparing two states. Tables become
lists in the order of their keys, and singles are written by their bits.
-/
namespace GlPlayback.Snapshot

open Json

def word (n : UInt32) : Json :=
  .nat n.toNat

def integer (n : Int32) : Json :=
  .int n.toInt

def id? : Option ObjectId → Json :=
  orNull .nat

/-- A single by its bits; all NaN look the same. -/
def single (x : Single) : Json :=
  .string (if x.toFloat32.isNaN then "nan" else Hex.ofWord 8 x.bits.toNat)

def quad {α : Type} (write : α → Json) (q : Quad α) : Json :=
  list write q.toList

def table {κ α : Type} (key : κ → Json) (write : α → Json) (t : Table κ α) : Json :=
  list (fun (k, a) => .array [key k, write a]) t.entries

/-- Length, sum and the first bytes. -/
def blob (bytes : List UInt8) : Json :=
  .object
    [("len", .nat bytes.length), ("hex", .string (Hex.ofBytes (bytes.take 512))),
     ("sum", .nat (bytes.foldl (fun sum b => sum + b.toNat) 0))]

def uniformValue : UniformValue → Json
  | .float n data => .object [("t", .string "f"), ("n", .nat n), ("d", list single data)]
  | .int n data => .object [("t", .string "i"), ("n", .nat n), ("d", list integer data)]
  | .uint n data => .object [("t", .string "u"), ("n", .nat n), ("d", list word data)]
  | .matrix columns rows transpose data =>
      .object
        [("t", .string "m"), ("n", .array [.nat columns, .nat rows]),
         ("transpose", .bool transpose), ("d", list single data)]

def declaration (u : UniformDecl) : List (String × Json) :=
  [("name", .string u.name), ("type", word u.type.code), ("size", integer u.size),
   ("array", .bool u.isArray)]

def block (b : UniformBlock) : Json :=
  .object
    [("name", .string b.name), ("instance", orNull .string b.instanceName),
     ("size", word b.dataSize),
     ("members", list (fun m => .object (declaration m.decl ++
       [("offset", word m.offset), ("full", .string (b.memberName m))])) b.members)]

def interface (i : ShaderInterface) : Json :=
  .object
    [("attributes", list (fun a => .object
        [("name", .string a.name), ("type", word a.type.code), ("size", integer a.size),
         ("location", orNull word a.location), ("slots", word a.slots)]) i.attributes),
     ("uniforms", list (fun u => .object
        (declaration u ++ [("active", .string u.activeName)])) i.uniforms),
     ("blocks", list block i.blocks)]

def shader (s : ShaderObject) : Json :=
  .object
    [("shader", word s.stage.code), ("source_len", .nat s.source.length),
     ("compiled", .bool s.compiled), ("log", .string s.log), ("deleted", .bool s.deleted),
     ("interface", interface s.interface)]

/-- A linked uniform with what was last uploaded to it. -/
def linkedUniform (values : Table ObjectId UniformValue) (u : LinkedUniform) : Json :=
  .object
    [("name", .string u.active.name), ("type", word u.active.type.code),
     ("size", integer u.active.size), ("block", integer u.place.blockIndex),
     ("offset", integer u.place.offset), ("location", id? u.place.location?),
     ("value", orNull uniformValue (u.place.location?.bind values.get?))]

def program (values : Table ObjectId UniformValue) (p : ProgramObject) : Json :=
  .object
    [("program", .array [id? p.vertexShader, id? p.fragmentShader]), ("linked", .bool p.linked),
     ("validated", .bool p.validated), ("log", .string p.log), ("deleted", .bool p.deleted),
     ("wanted", .object (p.wanted.entries.map fun (name, location) => (name, word location))),
     ("uniforms", list (linkedUniform values) p.uniforms),
     ("blocks", list (fun b => .array
       [.string b.name, word b.dataSize, word b.binding, .nat b.activeUniforms]) p.blocks),
     ("attributes", list (fun a => .array
       [.string a.active.name, word a.active.type.code, integer a.active.size,
        word a.location]) p.attributes)]

def buffer (b : BufferObject) : Json :=
  .object
    [("buffer", blob b.data), ("target", orNull word b.target), ("usage", word b.usage),
     ("deleted", .bool b.deleted)]

def texture (t : TextureObject) : Json :=
  .object
    [("texture", blob t.data), ("target", orNull word t.target),
     ("size", .array [word t.width, word t.height, word t.depth]), ("levels", word t.levels),
     ("internal_format", word t.internalFormat), ("format", word t.format),
     ("immutable", .bool t.immutable), ("mipmapped", .bool t.mipmapped),
     ("ints", table word integer t.intParameters),
     ("floats", table word single t.floatParameters)]

def attachment (a : TextureAttachment) : Json :=
  .array [.nat a.texture, word a.textureTarget, integer a.level]

def framebuffer (f : FramebufferObject) : Json :=
  .object
    [("framebuffer", table word attachment f.attachments),
     ("draw_buffers", list word f.drawBuffers)]

def pointer (a : AttributePointer) : Json :=
  .object
    [("enabled", .bool a.enabled), ("size", integer a.size), ("type", word a.type),
     ("normalized", .bool a.normalized), ("integer", .bool a.integer),
     ("stride", integer a.stride), ("offset", integer a.offset), ("buffer", id? a.buffer)]

/-- A vertex array; slots that were never touched are left out. -/
def vertexArray (v : VertexArrayObject) : Json :=
  let touched := v.slots.toList.zipIdx.filter fun (a, _) => a ≠ {}
  .object
    [("attribs", list (fun (a, index) => .array [.nat index, pointer a]) touched),
     ("elements", id? v.elementBuffer), ("slots", .nat attributeSlots)]

def namedVertexArray (v : VertexArrayObject) : Json :=
  .object [("vertex_array", vertexArray v)]

def generic : GenericAttribute → Json
  | .float values => .array [.string "f", quad single values]
  | .int values => .array [.string "i", quad integer values]
  | .uint values => .array [.string "u", quad word values]

def object (o : ObjectTables) (id : ObjectId) : Json :=
  ((o.buffers.get? id).map buffer <|>
    (o.shaders.get? id).map shader <|>
    (o.programs.get? id).map (program o.uniforms) <|>
    (o.textures.get? id).map texture <|>
    (o.framebuffers.get? id).map framebuffer <|>
    (o.vertexArrays.get? id).map namedVertexArray).getD .null

/-- The units that have a texture, with their numbers. -/
def usedUnits (b : BindingPoints) : List (Table UInt32 ObjectId × Nat) :=
  b.units.toList.zipIdx.filter fun (unit, _) => !unit.entries.isEmpty

def inUse (b : BindingPoints) : List ObjectId :=
  b.program.toList ++ b.vertexArray.toList ++ b.framebuffer.toList ++ b.buffers.values ++
    b.indexed.values ++ (usedUnits b).flatMap fun (unit, _) => unit.values

/-- The objects with these numbers and those in use, in the order of their numbers. -/
def objects (ctx : Context) (ids : List ObjectId) : List (ObjectId × Json) :=
  let wanted : Table ObjectId Unit :=
    (ids ++ inUse ctx.bindings).foldl (fun t id => t.insert id ()) ∅
  wanted.keys.map fun id => (id, object ctx.objects id)

def state (ctx : Context) : List (String × Json) :=
  let f := ctx.fixed
  let b := ctx.bindings
  [("size", .array [word ctx.width, word ctx.height]),
   ("clear_color", quad single f.clearColor),
   ("viewport", quad integer f.viewport),
   ("caps", word f.capabilities),
   ("front_face", word f.frontFace),
   ("cull_face", word f.cullFace),
   ("depth_func", word f.depthFunc),
   ("depth_mask", .bool f.depthMask),
   ("depth_range", list single [f.depthRange.1, f.depthRange.2]),
   ("blend_color", quad single f.blendColor),
   ("blend_equation", list word [f.blendEquation.1, f.blendEquation.2]),
   ("blend_func", quad word f.blendFunc),
   ("pixel_store", table word integer f.pixelStore),
   ("program", id? b.program),
   ("vao", id? b.vertexArray),
   ("fb", id? b.framebuffer),
   ("buffers", table word .nat b.buffers),
   ("indexed", list (fun (place, id) =>
     .array [word place.target, word place.index, .nat id]) b.indexed.entries),
   ("active_texture", .nat b.activeTexture),
   ("units", list (fun (unit, index) => .array [.nat index, table word .nat unit])
     (usedUnits b)),
   ("draw_buffers", list word b.drawBuffers),
   ("generic", table word generic b.generic),
   ("extensions", list .string f.extensions.keys),
   ("current_vao", vertexArray ctx.vertexArray)]

def drawState (s : DrawState) : Json :=
  .object
    [("viewport", quad integer s.viewport), ("caps", word s.capabilities),
     ("vao", id? s.vertexArray), ("fb", id? s.framebuffer),
     ("uniforms", table .nat uniformValue s.uniforms)]

def drawCall : DrawCall → Json
  | .clear mask color =>
      .object [("draw", .string "clear"), ("mask", word mask), ("color", quad single color)]
  | .arrays mode first count instances program state =>
      .object
        [("draw", .string "arrays"), ("mode", word mode), ("first", integer first),
         ("count", integer count), ("instances", integer instances), ("program", .nat program),
         ("state", drawState state)]
  | .elements mode count type offset instances program state =>
      .object
        [("draw", .string "elements"), ("mode", word mode), ("count", integer count),
         ("type", word type), ("offset", integer offset), ("instances", integer instances),
         ("program", .nat program), ("state", drawState state)]

end GlPlayback.Snapshot
