import GlPlayback.Command.BufferTarget
import GlPlayback.Gl.Object
import GlPlayback.Json.Basic
import GlPlayback.Resource.Handle

/-!
Records tell the host what is known about each resource. A record's JSON form lists its members
in alphabetical order and leaves out what is absent.
-/
namespace GlPlayback

structure ShaderRecord where
  /-- "compiled" or the info log, once there was a compilation. -/
  message : Option String := none
  deriving DecidableEq, Repr

structure UniformRecord where
  name : String
  type : String
  size : Int32
  location : Option ObjectId
  deriving DecidableEq, Repr

structure MemberRecord where
  name : String
  type : String
  size : Int32
  offset : Int32
  deriving DecidableEq, Repr

structure BlockRecord where
  index : UInt32
  name : String
  size : Int32
  members : List MemberRecord
  deriving DecidableEq, Repr

structure AttributeRecord where
  name : String
  type : String
  size : Int32
  location : Int32
  deriving DecidableEq, Repr

structure ProgramRecord where
  /-- "linked" or the info log, once there was a link. -/
  message : Option String := none
  uniforms : List UniformRecord := []
  blocks : List BlockRecord := []
  attributes : List AttributeRecord := []
  deriving DecidableEq, Repr

inductive StoreSize where
  | bytes (n : Int)
  | undefined
  deriving DecidableEq, Repr

structure BufferRecord where
  size : Option StoreSize := none
  target : Option BufferTarget := none
  /-- The block that the buffer was made for. -/
  block : Option BlockRecord := none
  deriving DecidableEq, Repr

/-- How an attribute pointer hands its values to a shader. -/
structure PointerSetting where
  /-- The call that sets the pointer. -/
  call : String
  /-- Absent where values stay integers. -/
  normalized : Option Bool
  deriving DecidableEq, Repr

namespace PointerSetting

def float (normalized : Bool) : PointerSetting :=
  ⟨"vertexAttribPointer", some normalized⟩

def integer : PointerSetting :=
  ⟨"vertexAttribIPointer", none⟩

end PointerSetting

structure PointerRecord where
  setting : PointerSetting
  index : UInt32
  size : Int32
  type : String
  stride : Int32
  offset : Int32
  deriving DecidableEq, Repr

/-- The pointers that were set while one buffer was bound, in order. -/
structure PointerGroup where
  buffer : Handle
  pointers : List PointerRecord
  deriving DecidableEq, Repr

structure VertexArrayRecord where
  groups : List PointerGroup := []
  deriving DecidableEq, Repr

inductive ResourceRecord where
  /-- Registered, and nothing more. -/
  | unset
  | buffer (record : BufferRecord)
  | shader (stage : Stage) (record : ShaderRecord)
  | program (record : ProgramRecord)
  | vertexArray (record : VertexArrayRecord)
  | texture
  | framebuffer
  deriving DecidableEq, Repr

inductive ResourceKind where
  | buffer
  | shader
  | program
  | vertexArray
  | texture
  | framebuffer
  deriving DecidableEq, Repr

def ResourceKind.name : ResourceKind → String
  | buffer => "buffer"
  | shader => "shader"
  | program => "program"
  | vertexArray => "vertex array"
  | texture => "texture"
  | framebuffer => "framebuffer"

namespace ProgramRecord

def uniform? (p : ProgramRecord) (name : String) : Option UniformRecord :=
  p.uniforms.find? fun u => u.name == name || u.name == name ++ "[0]"

def block? (p : ProgramRecord) (name : String) : Option BlockRecord :=
  p.blocks.find? fun b => b.name == name

def attribute? (p : ProgramRecord) (name : String) : Option AttributeRecord :=
  p.attributes.find? fun a => a.name == name

end ProgramRecord

def BlockRecord.member? (b : BlockRecord) (name : String) : Option MemberRecord :=
  b.members.find? fun m => m.name == name

namespace VertexArrayRecord

/-- Adds a pointer to the group of its buffer, the last one if that is new. -/
def addTo (buffer : Handle) (pointer : PointerRecord) : List PointerGroup → List PointerGroup
  | [] => [⟨buffer, [pointer]⟩]
  | group :: rest =>
      if group.buffer = buffer then
        { group with pointers := group.pointers ++ [pointer] } :: rest
      else group :: addTo buffer pointer rest

def add (v : VertexArrayRecord) (buffer : Handle) (pointer : PointerRecord) :
    VertexArrayRecord :=
  ⟨addTo buffer pointer v.groups⟩

end VertexArrayRecord

namespace ResourceRecord

def kind? : ResourceRecord → Option ResourceKind
  | unset => none
  | buffer _ => some .buffer
  | shader .. => some .shader
  | program _ => some .program
  | vertexArray _ => some .vertexArray
  | texture => some .texture
  | framebuffer => some .framebuffer

def asProgram? : ResourceRecord → Option ProgramRecord
  | program p => some p
  | _ => none

def asBuffer? : ResourceRecord → Option BufferRecord
  | buffer b => some b
  | _ => none

end ResourceRecord

section Json

/-- A member that is left out if its value is absent. -/
def Json.ifPresent {α : Type} (name : String) (write : α → Json) :
    Option α → List (String × Json)
  | some a => [(name, write a)]
  | none => []

def Json.int32 (n : Int32) : Json :=
  .int n.toInt

def UniformRecord.toJson (u : UniformRecord) : Json :=
  .object
    [("location", .orNull .nat u.location), ("name", .string u.name), ("size", .int32 u.size),
     ("type", .string u.type)]

def MemberRecord.toJson (m : MemberRecord) : Json :=
  .object
    [("name", .string m.name), ("offset", .int32 m.offset), ("size", .int32 m.size),
     ("type", .string m.type)]

def BlockRecord.toJson (b : BlockRecord) : Json :=
  .object
    [("index", .nat b.index.toNat), ("name", .string b.name), ("size", .int32 b.size),
     ("uniforms", .list MemberRecord.toJson b.members)]

def AttributeRecord.toJson (a : AttributeRecord) : Json :=
  .object
    [("location", .int32 a.location), ("name", .string a.name), ("size", .int32 a.size),
     ("type", .string a.type)]

def StoreSize.toJson : StoreSize → Json
  | bytes n => .int n
  | undefined => .string "Undefined"

def PointerRecord.toJson (p : PointerRecord) : Json :=
  .object
    ([("index", .nat p.index.toNat)] ++ Json.ifPresent "normalized" .bool p.setting.normalized ++
      [("offset", .int32 p.offset), ("pointer", .string p.setting.call), ("size", .int32 p.size),
       ("stride", .int32 p.stride), ("type", .string p.type)])

def PointerGroup.toJson (g : PointerGroup) : Json :=
  .object
    [("attributes", .list PointerRecord.toJson g.pointers), ("buffer_uid", .nat g.buffer.index)]

def ResourceRecord.toJson : ResourceRecord → Json
  | unset => .object [("type", .string "not set")]
  | buffer b =>
      .object
        (Json.ifPresent "size" StoreSize.toJson b.size ++
          Json.ifPresent "target" (fun t => .string t.name) b.target ++
          [("type", .string "Buffer")] ++
          Json.ifPresent "uniformblock" BlockRecord.toJson b.block)
  | shader stage s =>
      .object
        (Json.ifPresent "message" .string s.message ++
          [("type", .string (match stage with
            | .vertex => "VERTEX_SHADER"
            | .fragment => "FRAGMENT_SHADER"))])
  | program p =>
      .object
        ([("attributes", Json.list AttributeRecord.toJson p.attributes)] ++
          Json.ifPresent "message" .string p.message ++
          [("type", .string "Program"), ("uniforms", .list UniformRecord.toJson p.uniforms),
           ("uniforms_blocks", .list BlockRecord.toJson p.blocks)])
  | vertexArray v =>
      .object
        [("bindings", .list PointerGroup.toJson v.groups),
         ("type", .string "Vertex Array Object")]
  | texture => .object [("type", .string "texture")]
  | framebuffer => .object [("type", .string "Framebuffer")]

end Json

end GlPlayback
