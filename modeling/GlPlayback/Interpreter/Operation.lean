import GlPlayback.Command.Basic
import GlPlayback.Command.Error
import GlPlayback.Command.Token
import GlPlayback.Gl.Call

/-!
A command is first resolved into an operation: words become constants, numbers become objects,
and payloads are read. What can be wrong with a command's arguments is found here, before anything
happens; resolving looks at the registry and at what is bound, and never at the context.
-/
namespace GlPlayback

/-- What is bound, by handle. -/
structure BindingState where
  program : Option Handle := none
  vertexArray : Option Handle := none
  buffers : Table BufferTarget Handle := ∅
  deriving DecidableEq, Repr

inductive NewObject where
  | texture
  | shader (stage : Stage)
  | program
  | buffer
  | vertexArray
  | framebuffer
  deriving DecidableEq, Repr

def NewObject.record : NewObject → ResourceRecord
  | texture => .texture
  | shader stage => .shader stage {}
  | program => .program {}
  | buffer => .buffer {}
  | vertexArray => .vertexArray {}
  | framebuffer => .framebuffer

def NewObject.name : NewObject → String
  | texture => "texture"
  | shader _ => "shader"
  | program => "program"
  | buffer => "buffer"
  | vertexArray => "vertex array"
  | framebuffer => "framebuffer"

inductive StoreContents where
  | bytes (data : List UInt8)
  | zeros (size : Nat)
  deriving DecidableEq, Repr

/-- A command that can be carried out. -/
inductive Operation where
  | nothing
  | issue (call : Call)
  | create (handle : Handle) (object : NewObject)
  | compile (handle : Handle) (shader : ObjectId)
  | link (handle : Handle) (program : ObjectId)
  | useProgram (program : Option (Handle × ObjectId))
  | bindVertexArray (array : Option (Handle × ObjectId))
  | bindBuffer (target : BufferTarget) (buffer : Option (Handle × ObjectId))
  /-- An upload, which shows in the record of `shown`. -/
  | bufferData (target : BufferTarget) (contents : StoreContents) (usage : UInt32)
      (shown : Option Handle)
  | createUniformBuffer (handle : Handle) (block : BlockRecord) (usage : UInt32)
  /-- A pointer call, recorded for a vertex array under a buffer. -/
  | setPointer (call : Call) (place : Option (Handle × Handle)) (record : PointerRecord)
  deriving DecidableEq, Repr

structure Payload where
  elements : Elements
  shape : List Nat
  deriving DecidableEq, Repr

/-- What a command is resolved against. -/
structure Surroundings where
  registry : Registry
  bindings : BindingState
  payloads : List (List UInt8)

namespace Surroundings

variable (s : Surroundings)

def handle (raw : Int) : Except CommandError Handle :=
  (s.registry.handle raw).mapError .registry

def optionalHandle (raw : Int) : Except CommandError (Option Handle) :=
  (s.registry.optionalHandle raw).mapError .registry

def object (h : Handle) (kind : ResourceKind) : Except CommandError ObjectId :=
  (s.registry.object h kind).mapError .registry

def resource (raw : Int) (kind : ResourceKind) : Except CommandError (Handle × ObjectId) := do
  let h ← s.handle raw
  let id ← s.object h kind
  return (h, id)

/-- Like `resource`, with negative numbers for none. -/
def optionalResource (raw : Int) (kind : ResourceKind) :
    Except CommandError (Option (Handle × ObjectId)) := do
  match ← s.optionalHandle raw with
  | none => return none
  | some h => return some (h, ← s.object h kind)

def programRecord (h : Handle) : Except CommandError ProgramRecord := do
  let resource ← (s.registry.get h).mapError .registry
  match resource.record.asProgram? with
  | some record => return record
  | none => throw (.registry (.wrongKind h .program (resource.record.kind?.getD .program)))

def payload? (command : Command) : Except CommandError (Option Payload) :=
  match command.payload with
  | none => .ok none
  | some ref =>
      match s.payloads[ref.index]? with
      | none => .error (.payloadIndex ref.index s.payloads.length)
      | some bytes => do
          let type ← (ElementType.ofName ref.type).mapError .element
          let elements ← (Elements.decode type bytes).mapError .element
          return some ⟨elements, ref.shape⟩

def payload (command : Command) : Except CommandError Payload := do
  match ← s.payload? command with
  | some p => return p
  | none => throw .missingPayload

def pixels (command : Command) : Except CommandError (Option (List UInt8)) := do
  return (← s.payload? command).map (·.elements.bytes)

/-- The location that an attribute is meant to have. -/
def attributeLocation : AttributeRef → Except CommandError UInt32
  | .location n => .ok n
  | .name name => do
      match s.bindings.program with
      | none => throw .noBoundProgram
      | some h =>
          let record ← s.programRecord h
          match record.attribute? name with
          | some a =>
              if a.location < 0 then throw (.unresolvedAttribute name)
              else return a.location.toUInt32
          | none => throw (.unresolvedAttribute name)

def pointerPlace : Option (Handle × Handle) := do
  return (← s.bindings.vertexArray, ← s.bindings.buffers.get? .array)

end Surroundings

namespace Operation

def token (family : TokenFamily) (word : String) : Except CommandError UInt32 :=
  match family.resolve? word with
  | some code => .ok code
  | none => .error (.unknownToken family.label word)

def bufferTarget (word : String) : Except CommandError BufferTarget :=
  match BufferTarget.ofToken? word with
  | some target => .ok target
  | none => .error (.unknownToken "buffer target" word)

def capabilities (args : CapabilityArgs) : Except CommandError Capabilities :=
  match args.mask with
  | none => .ok args.named
  | some bits =>
      if bits &&& Capabilities.all = bits then .ok (bits ||| args.named)
      else .error (.capabilityMask bits)

def clearMask (color depth stencil : Bool) : UInt32 :=
  (if color then Enumerant.colorBufferBit else 0) |||
    (if depth then Enumerant.depthBufferBit else 0) |||
    (if stencil then Enumerant.stencilBufferBit else 0)

/-- Only the conversion of colour spaces takes a word. -/
def pixelStoreValue (name : UInt32) : PixelStoreArg → Except CommandError Int32
  | .flag b => .ok (if b then 1 else 0)
  | .number n => .ok n
  | .token word =>
      if name = Enumerant.unpackColorspaceConversion then
        (token .colorspaceConversion word).map UInt32.toInt32
      else .error (.unknownToken "pixel store value" word)

def shaderStage (word : String) : Except CommandError Stage := do
  let code ← token .shaderKind word
  return if code = Enumerant.vertexShader then .vertex else .fragment

def image (args : ImageArgs) (pixels : Option (List UInt8)) :
    Except CommandError Context.Image := do
  return {
    level := args.level
    internalFormat := (← token .internalFormat args.internalFormat).toInt32
    width := args.width
    height := args.height
    depth := args.depth
    border := args.border
    format := ← token .pixelFormat args.format
    type := ← token .pixelType args.type
    pixels }

/-- A size of one to four, or two to four, as a payload's shape gives it. -/
def extent? (low : Nat) (n : Option Nat) : Option Nat :=
  n.filter fun n => low ≤ n && n ≤ 4

/-- The upload of a matrix whose columns and rows are the last two numbers of the shape. -/
def matrixCall (location : ObjectId) (p : Payload) : Except CommandError Call :=
  match p.shape.reverse with
  | rows :: columns :: _ =>
      if 2 ≤ columns ∧ columns ≤ 4 ∧ 2 ≤ rows ∧ rows ≤ 4 then
        match p.elements.asSingles? with
        | some data => .ok (.uniformMatrix location columns rows false data)
        | none => .error (.payloadType "float32" p.elements.type)
      else .error (.unsupportedShape p.shape)
  | _ => .error (.unsupportedShape p.shape)

/-- The upload of vectors whose width is the last number of the shape. -/
def vectorCall (location : ObjectId) (p : Payload) : Except CommandError Call :=
  match extent? 1 p.shape.getLast? with
  | none => .error (.unsupportedShape p.shape)
  | some components =>
      match p.elements.asSingles?, p.elements.asInts?, p.elements.asUInts? with
      | some data, _, _ => .ok (.uniformFloats location components data)
      | _, some data, _ => .ok (.uniformInts location components data)
      | _, _, some data => .ok (.uniformUInts location components data)
      | _, _, _ => .error (.payloadType "int32, uint32 or float32" p.elements.type)

/-- An upload to a uniform of the program in use. A name that is not active is passed over, and
so is every upload while no program is in use. -/
def upload (s : Surroundings) (command : Command) (name : String)
    (call : ObjectId → Payload → Except CommandError Call) : Except CommandError Operation := do
  match s.bindings.program with
  | none => return .nothing
  | some h =>
      let record ← s.programRecord h
      match (record.uniform? name).bind (·.location) with
      | none => return .nothing
      | some location => return .issue (← call location (← s.payload command))

/-- Elements of the payload from `sourceStart` on go to `start`; without a payload, zeros. -/
def subData (target : BufferTarget) (start sourceStart : Nat) (limit : Option Nat)
    (payload : Option Payload) : Except CommandError Operation := do
  match payload with
  | some p =>
      let bytes ← (p.elements.slice sourceStart limit).mapError .element
      return .issue (.bufferSubData target.code start bytes)
  | none => return .issue (.bufferSubData target.code start (List.replicate (limit.getD 0) 0))

/-- The offset of a member in the block that the bound buffer was made for. -/
def memberOffset (s : Surroundings) (target : BufferTarget) (member : String) :
    Except CommandError Nat := do
  match s.bindings.buffers.get? target with
  | none => throw (.noBoundBuffer target)
  | some h =>
      let resource ← (s.registry.get h).mapError .registry
      match resource.record.asBuffer?.bind (·.block) with
      | none => throw (.unresolvedBlock ("<buffer " ++ h.text ++ ">"))
      | some block =>
          match block.member? member with
          | none => throw (.unresolvedMember block.name member)
          | some m =>
              if m.offset < 0 then throw (.unresolvedMember block.name member)
              else return m.offset.toNatClampNeg

/-- The value of an attribute: as many singles as the shape's first number says. -/
def attributeFloats (index : UInt32) (p : Payload) : Except CommandError Operation :=
  match p.elements.asSingles? with
  | none => .error (.payloadType "float32" p.elements.type)
  | some data =>
      match extent? 1 p.shape.head? with
      | none => .error (.unsupportedShape p.shape)
      | some count =>
          if count ≤ data.length then .ok (.issue (.attributeFloats index (data.take count)))
          else .error (.unsupportedShape p.shape)

def firstFour? {α : Type} : List α → Option (Quad α)
  | x :: y :: z :: w :: _ => some ⟨x, y, z, w⟩
  | _ => none

/-- The integer value of an attribute: the first four elements. -/
def attributeInts (index : UInt32) (p : Payload) : Except CommandError Operation :=
  match p.elements.asInts?, p.elements.asUInts? with
  | some data, _ =>
      match firstFour? data with
      | some values => .ok (.issue (.attributeInts index values))
      | none => .error (.unsupportedShape p.shape)
  | _, some data =>
      match firstFour? data with
      | some values => .ok (.issue (.attributeUInts index values))
      | none => .error (.unsupportedShape p.shape)
  | _, _ => .error (.payloadType "int32 or uint32" p.elements.type)

def newObject : Creation → Except CommandError NewObject
  | .texture => .ok .texture
  | .shader type => (shaderStage type).map .shader
  | .program => .ok .program
  | .buffer => .ok .buffer
  | .vertexArray => .ok .vertexArray
  | .framebuffer => .ok .framebuffer

def resolve (s : Surroundings) (command : Command) : Except CommandError Operation := do
  match command.action with
  | .viewport area => return .issue (.viewport area)
  | .enable args => return .issue (.enable (← capabilities args))
  | .disable args => return .issue (.disable (← capabilities args))
  | .clearColor color => return .issue (.clearColor color)
  | .clear color depth stencil => return .issue (.clear (clearMask color depth stencil))
  | .frontFace mode => return .issue (.frontFace (← token .frontFace mode))
  | .cullFace mode => return .issue (.cullFace (← token .cullFaceMode mode))
  | .depthFunc func => return .issue (.depthFunc (← token .compareFunc func))
  | .depthMask flag => return .issue (.depthMask flag)
  | .depthRange near far => return .issue (.depthRange near far)
  | .blendColor color => return .issue (.blendColor color)
  | .blendEquation mode => return .issue (.blendEquation (← token .blendEquation mode))
  | .blendEquationSeparate color alpha =>
      return .issue (.blendEquationSeparate (← token .blendEquation color)
        (← token .blendEquation alpha))
  | .blendFunc source target =>
      return .issue (.blendFunc (← token .blendFactor source) (← token .blendFactor target))
  | .blendFuncSeparate f =>
      return .issue (.blendFuncSeparate ⟨← token .blendFactor f.x, ← token .blendFactor f.y,
        ← token .blendFactor f.z, ← token .blendFactor f.w⟩)
  | .pixelStore name value =>
      let name ← token .pixelStoreParameter name
      return .issue (.pixelStore name (← pixelStoreValue name value))
  | .create what raw =>
      let h ← s.handle raw
      return .create h (← newObject what)
  | .bindTexture target raw =>
      let target ← token .textureTarget target
      let texture ← s.optionalResource raw .texture
      return .issue (.bindTexture target (texture.map (·.2)))
  | .activeTexture unit =>
      if Enumerant.texture0.toNat + unit.toNat < UInt32.size then
        return .issue (.activeTexture (Enumerant.texture0 + unit))
      else throw (.textureUnit unit)
  | .generateMipmap target => return .issue (.generateMipmap (← token .textureTarget target))
  | .texImage2D target args =>
      let pixels ← s.pixels command
      let target ← token .textureTarget target
      return .issue (.texImage2D target (← image args pixels))
  | .texImage3D target args =>
      let pixels ← s.pixels command
      let target ← token .textureTarget target
      return .issue (.texImage3D target (← image args pixels))
  | .texStorage2D target levels internalFormat width height =>
      return .issue (.texStorage2D (← token .textureTarget target) levels
        (← token .internalFormat internalFormat) width height)
  | .texStorage3D target levels internalFormat width height depth =>
      return .issue (.texStorage3D (← token .textureTarget target) levels
        (← token .internalFormat internalFormat) width height depth)
  | .texParameterInt target name value =>
      return .issue (.texParameterInt (← token .textureTarget target)
        (← token .textureParameter name) value)
  | .texParameterFloat target name value =>
      return .issue (.texParameterFloat (← token .textureTarget target)
        (← token .textureParameter name) value)
  | .texParameterToken target name value =>
      return .issue (.texParameterInt (← token .textureTarget target)
        (← token .textureParameter name) (← token .textureParameterValue value).toInt32)
  | .shaderSource raw source =>
      let (_, shader) ← s.resource raw .shader
      return .issue (.shaderSource shader source)
  | .compileShader raw =>
      let (h, shader) ← s.resource raw .shader
      return .compile h shader
  | .deleteShader raw =>
      let (_, shader) ← s.resource raw .shader
      return .issue (.deleteShader shader)
  | .attachShader program shader =>
      let program ← s.handle program
      let shader ← s.handle shader
      return .issue (.attachShader (← s.object program .program) (← s.object shader .shader))
  | .bindAttributeLocation raw index name =>
      let (_, program) ← s.resource raw .program
      return .issue (.bindAttributeLocation program index name)
  | .linkProgram raw =>
      let (h, program) ← s.resource raw .program
      return .link h program
  | .useProgram raw => return .useProgram (← s.optionalResource raw .program)
  | .uniform name => upload s command name vectorCall
  | .uniformMatrix name => upload s command name matrixCall
  | .uniformBlockBinding raw name binding =>
      let (h, program) ← s.resource raw .program
      let record ← s.programRecord h
      match record.block? name with
      | none => throw (.unresolvedBlock name)
      | some block => return .issue (.uniformBlockBinding program block.index binding)
  | .bindBuffer target raw =>
      let target ← bufferTarget target
      return .bindBuffer target (← s.optionalResource raw .buffer)
  | .bindBufferBase target index raw =>
      let target ← bufferTarget target
      let buffer ← s.optionalResource raw .buffer
      return .issue (.bindBufferBase target.code index (buffer.map (·.2)))
  | .bufferData target usage update size =>
      let target ← bufferTarget target
      let usage ← token .usageHint usage
      let contents := match ← s.payload? command with
        | some p => .bytes p.elements.bytes
        | none => .zeros (size.getD 0)
      let shown := if update then s.bindings.buffers.get? target else none
      return .bufferData target contents usage shown
  | .bufferSubData target start sourceStart limit =>
      let target ← bufferTarget target
      subData target start sourceStart limit (← s.payload? command)
  | .bufferSubDataAt target member sourceStart =>
      let target ← bufferTarget target
      let start ← memberOffset s target member
      subData target start sourceStart none (← s.payload? command)
  | .createUniformBuffer buffer program name usage =>
      let h ← s.handle buffer
      let (program, _) ← s.resource program .program
      let record ← s.programRecord program
      match record.block? name with
      | none => throw (.unresolvedBlock name)
      | some block => return .createUniformBuffer h block (← token .usageHint usage)
  | .bindVertexArray raw => return .bindVertexArray (← s.optionalResource raw .vertexArray)
  | .attributePointer args normalized =>
      let index ← s.attributeLocation args.index
      let type ← token .vertexType args.type
      return .setPointer
        (.attributePointer index args.size type normalized args.stride args.offset)
        s.pointerPlace
        ⟨.float normalized, index, args.size, args.type, args.stride, args.offset⟩
  | .attributeIPointer args =>
      let index ← s.attributeLocation args.index
      let type ← token .vertexType args.type
      return .setPointer (.attributeIPointer index args.size type args.stride args.offset)
        s.pointerPlace ⟨.integer, index, args.size, args.type, args.stride, args.offset⟩
  | .enableAttribute index => return .issue (.enableAttribute (← s.attributeLocation index))
  | .disableAttribute index => return .issue (.disableAttribute (← s.attributeLocation index))
  | .attributeFloats index =>
      let index ← s.attributeLocation index
      attributeFloats index (← s.payload command)
  | .attributeInts index =>
      let index ← s.attributeLocation index
      attributeInts index (← s.payload command)
  | .bindFramebuffer target raw =>
      let target ← token .framebufferTarget target
      let framebuffer ← s.optionalResource raw .framebuffer
      return .issue (.bindFramebuffer target (framebuffer.map (·.2)))
  | .framebufferTexture2D target attachment textureTarget raw level =>
      let texture ← s.optionalResource raw .texture
      let target ← token .framebufferTarget target
      let attachment ← token .attachment attachment
      let textureTarget ← token .textureTarget textureTarget
      return .issue (.framebufferTexture2D target attachment
        (texture.map fun (_, id) => ⟨id, textureTarget, level⟩))
  | .drawBuffers buffers =>
      return .issue (.drawBuffers (← buffers.mapM fun word => token .drawBuffer word))
  | .drawArrays mode first count =>
      return .issue (.drawArrays (← token .drawMode mode) first count)
  | .drawArraysInstanced mode first count instances =>
      return .issue (.drawArraysInstanced (← token .drawMode mode) first count instances)
  | .drawElements mode count type offset =>
      return .issue (.drawElements (← token .drawMode mode) count (← token .indexType type)
        offset)
  | .drawElementsInstanced mode count type offset instances =>
      return .issue (.drawElementsInstanced (← token .drawMode mode) count
        (← token .indexType type) offset instances)
  | .unknown => throw .unsupported

end Operation

end GlPlayback
