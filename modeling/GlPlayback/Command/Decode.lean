import GlPlayback.Command.Basic
import GlPlayback.Json.Decode

/-!
Reading commands out of JSON. A command is an object whose member `cmd` says what it does, by a name
or by a number; the other members are its arguments, in any order and among members that mean
nothing.
-/
namespace GlPlayback

open Json

/-- How a command's arguments are asked for: by the names that each may go by. -/
abbrev ArgumentLookup := List String → Option (Option Json)

namespace ArgumentLookup

variable {α : Type} (look : ArgumentLookup)

def need (read : Json → Option α) (name : String) : Option α := do
  required read (← look [name])

/-- An argument that has to be there, under one of two names. -/
def needEither (read : Json → Option α) (name other : String) : Option α := do
  required read (← look [name, other])

def orElse (absent : α) (read : Json → Option α) (name : String) : Option α := do
  withDefault absent read (← look [name])

def word (name : String) : Option String :=
  look.need asString? name

def int32 (name : String) : Option Int32 :=
  look.need asInt32? name

def resource (name : String) : Option Int :=
  look.need asInt64? name

/-- The number of a resource, or none if it is absent. -/
def resourceOrNone (name : String) : Option Int :=
  look.orElse (-1) asInt64? name

def flag (name : String) : Option Bool :=
  look.orElse false asBool? name

def int32OrZero (name : String) : Option Int32 :=
  look.orElse 0 asInt32? name

def countOrZero (name : String) : Option Nat :=
  look.orElse 0 asCount? name

def countOrAll (name : String) : Option (Option Nat) := do
  optional asCount? (← look [name])

def color : Option (Quad Single) := do
  return ⟨← look.need asSingle? "r", ← look.need asSingle? "g", ← look.need asSingle? "b",
    ← look.need asSingle? "a"⟩

def capabilityNames : List (String × Capabilities) :=
  [("blend", Capabilities.blend), ("cull_face", Capabilities.cullFace),
   ("depth_test", Capabilities.depthTest), ("dither", Capabilities.dither),
   ("polygon_offset_fill", Capabilities.polygonOffsetFill),
   ("sample_alpha_to_coverage", Capabilities.sampleAlphaToCoverage),
   ("sample_coverage", Capabilities.sampleCoverage),
   ("scissor_test", Capabilities.scissorTest), ("stencil_test", Capabilities.stencilTest),
   ("rasterizer_discard", Capabilities.rasterizerDiscard)]

def capabilities : Option CapabilityArgs := do
  let named ← capabilityNames.mapM fun (name, bit) => do
    return if ← look.flag name then bit else 0
  return ⟨named.foldl (· ||| ·) 0, ← optional asUInt32? (← look ["mask"])⟩

def asPixelStoreArg? : Json → Option PixelStoreArg
  | .bool b => some (.flag b)
  | .string s => some (.token s)
  | value => (asInt32? value).map .number

def asAttributeRef? : Json → Option AttributeRef
  | .string s => some (.name s)
  | value => (asUInt32? value).map .location

def attributeIndex : Option AttributeRef :=
  look.need asAttributeRef? "index"

def image (depth : Int32) : Option ImageArgs := do
  return {
    level := ← look.int32OrZero "level"
    internalFormat := ← look.word "internal_format"
    width := ← look.int32 "width"
    height := ← look.int32 "height"
    depth
    border := ← look.int32OrZero "border"
    format := ← look.word "format"
    type := ← look.word "data_type" }

def pointer : Option PointerArgs := do
  return {
    index := ← look.attributeIndex
    size := ← look.int32 "size"
    type := ← look.word "type"
    stride := ← look.int32OrZero "stride"
    offset := ← look.int32OrZero "offset" }

def drawMode : Option String :=
  look.needEither asString? "mode" "type"

end ArgumentLookup

namespace Action

def creationOf (what : Creation) (look : ArgumentLookup) : Option Action := do
  return .create what (← look.resource "resource")

/-- The kinds of commands: the names of each, and how it is made of its arguments. -/
def readers : List (List String × (ArgumentLookup → Option Action)) :=
  [(["viewport"], fun look => do
      return .viewport ⟨← look.int32 "x", ← look.int32 "y", ← look.int32 "width",
        ← look.int32 "height"⟩),
   (["enable"], fun look => do return .enable (← look.capabilities)),
   (["disable"], fun look => do return .disable (← look.capabilities)),
   (["clearColor"], fun look => do return .clearColor (← look.color)),
   (["clear"], fun look => do
      return .clear (← look.flag "color") (← look.flag "depth") (← look.flag "stencil")),
   (["frontFace"], fun look => do return .frontFace (← look.word "mode")),
   (["cullFace"], fun look => do return .cullFace (← look.word "mode")),
   (["depthFunc"], fun look => do return .depthFunc (← look.word "func")),
   (["depthMask"], fun look => do return .depthMask (← look.need asBool? "flag")),
   (["depthRange"], fun look => do
      return .depthRange (← look.need asSingle? "z_near") (← look.need asSingle? "z_far")),
   (["blendColor"], fun look => do return .blendColor (← look.color)),
   (["blendEquation"], fun look => do return .blendEquation (← look.word "mode")),
   (["blendEquationSeparate"], fun look => do
      return .blendEquationSeparate (← look.word "mode_rgb") (← look.word "mode_alpha")),
   (["blendFunc"], fun look => do
      return .blendFunc (← look.word "s_factor") (← look.word "d_factor")),
   (["blendFuncSeparate", "blend_func_separate"], fun look => do
      return .blendFuncSeparate ⟨← look.word "src_rgb", ← look.word "dst_rgb",
        ← look.word "src_alpha", ← look.word "dst_alpha"⟩),
   (["pixelStorei"], fun look => do
      return .pixelStore (← look.word "pname")
        (← look.need ArgumentLookup.asPixelStoreArg? "param")),
   (["createTexture"], creationOf .texture),
   (["createShader"], fun look => do creationOf (.shader (← look.word "type")) look),
   (["createProgram"], creationOf .program),
   (["createBuffer"], creationOf .buffer),
   (["createVertexArray"], creationOf .vertexArray),
   (["createFramebuffer"], creationOf .framebuffer),
   (["bindTexture"], fun look => do
      return .bindTexture (← look.word "target") (← look.resourceOrNone "texture")),
   (["activeTexture"], fun look => do return .activeTexture (← look.need asUInt32? "texture")),
   (["generateMipmap"], fun look => do return .generateMipmap (← look.word "target")),
   (["texImage2D"], fun look => do
      return .texImage2D (← look.word "target") (← look.image 1)),
   (["texImage3D"], fun look => do
      return .texImage3D (← look.word "target") (← look.image (← look.int32 "depth"))),
   (["texStorage2D"], fun look => do
      return .texStorage2D (← look.word "target") (← look.int32 "levels")
        (← look.word "internal_format") (← look.int32 "width") (← look.int32 "height")),
   (["texStorage3D"], fun look => do
      return .texStorage3D (← look.word "target") (← look.int32 "levels")
        (← look.word "internal_format") (← look.int32 "width") (← look.int32 "height")
        (← look.int32 "depth")),
   (["texParameteri"], fun look => do
      return .texParameterInt (← look.word "target") (← look.word "pname")
        (← look.int32 "param")),
   (["texParameterf"], fun look => do
      return .texParameterFloat (← look.word "target") (← look.word "pname")
        (← look.need asSingle? "param")),
   (["texParameter_str"], fun look => do
      return .texParameterToken (← look.word "target") (← look.word "pname")
        (← look.word "param")),
   (["shaderSource"], fun look => do
      return .shaderSource (← look.resource "shader") (← look.word "source")),
   (["compileShader"], fun look => do return .compileShader (← look.resource "shader")),
   (["deleteShader"], fun look => do return .deleteShader (← look.resource "shader")),
   (["attachShader"], fun look => do
      return .attachShader (← look.resource "program") (← look.resource "shader")),
   (["bindAttribLocation"], fun look => do
      return .bindAttributeLocation (← look.resource "program")
        (← look.need asUInt32? "index") (← look.word "name")),
   (["linkProgram"], fun look => do return .linkProgram (← look.resource "program")),
   (["useProgram"], fun look => do return .useProgram (← look.resourceOrNone "program")),
   (["uniform"], fun look => do return .uniform (← look.word "name")),
   (["uniformMatrix"], fun look => do return .uniformMatrix (← look.word "name")),
   (["uniformBlockBinding"], fun look => do
      return .uniformBlockBinding (← look.resource "program") (← look.word "uniform_block_name")
        (← look.need asUInt32? "uniform_block_binding")),
   (["bindBuffer"], fun look => do
      return .bindBuffer (← look.word "target") (← look.resourceOrNone "buffer")),
   (["bindBufferBase"], fun look => do
      return .bindBufferBase (← look.word "target") (← look.need asUInt32? "index")
        (← look.resourceOrNone "buffer")),
   (["bufferData"], fun look => do
      return .bufferData (← look.word "target") (← look.word "usage")
        (← look.flag "update_info") (← look.countOrAll "size")),
   (["bufferSubData"], fun look => do
      return .bufferSubData (← look.word "target") (← look.countOrZero "dst_byte_offset")
        (← look.countOrZero "src_offset") (← look.countOrAll "size")),
   (["bufferSubDataStr"], fun look => do
      return .bufferSubDataAt (← look.word "target") (← look.word "dst_byte_offset")
        (← look.countOrZero "src_offset")),
   (["createUniformBuffer"], fun look => do
      return .createUniformBuffer (← look.resource "buffer") (← look.resource "program")
        (← look.word "block_name") (← look.word "usage")),
   (["bindVertexArray"], fun look => do
      return .bindVertexArray
        (← withDefault (-1) asInt64? (← look ["vertex_array", "vao"]))),
   (["vertexAttribPointer"], fun look => do
      return .attributePointer (← look.pointer) (← look.flag "normalized")),
   (["vertexAttribIPointer"], fun look => do return .attributeIPointer (← look.pointer)),
   (["enableVertexAttribArray"], fun look => do
      return .enableAttribute (← look.attributeIndex)),
   (["disableVertexAttribArray"], fun look => do
      return .disableAttribute (← look.attributeIndex)),
   (["vertexAttrib[1234]fv"], fun look => do return .attributeFloats (← look.attributeIndex)),
   (["vertexAttribI4[u]iv"], fun look => do return .attributeInts (← look.attributeIndex)),
   (["bindFramebuffer"], fun look => do
      return .bindFramebuffer (← look.word "target") (← look.resourceOrNone "framebuffer")),
   (["framebufferTexture2D"], fun look => do
      return .framebufferTexture2D (← look.word "target")
        (← look.needEither asString? "attachement" "attachment") (← look.word "textarget")
        (← look.resourceOrNone "texture") (← look.int32OrZero "level")),
   (["drawBuffers"], fun look => do
      return .drawBuffers (← look.need (asList? asString?) "buffers")),
   (["drawArrays"], fun look => do
      return .drawArrays (← look.drawMode) (← look.int32 "first") (← look.int32 "count")),
   (["drawArraysInstanced"], fun look => do
      return .drawArraysInstanced (← look.drawMode) (← look.int32 "first")
        (← look.int32 "count") (← look.int32 "instance_count")),
   (["drawElements"], fun look => do
      return .drawElements (← look.word "mode") (← look.int32 "count") (← look.word "type")
        (← look.int32OrZero "offset")),
   (["drawElementsInstanced"], fun look => do
      return .drawElementsInstanced (← look.word "mode") (← look.int32 "count")
        (← look.word "type") (← look.int32OrZero "offset") (← look.int32 "instance_count"))]

/-- The reader that a tag chooses: by a name, or by the place of a kind in the list of all. A tag
that chooses none stands for a command that nobody knows. -/
def reader? (tag : Json) : Option (ArgumentLookup → Option Action) := do
  let kind ← match tag with
    | .string name => some (readers.find? fun kind => kind.1.contains name)
    | _ => (asCount? tag).map fun place => readers[place]?
  return (kind.map (·.2)).getD fun _ => some .unknown

end Action

def PayloadRef.ofJson? (value : Json) : Option PayloadRef := do
  let [index, type, shape] ← fields? [["index"], ["dtype"], ["shape"]] value | none
  return ⟨← required asCount? index, ← required asString? type,
    ← withDefault [] (asList? asCount?) shape⟩

def Command.ofJson? : Json → Option Command
  | .object members => do
      let read ← required Action.reader? (← member? ["cmd"] members)
      let action ← read fun names => member? names members
      let payload ← optional PayloadRef.ofJson? (← member? ["buffer_metadata"] members)
      return ⟨action, payload⟩
  | _ => none

def Batch.ofJson? (value : Json) : Option Batch := do
  let [clear, onlyOnce, commands] ← fields? [["clear"], ["only_once"], ["commands"]] value | none
  return {
    clear := ← withDefault false asBool? clear
    onlyOnce := ← withDefault false asBool? onlyOnce
    commands := ← withDefault [] (asList? Command.ofJson?) commands }

end GlPlayback
