import GlPlayback.Gl.Call.Buffer
import GlPlayback.Gl.Call.Draw
import GlPlayback.Gl.Call.Fixed
import GlPlayback.Gl.Call.Program
import GlPlayback.Gl.Call.Texture
import GlPlayback.Gl.Call.VertexArray

/-!
The calls of a context as data. Executing a call counts it and then either carries it out or, if
it is refused, only notes its error.
-/
namespace GlPlayback

inductive Call where
  | getError
  | getExtension (name : String)
  | viewport (area : Quad Int32)
  | enable (capabilities : Capabilities)
  | disable (capabilities : Capabilities)
  | clearColor (color : Quad Single)
  | clear (mask : UInt32)
  | frontFace (mode : UInt32)
  | cullFace (mode : UInt32)
  | depthFunc (func : UInt32)
  | depthMask (flag : Bool)
  | depthRange (near far : Single)
  | blendColor (color : Quad Single)
  | blendEquation (mode : UInt32)
  | blendEquationSeparate (color alpha : UInt32)
  | blendFunc (source target : UInt32)
  | blendFuncSeparate (factors : Quad UInt32)
  | pixelStore (name : UInt32) (value : Int32)
  | createShader (type : UInt32)
  | shaderSource (shader : ObjectId) (source : String)
  | compileShader (shader : ObjectId)
  | getShaderParameter (shader : ObjectId) (name : UInt32)
  | getShaderLog (shader : ObjectId)
  | deleteShader (shader : ObjectId)
  | createProgram
  | attachShader (program shader : ObjectId)
  | bindAttributeLocation (program : ObjectId) (index : UInt32) (name : String)
  | linkProgram (program : ObjectId)
  | validateProgram (program : ObjectId)
  | getProgramParameter (program : ObjectId) (name : UInt32)
  | getProgramLog (program : ObjectId)
  | useProgram (program : Option ObjectId)
  | getActiveUniform (program : ObjectId) (index : UInt32)
  | getActiveUniforms (program : ObjectId) (indices : List UInt32) (name : UInt32)
  | getUniformBlockIndex (program : ObjectId) (name : String)
  | getActiveBlockName (program : ObjectId) (index : UInt32)
  | getActiveBlockParameter (program : ObjectId) (index name : UInt32)
  | uniformBlockBinding (program : ObjectId) (index binding : UInt32)
  | getUniformLocation (program : ObjectId) (name : String)
  | getActiveAttribute (program : ObjectId) (index : UInt32)
  | getAttributeLocation (program : ObjectId) (name : String)
  | uniformFloats (location : ObjectId) (components : Nat) (data : List Single)
  | uniformInts (location : ObjectId) (components : Nat) (data : List Int32)
  | uniformUInts (location : ObjectId) (components : Nat) (data : List UInt32)
  | uniformMatrix (location : ObjectId) (columns rows : Nat) (transpose : Bool)
      (data : List Single)
  | createBuffer
  | bindBuffer (target : UInt32) (buffer : Option ObjectId)
  | bindBufferBase (target index : UInt32) (buffer : Option ObjectId)
  | bufferData (target : UInt32) (data : List UInt8) (usage : UInt32)
  | bufferDataSize (target : UInt32) (size : Nat) (usage : UInt32)
  | bufferSubData (target : UInt32) (start : Nat) (bytes : List UInt8)
  | getBufferParameter (target name : UInt32)
  | createVertexArray
  | bindVertexArray (array : Option ObjectId)
  | attributePointer (index : UInt32) (size : Int32) (type : UInt32) (normalized : Bool)
      (stride offset : Int32)
  | attributeIPointer (index : UInt32) (size : Int32) (type : UInt32) (stride offset : Int32)
  | enableAttribute (index : UInt32)
  | disableAttribute (index : UInt32)
  | attributeFloats (index : UInt32) (values : List Single)
  | attributeInts (index : UInt32) (values : Quad Int32)
  | attributeUInts (index : UInt32) (values : Quad UInt32)
  | createTexture
  | bindTexture (target : UInt32) (texture : Option ObjectId)
  | activeTexture (name : UInt32)
  | generateMipmap (target : UInt32)
  | texImage2D (target : UInt32) (image : Context.Image)
  | texImage3D (target : UInt32) (image : Context.Image)
  | texStorage2D (target : UInt32) (levels : Int32) (internalFormat : UInt32)
      (width height : Int32)
  | texStorage3D (target : UInt32) (levels : Int32) (internalFormat : UInt32)
      (width height depth : Int32)
  | texParameterInt (target name : UInt32) (value : Int32)
  | texParameterFloat (target name : UInt32) (value : Single)
  | createFramebuffer
  | bindFramebuffer (target : UInt32) (framebuffer : Option ObjectId)
  | framebufferTexture2D (target attachment : UInt32) (texture : Option TextureAttachment)
  | drawBuffers (buffers : List UInt32)
  | drawArrays (mode : UInt32) (first count : Int32)
  | drawArraysInstanced (mode : UInt32) (first count instances : Int32)
  | drawElements (mode : UInt32) (count : Int32) (type : UInt32) (offset : Int32)
  | drawElementsInstanced (mode : UInt32) (count : Int32) (type : UInt32) (offset instances : Int32)
  deriving DecidableEq, Repr

/-- What kind of answer a call gives. -/
inductive ReplyKind where
  | nothing
  | flag
  | code
  /-- An object or a location, if there is one. -/
  | object
  | number
  | numbers
  | text
  | label
  | active
  /-- An attribute location, or -1. -/
  | place
  deriving DecidableEq, Repr

namespace ReplyKind

abbrev Value : ReplyKind → Type
  | nothing => Unit
  | flag => Bool
  | code => UInt32
  | object => Option ObjectId
  | number => Option Int32
  | numbers => List Int32
  | text => String
  | label => Option String
  | active => Option ActiveVariable
  | place => Int32

/-- The answer of a call that is refused. -/
def refused : (kind : ReplyKind) → kind.Value
  | nothing => ()
  | flag => false
  | code => 0
  | object => none
  | number => none
  | numbers => []
  | text => ""
  | label => none
  | active => none
  | place => -1

end ReplyKind

namespace Call

def name : Call → String
  | getError => "get_error"
  | getExtension .. => "get_extension"
  | viewport .. => "viewport"
  | enable .. => "enable"
  | disable .. => "disable"
  | clearColor .. => "clear_color"
  | clear .. => "clear"
  | frontFace .. => "front_face"
  | cullFace .. => "cull_face"
  | depthFunc .. => "depth_func"
  | depthMask .. => "depth_mask"
  | depthRange .. => "depth_range"
  | blendColor .. => "blend_color"
  | blendEquation .. => "blend_equation"
  | blendEquationSeparate .. => "blend_equation_separate"
  | blendFunc .. => "blend_func"
  | blendFuncSeparate .. => "blend_func_separate"
  | pixelStore .. => "pixel_storei"
  | createShader .. => "create_shader"
  | shaderSource .. => "shader_source"
  | compileShader .. => "compile_shader"
  | getShaderParameter .. => "get_shader_parameter"
  | getShaderLog .. => "get_shader_info_log"
  | deleteShader .. => "delete_shader"
  | createProgram => "create_program"
  | attachShader .. => "attach_shader"
  | bindAttributeLocation .. => "bind_attrib_location"
  | linkProgram .. => "link_program"
  | validateProgram .. => "validate_program"
  | getProgramParameter .. => "get_program_parameter"
  | getProgramLog .. => "get_program_info_log"
  | useProgram .. => "use_program"
  | getActiveUniform .. => "get_active_uniform"
  | getActiveUniforms .. => "get_active_uniforms"
  | getUniformBlockIndex .. => "get_uniform_block_index"
  | getActiveBlockName .. => "get_active_uniform_block_name"
  | getActiveBlockParameter .. => "get_active_uniform_block_parameter"
  | uniformBlockBinding .. => "uniform_block_binding"
  | getUniformLocation .. => "get_uniform_location"
  | getActiveAttribute .. => "get_active_attrib"
  | getAttributeLocation .. => "get_attrib_location"
  | uniformFloats .. => "uniform_fv"
  | uniformInts .. => "uniform_iv"
  | uniformUInts .. => "uniform_uiv"
  | uniformMatrix .. => "uniform_matrix_fv"
  | createBuffer => "create_buffer"
  | bindBuffer .. => "bind_buffer"
  | bindBufferBase .. => "bind_buffer_base"
  | bufferData .. => "buffer_data"
  | bufferDataSize .. => "buffer_data_size"
  | bufferSubData .. => "buffer_sub_data"
  | getBufferParameter .. => "get_buffer_parameter"
  | createVertexArray => "create_vertex_array"
  | bindVertexArray .. => "bind_vertex_array"
  | attributePointer .. => "vertex_attrib_pointer"
  | attributeIPointer .. => "vertex_attrib_i_pointer"
  | enableAttribute .. => "enable_vertex_attrib_array"
  | disableAttribute .. => "disable_vertex_attrib_array"
  | attributeFloats .. => "vertex_attrib_fv"
  | attributeInts .. => "vertex_attrib_i4iv"
  | attributeUInts .. => "vertex_attrib_i4uiv"
  | createTexture => "create_texture"
  | bindTexture .. => "bind_texture"
  | activeTexture .. => "active_texture"
  | generateMipmap .. => "generate_mipmap"
  | texImage2D .. => "tex_image_2d"
  | texImage3D .. => "tex_image_3d"
  | texStorage2D .. => "tex_storage_2d"
  | texStorage3D .. => "tex_storage_3d"
  | texParameterInt .. => "tex_parameteri"
  | texParameterFloat .. => "tex_parameterf"
  | createFramebuffer => "create_framebuffer"
  | bindFramebuffer .. => "bind_framebuffer"
  | framebufferTexture2D .. => "framebuffer_texture_2d"
  | drawBuffers .. => "draw_buffers"
  | drawArrays .. => "draw_arrays"
  | drawArraysInstanced .. => "draw_arrays_instanced"
  | drawElements .. => "draw_elements"
  | drawElementsInstanced .. => "draw_elements_instanced"

def kind : Call → ReplyKind
  | getError => .code
  | getExtension .. => .flag
  | createShader .. => .object
  | getShaderParameter .. => .number
  | getShaderLog .. => .text
  | createProgram => .object
  | getProgramParameter .. => .number
  | getProgramLog .. => .text
  | getActiveUniform .. => .active
  | getActiveUniforms .. => .numbers
  | getUniformBlockIndex .. => .code
  | getActiveBlockName .. => .label
  | getActiveBlockParameter .. => .number
  | getUniformLocation .. => .object
  | getActiveAttribute .. => .active
  | getAttributeLocation .. => .place
  | createBuffer => .object
  | getBufferParameter .. => .number
  | createVertexArray => .object
  | createTexture => .object
  | createFramebuffer => .object
  | _ => .nothing

abbrev Reply (call : Call) : Type :=
  call.kind.Value

end Call

namespace Context

open Attempt

/-- The answer of a call and the context after it, if it is not refused. -/
def attempt (ctx : Context) : (call : Call) → Attempt (call.Reply × Context)
  | .getError => return (GlError.flagCode ctx.error, { ctx with error := none })
  | .getExtension name => return ctx.getExtension name
  | .viewport area => effect (ctx.viewport area)
  | .enable capabilities => done (ctx.enable capabilities)
  | .disable capabilities => done (ctx.disable capabilities)
  | .clearColor color => done { ctx with fixed.clearColor := color }
  | .clear mask => done (ctx.logDraw (.clear mask ctx.fixed.clearColor))
  | .frontFace mode => effect (ctx.frontFace mode)
  | .cullFace mode => effect (ctx.cullFace mode)
  | .depthFunc func => effect (ctx.depthFunc func)
  | .depthMask flag => done { ctx with fixed.depthMask := flag }
  | .depthRange near far => effect (ctx.depthRange near far)
  | .blendColor color => done { ctx with fixed.blendColor := color }
  | .blendEquation mode => done { ctx with fixed.blendEquation := (mode, mode) }
  | .blendEquationSeparate color alpha => done { ctx with fixed.blendEquation := (color, alpha) }
  | .blendFunc source target =>
      done { ctx with fixed.blendFunc := ⟨source, target, source, target⟩ }
  | .blendFuncSeparate factors => done { ctx with fixed.blendFunc := factors }
  | .pixelStore name value => effect (ctx.pixelStore name value)
  | .createShader type => ctx.createShader type
  | .shaderSource shader source => effect (ctx.shaderSource shader source)
  | .compileShader shader => effect (ctx.compileShader shader)
  | .getShaderParameter shader name => answer ctx (ctx.shaderParameter shader name)
  | .getShaderLog shader => answer ctx (return ctx.shaderLog shader)
  | .deleteShader shader => done (ctx.deleteShader shader)
  | .createProgram => created ctx.createProgram
  | .attachShader program shader => effect (ctx.attachShader program shader)
  | .bindAttributeLocation program index name =>
      effect (ctx.bindAttributeLocation program index name)
  | .linkProgram program => effect (ctx.linkProgram program)
  | .validateProgram program => effect (ctx.validateProgram program)
  | .getProgramParameter program name => answer ctx (ctx.programParameter program name)
  | .getProgramLog program => answer ctx (return ctx.programLog program)
  | .useProgram program => effect (ctx.useProgram program)
  | .getActiveUniform program index => answer ctx (some <$> ctx.activeUniform program index)
  | .getActiveUniforms program indices name =>
      answer ctx (ctx.activeUniforms program indices name)
  | .getUniformBlockIndex program name => answer ctx (return ctx.uniformBlockIndex program name)
  | .getActiveBlockName program index =>
      answer ctx (return (ctx.activeBlock? program index).map (·.name))
  | .getActiveBlockParameter program index name =>
      answer ctx (ctx.blockParameter program index name)
  | .uniformBlockBinding program index binding =>
      effect (ctx.uniformBlockBinding program index binding)
  | .getUniformLocation program name => answer ctx (return ctx.uniformLocation program name)
  | .getActiveAttribute program index => answer ctx (some <$> ctx.activeAttribute program index)
  | .getAttributeLocation program name => answer ctx (return ctx.attributeLocation program name)
  | .uniformFloats location components data =>
      effect (ctx.setUniform location data.length components (.float components data))
  | .uniformInts location components data =>
      effect (ctx.setUniform location data.length components (.int components data))
  | .uniformUInts location components data =>
      effect (ctx.setUniform location data.length components (.uint components data))
  | .uniformMatrix location columns rows transpose data =>
      effect (ctx.setUniform location data.length (columns * rows)
        (.matrix columns rows transpose data))
  | .createBuffer => created ctx.createBuffer
  | .bindBuffer target buffer => effect (ctx.bindBuffer target buffer)
  | .bindBufferBase target index buffer => effect (ctx.bindBufferBase target index buffer)
  | .bufferData target data usage => effect (ctx.bufferData target data usage)
  | .bufferDataSize target size usage => effect (ctx.bufferDataSize target size usage)
  | .bufferSubData target start bytes => effect (ctx.bufferSubData target start bytes)
  | .getBufferParameter target name => answer ctx (ctx.bufferParameter target name)
  | .createVertexArray => created ctx.createVertexArray
  | .bindVertexArray array => effect (ctx.bindVertexArray array)
  | .attributePointer index size type normalized stride offset =>
      effect (ctx.attributePointer index size type normalized stride offset)
  | .attributeIPointer index size type stride offset =>
      effect (ctx.attributeIPointer index size type stride offset)
  | .enableAttribute index => effect (ctx.switchAttribute index true)
  | .disableAttribute index => effect (ctx.switchAttribute index false)
  | .attributeFloats index values => effect (ctx.attributeFloats index values)
  | .attributeInts index values => effect (ctx.genericAttribute index (.int values))
  | .attributeUInts index values => effect (ctx.genericAttribute index (.uint values))
  | .createTexture => created ctx.createTexture
  | .bindTexture target texture => effect (ctx.bindTexture target texture)
  | .activeTexture name => effect (ctx.activeTexture name)
  | .generateMipmap target => effect (ctx.generateMipmap target)
  | .texImage2D target image => effect (ctx.texImage2D target image)
  | .texImage3D target image => effect (ctx.texImage3D target image)
  | .texStorage2D target levels internalFormat width height =>
      effect (ctx.texStorage target levels internalFormat width height 1)
  | .texStorage3D target levels internalFormat width height depth =>
      effect (ctx.texStorage target levels internalFormat width height depth)
  | .texParameterInt target name value => effect (ctx.texParameterInt target name value)
  | .texParameterFloat target name value => effect (ctx.texParameterFloat target name value)
  | .createFramebuffer => created ctx.createFramebuffer
  | .bindFramebuffer target framebuffer => effect (ctx.bindFramebuffer target framebuffer)
  | .framebufferTexture2D _ attachment texture => effect (ctx.framebufferTexture attachment texture)
  | .drawBuffers buffers => effect (ctx.setDrawBuffers buffers)
  | .drawArrays mode first count => effect (ctx.drawArrays mode first count 1)
  | .drawArraysInstanced mode first count instances =>
      effect (ctx.drawArrays mode first count instances)
  | .drawElements mode count type offset => effect (ctx.drawElements mode count type offset 1)
  | .drawElementsInstanced mode count type offset instances =>
      effect (ctx.drawElements mode count type offset instances)

/-- Notes an error, unless an earlier one still stands. -/
def raise (ctx : Context) (e : GlError) : Context :=
  { ctx with error := ctx.error <|> some e }

/-- Counts a call and carries it out. -/
def exec (ctx : Context) (call : Call) : call.Reply × Context :=
  let counted := ctx.countCall call.name
  match counted.attempt call with
  | .ok answered => answered
  | .error (.error e) => (call.kind.refused, counted.raise e)
  | .error .impossible => (call.kind.refused, { counted with lost := true })

def issue (ctx : Context) (call : Call) : Context :=
  (ctx.exec call).2

def issueAll (ctx : Context) (calls : List Call) : Context :=
  calls.foldl issue ctx

end Context

end GlPlayback
