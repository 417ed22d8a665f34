import GlPlayback.Gl.Context

/-!
Commands as a host sends them. Constants are still words, resources are numbers that need not
exist, and a negative number means none where a call can do without.
-/
namespace GlPlayback

/-- Which of a batch's payloads a command uses, and how it is to be read. -/
structure PayloadRef where
  index : Nat
  type : String
  shape : List Nat
  deriving DecidableEq, Repr

/-- The capabilities that a command names, and further ones by their bits. -/
structure CapabilityArgs where
  named : Capabilities
  mask : Option UInt32
  deriving DecidableEq, Repr

inductive PixelStoreArg where
  | flag (b : Bool)
  | number (n : Int32)
  | token (word : String)
  deriving DecidableEq, Repr

/-- An attribute by its location, or by its name in the program in use. -/
inductive AttributeRef where
  | location (n : UInt32)
  | name (name : String)
  deriving DecidableEq, Repr

inductive Creation where
  | texture
  | shader (type : String)
  | program
  | buffer
  | vertexArray
  | framebuffer
  deriving DecidableEq, Repr

structure ImageArgs where
  level : Int32
  internalFormat : String
  width : Int32
  height : Int32
  depth : Int32
  border : Int32
  format : String
  type : String
  deriving DecidableEq, Repr

structure PointerArgs where
  index : AttributeRef
  size : Int32
  type : String
  stride : Int32
  offset : Int32
  deriving DecidableEq, Repr

inductive Action where
  | viewport (area : Quad Int32)
  | enable (args : CapabilityArgs)
  | disable (args : CapabilityArgs)
  | clearColor (color : Quad Single)
  | clear (color depth stencil : Bool)
  | frontFace (mode : String)
  | cullFace (mode : String)
  | depthFunc (func : String)
  | depthMask (flag : Bool)
  | depthRange (near far : Single)
  | blendColor (color : Quad Single)
  | blendEquation (mode : String)
  | blendEquationSeparate (color alpha : String)
  | blendFunc (source target : String)
  | blendFuncSeparate (factors : Quad String)
  | pixelStore (name : String) (value : PixelStoreArg)
  | create (what : Creation) (resource : Int)
  | bindTexture (target : String) (texture : Int)
  | activeTexture (unit : UInt32)
  | generateMipmap (target : String)
  | texImage2D (target : String) (image : ImageArgs)
  | texImage3D (target : String) (image : ImageArgs)
  | texStorage2D (target : String) (levels : Int32) (internalFormat : String)
      (width height : Int32)
  | texStorage3D (target : String) (levels : Int32) (internalFormat : String)
      (width height depth : Int32)
  | texParameterInt (target name : String) (value : Int32)
  | texParameterFloat (target name : String) (value : Single)
  | texParameterToken (target name value : String)
  | shaderSource (shader : Int) (source : String)
  | compileShader (shader : Int)
  | deleteShader (shader : Int)
  | attachShader (program shader : Int)
  | bindAttributeLocation (program : Int) (index : UInt32) (name : String)
  | linkProgram (program : Int)
  | useProgram (program : Int)
  | uniform (name : String)
  | uniformMatrix (name : String)
  | uniformBlockBinding (program : Int) (block : String) (binding : UInt32)
  | bindBuffer (target : String) (buffer : Int)
  | bindBufferBase (target : String) (index : UInt32) (buffer : Int)
  /-- With `update` the upload shows in the buffer's record. -/
  | bufferData (target usage : String) (update : Bool) (size : Option Nat)
  | bufferSubData (target : String) (start sourceStart : Nat) (limit : Option Nat)
  /-- Writes at the offset of a member of the bound buffer's block. -/
  | bufferSubDataAt (target member : String) (sourceStart : Nat)
  | createUniformBuffer (buffer program : Int) (block usage : String)
  | bindVertexArray (array : Int)
  | attributePointer (args : PointerArgs) (normalized : Bool)
  | attributeIPointer (args : PointerArgs)
  | enableAttribute (index : AttributeRef)
  | disableAttribute (index : AttributeRef)
  | attributeFloats (index : AttributeRef)
  | attributeInts (index : AttributeRef)
  | bindFramebuffer (target : String) (framebuffer : Int)
  | framebufferTexture2D (target attachment textureTarget : String) (texture : Int)
      (level : Int32)
  | drawBuffers (buffers : List String)
  | drawArrays (mode : String) (first count : Int32)
  | drawArraysInstanced (mode : String) (first count instances : Int32)
  | drawElements (mode : String) (count : Int32) (type : String) (offset : Int32)
  | drawElementsInstanced (mode : String) (count : Int32) (type : String)
      (offset instances : Int32)
  /-- A command of a kind that is not known. -/
  | unknown
  deriving DecidableEq, Repr

structure Command where
  action : Action
  payload : Option PayloadRef
  deriving DecidableEq, Repr

structure Batch where
  /-- Forget all earlier commands and payloads first. -/
  clear : Bool := false
  /-- Run the commands once without remembering them. -/
  onlyOnce : Bool := false
  commands : List Command := []
  deriving DecidableEq, Repr

namespace Action

def name : Action → String
  | viewport .. => "viewport"
  | enable .. => "enable"
  | disable .. => "disable"
  | clearColor .. => "clearColor"
  | clear .. => "clear"
  | frontFace .. => "frontFace"
  | cullFace .. => "cullFace"
  | depthFunc .. => "depthFunc"
  | depthMask .. => "depthMask"
  | depthRange .. => "depthRange"
  | blendColor .. => "blendColor"
  | blendEquation .. => "blendEquation"
  | blendEquationSeparate .. => "blendEquationSeparate"
  | blendFunc .. => "blendFunc"
  | blendFuncSeparate .. => "blendFuncSeparate"
  | pixelStore .. => "pixelStorei"
  | create .texture _ => "createTexture"
  | create (.shader _) _ => "createShader"
  | create .program _ => "createProgram"
  | create .buffer _ => "createBuffer"
  | create .vertexArray _ => "createVertexArray"
  | create .framebuffer _ => "createFramebuffer"
  | bindTexture .. => "bindTexture"
  | activeTexture .. => "activeTexture"
  | generateMipmap .. => "generateMipmap"
  | texImage2D .. => "texImage2D"
  | texImage3D .. => "texImage3D"
  | texStorage2D .. => "texStorage2D"
  | texStorage3D .. => "texStorage3D"
  | texParameterInt .. => "texParameteri"
  | texParameterFloat .. => "texParameterf"
  | texParameterToken .. => "texParameter_str"
  | shaderSource .. => "shaderSource"
  | compileShader .. => "compileShader"
  | deleteShader .. => "deleteShader"
  | attachShader .. => "attachShader"
  | bindAttributeLocation .. => "bindAttribLocation"
  | linkProgram .. => "linkProgram"
  | useProgram .. => "useProgram"
  | uniform .. => "uniform"
  | uniformMatrix .. => "uniformMatrix"
  | uniformBlockBinding .. => "uniformBlockBinding"
  | bindBuffer .. => "bindBuffer"
  | bindBufferBase .. => "bindBufferBase"
  | bufferData .. => "bufferData"
  | bufferSubData .. => "bufferSubData"
  | bufferSubDataAt .. => "bufferSubDataStr"
  | createUniformBuffer .. => "createUniformBuffer"
  | bindVertexArray .. => "bindVertexArray"
  | attributePointer .. => "vertexAttribPointer"
  | attributeIPointer .. => "vertexAttribIPointer"
  | enableAttribute .. => "enableVertexAttribArray"
  | disableAttribute .. => "disableVertexAttribArray"
  | attributeFloats .. => "vertexAttrib[1234]fv"
  | attributeInts .. => "vertexAttribI4[u]iv"
  | bindFramebuffer .. => "bindFramebuffer"
  | framebufferTexture2D .. => "framebufferTexture2D"
  | drawBuffers .. => "drawBuffers"
  | drawArrays .. => "drawArrays"
  | drawArraysInstanced .. => "drawArraysInstanced"
  | drawElements .. => "drawElements"
  | drawElementsInstanced .. => "drawElementsInstanced"
  | unknown => "unknown"

end Action

def Command.name (c : Command) : String :=
  c.action.name

end GlPlayback
