import GlPlayback.Gl.Attempt
import GlPlayback.Gl.Linking
import GlPlayback.Shader.Reflection

/-!
Calls on shaders and programs, the questions about what a program makes active, and uploads to
its uniforms. Questions about an object that does not exist have no answer.
-/
namespace GlPlayback

/-- What a compilation makes of a shader. -/
def ShaderObject.compile (shader : ShaderObject) : ShaderObject :=
  match Shader.reflect shader.stage shader.source with
  | .ok interface => { shader with compiled := true, log := "", interface }
  | .error e => { shader with compiled := false, log := e.message, interface := {} }

def ProgramObject.attach (program : ProgramObject) (shader : ObjectId) :
    Stage → ProgramObject
  | .vertex => { program with vertexShader := some shader }
  | .fragment => { program with fragmentShader := some shader }

/-- Whether a name means the active variable: arrays also go by their bare name. -/
def ActiveVariable.goesBy (active : ActiveVariable) (name : String) : Bool :=
  active.name == name || active.name == name ++ "[0]"

def ProgramObject.uniformLocation? (program : ProgramObject) (name : String) :
    Option ObjectId :=
  program.uniforms.findSome? fun u =>
    if u.active.goesBy name then u.place.location? else none

namespace Context

open Attempt

def flag (b : Bool) : Int32 :=
  if b then 1 else 0

def createShader (ctx : Context) (type : UInt32) : Attempt (Option ObjectId × Context) :=
  match Stage.ofCode? type with
  | none => refuse .invalidEnum
  | some stage =>
      let (id, ctx) := ctx.takeId
      return (some id, { ctx with objects.shaders := ctx.objects.shaders.insert id { stage } })

def shaderSource (ctx : Context) (shader : ObjectId) (source : String) : Attempt Context :=
  ctx.changeShader shader fun s => { s with source }

def compileShader (ctx : Context) (shader : ObjectId) : Attempt Context :=
  ctx.changeShader shader ShaderObject.compile

def shaderParameter (ctx : Context) (shader : ObjectId) (name : UInt32) :
    Attempt (Option Int32) :=
  match ctx.objects.shaders.get? shader with
  | none => return none
  | some s =>
      if name = Enumerant.compileStatus then return some (flag s.compiled)
      else if name = Enumerant.deleteStatus then return some (flag s.deleted)
      else if name = Enumerant.shaderType then return some s.stage.code.toInt32
      else refuse .invalidEnum

def shaderLog (ctx : Context) (shader : ObjectId) : String :=
  (ctx.objects.shaders.get? shader).elim "" (·.log)

/-- Marks a shader, if there is one of that number. -/
def deleteShader (ctx : Context) (shader : ObjectId) : Context :=
  match ctx.objects.shaders.get? shader with
  | none => ctx
  | some s =>
      { ctx with objects.shaders := ctx.objects.shaders.insert shader { s with deleted := true } }

def createProgram (ctx : Context) : ObjectId × Context :=
  let (id, ctx) := ctx.takeId
  (id, { ctx with objects.programs := ctx.objects.programs.insert id {} })

def attachShader (ctx : Context) (program shader : ObjectId) : Attempt Context :=
  match ctx.objects.shaders.get? shader with
  | none => refuse .invalidValue
  | some s => ctx.changeProgram program fun p => return p.attach shader s.stage

def bindAttributeLocation (ctx : Context) (program : ObjectId) (index : UInt32)
    (name : String) : Attempt Context := do
  let _ ← slot index
  ctx.changeProgram program fun p => return { p with wanted := p.wanted.insert name index }

def linkProgram (ctx : Context) (program : ObjectId) : Attempt Context :=
  match ctx.objects.programs.get? program with
  | none => refuse .invalidValue
  | some p =>
      match Linking.link ctx.objects.shaders ctx.nextId p with
      | none => throw .impossible
      | some outcome =>
          return { ctx with
            nextId := ctx.nextId + outcome.locations
            objects.programs := ctx.objects.programs.insert program outcome.program }

def validateProgram (ctx : Context) (program : ObjectId) : Attempt Context :=
  ctx.changeProgram program fun p => return { p with validated := p.linked }

def programParameter (ctx : Context) (program : ObjectId) (name : UInt32) :
    Attempt (Option Int32) :=
  match ctx.objects.programs.get? program with
  | none => return none
  | some p =>
      if name = Enumerant.linkStatus then return some (flag p.linked)
      else if name = Enumerant.validateStatus then return some (flag p.validated)
      else if name = Enumerant.deleteStatus then return some (flag p.deleted)
      else if name = Enumerant.attachedShaders then
        return some (flag p.vertexShader.isSome + flag p.fragmentShader.isSome)
      else if name = Enumerant.activeUniforms then return some (Int32.ofNat p.uniforms.length)
      else if name = Enumerant.activeAttributes then
        return some (Int32.ofNat p.attributes.length)
      else if name = Enumerant.activeUniformBlocks then return some (Int32.ofNat p.blocks.length)
      else refuse .invalidEnum

def programLog (ctx : Context) (program : ObjectId) : String :=
  (ctx.objects.programs.get? program).elim "" (·.log)

/-- Only a linked program can be used. -/
def useProgram (ctx : Context) (program : Option ObjectId) : Attempt Context := do
  if let some id := program then
    check ((ctx.objects.programs.get? id).any (·.linked)) .invalidOperation
  return { ctx with bindings.program := program }

def activeUniform (ctx : Context) (program : ObjectId) (index : UInt32) :
    Attempt ActiveVariable :=
  match (ctx.objects.programs.get? program).bind (·.uniforms[index.toNat]?) with
  | none => refuse .invalidValue
  | some u => return u.active

def uniformProperty (name : UInt32) (u : LinkedUniform) : Attempt Int32 :=
  if name = Enumerant.uniformType then return u.active.type.code.toInt32
  else if name = Enumerant.uniformSize then return u.active.size
  else if name = Enumerant.uniformBlockIndex then return u.place.blockIndex
  else if name = Enumerant.uniformOffset then return u.place.offset
  else refuse .invalidEnum

/-- One property of several uniforms, each given by its index. -/
def activeUniforms (ctx : Context) (program : ObjectId) (indices : List UInt32)
    (name : UInt32) : Attempt (List Int32) :=
  match ctx.objects.programs.get? program with
  | none => refuse .invalidValue
  | some p => indices.mapM fun index =>
      match p.uniforms[index.toNat]? with
      | none => refuse .invalidValue
      | some u => uniformProperty name u

def uniformBlockIndex (ctx : Context) (program : ObjectId) (name : String) : UInt32 :=
  (((ctx.objects.programs.get? program).bind fun p =>
    p.blocks.findIdx? fun b => b.name == name).map UInt32.ofNat).getD Enumerant.invalidIndex

def activeBlock? (ctx : Context) (program : ObjectId) (index : UInt32) : Option LinkedBlock :=
  (ctx.objects.programs.get? program).bind fun p => p.blocks[index.toNat]?

def blockParameter (ctx : Context) (program : ObjectId) (index name : UInt32) :
    Attempt (Option Int32) :=
  match ctx.activeBlock? program index with
  | none => return none
  | some b =>
      if name = Enumerant.uniformBlockDataSize then return some b.dataSize.toInt32
      else if name = Enumerant.uniformBlockBinding then return some b.binding.toInt32
      else if name = Enumerant.uniformBlockActiveUniforms then
        return some (Int32.ofNat b.activeUniforms)
      else refuse .invalidEnum

def uniformBlockBinding (ctx : Context) (program : ObjectId) (index binding : UInt32) :
    Attempt Context := do
  check (binding < uniformBindings) .invalidValue
  ctx.changeProgram program fun p =>
    match p.blocks[index.toNat]? with
    | none => refuse .invalidValue
    | some b => return { p with blocks := p.blocks.set index.toNat { b with binding } }

def uniformLocation (ctx : Context) (program : ObjectId) (name : String) : Option ObjectId :=
  (ctx.objects.programs.get? program).bind fun p => p.uniformLocation? name

def activeAttribute (ctx : Context) (program : ObjectId) (index : UInt32) :
    Attempt ActiveVariable :=
  match (ctx.objects.programs.get? program).bind (·.attributes[index.toNat]?) with
  | none => refuse .invalidValue
  | some a => return a.active

/-- The location of an active attribute, -1 if there is none of that name. -/
def attributeLocation (ctx : Context) (program : ObjectId) (name : String) : Int32 :=
  (((ctx.objects.programs.get? program).bind fun p =>
    p.attributes.find? fun a => a.active.name == name).map (·.location.toInt32)).getD (-1)

/-- Sets a uniform of the program in use to data made of elements of the given width. -/
def setUniform (ctx : Context) (location : ObjectId) (length width : Nat)
    (value : UniformValue) : Attempt Context := do
  let owned := (ctx.bindings.program.bind ctx.objects.programs.get?).any fun p =>
    p.uniforms.any fun u => u.place.location? == some location
  check owned .invalidOperation
  check (width != 0 && length != 0 && length % width == 0) .invalidValue
  return { ctx with objects.uniforms := ctx.objects.uniforms.insert location value }

end Context

end GlPlayback
