import GlPlayback.Gl.Object

/-!
Linking joins the interfaces of a vertex and a fragment shader: blocks and loose uniforms are
merged by name, and every vertex input gets a run of attribute slots.
-/
namespace GlPlayback

def Stage.label : Stage → String
  | .vertex => "vertex"
  | .fragment => "fragment"

inductive LinkError where
  | notAttached (stage : Stage)
  | notCompiled (stage : Stage)
  /-- Two blocks of this name have different members. -/
  | blockDiffers (name : String)
  /-- An attribute that ends beyond the last slot. -/
  | tooManySlots (name : String)
  | noRoom (name : String)
  deriving DecidableEq, Repr

def LinkError.message (e : LinkError) : String :=
  "ERROR: Linking failed: " ++
    match e with
    | notAttached stage => "no " ++ stage.label ++ " shader attached"
    | notCompiled stage => stage.label ++ " shader not compiled"
    | blockDiffers name => "uniform block '" ++ name ++ "' differs between shaders"
    | tooManySlots name => "attribute '" ++ name ++ "' exceeds MAX_VERTEX_ATTRIBS"
    | noRoom name => "no room for attribute '" ++ name ++ "'"

namespace Linking

def stageInterface (shaders : Table ObjectId ShaderObject) (stage : Stage)
    (attached : Option ObjectId) : Except LinkError ShaderInterface :=
  match attached.bind shaders.get? with
  | none => .error (.notAttached stage)
  | some shader => if shader.compiled then .ok shader.interface else .error (.notCompiled stage)

/-- The distinct blocks in the order of their first appearance, behind those found before. Blocks
of one name must agree in all their members. -/
def mergeBlocks (found : List UniformBlock) :
    List UniformBlock → Except LinkError (List UniformBlock)
  | [] => .ok found
  | block :: rest =>
      match found.find? fun b => b.name = block.name with
      | none => mergeBlocks (found ++ [block]) rest
      | some known =>
          if known.members = block.members then mergeBlocks found rest
          else .error (.blockDiffers block.name)

/-- Keeps the first declaration of each name. -/
def distinctUniforms (seen : List String) : List UniformDecl → List UniformDecl
  | [] => []
  | decl :: rest =>
      if decl.name ∈ seen then distinctUniforms seen rest
      else decl :: distinctUniforms (decl.name :: seen) rest

def looseUniforms (location : ObjectId) : List UniformDecl → List LinkedUniform
  | [] => []
  | decl :: rest =>
      ⟨⟨decl.activeName, decl.type, decl.size⟩, .loose location⟩ ::
        looseUniforms (location + 1) rest

/-- The members of blocks, the first of which has the given index. -/
def memberUniforms (index : Nat) : List UniformBlock → List LinkedUniform
  | [] => []
  | block :: rest =>
      (block.members.map fun m =>
        ⟨⟨block.memberName m, m.decl.type, m.decl.size⟩, .member index m.offset⟩) ++
        memberUniforms (index + 1) rest

def linkedBlock (block : UniformBlock) : LinkedBlock :=
  ⟨block.name, block.dataSize, 0, block.members.length⟩

/-- Why attribute slots could not be given out. -/
inductive SlotFailure where
  | refused (error : LinkError)
  /-- A run of slots that wraps around the end of 32-bit numbers and fits no table. -/
  | outsideTable
  deriving DecidableEq, Repr

abbrev SlotTable := Vector Bool attributeSlots

def SlotTable.take (used : SlotTable) (start count : Nat) : SlotTable :=
  Vector.ofFn fun slot => used.get slot || (start ≤ slot && slot < start + count)

/-- Whether the run of slots lies in the table and is free. -/
def SlotTable.isFree (used : SlotTable) (start count : Nat) : Bool :=
  start + count ≤ attributeSlots &&
    (List.finRange attributeSlots).all fun slot =>
      !(used.get slot && start ≤ slot && slot < start + count)

/-- Takes the run of slots that an attribute asks for. Runs that are asked for may overlap. -/
def reserve (used : SlotTable) (decl : AttributeDecl) (location : UInt32) :
    Except SlotFailure SlotTable :=
  let stop := location + decl.slots
  if stop > 16 then .error (.refused (.tooManySlots decl.name))
  else if stop < location then .error .outsideTable
  else .ok (used.take location.toNat decl.slots.toNat)

/-- The location that a declaration asks for; its own layout wins over a wanted one. -/
def fixedLocation? (wanted : Table String UInt32) (decl : AttributeDecl) : Option UInt32 :=
  decl.location <|> wanted.get? decl.name

/-- Takes all runs that are asked for. -/
def reserveFixed (wanted : Table String UInt32) (used : SlotTable) :
    List AttributeDecl → Except SlotFailure SlotTable
  | [] => .ok used
  | decl :: rest =>
      match fixedLocation? wanted decl with
      | none => reserveFixed wanted used rest
      | some location =>
          match reserve used decl location with
          | .error e => .error e
          | .ok used => reserveFixed wanted used rest

/-- The first start of a free run of slots. -/
def firstFree? (used : SlotTable) (count : Nat) : Option Nat :=
  (List.range (attributeSlots + 1)).find? fun start => used.isFree start count

/-- Gives every attribute its location, those that ask for none the first free run in turn. -/
def placeAttributes (wanted : Table String UInt32) (used : SlotTable) :
    List AttributeDecl → Except SlotFailure (List LinkedAttribute)
  | [] => .ok []
  | decl :: rest => do
      let active : ActiveVariable := ⟨decl.name, decl.type, decl.size⟩
      match fixedLocation? wanted decl with
      | some location =>
          let more ← placeAttributes wanted used rest
          return ⟨active, location⟩ :: more
      | none =>
          if decl.slots.toNat > attributeSlots then
            throw (.refused (.tooManySlots decl.name))
          match firstFree? used decl.slots.toNat with
          | none => throw (.refused (.noRoom decl.name))
          | some start =>
              let more ← placeAttributes wanted (used.take start decl.slots.toNat) rest
              return ⟨active, UInt32.ofNat start⟩ :: more

/-- Gives every attribute a location. Those asked for are taken first, in order. -/
def assignLocations (wanted : Table String UInt32) (decls : List AttributeDecl) :
    Except SlotFailure (List LinkedAttribute) := do
  let used ← reserveFixed wanted (Vector.replicate attributeSlots false) decls
  placeAttributes wanted used decls

/-- The two interfaces of a program, and its blocks, as far as they agree. -/
def joinStages (shaders : Table ObjectId ShaderObject) (program : ProgramObject) :
    Except LinkError (ShaderInterface × ShaderInterface × List UniformBlock) := do
  let vertex ← stageInterface shaders .vertex program.vertexShader
  let fragment ← stageInterface shaders .fragment program.fragmentShader
  let blocks ← mergeBlocks [] (vertex.blocks ++ fragment.blocks)
  return (vertex, fragment, blocks)

/-- A program whose link failed has nothing active. -/
def failed (program : ProgramObject) (e : LinkError) : ProgramObject :=
  { program with linked := false, log := e.message, uniforms := [], blocks := [], attributes := [] }

structure Outcome where
  program : ProgramObject
  /-- How many locations were given out, also by a link that failed afterwards. -/
  locations : Nat

/-- Links a program. The loose uniforms take locations from `location` on. -/
def link (shaders : Table ObjectId ShaderObject) (location : ObjectId)
    (program : ProgramObject) : Option Outcome :=
  match joinStages shaders program with
  | .error e => some ⟨failed program e, 0⟩
  | .ok (vertex, fragment, blocks) =>
      let loose := distinctUniforms [] (vertex.uniforms ++ fragment.uniforms)
      match assignLocations program.wanted vertex.attributes with
      | .error .outsideTable => none
      | .error (.refused e) => some ⟨failed program e, loose.length⟩
      | .ok attributes =>
          some {
            locations := loose.length
            program := { program with
              linked := true
              log := ""
              uniforms := looseUniforms location loose ++ memberUniforms 0 blocks
              blocks := blocks.map linkedBlock
              attributes } }

end Linking

end GlPlayback
