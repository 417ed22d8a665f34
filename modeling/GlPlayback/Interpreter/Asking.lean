import GlPlayback.Interpreter.Operation
import GlPlayback.Viewer.ViewBlock

/-!
Operations that need answers of the context. Everything is asked of it call by call, so the
questions count among its calls.
-/
namespace GlPlayback

/-- A conversation with a context. It has ended, or it asks something and goes on with the reply. -/
inductive Asking (α : Type) where
  | ended (result : α)
  | asks (call : Call) (next : call.Reply → Asking α)

namespace Asking

def bind {α β : Type} : Asking α → (α → Asking β) → Asking β
  | ended result, f => f result
  | asks call next, f => asks call fun reply => (next reply).bind f

instance : Monad Asking where
  pure := ended
  bind := bind

def ask (call : Call) : Asking call.Reply :=
  asks call ended

/-- Has the conversation with a context, which every call may change. -/
def run {α : Type} : Asking α → Context → α × Context
  | ended result, ctx => (result, ctx)
  | asks call next, ctx =>
      let (reply, ctx) := ctx.exec call
      (next reply).run ctx

def activeCount (program : ObjectId) (name : UInt32) : Asking Nat := do
  let count : Option Int32 ← ask (.getProgramParameter program name)
  return (count.getD 0).toNatClampNeg

/-- Uniforms and blocks as far as they are known. -/
structure Uniforms where
  loose : List UniformRecord := []
  blocks : List BlockRecord := []
  deriving DecidableEq, Repr

/-- Appends a member to the block with an index. -/
def addMember (index : UInt32) (member : MemberRecord) (blocks : List BlockRecord) :
    List BlockRecord :=
  blocks.map fun b => if b.index = index then { b with members := b.members ++ [member] } else b

/-- The record of a block before its members are known. -/
def emptyBlock (program : ObjectId) (index : UInt32) : Asking BlockRecord := do
  let name : Option String ← ask (.getActiveBlockName program index)
  let size : Option Int32 ←
    ask (.getActiveBlockParameter program index Enumerant.uniformBlockDataSize)
  return { index, name := name.getD "", size := size.getD 0, members := [] }

/-- The blocks with the one of this index among them. -/
def knowing (program : ObjectId) (index : UInt32) (blocks : List BlockRecord) :
    Asking (List BlockRecord) := do
  if blocks.any (·.index = index) then return blocks
  else return blocks ++ [← emptyBlock program index]

/-- Adds the uniform with an index. Its block's index is negative, or missing, if it is in none. -/
def addUniform (program : ObjectId) (found : Uniforms) (index : UInt32)
    (block offset : Option Int32) : Asking Uniforms := do
  let active : Option ActiveVariable ← ask (.getActiveUniform program index)
  match active, block.filter (0 ≤ ·) with
  | none, _ => return found
  | some active, none =>
      let location : Option ObjectId ← ask (.getUniformLocation program active.name)
      return { found with
        loose := found.loose ++ [⟨active.name, active.type.label, active.size, location⟩] }
  | some active, some block =>
      let block := block.toUInt32
      let blocks ← knowing program block found.blocks
      return { found with
        blocks := addMember block
          ⟨active.name, active.type.label, active.size, offset.getD (-1)⟩ blocks }

/-- All uniforms of a program, those in blocks under their blocks. -/
def uniforms (program : ObjectId) : Asking Uniforms := do
  let indices := (List.range (← activeCount program Enumerant.activeUniforms)).map UInt32.ofNat
  let blocks : List Int32 ←
    ask (.getActiveUniforms program indices Enumerant.uniformBlockIndex)
  let offsets : List Int32 ← ask (.getActiveUniforms program indices Enumerant.uniformOffset)
  indices.zipIdx.foldlM
    (fun found (index, i) => addUniform program found index blocks[i]? offsets[i]?) {}

def attributeAt (program : ObjectId) (index : UInt32) : Asking (Option AttributeRecord) := do
  let active : Option ActiveVariable ← ask (.getActiveAttribute program index)
  match active with
  | none => return none
  | some active =>
      let location : Int32 ← ask (.getAttributeLocation program active.name)
      return some ⟨active.name, active.type.label, active.size, location⟩

def attributes (program : ObjectId) : Asking (List AttributeRecord) := do
  let indices := (List.range (← activeCount program Enumerant.activeAttributes)).map UInt32.ofNat
  return (← indices.mapM (attributeAt program)).filterMap id

/-- Compiles a shader; the message is "compiled" or the info log. -/
def compile (shader : ObjectId) : Asking String := do
  ask (.compileShader shader)
  let status : Option Int32 ← ask (.getShaderParameter shader Enumerant.compileStatus)
  if status.getD 0 = 0 then ask (.getShaderLog shader) else return "compiled"

def link (program : ObjectId) : Asking Unit := do
  ask (.linkProgram program)
  ask (.validateProgram program)

/-- The record of a program that is linked; its view block is bound. -/
def describe (program : ObjectId) : Asking ProgramRecord := do
  let block : UInt32 ← ask (.getUniformBlockIndex program ViewBlock.name)
  if block ≠ Enumerant.invalidIndex then
    ask (.uniformBlockBinding program block ViewBlock.binding)
  let found ← uniforms program
  return {
    message := some "linked"
    uniforms := found.loose
    blocks := found.blocks
    attributes := ← attributes program }

/-- The record of a program that was just linked. A failed link changes only the record's
message. -/
def linked (program : ObjectId) (record : ProgramRecord) : Asking ProgramRecord := do
  let status : Option Int32 ← ask (.getProgramParameter program Enumerant.linkStatus)
  if status.getD 0 = 0 then
    let log : String ← ask (.getProgramLog program)
    return { record with message := some log }
  else describe program

def make : NewObject → Asking (Option ObjectId)
  | .texture => ask .createTexture
  | .shader stage => ask (.createShader stage.code)
  | .program => ask .createProgram
  | .buffer => ask .createBuffer
  | .vertexArray => ask .createVertexArray
  | .framebuffer => ask .createFramebuffer

/-- Fills the store of the buffer bound to a target. The size is known only of given bytes. -/
def fill (target usage : UInt32) : StoreContents → Asking StoreSize
  | .bytes data => do
      ask (.bufferData target data usage)
      let size : Option Int32 ← ask (.getBufferParameter target Enumerant.bufferSize)
      return size.elim .undefined fun n => .bytes n.toInt
  | .zeros size => do
      ask (.bufferDataSize target size usage)
      return .undefined

/-- Gives a buffer a store as large as a block. The uniform target is free afterwards. -/
def reserve (block : BlockRecord) (usage : UInt32) (buffer : ObjectId) : Asking Unit := do
  ask (.bindBuffer Enumerant.uniformBuffer (some buffer))
  ask (.bufferDataSize Enumerant.uniformBuffer block.size.toNatClampNeg usage)
  ask (.bindBuffer Enumerant.uniformBuffer none)

def makeBlockBuffer (block : BlockRecord) (usage : UInt32) : Asking (Option ObjectId) := do
  let made ← make .buffer
  if let some buffer := made then reserve block usage buffer
  return made

end Asking

end GlPlayback
