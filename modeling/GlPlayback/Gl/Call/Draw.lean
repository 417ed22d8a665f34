import GlPlayback.Gl.Attempt

/-!
Calls that draw. Each that is not refused adds one entry to the log of draws.
-/
namespace GlPlayback.Context

open Attempt

def logDraw (ctx : Context) (draw : DrawCall) : Context :=
  { ctx with draws := ctx.draws.push draw }

/-- What every draw needs: a known mode, counts that are not negative, and a program. -/
def drawProgram (ctx : Context) (mode : UInt32) (count instances : Int32) :
    Attempt ObjectId := do
  check (mode ≤ Enumerant.triangleFan) .invalidEnum
  check (0 ≤ count && 0 ≤ instances) .invalidValue
  match ctx.bindings.program with
  | none => refuse .invalidOperation
  | some program => return program

def drawArrays (ctx : Context) (mode : UInt32) (first count instances : Int32) :
    Attempt Context := do
  let program ← ctx.drawProgram mode count instances
  check (0 ≤ first) .invalidValue
  return ctx.logDraw (.arrays mode first count instances program ctx.drawState)

def indexSize (type : UInt32) : Attempt Int32 :=
  if type = Enumerant.unsignedByte then return 1
  else if type = Enumerant.unsignedShort then return 2
  else if type = Enumerant.unsignedInt then return 4
  else refuse .invalidEnum

def drawElements (ctx : Context) (mode : UInt32) (count : Int32) (type : UInt32)
    (offset instances : Int32) : Attempt Context := do
  let program ← ctx.drawProgram mode count instances
  let size ← indexSize type
  check (0 ≤ offset && offset % size == 0) .invalidOperation
  check ctx.vertexArray.elementBuffer.isSome .invalidOperation
  return ctx.logDraw (.elements mode count type offset instances program ctx.drawState)

end GlPlayback.Context
