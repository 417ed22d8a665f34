import GlPlayback.Gl.Attempt

/-!
Calls on fixed-function state.
-/
namespace GlPlayback.Context

open Attempt

def supportedExtensions : List String :=
  ["EXT_color_buffer_float", "EXT_texture_filter_anisotropic", "OES_texture_float_linear"]

/-- Turns an extension on, if there is one of that name. -/
def getExtension (ctx : Context) (name : String) : Bool × Context :=
  if supportedExtensions.contains name then
    (true, { ctx with fixed.extensions := ctx.fixed.extensions.insert name () })
  else (false, ctx)

def viewport (ctx : Context) (area : Quad Int32) : Attempt Context := do
  check (0 ≤ area.z && 0 ≤ area.w) .invalidValue
  return { ctx with fixed.viewport := area }

def enable (ctx : Context) (capabilities : Capabilities) : Context :=
  { ctx with fixed.capabilities := ctx.fixed.capabilities ||| capabilities }

def disable (ctx : Context) (capabilities : Capabilities) : Context :=
  { ctx with fixed.capabilities := ctx.fixed.capabilities &&& ~~~capabilities }

def frontFace (ctx : Context) (mode : UInt32) : Attempt Context := do
  check (mode == Enumerant.clockwise || mode == Enumerant.counterClockwise) .invalidEnum
  return { ctx with fixed.frontFace := mode }

def cullFace (ctx : Context) (mode : UInt32) : Attempt Context := do
  check (mode == Enumerant.front || mode == Enumerant.back || mode == Enumerant.frontAndBack)
    .invalidEnum
  return { ctx with fixed.cullFace := mode }

def depthFunc (ctx : Context) (func : UInt32) : Attempt Context := do
  check (Enumerant.never ≤ func && func ≤ Enumerant.always) .invalidEnum
  return { ctx with fixed.depthFunc := func }

/-- The range is kept within zero and one. -/
def depthRange (ctx : Context) (near far : Single) : Attempt Context := do
  check (!near.isGreater far) .invalidOperation
  return { ctx with fixed.depthRange := (near.toUnit, far.toUnit) }

/-- Alignments have to be small powers of two. -/
def pixelStore (ctx : Context) (name : UInt32) (value : Int32) : Attempt Context := do
  let isAlignment := name == Enumerant.unpackAlignment || name == Enumerant.packAlignment
  check (!isAlignment || [1, 2, 4, 8].contains value) .invalidValue
  return { ctx with fixed.pixelStore := ctx.fixed.pixelStore.insert name value }

end GlPlayback.Context
