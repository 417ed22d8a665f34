import GlPlayback.Gl.Attempt

/-!
Calls on textures and framebuffers.
-/
namespace GlPlayback.Context

open Attempt

def createTexture (ctx : Context) : ObjectId × Context :=
  let (id, ctx) := ctx.takeId
  (id, { ctx with objects.textures := ctx.objects.textures.insert id {} })

def textureTargets : List UInt32 :=
  [Enumerant.texture2D, Enumerant.texture3D, Enumerant.texture2DArray, Enumerant.textureCubeMap]

/-- Binds a texture on the active unit. The first binding decides its target for good. -/
def bindTexture (ctx : Context) (target : UInt32) (texture : Option ObjectId) :
    Attempt Context := do
  check (textureTargets.contains target) .invalidEnum
  let ctx ← match texture with
    | none => pure ctx
    | some id =>
        match ctx.objects.textures.get? id with
        | none => refuse .invalidOperation
        | some t => do
            check (t.target.all (· == target)) .invalidOperation
            let t := { t with target := some target }
            pure { ctx with objects.textures := ctx.objects.textures.insert id t }
  let unit := ctx.bindings.units[ctx.bindings.activeTexture]?.getD ∅
  return { ctx with
    bindings.units :=
      ctx.bindings.units.setIfInBounds ctx.bindings.activeTexture (unit.set target texture) }

def activeTexture (ctx : Context) (name : UInt32) : Attempt Context := do
  let unit := (name - Enumerant.texture0).toNat
  check (unit < textureUnits) .invalidEnum
  return { ctx with bindings.activeTexture := unit }

def generateMipmap (ctx : Context) (target : UInt32) : Attempt Context :=
  ctx.changeTexture target fun t => return { t with mipmapped := true }

/-- An image's edges, how it lies in memory, and its bytes if they are given. -/
structure Image where
  level : Int32
  internalFormat : Int32
  width : Int32
  height : Int32
  depth : Int32
  border : Int32
  format : UInt32
  type : UInt32
  pixels : Option (List UInt8)
  deriving DecidableEq, Repr

/-- The store of an image without pixels: as many zeros as the product says, if that is a size. -/
def blank (size : Int32) : Attempt (List UInt8) :=
  if 0 ≤ size then return List.replicate size.toNatClampNeg 0 else throw .impossible

/-- Loads an image into a texture that may still change. Only level 0 is kept. -/
def loadImage (image : Image) (depth size : Int32) (t : TextureObject) :
    Attempt TextureObject := do
  check (!t.immutable) .invalidOperation
  let t ← if image.level = 0 then do
      let data ← match image.pixels with
        | some pixels => pure pixels
        | none => blank size
      pure { t with
        width := image.width.toUInt32, height := image.height.toUInt32
        depth := depth.toUInt32, internalFormat := image.internalFormat.toUInt32
        format := image.format, data }
    else pure t
  let levels := image.level.toUInt32 + 1
  return { t with levels := if t.levels < levels then levels else t.levels }

def texImage2D (ctx : Context) (target : UInt32) (image : Image) : Attempt Context := do
  check (0 ≤ image.width && 0 ≤ image.height && image.border == 0 && 0 ≤ image.level)
    .invalidValue
  ctx.changeTexture target (loadImage image 1 (image.width * image.height * 4))

def texImage3D (ctx : Context) (target : UInt32) (image : Image) : Attempt Context := do
  check (0 ≤ image.width && 0 ≤ image.height && 0 ≤ image.depth && image.border == 0 &&
    0 ≤ image.level) .invalidValue
  check (target == Enumerant.texture3D || target == Enumerant.texture2DArray) .invalidEnum
  ctx.changeTexture target
    (loadImage image image.depth (image.width * image.height * image.depth * 4))

/-- Fixes a texture's levels, format and size for good. -/
def texStorage (ctx : Context) (target : UInt32) (levels : Int32) (internalFormat : UInt32)
    (width height depth : Int32) : Attempt Context := do
  check (1 ≤ levels && 1 ≤ width && 1 ≤ height && 1 ≤ depth) .invalidValue
  ctx.changeTexture target fun t => do
    check (!t.immutable) .invalidOperation
    return { t with
      immutable := true, levels := levels.toUInt32, internalFormat
      width := width.toUInt32, height := height.toUInt32, depth := depth.toUInt32 }

def texParameterInt (ctx : Context) (target name : UInt32) (value : Int32) : Attempt Context :=
  ctx.changeTexture target fun t =>
    return { t with intParameters := t.intParameters.insert name value }

def texParameterFloat (ctx : Context) (target name : UInt32) (value : Single) :
    Attempt Context :=
  ctx.changeTexture target fun t =>
    return { t with floatParameters := t.floatParameters.insert name value }

def createFramebuffer (ctx : Context) : ObjectId × Context :=
  let (id, ctx) := ctx.takeId
  (id, { ctx with objects.framebuffers := ctx.objects.framebuffers.insert id {} })

def bindFramebuffer (ctx : Context) (target : UInt32) (framebuffer : Option ObjectId) :
    Attempt Context := do
  check (target == Enumerant.framebuffer || target == Enumerant.readFramebuffer ||
    target == Enumerant.drawFramebuffer) .invalidEnum
  check (framebuffer.all ctx.objects.framebuffers.contains) .invalidOperation
  return { ctx with bindings.framebuffer := framebuffer }

/-- Attaches a level of a texture to the framebuffer in use, or takes an attachment off it. -/
def framebufferTexture (ctx : Context) (attachment : UInt32)
    (texture : Option TextureAttachment) : Attempt Context :=
  match ctx.framebuffer? with
  | none => refuse .invalidOperation
  | some (id, f) =>
      let f := { f with attachments := f.attachments.set attachment texture }
      return { ctx with objects.framebuffers := ctx.objects.framebuffers.insert id f }

/-- Without a framebuffer one draws to the back buffer or nowhere. -/
def setDrawBuffers (ctx : Context) (buffers : List UInt32) : Attempt Context :=
  match ctx.framebuffer? with
  | some (id, f) =>
      let f := { f with drawBuffers := buffers }
      return { ctx with objects.framebuffers := ctx.objects.framebuffers.insert id f }
  | none => do
      check (buffers == [Enumerant.back] || buffers == [Enumerant.none]) .invalidOperation
      return { ctx with bindings.drawBuffers := buffers }

end GlPlayback.Context
