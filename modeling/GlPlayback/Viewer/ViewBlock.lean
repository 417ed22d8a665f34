import GlPlayback.Gl.Call
import GlPlayback.Viewer.Camera

/-!
The uniform block that shows the camera to shaders: its four matrices, 64 bytes each.
-/
namespace GlPlayback

namespace ViewBlock

/-- Programs that declare a block of this name have it bound when they are linked. -/
def name : String := "ViewBlock"

def binding : UInt32 := 0

def size : Nat := 256

/-- Makes the block's buffer and binds it to the block's binding point. -/
def create (ctx : Context) : Option ObjectId × Context :=
  match ctx.exec .createBuffer with
  | (none, ctx) => (none, ctx)
  | (some buffer, ctx) =>
      (some buffer, ctx.issueAll
        [.bindBuffer Enumerant.uniformBuffer (some buffer),
         .bufferDataSize Enumerant.uniformBuffer size Enumerant.dynamicDraw,
         .bindBuffer Enumerant.uniformBuffer none,
         .bindBufferBase Enumerant.uniformBuffer binding (some buffer),
         .getExtension "EXT_color_buffer_float"])

/-- Writes the four matrices; `restore` is bound to the uniform target afterwards. -/
def upload (ctx : Context) (buffer : ObjectId) (camera : Camera) (major : MatrixMajor)
    (restore : Option ObjectId) : Context :=
  let write := fun (m, start) =>
    Call.bufferSubData Enumerant.uniformBuffer start
      (Camera.singleBytes (Camera.matrixSingles major m))
  ctx.issueAll
    ([.bindBuffer Enumerant.uniformBuffer (some buffer)] ++
      (camera.matrices.zip [0, 64, 128, 192]).map write ++
      [.bindBuffer Enumerant.uniformBuffer restore])

end ViewBlock

end GlPlayback
