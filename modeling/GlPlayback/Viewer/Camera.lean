import GlPlayback.Command.Element
import GlPlayback.Linear.Inverse
import GlPlayback.Linear.Transform
import GlPlayback.Viewer.Config

/-!
The camera and the four matrices that shaders see of it: camera, view, projection, and projection
times view.
-/
namespace GlPlayback

structure Camera where
  position : Vec3 Double
  yaw : Double
  pitch : Double
  camera : Matrix4 Double := .identity
  view : Matrix4 Double := .identity
  projection : Matrix4 Double := .identity
  viewProjection : Matrix4 Double := .identity

namespace Camera

def projectionFor (width height : UInt32) : Matrix4 Double :=
  let height := if height = 0 then 1 else height
  .perspective 50 (.ofUInt32 width / .ofUInt32 height) 1 5000

def setViewport (c : Camera) (width height : UInt32) : Camera :=
  { c with projection := projectionFor width height }

def update (c : Camera) : Camera :=
  let camera := Matrix4.shift c.position * Matrix4.rotationY (Matrix4.radians c.yaw) *
    Matrix4.rotationX (Matrix4.radians c.pitch)
  let view := camera.inverse?.getD .identity
  { c with camera, view, viewProjection := c.projection * view }

def ofConfig (config : ViewerConfig) : Camera :=
  let c : Camera := { position := config.position, yaw := config.yaw, pitch := config.pitch }
  (c.setViewport config.width config.height).update

/-- A matrix as singles in the order that shaders of the given layout read. -/
def matrixSingles (major : MatrixMajor) (m : Matrix4 Double) : List Single :=
  (match major with
    | .row => m.transpose
    | .column => m).toList.map Single.ofDouble

def matrices (c : Camera) : List (Matrix4 Double) :=
  [c.camera, c.view, c.projection, c.viewProjection]

def singleBytes (singles : List Single) : List UInt8 :=
  singles.flatMap fun s => bytesOfWord 4 s.bits.toNat

/-- The contents of the view block. -/
def blockBytes (c : Camera) (major : MatrixMajor) : List UInt8 :=
  c.matrices.flatMap fun m => singleBytes (matrixSingles major m)

end Camera

end GlPlayback
