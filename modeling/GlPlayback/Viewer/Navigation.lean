import GlPlayback.Linear.Matrix4

/-!
What the host's pointer and keys are doing.
-/
namespace GlPlayback

inductive Direction where
  | forward
  | left
  | back
  | right
  deriving DecidableEq, Repr

namespace Direction

/-- All directions in the order of their keys in a config. -/
def all : List Direction :=
  [forward, left, back, right]

/-- The place one step of this length further along the axes of a camera: `depth` points out of
the view towards the viewer, `aside` to the right. -/
def step (depth aside : Vec3 Double) (length : Double) (place : Vec3 Double) :
    Direction → Vec3 Double
  | forward => place.sub (depth.scale length)
  | back => place.add (depth.scale length)
  | left => place.sub (aside.scale length)
  | right => place.add (aside.scale length)

end Direction

structure Navigation where
  dragging : Bool := false
  /-- The directions whose keys are down. -/
  held : List Direction := []
  deriving DecidableEq, Repr

namespace Navigation

def press (n : Navigation) (d : Direction) : Navigation :=
  { n with held := if n.held.contains d then n.held else d :: n.held }

def release (n : Navigation) (d : Direction) : Navigation :=
  { n with held := n.held.filter (· ≠ d) }

def isMoving (n : Navigation) : Bool :=
  !n.held.isEmpty

/-- The place after one step in each direction whose key is down. -/
def move (n : Navigation) (depth aside : Vec3 Double) (length : Double) (place : Vec3 Double) :
    Vec3 Double :=
  ([Direction.forward, .back, .left, .right].filter n.held.contains).foldl
    (fun place d => d.step depth aside length place) place

end Navigation

end GlPlayback
