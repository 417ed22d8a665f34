import GlPlayback.Interpreter.Machine
import GlPlayback.Resource.Journal
import GlPlayback.Viewer.Error
import GlPlayback.Viewer.Navigation

/-!
A viewer takes resources, batches of commands and settings from its host. It remembers the
commands and runs all of them again after every batch and every change of the camera, so that
what is drawn follows from the whole history.
-/
namespace GlPlayback

structure Viewer where
  /-- Without a context nothing is drawn. -/
  context : Option Context
  /-- Whether commands that leave an error behind count as failed. -/
  checks : Bool
  /-- A registration was out of order; nothing runs any more. -/
  desynced : Bool := false
  config : ViewerConfig
  registry : Registry := {}
  bindings : BindingState := {}
  camera : Camera
  viewBlock : Option ObjectId
  commands : List Command := []
  payloads : List (List UInt8) := []
  journal : Journal := {}
  navigation : Navigation := {}
  /-- Whether a frame was asked for. -/
  pending : Bool := false

namespace Viewer

/-- A size as the edges of a viewport. -/
def viewport (width height : UInt32) : Call :=
  .viewport ⟨0, 0, edge width, edge height⟩
where
  edge (n : UInt32) : Int32 :=
    if n.toNat < 0x80000000 then n.toInt32 else Int32.maxValue

/-- A viewer of a context, or of none. -/
def new (context : Option Context) (config : ViewerConfig) (checks : Bool) :
    Except ViewerError Viewer := do
  config.validate.mapError .config
  let camera := Camera.ofConfig config
  match context with
  | none => return { context := none, checks, config, camera, viewBlock := none }
  | some ctx =>
      let (viewBlock, ctx) := ViewBlock.create ctx
      let ctx := ctx.issue (viewport config.width config.height)
      return { context := some ctx, checks, config, camera, viewBlock }

/-- Chooses whether errors of the context count. The interpreter starts over with nothing bound. -/
def withChecks (v : Viewer) (checks : Bool) : Viewer :=
  { v with checks, bindings := {} }

/-- Whether batches are passed over. -/
def isDegraded (v : Viewer) : Bool :=
  v.context.isNone || v.desynced

/-- Registers the next resource. A wrong number ends all replaying. -/
def register (v : Viewer) (uid : Nat) : Except ViewerError Handle × Viewer :=
  if v.desynced then (.error .outOfSync, v)
  else match v.registry.register uid with
    | .ok (h, registry) => (.ok h, { v with registry })
    | .error e => (.error (.registration e), { v with desynced := true })

/-- Asks for a frame, unless one is pending. -/
def requestRedraw (v : Viewer) : Bool × Viewer :=
  (!v.pending, { v with pending := true })

/-- Tells the host of a resource, if it is known. -/
def publish (registry : Registry) (journal : Journal) (h : Handle) : Journal :=
  match registry.get h with
  | .ok resource => journal.publish h resource.record
  | .error _ => journal

/-- Tells the host of every record that changed. -/
def publishDirty (v : Viewer) : Viewer :=
  let (dirty, registry) := v.registry.takeDirty
  { v with registry, journal := dirty.foldl (publish registry) v.journal }

/-- Brings the camera up to date and writes it to the view block. The uniform buffer that commands
bound is bound again. -/
def uploadCamera (v : Viewer) : Viewer :=
  let v := { v with camera := v.camera.update }
  match v.context, v.viewBlock with
  | some ctx, some buffer =>
      let restore := (v.bindings.buffers.get? .uniform).bind fun h =>
        (v.registry.object h .buffer).toOption
      { v with
        context := some (ViewBlock.upload ctx buffer v.camera v.config.matrixMajor restore) }
  | _, _ => v

/-- Runs commands once, with a camera that is up to date. -/
def execute (v : Viewer) (commands : List Command) (payloads : List (List UInt8)) :
    Report × Viewer :=
  let v := v.uploadCamera
  match v.context with
  | none => ({}, v)
  | some context =>
      let (report, m) := Machine.execute v.checks ⟨context, v.registry, v.bindings⟩
        commands payloads
      (report, publishDirty { v with
        context := some m.context, registry := m.registry, bindings := m.bindings })

/-- Runs all remembered commands. -/
def run (v : Viewer) : Report × Viewer :=
  if v.desynced then ({}, v) else v.execute v.commands v.payloads

/-- Whether the payload of a command is there and holds whole elements. -/
def checkPayload (payloads : List (List UInt8)) (command : Command) :
    Except CommandError Unit :=
  match command.payload with
  | none => .ok ()
  | some ref => do
      let type ← (ElementType.ofName ref.type).mapError .element
      match payloads[ref.index]? with
      | none => throw (.payloadIndex ref.index payloads.length)
      | some bytes =>
          if bytes.length % type.size ≠ 0 then
            throw (.element (.length bytes.length type.size))

/-- The command with its payload counted from `base` on. -/
def rebase (base : Nat) (command : Command) : Command :=
  { command with payload := command.payload.map fun ref => { ref with index := base + ref.index } }

/-- Forgets commands and payloads if the batch says so. -/
def clearFor (v : Viewer) (batch : Batch) : Viewer :=
  if batch.clear then { v with commands := [], payloads := [] } else v

/-- Appends a batch to what is remembered. -/
def remember (v : Viewer) (batch : Batch) (payloads : List (List UInt8)) : Viewer :=
  { v with
    commands := v.commands ++ batch.commands.map (rebase v.payloads.length)
    payloads := v.payloads ++ payloads }

/-- Takes a batch with its payloads. A batch with a bad payload reference changes nothing. -/
def receive (v : Viewer) (batch : Batch) (payloads : List (List UInt8)) :
    Except ViewerError Report × Viewer :=
  if v.isDegraded then (.ok {}, v)
  else match batch.commands.forM (checkPayload payloads) with
    | .error e => (.error (.rejected e), v)
    | .ok () =>
        let v := v.clearFor batch
        if batch.onlyOnce then
          let (first, v) := v.execute batch.commands payloads
          let (second, v) := v.run
          (.ok (first.merge second), v)
        else
          let (report, v) := (v.remember batch payloads).run
          (.ok report, v)

/-- Resizes the drawing surface. -/
def setSize (v : Viewer) (width height : UInt32) : Except ViewerError Report × Viewer :=
  match ViewerConfig.checkSize width height with
  | .error e => (.error (.config e), v)
  | .ok () =>
      let (report, v) := run { v with
        config := { v.config with width, height }
        camera := v.camera.setViewport width height
        context := v.context.map fun ctx => ctx.issue (viewport width height) }
      (.ok report, v)

/-- Puts the camera and the config's record of it somewhere, without running anything. -/
def moveTo (v : Viewer) (position : Vec3 Double) : Viewer :=
  { v with config := { v.config with position }, camera := { v.camera with position } }

def turnTo (v : Viewer) (yaw pitch : Double) : Viewer :=
  { v with config := { v.config with yaw, pitch }, camera := { v.camera with yaw, pitch } }

def setPosition (v : Viewer) (position : Vec3 Double) : Report × Viewer :=
  (v.moveTo position).run

def setYaw (v : Viewer) (yaw : Double) : Report × Viewer :=
  run { v with config := { v.config with yaw }, camera := { v.camera with yaw } }

def setPitch (v : Viewer) (pitch : Double) : Report × Viewer :=
  run { v with config := { v.config with pitch }, camera := { v.camera with pitch } }

def setMatrixMajor (v : Viewer) (matrixMajor : MatrixMajor) : Report × Viewer :=
  run { v with config := { v.config with matrixMajor } }

def setMouseSpeed (v : Viewer) (mouseSpeed : Double) : Viewer :=
  { v with config := { v.config with mouseSpeed }, pending := true }

def setMoveSpeed (v : Viewer) (moveSpeed : Double) : Viewer :=
  { v with config := { v.config with moveSpeed }, pending := true }

/-- Chooses other move keys, none of which counts as held. -/
def setMoveKeys (v : Viewer) (moveKeys : String) : Except ViewerError Unit × Viewer :=
  let config := { v.config with moveKeys }
  match config.validate with
  | .error e => (.error (.config e), v)
  | .ok () =>
      (.ok (), { v with config, navigation := { v.navigation with held := [] }, pending := true })

def mouseDown (v : Viewer) : Viewer :=
  { v with navigation := { v.navigation with dragging := true } }

def mouseUp (v : Viewer) : Viewer :=
  { v with navigation := { v.navigation with dragging := false } }

/-- The pointer left the surface: nothing is held any more. -/
def mouseOut (v : Viewer) : Viewer :=
  { v with navigation := {} }

/-- Degrees for each pixel that the pointer moves. -/
def degreesPerPixel : Double := 0.2

/-- Turns the camera while the pointer drags. -/
def mouseMove (v : Viewer) (dx dy : Double) : Viewer :=
  if v.navigation.dragging then
    let speed := v.config.mouseSpeed
    { v.turnTo (v.camera.yaw - degreesPerPixel * dx * speed)
        (v.camera.pitch - degreesPerPixel * dy * speed) with pending := true }
  else v

/-- The direction that a key moves in. Of two directions with one key the first counts. -/
def direction? (v : Viewer) (key : String) : Option Direction :=
  match key.toList with
  | [c] => (Direction.all.zip v.config.moveKeys.toList).findSome? fun (d, k) =>
      if k = c then some d else none
  | _ => none

def keyDown (v : Viewer) (key : String) (isRepeat : Bool) : Viewer :=
  match if isRepeat then none else v.direction? key with
  | none => v
  | some d => { v with navigation := v.navigation.press d, pending := true }

def keyUp (v : Viewer) (key : String) : Viewer :=
  match v.direction? key with
  | none => v
  | some d => { v with navigation := v.navigation.release d }

/-- Runs the frame that was asked for. While a move key is down the camera steps along the axes it
had in the last run, and another frame is asked for. -/
def frame (v : Viewer) : Report × Viewer :=
  let v := { v with pending := false }
  if v.navigation.isMoving then
    let position := v.navigation.move (v.camera.camera.column 2) (v.camera.camera.column 0)
      v.config.moveSpeed v.camera.position
    run { v.moveTo position with pending := true }
  else v.run

end Viewer

end GlPlayback
