import GlPlayback.Proofs.Outcome
import GlPlayback.Viewer.Session

/-!
Everything that a host can do with a viewer, as data. Whatever it does, the viewer is first
brought into a state and then passes of the interpreter follow, one for each list of commands.
-/
namespace GlPlayback

namespace Viewer

/-- What a host can do. It may also change the context itself. -/
inductive Entry where
  | withChecks (checks : Bool)
  | register (uid : Nat)
  | receive (batch : Batch) (payloads : List (List UInt8))
  | run
  | setSize (width height : UInt32)
  | setPosition (position : Vec3 Double)
  | setYaw (yaw : Double)
  | setPitch (pitch : Double)
  | setMatrixMajor (matrixMajor : MatrixMajor)
  | setMouseSpeed (mouseSpeed : Double)
  | setMoveSpeed (moveSpeed : Double)
  | setMoveKeys (moveKeys : String)
  | mouseDown
  | mouseUp
  | mouseOut
  | mouseMove (dx dy : Double)
  | keyDown (key : String) (isRepeat : Bool)
  | keyUp (key : String)
  | requestRedraw
  | frame
  | changeContext (change : Context → Context)

def react (v : Viewer) : Entry → Viewer
  | .withChecks checks => v.withChecks checks
  | .register uid => (v.register uid).2
  | .receive batch payloads => (v.receive batch payloads).2
  | .run => v.run.2
  | .setSize width height => (v.setSize width height).2
  | .setPosition position => (v.setPosition position).2
  | .setYaw yaw => (v.setYaw yaw).2
  | .setPitch pitch => (v.setPitch pitch).2
  | .setMatrixMajor matrixMajor => (v.setMatrixMajor matrixMajor).2
  | .setMouseSpeed mouseSpeed => v.setMouseSpeed mouseSpeed
  | .setMoveSpeed moveSpeed => v.setMoveSpeed moveSpeed
  | .setMoveKeys moveKeys => (v.setMoveKeys moveKeys).2
  | .mouseDown => v.mouseDown
  | .mouseUp => v.mouseUp
  | .mouseOut => v.mouseOut
  | .mouseMove dx dy => v.mouseMove dx dy
  | .keyDown key isRepeat => v.keyDown key isRepeat
  | .keyUp key => v.keyUp key
  | .requestRedraw => v.requestRedraw.2
  | .frame => v.frame.2
  | .changeContext change => { v with context := v.context.map change }

def after (v : Viewer) (entries : List Entry) : Viewer :=
  entries.foldl react v

/-- One run of the interpreter over a list of commands. -/
structure Pass where
  commands : List Command
  payloads : List (List UInt8)

def pass (v : Viewer) (p : Pass) : Viewer :=
  (v.execute p.commands p.payloads).2

/-- The pass over all remembered commands, unless nothing runs any more. -/
def replays (v : Viewer) : List Pass :=
  if v.desynced then [] else [⟨v.commands, v.payloads⟩]

/-- The state that an entry brings a viewer into, and the passes that follow. -/
def plan (v : Viewer) (entry : Entry) : Viewer × List Pass :=
  match entry with
  | .receive batch payloads =>
      if v.isDegraded then (v, [])
      else match batch.commands.forM (checkPayload payloads) with
        | .error _ => (v, [])
        | .ok () =>
            let v := v.clearFor batch
            if batch.onlyOnce then (v, ⟨batch.commands, payloads⟩ :: v.replays)
            else
              let v := v.remember batch payloads
              (v, v.replays)
  | .run => (v, v.replays)
  | .setSize width height =>
      match ViewerConfig.checkSize width height with
      | .error _ => (v, [])
      | .ok () =>
          let v := { v with
            config := { v.config with width, height }
            camera := v.camera.setViewport width height
            context := v.context.map fun ctx => ctx.issue (viewport width height) }
          (v, v.replays)
  | .setPosition position => (v.moveTo position, (v.moveTo position).replays)
  | .setYaw yaw =>
      let v := { v with config := { v.config with yaw }, camera := { v.camera with yaw } }
      (v, v.replays)
  | .setPitch pitch =>
      let v := { v with config := { v.config with pitch }, camera := { v.camera with pitch } }
      (v, v.replays)
  | .setMatrixMajor matrixMajor =>
      let v := { v with config := { v.config with matrixMajor } }
      (v, v.replays)
  | .frame =>
      let v := { v with pending := false }
      if v.navigation.isMoving then
        let position := v.navigation.move (v.camera.camera.column 2) (v.camera.camera.column 0)
          v.config.moveSpeed v.camera.position
        let v := { v.moveTo position with pending := true }
        (v, v.replays)
      else (v, v.replays)
  | quiet => (v.react quiet, [])

theorem run_eq (v : Viewer) : v.run.2 = v.replays.foldl pass v := by
  simp only [run, replays]
  split <;> rfl

theorem uploadCamera_eq (v : Viewer) :
    ∃ camera context, v.uploadCamera = { v with camera, context } := by
  simp only [uploadCamera]
  split
  · exact ⟨_, _, rfl⟩
  · exact ⟨_, _, rfl⟩

/-- A pass leaves what is remembered and whether it is run. -/
theorem pass_keeps (v : Viewer) (p : Pass) : (v.pass p).commands = v.commands ∧
    (v.pass p).payloads = v.payloads ∧ (v.pass p).desynced = v.desynced := by
  obtain ⟨camera, context, hupload⟩ := v.uploadCamera_eq
  simp only [pass, execute, hupload]
  split <;> exact ⟨rfl, rfl, rfl⟩

theorem pass_replays (v : Viewer) (p : Pass) : (v.pass p).replays = v.replays := by
  obtain ⟨hcommands, hpayloads, hdesynced⟩ := v.pass_keeps p
  simp only [replays, hcommands, hpayloads, hdesynced]

theorem passes_keep (v : Viewer) (passes : List Pass) :
    (passes.foldl pass v).commands = v.commands ∧
      (passes.foldl pass v).payloads = v.payloads := by
  induction passes generalizing v with
  | nil => exact ⟨rfl, rfl⟩
  | cons p rest ih =>
      obtain ⟨hcommands, hpayloads, -⟩ := v.pass_keeps p
      obtain ⟨hcommands', hpayloads'⟩ := ih (v.pass p)
      exact ⟨hcommands'.trans hcommands, hpayloads'.trans hpayloads⟩

theorem run_keeps (v : Viewer) : v.run.2.commands = v.commands ∧ v.run.2.payloads = v.payloads := by
  rw [run_eq]
  exact passes_keep v _

theorem react_eq_plan (v : Viewer) (entry : Entry) :
    v.react entry = (v.plan entry).2.foldl pass (v.plan entry).1 := by
  cases entry with
  | receive batch payloads =>
      simp only [react, receive, plan]
      split
      · rfl
      · cases batch.commands.forM (checkPayload payloads) with
        | error e => rfl
        | ok _ =>
            simp only
            split
            · rw [List.foldl_cons, ← pass_replays _ ⟨batch.commands, payloads⟩, ← run_eq]
              rfl
            · exact run_eq _
  | setSize width height =>
      simp only [react, setSize, plan]
      cases ViewerConfig.checkSize width height with
      | error e => rfl
      | ok _ => exact run_eq _
  | frame =>
      simp only [react, frame, plan]
      split
      · exact run_eq _
      · exact run_eq _
  | run | setPosition _ | setYaw _ | setPitch _ | setMatrixMajor _ => exact run_eq _
  | withChecks _ | register _ | setMouseSpeed _ | setMoveSpeed _ | setMoveKeys _ | mouseDown
  | mouseUp | mouseOut | mouseMove _ _ | keyDown _ _ | keyUp _ | requestRedraw
  | changeContext _ => rfl

section New

variable {context : Option Context} {config : ViewerConfig} {checks : Bool} {v : Viewer}

/-- What a new viewer is made of. On a context, its view block is created and its viewport set. -/
theorem new_eq_ok (hnew : Viewer.new context config checks = .ok v) :
    config.validate = .ok () ∧
    v = {
      context := context.map fun ctx =>
        (ViewBlock.create ctx).2.issue (viewport config.width config.height)
      checks
      config
      camera := Camera.ofConfig config
      viewBlock := context.bind fun ctx => (ViewBlock.create ctx).1 } := by
  rw [Viewer.new, bind_eq_ok_iff] at hnew
  obtain ⟨_, hvalid, hmade⟩ := hnew
  refine ⟨mapError_eq_ok_iff.mp hvalid, ?_⟩
  cases context with
  | none =>
      cases hmade
      rfl
  | some ctx =>
      cases hmade
      rfl

/-- A new viewer knows of no resources and remembers nothing. -/
theorem new_empty (hnew : Viewer.new context config checks = .ok v) :
    v.registry = {} ∧ v.bindings = {} ∧ v.journal = {} ∧ v.commands = [] ∧ v.payloads = [] := by
  obtain ⟨-, rfl⟩ := new_eq_ok hnew
  exact ⟨rfl, rfl, rfl, rfl, rfl⟩

end New

/-- Entries that are about input, settings or the context. -/
def Entry.isQuiet : Entry → Bool
  | withChecks _ | register _ | receive _ _ => false
  | _ => true

/-- The host leaves the context to the viewer. -/
def Entry.IsHandsOff : Entry → Prop
  | changeContext _ => False
  | _ => True

/-- The viewport of a new size, if the size is accepted. -/
def Entry.resizes? : Entry → Option Call
  | setSize width height =>
      match ViewerConfig.checkSize width height with
      | .ok () => some (viewport width height)
      | .error _ => none
  | _ => none

/-- The other viewer knows, remembers and has told the same. -/
structure Agrees (v w : Viewer) : Prop where
  registry_eq : w.registry = v.registry
  bindings_eq : w.bindings = v.bindings
  journal_eq : w.journal = v.journal
  commands_eq : w.commands = v.commands
  payloads_eq : w.payloads = v.payloads

theorem Agrees.refl (v : Viewer) : v.Agrees v :=
  ⟨rfl, rfl, rfl, rfl, rfl⟩

/-- A quiet entry brings nothing about but passes. -/
theorem plan_agrees (v : Viewer) {entry : Entry} (hquiet : entry.isQuiet = true) :
    v.Agrees (v.plan entry).1 := by
  cases entry with
  | withChecks _ | register _ | receive _ _ => cases hquiet
  | setSize width height =>
      simp only [plan]
      cases ViewerConfig.checkSize width height with
      | error e => exact .refl v
      | ok _ => exact ⟨rfl, rfl, rfl, rfl, rfl⟩
  | setMoveKeys moveKeys =>
      simp only [plan, react, setMoveKeys]
      split <;> exact ⟨rfl, rfl, rfl, rfl, rfl⟩
  | mouseMove dx dy =>
      simp only [plan, react, mouseMove]
      split <;> exact ⟨rfl, rfl, rfl, rfl, rfl⟩
  | keyDown key isRepeat =>
      simp only [plan, react, keyDown]
      split <;> exact ⟨rfl, rfl, rfl, rfl, rfl⟩
  | keyUp key =>
      simp only [plan, react, keyUp]
      split <;> exact ⟨rfl, rfl, rfl, rfl, rfl⟩
  | frame =>
      simp only [plan]
      split <;> exact ⟨rfl, rfl, rfl, rfl, rfl⟩
  | run | setPosition _ | setYaw _ | setPitch _ | setMatrixMajor _ | setMouseSpeed _
  | setMoveSpeed _ | mouseDown | mouseUp | mouseOut | requestRedraw | changeContext _ =>
      exact ⟨rfl, rfl, rfl, rfl, rfl⟩

/-- What comes before the passes of an entry leaves the view block and, up to the viewport of a new
size, the context. Only a registration can be out of order. -/
theorem plan_leaves (v : Viewer) {entry : Entry} (hentry : entry.IsHandsOff) :
    (v.plan entry).1.viewBlock = v.viewBlock ∧
    (v.plan entry).1.context = v.context.map (fun ctx => ctx.issueAll entry.resizes?.toList) ∧
    (entry.isQuiet = true → (v.plan entry).1.desynced = v.desynced) := by
  have hsame : v.context = v.context.map fun ctx => ctx.issueAll [] := by
    cases v.context <;> rfl
  cases entry with
  | receive batch payloads =>
      simp only [plan]
      split
      · exact ⟨rfl, hsame, fun _ => rfl⟩
      · split
        · exact ⟨rfl, hsame, fun _ => rfl⟩
        · simp only [clearFor]
          split <;> split <;> exact ⟨rfl, hsame, fun _ => rfl⟩
  | setSize width height =>
      simp only [plan, Entry.resizes?]
      cases ViewerConfig.checkSize width height with
      | error e => exact ⟨rfl, hsame, fun _ => rfl⟩
      | ok _ => exact ⟨rfl, rfl, fun _ => rfl⟩
  | register uid =>
      simp only [plan, react, register]
      split
      · exact ⟨rfl, hsame, fun _ => rfl⟩
      · split <;> exact ⟨rfl, hsame, nofun⟩
  | setMoveKeys moveKeys =>
      simp only [plan, react, setMoveKeys]
      split <;> exact ⟨rfl, hsame, fun _ => rfl⟩
  | mouseMove dx dy =>
      simp only [plan, react, mouseMove]
      split <;> exact ⟨rfl, hsame, fun _ => rfl⟩
  | keyDown key isRepeat =>
      simp only [plan, react, keyDown]
      split <;> exact ⟨rfl, hsame, fun _ => rfl⟩
  | keyUp key =>
      simp only [plan, react, keyUp]
      split <;> exact ⟨rfl, hsame, fun _ => rfl⟩
  | frame =>
      simp only [plan]
      split <;> exact ⟨rfl, hsame, fun _ => rfl⟩
  | withChecks _ | run | setPosition _ | setYaw _ | setPitch _ | setMatrixMajor _
  | setMouseSpeed _ | setMoveSpeed _ | mouseDown | mouseUp | mouseOut | requestRedraw =>
      exact ⟨rfl, hsame, fun _ => rfl⟩
  | changeContext _ => exact hentry.elim

theorem resizes?_eq_some {entry : Entry} {call : Call} (hcall : entry.resizes? = some call) :
    ∃ width height, call = viewport width height := by
  cases entry with
  | setSize width height =>
      simp only [Entry.resizes?] at hcall
      split at hcall
      · cases hcall
        exact ⟨width, height, rfl⟩
      · cases hcall
  | _ => cases hcall

end Viewer

end GlPlayback
