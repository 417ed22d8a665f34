import GlPlayback.Proofs.Viewer.ViewBlock

/-!
The camera of a viewer against its config. Both say where the camera stands, and each entry point
that changes the one changes the other as well; the matrices are brought up to date by every pass,
and then they are those that the config alone gives.
-/
namespace GlPlayback

namespace ViewerConfig

theorem checkSize_eq_ok_iff {width height : UInt32} :
    checkSize width height = .ok () ↔ width ≠ 0 ∧ height ≠ 0 := by
  rw [checkSize, ← not_or]
  split <;> simp [*]

theorem validate_eq_ok_iff {config : ViewerConfig} : config.validate = .ok () ↔
    (config.width ≠ 0 ∧ config.height ≠ 0) ∧ config.moveKeys.length = 4 := by
  rw [← checkSize_eq_ok_iff]
  simp only [validate, checkKeys]
  cases checkSize config.width config.height with
  | error e => simp [bind, Except.bind]
  | ok _ => simp [bind, Except.bind]

end ViewerConfig

namespace Camera

theorem projectionFor_of_ne {width height : UInt32} (hheight : height ≠ 0) :
    projectionFor width height =
      .perspective 50 (.ofUInt32 width / .ofUInt32 height) 1 5000 := by
  rw [projectionFor, if_neg hheight]

/-- The matrices follow from where the camera stands and from its projection. -/
structure IsUpdated (c : Camera) : Prop where
  camera_eq : c.camera = Matrix4.shift c.position * .rotationY (Matrix4.radians c.yaw) *
    .rotationX (Matrix4.radians c.pitch)
  view_eq : c.view = c.camera.inverse?.getD .identity
  viewProjection_eq : c.viewProjection = c.projection * c.view

theorem isUpdated_update (c : Camera) : c.update.IsUpdated :=
  ⟨rfl, rfl, rfl⟩

theorem IsUpdated.update_eq {c : Camera} (h : c.IsUpdated) : c.update = c := by
  simp only [update, ← h.camera_eq, ← h.view_eq, ← h.viewProjection_eq]

end Camera

namespace Viewer

/-- The config is valid and says how the camera stands and what its projection is. -/
structure InStep (v : Viewer) : Prop where
  position_eq : v.config.position = v.camera.position
  yaw_eq : v.config.yaw = v.camera.yaw
  pitch_eq : v.config.pitch = v.camera.pitch
  projection_eq : v.camera.projection =
    .perspective 50 (.ofUInt32 v.config.width / .ofUInt32 v.config.height) 1 5000
  valid : v.config.validate = .ok ()

variable {v w : Viewer} {entry : Entry}

theorem InStep.congr (h : v.InStep) (hconfig : w.config = v.config) (hcamera : w.camera = v.camera) :
    w.InStep := by
  refine ⟨?_, ?_, ?_, ?_, ?_⟩ <;> rw [hconfig]
  · rw [hcamera, h.position_eq]
  · rw [hcamera, h.yaw_eq]
  · rw [hcamera, h.pitch_eq]
  · rw [hcamera, h.projection_eq]
  · exact h.valid

section Passes

theorem uploadCamera_camera (v : Viewer) : v.uploadCamera.camera = v.camera.update := by
  simp only [uploadCamera]
  split <;> rfl

/-- A pass brings the camera up to date, with or without a context. -/
theorem pass_camera (v : Viewer) (p : Pass) :
    (v.pass p).config = v.config ∧ (v.pass p).camera = v.camera.update := by
  obtain ⟨camera, context, hupload⟩ := v.uploadCamera_eq
  have hcamera : camera = v.camera.update := by
    rw [← uploadCamera_camera, hupload]
  simp only [pass, execute, hupload]
  split <;> exact ⟨rfl, hcamera⟩

theorem InStep.pass (h : v.InStep) (p : Pass) : (v.pass p).InStep := by
  obtain ⟨hconfig, hcamera⟩ := v.pass_camera p
  have hupdated : InStep { v with camera := v.camera.update } :=
    ⟨h.position_eq, h.yaw_eq, h.pitch_eq, h.projection_eq, h.valid⟩
  exact hupdated.congr hconfig hcamera

theorem InStep.passes (h : v.InStep) (passes : List Pass) : (passes.foldl Viewer.pass v).InStep := by
  induction passes generalizing v with
  | nil => exact h
  | cons p rest ih => exact ih (h.pass p)

theorem passes_config (v : Viewer) (passes : List Pass) :
    (passes.foldl Viewer.pass v).config = v.config := by
  induction passes generalizing v with
  | nil => rfl
  | cons p rest ih => exact (ih (v.pass p)).trans (v.pass_camera p).1

theorem isUpdated_passes {passes : List Pass} (hpasses : passes ≠ []) (v : Viewer) :
    (passes.foldl Viewer.pass v).camera.IsUpdated := by
  induction passes generalizing v with
  | nil => exact absurd rfl hpasses
  | cons p rest ih =>
      cases rest with
      | nil =>
          rw [List.foldl_cons, List.foldl_nil, (v.pass_camera p).2]
          exact v.camera.isUpdated_update
      | cons q rest => exact ih (List.cons_ne_nil q rest) (v.pass p)

end Passes

/-- The matrices of a camera that is in step and up to date are those of a new viewer with the same
config. -/
theorem InStep.camera_eq (h : v.InStep) (hupdated : v.camera.IsUpdated) :
    v.camera = Camera.ofConfig v.config := by
  have hheight : v.config.height ≠ 0 := (ViewerConfig.validate_eq_ok_iff.mp h.valid).1.2
  have hprojection := h.projection_eq.trans (Camera.projectionFor_of_ne hheight).symm
  rw [← hupdated.update_eq]
  simp only [Camera.ofConfig, Camera.setViewport, Camera.update, h.position_eq, h.yaw_eq, h.pitch_eq,
    hprojection]

/-- What comes before the passes of an entry writes both, or neither. -/
theorem InStep.plan (h : v.InStep) (entry : Entry) : (v.plan entry).1.InStep := by
  have hsame {w : Viewer} (hconfig : w.config = v.config) (hcamera : w.camera = v.camera) :
      w.InStep := h.congr hconfig hcamera
  cases entry with
  | register uid =>
      simp only [Viewer.plan, Viewer.react, register]
      split
      · exact h
      · split <;> exact hsame rfl rfl
  | receive batch payloads =>
      simp only [Viewer.plan]
      split
      · exact h
      · split
        · exact h
        · simp only [clearFor]
          split <;> split <;> exact hsame rfl rfl
  | setSize width height =>
      simp only [Viewer.plan]
      cases hsize : ViewerConfig.checkSize width height with
      | error e => exact h
      | ok _ =>
          have hne := ViewerConfig.checkSize_eq_ok_iff.mp hsize
          have hkeys := (ViewerConfig.validate_eq_ok_iff.mp h.valid).2
          exact ⟨h.position_eq, h.yaw_eq, h.pitch_eq, Camera.projectionFor_of_ne hne.2,
            ViewerConfig.validate_eq_ok_iff.mpr ⟨hne, hkeys⟩⟩
  | setPosition position => exact ⟨rfl, h.yaw_eq, h.pitch_eq, h.projection_eq, h.valid⟩
  | setYaw yaw => exact ⟨h.position_eq, rfl, h.pitch_eq, h.projection_eq, h.valid⟩
  | setPitch pitch => exact ⟨h.position_eq, h.yaw_eq, rfl, h.projection_eq, h.valid⟩
  | setMatrixMajor _ | setMouseSpeed _ | setMoveSpeed _ =>
      exact ⟨h.position_eq, h.yaw_eq, h.pitch_eq, h.projection_eq, h.valid⟩
  | setMoveKeys keys =>
      simp only [Viewer.plan, Viewer.react, setMoveKeys]
      split
      · exact h
      · next hvalid => exact ⟨h.position_eq, h.yaw_eq, h.pitch_eq, h.projection_eq, hvalid⟩
  | mouseMove dx dy =>
      simp only [Viewer.plan, Viewer.react, mouseMove]
      split
      · exact ⟨h.position_eq, rfl, rfl, h.projection_eq, h.valid⟩
      · exact h
  | keyDown key isRepeat =>
      simp only [Viewer.plan, Viewer.react, keyDown]
      split <;> exact hsame rfl rfl
  | keyUp key =>
      simp only [Viewer.plan, Viewer.react, keyUp]
      split <;> exact hsame rfl rfl
  | frame =>
      simp only [Viewer.plan]
      split
      · exact ⟨rfl, h.yaw_eq, h.pitch_eq, h.projection_eq, h.valid⟩
      · exact hsame rfl rfl
  | withChecks _ | run | mouseDown | mouseUp | mouseOut | requestRedraw | changeContext _ =>
      exact hsame rfl rfl

theorem react_config (v : Viewer) (entry : Entry) :
    (v.react entry).config = (v.plan entry).1.config := by
  rw [react_eq_plan, passes_config]

theorem InStep.react (h : v.InStep) (entry : Entry) : (v.react entry).InStep := by
  rw [react_eq_plan]
  exact (h.plan entry).passes _

theorem InStep.after (h : v.InStep) (entries : List Entry) : (v.after entries).InStep := by
  induction entries generalizing v with
  | nil => exact h
  | cons entry rest ih => exact ih (h.react entry)

theorem new_inStep {context : Option Context} {config : ViewerConfig} {checks : Bool}
    (hnew : Viewer.new context config checks = .ok v) : v.InStep := by
  obtain ⟨hvalid, rfl⟩ := new_eq_ok hnew
  have hheight : config.height ≠ 0 := (ViewerConfig.validate_eq_ok_iff.mp hvalid).1.2
  exact ⟨rfl, rfl, rfl, Camera.projectionFor_of_ne hheight, hvalid⟩

/-- A size or a choice of keys that is turned down leaves the viewer as it was. -/
theorem setSize_of_error {width height : UInt32} {e : ViewerError}
    (he : (v.setSize width height).1 = .error e) : (v.setSize width height).2 = v := by
  simp only [setSize] at he ⊢
  cases hsize : ViewerConfig.checkSize width height with
  | error cause => rfl
  | ok _ =>
      rw [hsize] at he
      cases he

theorem setMoveKeys_of_error {keys : String} {e : ViewerError}
    (he : (v.setMoveKeys keys).1 = .error e) : (v.setMoveKeys keys).2 = v := by
  simp only [setMoveKeys] at he ⊢
  cases hvalid : ViewerConfig.validate { v.config with moveKeys := keys } with
  | error cause => rfl
  | ok _ =>
      rw [hvalid] at he
      cases he

/-- However a host uses a viewer, with or without a context, its config is valid and in step with
its camera, and a size or a choice of keys that is turned down changes nothing. After every entry
that replays, the matrices are those of the camera's current place and projection. They are the ones
that the config alone gives, whatever the order in which it came about. -/
theorem camera_in_step {context : Option Context} {config : ViewerConfig} {checks : Bool}
    (hnew : Viewer.new context config checks = .ok v) (entries : List Entry) :
    let w := v.after entries
    w.InStep ∧
    ((w.config.width ≠ 0 ∧ w.config.height ≠ 0) ∧ w.config.moveKeys.length = 4) ∧
    (∀ width height e, (w.setSize width height).1 = .error e → (w.setSize width height).2 = w) ∧
    (∀ keys e, (w.setMoveKeys keys).1 = .error e → (w.setMoveKeys keys).2 = w) ∧
    ∀ entry, w.Replays entry → (w.react entry).camera.IsUpdated ∧
      (w.react entry).camera = Camera.ofConfig (w.react entry).config := by
  intro w
  have hw : w.InStep := (new_inStep hnew).after entries
  refine ⟨hw, ViewerConfig.validate_eq_ok_iff.mp hw.valid, fun _ _ _ => setSize_of_error,
    fun _ _ => setMoveKeys_of_error, fun entry hreplays => ?_⟩
  have hupdated : (w.react entry).camera.IsUpdated := by
    rw [react_eq_plan]
    exact isUpdated_passes hreplays.plan_ne_nil _
  exact ⟨hupdated, (hw.react entry).camera_eq hupdated⟩

/-- Without a context, a turn and a new size leave the same camera in either order. -/
theorem camera_in_step_swapped :
    ∃ v, Viewer.new none {} false = .ok v ∧
      let sizeLast := (v.after [.setYaw 90, .setSize 0 9]).react (.setSize 16 9)
      let yawLast := (v.after [.setSize 16 9]).react (.setYaw 90)
      sizeLast.config = yawLast.config ∧ sizeLast.camera = yawLast.camera := by
  refine ⟨_, rfl, ?_⟩
  intro sizeLast yawLast
  have hnew : Viewer.new none {} false = .ok _ := rfl
  obtain ⟨-, -, -, -, hsize⟩ := camera_in_step hnew [.setYaw 90, .setSize 0 9]
  obtain ⟨-, -, -, -, hyaw⟩ := camera_in_step hnew [.setSize 16 9]
  have hsizeLast : sizeLast.camera = Camera.ofConfig sizeLast.config :=
    (hsize (.setSize 16 9) ⟨rfl, by decide, by decide⟩).2
  have hyawLast : yawLast.camera = Camera.ofConfig yawLast.config :=
    (hyaw (.setYaw 90) ⟨rfl, trivial⟩).2
  have hconfig : sizeLast.config = yawLast.config := by
    simp [sizeLast, yawLast, after, react_config, plan, ViewerConfig.checkSize]
  exact ⟨hconfig, by rw [hsizeLast, hyawLast, hconfig]⟩

end Viewer

end GlPlayback
