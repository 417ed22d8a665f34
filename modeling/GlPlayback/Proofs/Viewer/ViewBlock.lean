import GlPlayback.Proofs.Interpreter.Sparing
import GlPlayback.Proofs.Viewer.Mirror
import GlPlayback.Proofs.Viewer.Persistence
import GlPlayback.Proofs.Viewer.Upload

/-!
The view block throughout the life of a viewer. Each pass first writes the camera to the block's
buffer and takes it off the uniform target; the commands of the pass cannot reach it then.
-/
namespace GlPlayback

namespace Viewer

variable {v : Viewer} {kinds : Int → ResourceKind} {block : ObjectId}

/-- The commands that an entry brings. -/
def Entry.commands : Entry → List Command
  | receive batch _ => batch.commands
  | _ => []

/-- No resource is created as one kind by one command and as another kind by another. -/
def OfOneKind (commands : List Command) : Prop :=
  ∀ c ∈ commands, ∀ c' ∈ commands, ∀ x ∈ c.creates?, ∀ x' ∈ c'.creates?, x.1 = x'.1 → x.2 = x'.2

/-- The entry is one after which the remembered commands have run again. -/
def Replays (v : Viewer) (entry : Entry) : Prop :=
  v.desynced = false ∧
  match entry with
  | .receive _ _ => (v.accepted? entry).isSome
  | .setSize width height => width ≠ 0 ∧ height ≠ 0
  | .run | .setPosition _ | .setYaw _ | .setPitch _ | .setMatrixMajor _ | .frame => True
  | _ => False

/-- No command of a pass changes the bytes of a buffer. -/
def Leaves (v : Viewer) (p : Pass) (block : ObjectId) : Prop :=
  ∃ m, v.machine? = some m ∧ ∀ before command rest, p.commands = before ++ command :: rest →
    (m.execute v.checks (before ++ [command]) p.payloads).2.context.store? block =
      (m.execute v.checks before p.payloads).2.context.store? block

/-- A buffer holds the matrices of the camera and nothing else, the rows of each first if shaders
read rows first. -/
def Shows (v : Viewer) (block : ObjectId) : Prop :=
  ∃ ctx bytes, v.context = some ctx ∧ ctx.store? block = some bytes ∧ bytes.length = 256 ∧
    ∀ matrix start, (matrix, start) ∈ [(v.camera.camera, 0), (v.camera.view, 64),
        (v.camera.projection, 128), (v.camera.viewProjection, 192)] →
      (bytes.drop start).take 64 = Camera.singleBytes
        ((if v.config.matrixMajor = .row then matrix.transpose else matrix).toList.map
          Single.ofDouble)

/-- What goes with each number: what the first command makes of it that creates such a resource. -/
def kindsOf (commands : List Command) (raw : Int) : ResourceKind :=
  (commands.findSome? fun c => (c.creates?.filter (·.1 = raw)).map (·.2)).getD .buffer

theorem OfOneKind.follows {commands : List Command} (h : OfOneKind commands) {c : Command}
    (hc : c ∈ commands) : c.Follows (kindsOf commands) := by
  intro raw kind hcreates
  have hown : (c.creates?.filter (·.1 = raw)).map (·.2) = some kind := by
    simp [hcreates]
  obtain ⟨found, hfound⟩ : ∃ found, (commands.findSome? fun c =>
      (c.creates?.filter (·.1 = raw)).map (·.2)) = some found :=
    Option.isSome_iff_exists.mp (List.findSome?_isSome_iff.mpr ⟨c, hc, by simp [hown]⟩)
  obtain ⟨c', hc', hother⟩ := List.exists_of_findSome?_eq_some hfound
  obtain ⟨⟨raw', kind'⟩, hfiltered, rfl⟩ := Option.map_eq_some_iff.mp hother
  obtain ⟨hcreates', hraw⟩ := Option.filter_eq_some_iff.mp hfiltered
  rw [kindsOf, hfound]
  exact h c hc c' hc' _ hcreates _ hcreates' (of_decide_eq_true hraw).symm

/-- The buffer of the view block is kept apart. It has the size of the four matrices, and at most
the uniform target has it bound. -/
structure Held (kinds : Int → ResourceKind) (m : Machine) (block : ObjectId) : Prop where
  reserves : m.Reserves kinds block
  within : m.context.BoundWithin block [Enumerant.uniformBuffer]
  store : ∃ data, m.context.store? block = some data ∧ data.length = ViewBlock.size

theorem Held.viewport {m : Machine} (hm : Held kinds m block) (width height : UInt32) :
    Held kinds (m.issue (viewport width height)) block := by
  generalize hcall : Viewer.viewport width height = call
  have htouches : call.touches = [.fixed] := hcall ▸ rfl
  obtain ⟨data, hstore, hlength⟩ := hm.store
  refine ⟨hm.reserves.calls (m.issue_calls call), ?_, data, ?_, hlength⟩
  · refine hm.within.exec (by decide) fun target hbinds => ?_
    have hmem := hbinds.touches
    rw [htouches] at hmem
    cases List.mem_singleton.mp hmem
  · refine (congrFun (Context.store?_of_part ?_) block).trans hstore
    exact Context.exec_part (by rw [htouches]; decide) (by decide)

/-- A viewer keeps the buffer of its view block apart from what its commands are about. -/
structure Guards (kinds : Int → ResourceKind) (v : Viewer) (block : ObjectId) : Prop where
  block_eq : v.viewBlock = some block
  held : ∃ ctx, v.context = some ctx ∧ Held kinds ⟨ctx, v.registry, v.bindings⟩ block
  follows : ∀ c ∈ v.commands, c.Follows kinds

theorem new_guards {width height : UInt32} {config : ViewerConfig} {checks : Bool}
    (hnew : Viewer.new (some (Context.new width height)) config checks = .ok v)
    (kinds : Int → ResourceKind) : v.Guards kinds 1 := by
  obtain ⟨-, rfl⟩ := new_eq_ok hnew
  obtain ⟨hnumbered, hhas, hbound, hstore⟩ := ViewBlock.create_new width height
  have hmade : Held kinds { context := (ViewBlock.create (Context.new width height)).2 } 1 :=
    ⟨Machine.reserves_empty hnumbered hhas, hbound, _, hstore, List.length_replicate⟩
  exact ⟨rfl, ⟨_, rfl, hmade.viewport config.width config.height⟩, List.forall_mem_nil _⟩

/-- The machine of a pass, before its commands: the camera is written, and the buffer is bound
nowhere. -/
theorem Guards.machine? (hv : v.Guards kinds block) : ∃ m, v.machine? = some m ∧
    m.Reserves kinds block ∧ m.context.Unbound block ∧ m.context.store? block =
      some (v.uploadCamera.camera.blockBytes v.config.matrixMajor) := by
  obtain ⟨hblock, ⟨ctx, hcontext, hm, hbound, data, hstore, hlength⟩, -⟩ := hv
  generalize hrestored : ((v.bindings.buffers.get? .uniform).bind fun h =>
    (v.registry.object h .buffer).toOption) = restore
  have hupload : v.uploadCamera = { v with
      camera := v.camera.update
      context := some (ViewBlock.upload ctx block v.camera.update v.config.matrixMajor
        restore) } := by
    simp only [uploadCamera, hcontext, hblock, hrestored]
  have hrestore (id : ObjectId) (hid : restore = some id) :
      ∃ h, v.registry.object h .buffer = .ok id := by
    obtain ⟨h, -, hobject⟩ := Option.bind_eq_some_iff.mp (hrestored.trans hid)
    refine ⟨h, ?_⟩
    cases hok : v.registry.object h .buffer with
    | ok other =>
        rw [hok] at hobject
        exact congrArg Except.ok (Option.some.inj hobject)
    | error e =>
        rw [hok] at hobject
        cases hobject
  have hhas (id : ObjectId) (hid : restore = some id) : ctx.objects.Has .buffer id := by
    obtain ⟨h, hobject⟩ := hrestore id hid
    exact hm.sound.has (Registry.what?_of_buffer hobject) (Registry.objectOf?_of_object hobject)
  have hother : restore ≠ some block := by
    intro hid
    obtain ⟨h, hobject⟩ := hrestore block hid
    exact hm.aside h (Registry.objectOf?_of_object hobject)
  obtain ⟨hfree, hbytes⟩ := ViewBlock.upload_spec v.config.matrixMajor hm.sound.accounted.numbered
    hm.has hbound hstore hlength v.camera.update hhas hother
  refine ⟨⟨ViewBlock.upload ctx block v.camera.update v.config.matrixMajor restore, v.registry,
    v.bindings⟩, ?_, hm.calls ⟨ViewBlock.upload_grows _ _ _ _, rfl, rfl⟩, hfree, ?_⟩
  · rw [Viewer.machine?, hupload]
    rfl
  · rw [hupload]
    exact hbytes

/-- Which bytes of the block belong to which matrix. -/
theorem shows_of_blockBytes {ctx : Context} (hcontext : v.context = some ctx)
    (hstore : ctx.store? block = some (v.camera.blockBytes v.config.matrixMajor)) :
    v.Shows block := by
  have hlength := Camera.length_matrixBytes v.config.matrixMajor
  refine ⟨ctx, _, hcontext, hstore, v.camera.length_blockBytes v.config.matrixMajor, ?_⟩
  intro matrix start hmem
  have hpiece : (((v.camera.blockBytes v.config.matrixMajor).drop start).take 64) =
      Camera.matrixBytes v.config.matrixMajor matrix := by
    rw [Camera.blockBytes_eq]
    simp only [List.mem_cons, Prod.mk.injEq, List.not_mem_nil, or_false] at hmem
    rcases hmem with ⟨rfl, rfl⟩ | ⟨rfl, rfl⟩ | ⟨rfl, rfl⟩ | ⟨rfl, rfl⟩ <;>
      simp [List.drop_append, List.drop_eq_nil_of_le,
        List.take_of_length_le, hlength]
  rw [hpiece]
  generalize v.config.matrixMajor = major
  cases major <;> rfl

theorem Guards.pass (hv : v.Guards kinds block) {p : Pass}
    (hp : ∀ c ∈ p.commands, c.Follows kinds) :
    (v.pass p).Guards kinds block ∧ v.Leaves p block ∧ (v.pass p).Shows block := by
  obtain ⟨m, hm, hreserves, hfree, hstore⟩ := hv.machine?
  have hopened := hreserves.readAway hfree v.checks
  have hran {commands : List Command} (hcommands : ∀ c ∈ commands, c.Follows kinds) :
      m.Spares kinds block (m.execute v.checks commands p.payloads).2 := by
    have hrun := hopened.reserves.run hopened.unbound v.checks p.payloads hcommands
    rw [Machine.execute_machine]
    exact ⟨hrun.reserves, hrun.unbound, hrun.store_eq.trans hopened.store_eq⟩
  have hpass := pass_of_some hm p
  have hend := hran hp
  obtain ⟨camera, context, hupload⟩ := v.uploadCamera_eq
  rw [hupload] at hpass hstore
  have hstore' := hend.store_eq.trans hstore
  refine ⟨⟨?_, ?_, ?_⟩, ⟨m, hm, ?_⟩, ?_⟩
  · rw [hpass]
    exact hv.block_eq
  · rw [hpass]
    exact ⟨_, rfl, hend.reserves.takeDirty, hend.unbound.mono (List.nil_subset _), _, hstore',
      Camera.length_blockBytes _ _⟩
  · rw [(v.pass_keeps p).1]
    exact hv.follows
  · intro before command rest hsplit
    have hprefix : ∀ c ∈ before ++ [command], c.Follows kinds := fun c hc =>
      hp c (by rw [hsplit, List.append_cons]; exact List.mem_append_left rest hc)
    have hbefore := hran fun c hc => hprefix c (List.mem_append_left [command] hc)
    exact (hran hprefix).store_eq.trans hbefore.store_eq.symm
  · rw [hpass]
    exact shows_of_blockBytes rfl hstore'

theorem Guards.passes (hv : v.Guards kinds block) {passes : List Pass}
    (hpasses : ∀ p ∈ passes, ∀ c ∈ p.commands, c.Follows kinds) :
    (passes.foldl Viewer.pass v).Guards kinds block ∧
      (passes ≠ [] → (passes.foldl Viewer.pass v).Shows block) := by
  induction passes generalizing v with
  | nil => exact ⟨hv, fun hne => absurd rfl hne⟩
  | cons p rest ih =>
      obtain ⟨hfirst, hrest⟩ := List.forall_mem_cons.mp hpasses
      obtain ⟨hguards, -, hshows⟩ := hv.pass hfirst
      obtain ⟨hlater, hlast⟩ := ih hguards hrest
      refine ⟨hlater, fun _ => ?_⟩
      cases rest with
      | nil => exact hshows
      | cons next later => exact hlast (List.cons_ne_nil next later)

section Plan

variable (v) {entry : Entry}

theorem plan_context (hentry : entry.IsHandsOff) : (v.plan entry).1.viewBlock = v.viewBlock ∧
    ((v.plan entry).1.context = v.context ∨ ∃ width height,
      (v.plan entry).1.context = v.context.map (·.issue (viewport width height))) := by
  obtain ⟨hblock, hcontext, -⟩ := v.plan_leaves hentry
  refine ⟨hblock, ?_⟩
  rw [hcontext]
  cases hresizes : entry.resizes? with
  | none =>
      left
      cases v.context <;> rfl
  | some call =>
      obtain ⟨width, height, rfl⟩ := resizes?_eq_some hresizes
      exact .inr ⟨width, height, rfl⟩

/-- A pass runs the remembered commands or those of the entry. -/
theorem commands_of_mem_plan {p : Pass} (hp : p ∈ (v.plan entry).2) :
    p.commands = (v.plan entry).1.commands ∨ p.commands = entry.commands := by
  have hreplays {w : Viewer} (hp : p ∈ w.replays) : p.commands = w.commands := by
    simp only [replays] at hp
    split at hp
    · cases hp
    · cases List.mem_singleton.mp hp
      rfl
  cases entry with
  | receive batch payloads =>
      revert hp
      simp only [plan]
      split
      · exact fun hp => absurd hp List.not_mem_nil
      · split
        · exact fun hp => absurd hp List.not_mem_nil
        · split
          · intro hp
            rcases List.mem_cons.mp hp with rfl | hlater
            · exact .inr rfl
            · exact .inl (hreplays hlater)
          · exact fun hp => .inl (hreplays hp)
  | setSize width height =>
      revert hp
      simp only [plan]
      split
      · exact fun hp => absurd hp List.not_mem_nil
      · exact fun hp => .inl (hreplays hp)
  | frame =>
      revert hp
      simp only [plan]
      split <;> exact fun hp => .inl (hreplays hp)
  | run | setPosition _ | setYaw _ | setPitch _ | setMatrixMajor _ => exact .inl (hreplays hp)
  | withChecks _ | register _ | setMouseSpeed _ | setMoveSpeed _ | setMoveKeys _ | mouseDown
  | mouseUp | mouseOut | mouseMove _ _ | keyDown _ _ | keyUp _ | requestRedraw
  | changeContext _ => cases hp

/-- What comes before the passes of an entry changes the resources at most by a registration, and
what is bound at most by forgetting it. -/
theorem plan_resources (entry : Entry) :
    ((v.plan entry).1.registry = v.registry ∧
      ((v.plan entry).1.bindings = v.bindings ∨ (v.plan entry).1.bindings = {})) ∨
    ∃ uid h, v.registry.register uid = .ok (h, (v.plan entry).1.registry) ∧
      (v.plan entry).1.bindings = v.bindings := by
  cases hquiet : entry.isQuiet with
  | true =>
      obtain ⟨hregistry, hbindings, -, -, -⟩ := v.plan_agrees hquiet
      exact .inl ⟨hregistry, .inl hbindings⟩
  | false =>
      cases entry with
      | withChecks checks => exact .inl ⟨rfl, .inr rfl⟩
      | register uid =>
          simp only [plan, react, register]
          split
          · exact .inl ⟨rfl, .inl rfl⟩
          · split
            · next h registry hregister => exact .inr ⟨uid, h, hregister, rfl⟩
            · exact .inl ⟨rfl, .inl rfl⟩
      | receive batch payloads =>
          simp only [plan]
          split
          · exact .inl ⟨rfl, .inl rfl⟩
          · split
            · exact .inl ⟨rfl, .inl rfl⟩
            · simp only [clearFor]
              split <;> split <;> exact .inl ⟨rfl, .inl rfl⟩
      | _ => cases hquiet

theorem plan_follows (hv : ∀ c ∈ v.commands, c.Follows kinds)
    (hcommands : ∀ c ∈ entry.commands, c.Follows kinds) :
    ∀ c ∈ (v.plan entry).1.commands, c.Follows kinds := by
  cases hquiet : entry.isQuiet with
  | true =>
      obtain ⟨-, -, -, hsame, -⟩ := v.plan_agrees hquiet
      rwa [hsame]
  | false =>
      cases entry with
      | withChecks checks => exact hv
      | register uid =>
          simp only [plan, react, register]
          split
          · exact hv
          · split <;> exact hv
      | receive batch payloads =>
          have hcleared : ∀ c ∈ (v.clearFor batch).commands, c.Follows kinds := by
            simp only [clearFor]
            split
            · exact List.forall_mem_nil _
            · exact hv
          simp only [plan]
          split
          · exact hv
          · split
            · exact hv
            · split
              · exact hcleared
              · intro c hc
                rcases List.mem_append.mp hc with hold | hnew
                · exact hcleared c hold
                · -- Rebasing a command leaves what it does.
                  obtain ⟨own, hown, rfl⟩ := List.mem_map.mp hnew
                  exact hcommands own hown
      | _ => cases hquiet

end Plan

theorem Guards.plan (hv : v.Guards kinds block) {entry : Entry} (hentry : entry.IsHandsOff)
    (hcommands : ∀ c ∈ entry.commands, c.Follows kinds) :
    (v.plan entry).1.Guards kinds block ∧
      ∀ p ∈ (v.plan entry).2, ∀ c ∈ p.commands, c.Follows kinds := by
  obtain ⟨hblock, ⟨ctx, hcontext, hheld⟩, hfollows⟩ := hv
  obtain ⟨hsame, hviewport⟩ := v.plan_context hentry
  have hplanned := v.plan_follows hfollows hcommands
  have hshown : ∃ ctx', (v.plan entry).1.context = some ctx' ∧
      Held kinds ⟨ctx', v.registry, v.bindings⟩ block := by
    rcases hviewport with hkept | ⟨width, height, hissued⟩
    · exact ⟨ctx, hkept.trans hcontext, hheld⟩
    · rw [hcontext] at hissued
      exact ⟨_, hissued, hheld.viewport width height⟩
  obtain ⟨ctx', hcontext', hheld', hwithin, hstore⟩ := hshown
  refine ⟨⟨hsame.trans hblock, ⟨ctx', hcontext', ?_, hwithin, hstore⟩, hplanned⟩, ?_⟩
  · rcases v.plan_resources entry with ⟨hregistry, hbindings | hbindings⟩ |
      ⟨uid, h, hregister, hbindings⟩
    · rw [hregistry, hbindings]
      exact hheld'
    · rw [hregistry, hbindings]
      exact hheld'.restart
    · rw [hbindings]
      exact hheld'.register hregister
  · intro p hp c hc
    rcases v.commands_of_mem_plan hp with hold | hnew
    · exact hplanned c (hold ▸ hc)
    · exact hcommands c (hnew ▸ hc)

theorem Guards.react (hv : v.Guards kinds block) {entry : Entry} (hentry : entry.IsHandsOff)
    (hcommands : ∀ c ∈ entry.commands, c.Follows kinds) : (v.react entry).Guards kinds block := by
  obtain ⟨hplanned, hpasses⟩ := hv.plan hentry hcommands
  rw [react_eq_plan]
  exact (hplanned.passes hpasses).1

theorem Guards.after (hv : v.Guards kinds block) {entries : List Entry}
    (hentries : ∀ entry ∈ entries, entry.IsHandsOff)
    (hcommands : ∀ c ∈ entries.flatMap Entry.commands, c.Follows kinds) :
    (v.after entries).Guards kinds block := by
  induction entries generalizing v with
  | nil => exact hv
  | cons entry rest ih =>
      obtain ⟨hentry, hrest⟩ := List.forall_mem_cons.mp hentries
      rw [List.flatMap_cons] at hcommands
      obtain ⟨hown, hlater⟩ := List.forall_mem_append.mp hcommands
      exact ih (hv.react hentry hown) hrest hlater

theorem accepted?_isSome_iff {batch : Batch} {payloads : List (List UInt8)} :
    (v.accepted? (.receive batch payloads)).isSome ↔
      v.isDegraded = false ∧ batch.commands.forM (checkPayload payloads) = .ok () := by
  simp only [accepted?, receive]
  cases v.isDegraded with
  | true => simp
  | false =>
      cases batch.commands.forM (checkPayload payloads) with
      | error e => simp
      | ok _ => cases batch.onlyOnce <;> simp

/-- An entry that replays has a pass. -/
theorem Replays.plan_ne_nil {entry : Entry} (h : v.Replays entry) : (v.plan entry).2 ≠ [] := by
  obtain ⟨hdesynced, hentry⟩ := h
  have hreplays {w : Viewer} (hw : w.desynced = v.desynced) : w.replays ≠ [] := by
    rw [replays, hw, hdesynced]
    exact List.cons_ne_nil _ _
  cases entry with
  | receive batch payloads =>
      obtain ⟨hdegraded, hcheck⟩ := accepted?_isSome_iff.mp hentry
      have hcleared : (v.clearFor batch).desynced = v.desynced := by
        simp only [clearFor]
        split <;> rfl
      simp only [Viewer.plan, hdegraded, hcheck, Bool.false_eq_true, if_false]
      split
      · exact List.cons_ne_nil _ _
      · exact hreplays hcleared
  | setSize width height =>
      have hsize : ViewerConfig.checkSize width height = .ok () :=
        if_neg (not_or.mpr hentry)
      simp only [Viewer.plan, hsize]
      exact hreplays rfl
  | frame =>
      simp only [Viewer.plan]
      split <;> exact hreplays rfl
  | run | setPosition _ | setYaw _ | setPitch _ | setMatrixMajor _ => exact hreplays rfl
  | withChecks _ | register _ | setMouseSpeed _ | setMoveSpeed _ | setMoveKeys _ | mouseDown
  | mouseUp | mouseOut | mouseMove _ _ | keyDown _ _ | keyUp _ | requestRedraw
  | changeContext _ => exact hentry.elim

end Viewer

end GlPlayback
