import GlPlayback.Proofs.Interpreter.SecondRun
import GlPlayback.Proofs.Viewer.ViewBlock

/-!
A viewer that replays what it remembers twice. The second replay starts from what the first one
left; it does the same where the commands go by what they said themselves or by what they leave
alone.
-/
namespace GlPlayback

namespace ViewBlock

/-- The camera is written by calls on the side, between two that bind the uniform target. -/
theorem upload_calls (ctx : Context) (buffer : ObjectId) (camera : Camera) (major : MatrixMajor)
    (restore : Option ObjectId) : ∃ calls, upload ctx buffer camera major restore =
      ctx.issueAll calls ∧ ∀ call ∈ calls, call.isAside = true ∨
        ∃ bound, call = .bindBuffer Enumerant.uniformBuffer bound := by
  refine ⟨_, rfl, fun call hcall => ?_⟩
  simp only [List.mem_append, List.mem_singleton, List.mem_map] at hcall
  rcases hcall with (rfl | ⟨write, -, rfl⟩) | rfl
  · exact .inr ⟨_, rfl⟩
  · exact .inl rfl
  · exact .inr ⟨_, rfl⟩

theorem create_calls (ctx : Context) : ∃ calls, (create ctx).2 = ctx.issueAll calls := by
  simp only [create]
  split
  · next made hmade =>
      have hissued : ctx.issue .createBuffer = made := congrArg Prod.snd hmade
      exact ⟨[.createBuffer], hissued.symm⟩
  · next buffer made hmade =>
      have hissued : ctx.issue .createBuffer = made := congrArg Prod.snd hmade
      refine ⟨.createBuffer :: setup buffer, ?_⟩
      rw [← hissued]
      exact (ctx.issueAll_append [.createBuffer] (setup buffer)).symm

end ViewBlock

namespace Viewer

/-- The host puts calls to the context itself, or changes what no command goes by. -/
def Entry.IsOrderly : Entry → Prop
  | changeContext change => ∀ ctx, ∃ calls, (change ctx).objects = (ctx.issueAll calls).objects ∧
      (change ctx).bindings = (ctx.issueAll calls).bindings ∧
      (change ctx).nextId = (ctx.issueAll calls).nextId
  | _ => True

/-- What is known of a viewer whose context is changed by calls only. -/
def Poised (v : Viewer) : Prop :=
  ∀ ctx, v.context = some ctx → Machine.Poised ⟨ctx, v.registry, v.bindings⟩

/-- The replay of what is remembered goes by what its commands say themselves, and by what they leave
alone. -/
def ReplaysSteadily (v : Viewer) : Prop :=
  ∀ m, v.machine? = some m → m.Steady v.payloads (m.Firm v.payloads v.commands) v.commands

instance (v : Viewer) : Decidable v.ReplaysSteadily :=
  match h : v.machine? with
  | none => .isTrue fun _ hm => nomatch h.symm.trans hm
  | some m => decidable_of_iff (m.Steady v.payloads (m.Firm v.payloads v.commands) v.commands)
      ⟨fun hsteady _ hm => Option.some.inj (h.symm.trans hm) ▸ hsteady, fun hsteady => hsteady m h⟩

variable {v : Viewer} {m : Machine}

section Pass

theorem uploadCamera_calls (v : Viewer) : ∃ calls,
    v.uploadCamera.context = v.context.map (fun ctx => ctx.issueAll calls) ∧
      ∀ call ∈ calls, call.isAside = true ∨
        ∃ buffer, call = .bindBuffer Enumerant.uniformBuffer buffer := by
  simp only [uploadCamera]
  split
  · next ctx buffer hcontext _ =>
      obtain ⟨calls, hupload, hcalls⟩ := ViewBlock.upload_calls ctx buffer v.camera.update
        v.config.matrixMajor ((v.bindings.buffers.get? .uniform).bind fun h =>
          (v.registry.object h .buffer).toOption)
      refine ⟨calls, ?_, hcalls⟩
      rw [hcontext, hupload]
      rfl
  · refine ⟨[], ?_, by simp⟩
    cases v.context <;> rfl

/-- The machine of a pass is that of the viewer after the camera was written. -/
theorem machine?_calls (hm : v.machine? = some m) : ∃ ctx calls, v.context = some ctx ∧
    m = ⟨ctx.issueAll calls, v.registry, v.bindings⟩ ∧ ∀ call ∈ calls, call.isAside = true ∨
      ∃ buffer, call = .bindBuffer Enumerant.uniformBuffer buffer := by
  obtain ⟨calls, hupload, hcalls⟩ := v.uploadCamera_calls
  rw [machine?, hupload, Option.map_map] at hm
  obtain ⟨ctx, hcontext, rfl⟩ := Option.map_eq_some_iff.mp hm
  exact ⟨ctx, calls, hcontext, rfl, hcalls⟩

theorem Poised.machine (hv : v.Poised) (hm : v.machine? = some m) : m.Poised := by
  obtain ⟨ctx, calls, hcontext, rfl, -⟩ := machine?_calls hm
  exact (hv ctx hcontext).issueAll calls

/-- What a pass reports, and what it leaves behind. -/
theorem execute_of_some (hm : v.machine? = some m) (p : Pass) :
    let executed := m.execute v.checks p.commands p.payloads
    (v.execute p.commands p.payloads).1 = executed.1 ∧
      (v.pass p).context = some executed.2.context ∧
      (v.pass p).registry = executed.2.registry.takeDirty.2 ∧
      (v.pass p).bindings = executed.2.bindings ∧ (v.pass p).checks = v.checks := by
  intro executed
  obtain ⟨context, hcontext, rfl⟩ := Option.map_eq_some_iff.mp hm
  obtain ⟨camera, context', hupload⟩ := v.uploadCamera_eq
  refine ⟨?_, ?_⟩
  · simp only [execute, hcontext]
    simp only [hupload]
    rfl
  · rw [pass_of_some hm]
    simp only [hupload]
    exact ⟨rfl, rfl, rfl, rfl⟩

theorem Poised.pass (hv : v.Poised) (p : Pass) : (v.pass p).Poised := by
  intro ctx hcontext
  cases hm : v.machine? with
  | none =>
      rw [pass_of_none hm] at hcontext
      cases (Option.map_eq_none_iff.mp hm).symm.trans hcontext
  | some m =>
      obtain ⟨-, hexecuted, hregistry, hbindings, -⟩ := execute_of_some hm p
      cases hexecuted.symm.trans hcontext
      rw [hregistry, hbindings]
      have hran := (hv.machine hm).after ((if v.checks then [.call .getError] else []) ++
        p.commands.map (.command v.checks p.payloads))
      rw [← Machine.execute_after] at hran
      exact hran.react .takeDirty

theorem Poised.passes (hv : v.Poised) (passes : List Pass) :
    (passes.foldl Viewer.pass v).Poised := by
  induction passes generalizing v with
  | nil => exact hv
  | cons p rest ih => exact ih (hv.pass p)

end Pass

section Entries

/-- What comes before the passes of an entry changes the context by calls, or where no command goes
by it. -/
theorem plan_orderly (v : Viewer) {entry : Entry} (hentry : entry.IsOrderly) {ctx' : Context}
    (hcontext : (v.plan entry).1.context = some ctx') : ∃ ctx calls, v.context = some ctx ∧
      ctx'.objects = (ctx.issueAll calls).objects ∧
      ctx'.bindings = (ctx.issueAll calls).bindings ∧
      ctx'.nextId = (ctx.issueAll calls).nextId := by
  have hcases : entry.IsHandsOff ∨ ∃ change, entry = .changeContext change := by
    cases entry with
    | changeContext change => exact .inr ⟨change, rfl⟩
    | _ => exact .inl trivial
  rcases hcases with hhands | ⟨change, rfl⟩
  · obtain ⟨-, hsame, -⟩ := v.plan_leaves hhands
    rw [hsame] at hcontext
    obtain ⟨ctx, hctx, rfl⟩ := Option.map_eq_some_iff.mp hcontext
    exact ⟨ctx, entry.resizes?.toList, hctx, rfl, rfl, rfl⟩
  · obtain ⟨ctx, hctx, rfl⟩ := Option.map_eq_some_iff.mp hcontext
    obtain ⟨calls, hsame⟩ := hentry ctx
    exact ⟨ctx, calls, hctx, hsame⟩

theorem Poised.plan (hv : v.Poised) {entry : Entry} (hentry : entry.IsOrderly) :
    (v.plan entry).1.Poised := by
  intro ctx' hcontext
  obtain ⟨ctx, calls, hctx, hobjects, hbindings, hnext⟩ := v.plan_orderly hentry hcontext
  have hm : Machine.Poised ⟨ctx', v.registry, v.bindings⟩ :=
    ((hv ctx hctx).issueAll calls).congr hobjects hbindings hnext
  rcases v.plan_resources entry with ⟨hregistry, hbound | hbound⟩ |
    ⟨uid, h, hregister, hbound⟩
  · rw [hregistry, hbound]
    exact hm
  · rw [hregistry, hbound]
    exact hm.react .restart
  · have hregistered := hm.react (.register uid)
    simp only [Machine.react, hregister] at hregistered
    rw [hbound]
    exact hregistered

theorem Poised.after (hv : v.Poised) {entries : List Entry}
    (hentries : ∀ entry ∈ entries, entry.IsOrderly) : (v.after entries).Poised := by
  induction entries generalizing v with
  | nil => exact hv
  | cons entry rest ih =>
      obtain ⟨hentry, hrest⟩ := List.forall_mem_cons.mp hentries
      have hreacted : (v.react entry).Poised := by
        rw [react_eq_plan]
        exact (hv.plan hentry).passes _
      exact ih hreacted hrest

theorem new_poised {context : Option Context} {config : ViewerConfig} {checks : Bool}
    (hrooted : ∀ ctx, context = some ctx → ctx.Rooted)
    (hnew : Viewer.new context config checks = .ok v) : v.Poised := by
  have hempty (ctx : Context) (hctx : ctx.Rooted) : Machine.Poised ⟨ctx, {}, {}⟩ :=
    ⟨BindingState.boundIn_empty _, ⟨hctx.numbered, nofun, nofun, nofun⟩, hctx⟩
  obtain ⟨-, rfl⟩ := new_eq_ok hnew
  intro ctx' hcontext
  obtain ⟨ctx, hctx, rfl⟩ := Option.map_eq_some_iff.mp hcontext
  obtain ⟨calls, hcalls⟩ := ViewBlock.create_calls ctx
  apply hempty
  rw [hcalls]
  exact ((hrooted ctx hctx).issueAll calls).exec _

end Entries

section Twice

theorem run_of_desynced (hv : v.desynced = true) : v.run = ({}, v) := by
  simp only [run, hv, if_true]

theorem run_of_synced (hv : v.desynced = false) :
    v.run = ((v.execute v.commands v.payloads).1, v.pass ⟨v.commands, v.payloads⟩) := by
  simp only [run, hv, Bool.false_eq_true, if_false]
  rfl

theorem machine?_isSome (v : Viewer) : v.machine?.isSome = v.context.isSome := by
  obtain ⟨calls, hupload, -⟩ := v.uploadCamera_calls
  rw [machine?, hupload, Option.isSome_map, Option.isSome_map]

/-- Without a context a pass reports nothing and leaves the resources. -/
theorem execute_of_none (hm : v.machine? = none) (p : Pass) :
    (v.execute p.commands p.payloads).1 = {} ∧ (v.pass p).machine? = none ∧
      (v.pass p).registry = v.registry := by
  have hcontext : v.uploadCamera.context = none := Option.map_eq_none_iff.mp hm
  refine ⟨by simp only [execute, hcontext], ?_, ?_⟩
  · rw [pass_of_none hm, ← Option.not_isSome_iff_eq_none, machine?_isSome, hcontext]
    exact Bool.false_ne_true
  · obtain ⟨camera, context, hupload⟩ := v.uploadCamera_eq
    rw [pass_of_none hm, hupload]

/-- The second pass takes over where the first one stopped. -/
theorem pass_resumes (hv : v.Poised) (hm : v.machine? = some m) (p : Pass) {m' : Machine}
    (hm' : (v.pass p).machine? = some m') :
    (m.execute v.checks p.commands p.payloads).2.Resumes m' := by
  obtain ⟨-, hexecuted, hregistry, hbindings, -⟩ := execute_of_some hm p
  obtain ⟨ctx, calls, hcontext, rfl, hcalls⟩ := machine?_calls hm'
  cases hexecuted.symm.trans hcontext
  have hsane := ((hv.pass p) _ hexecuted).rooted.toSane
  generalize (m.execute v.checks p.commands p.payloads).2 = executed at *
  refine ⟨?_, keptByCalls_grows.issueAll _ _, hsane.issueAll calls, ?_⟩
  · rw [hregistry]
    rfl
  · intro cell hloose
    cases cell with
    | context cell => exact hsane.issueAll_kept hcalls hloose
    | program | vertexArray | buffer _ =>
        simp only [Cell.Kept, Cell.Agrees, hbindings]
    | record h =>
        simp only [Cell.Kept, Cell.Agrees, hregistry]
        rfl
    | resource h =>
        simp only [Cell.Kept, Cell.Agrees, hregistry, Option.map_id_apply]
        exact ⟨rfl, rfl⟩

theorem record_takeDirty (r : Registry) (h : Handle) : r.takeDirty.2.record h = r.record h :=
  rfl

/-- A pass that was clean and went by what its commands say themselves or leave alone is clean a
second time, and leaves every record as it did the first time, but for the numbers of locations. -/
theorem pass_again (hv : v.Poised) (hchecks : v.checks = false) (p : Pass)
    (hclean : (v.execute p.commands p.payloads).1.failures = [])
    (hsteady : ∀ m, v.machine? = some m →
      m.Steady p.payloads (m.Firm p.payloads p.commands) p.commands) :
    ((v.pass p).execute p.commands p.payloads).1.failures = [] ∧
      ∀ h, (((v.pass p).pass p).registry.record h).unnumbered =
        ((v.pass p).registry.record h).unnumbered := by
  cases hm : v.machine? with
  | none =>
      obtain ⟨-, hm', -⟩ := execute_of_none hm p
      obtain ⟨hreport, -, hregistry⟩ := execute_of_none hm' p
      rw [hreport, hregistry]
      exact ⟨rfl, fun _ => rfl⟩
  | some m =>
      obtain ⟨hreport, hcontext, hregistry, -, hchecks'⟩ := execute_of_some hm p
      obtain ⟨m', hm'⟩ : ∃ m', (v.pass p).machine? = some m' := by
        apply Option.isSome_iff_exists.mp
        rw [machine?_isSome, hcontext]
        rfl
      obtain ⟨hreport', -, hregistry', -⟩ := execute_of_some hm' p
      have hresumes := pass_resumes hv hm p hm'
      have hbound := ((hv.pass p).machine hm').bound
      rw [hchecks] at hreport hregistry hresumes
      rw [hchecks', hchecks] at hreport' hregistry'
      rw [Machine.execute_machine] at hresumes
      rw [hreport] at hclean
      obtain ⟨hclean', hrecords⟩ :=
        Machine.run_again (hv.machine hm) hbound hresumes (hsteady m hm) hclean
      refine ⟨by rw [hreport', hclean'], fun h => ?_⟩
      rw [hregistry', hregistry, record_takeDirty, record_takeDirty, Machine.execute_machine,
        Machine.execute_machine]
      exact hrecords h

theorem run_again (hv : v.Poised) (hchecks : v.checks = false) (hclean : v.run.1.failures = [])
    (hsteady : v.ReplaysSteadily) :
    v.run.2.run.1.failures = [] ∧ ∀ h, (v.run.2.run.2.registry.record h).unnumbered =
      (v.run.2.registry.record h).unnumbered := by
  cases hdesynced : v.desynced with
  | true =>
      rw [run_of_desynced hdesynced, run_of_desynced hdesynced]
      exact ⟨rfl, fun _ => rfl⟩
  | false =>
      obtain ⟨hcommands, hpayloads, hdesynced'⟩ := v.pass_keeps ⟨v.commands, v.payloads⟩
      have hagain := run_of_synced (hdesynced'.trans hdesynced)
      rw [hcommands, hpayloads] at hagain
      rw [run_of_synced hdesynced] at hclean ⊢
      rw [hagain]
      exact pass_again hv hchecks ⟨v.commands, v.payloads⟩ hclean hsteady

end Twice

end Viewer

end GlPlayback
