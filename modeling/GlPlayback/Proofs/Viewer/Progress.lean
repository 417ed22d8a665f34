import GlPlayback.Proofs.Interpreter.Attribution
import GlPlayback.Proofs.Interpreter.Frame
import GlPlayback.Proofs.Viewer.Mirror
import GlPlayback.Proofs.Viewer.Rejection

/-!
What never goes back while batches are played: the draws that were logged, the records that were
published and the resources that are known. A pass reports on each of its commands once.
-/
namespace GlPlayback

theorem keptByCalls_draws :
    KeptByCalls fun ctx ctx' => ctx.draws.size ≤ ctx'.draws.size where
  refl _ := Nat.le_refl _
  trans := Nat.le_trans
  exec ctx call := by
    rcases ctx.exec_logs call with hdraws | ⟨draw, hdraws⟩
    · exact Nat.le_of_eq (congrArg Array.size hdraws).symm
    · rw [hdraws, Array.size_push]
      exact Nat.le_succ _

namespace Machine

variable {m m' : Machine} (checks : Bool) (payloads : List (List UInt8))

/-- The other machine knows as many resources, and no draw was lost on the way to it. -/
structure Advances (m m' : Machine) : Prop where
  size_eq : m'.registry.size = m.registry.size
  drawn : m.context.draws.size ≤ m'.context.draws.size

theorem Advances.trans {m'' : Machine} (h : m.Advances m') (h' : m'.Advances m'') :
    m.Advances m'' :=
  ⟨h'.size_eq.trans h.size_eq, Nat.le_trans h.drawn h'.drawn⟩

theorem executeCommand_advances (m : Machine) (command : Command) :
    m.Advances (m.executeCommand checks payloads command).2 := by
  constructor
  · rcases m.executeCommand_left checks payloads command with hleft | ⟨op, hresolve, checks', hleft⟩
    · rw [hleft]
    · have hop := (Operation.resolve_heeds (m.surroundings payloads) command).value hresolve
      rw [hleft, (readAway_calls checks' _).registry_eq]
      rcases m.perform_differs hop with hsame | ⟨h, change, -, hwritten⟩
      · rw [hsame]
      · rw [hwritten, Registry.size_write]
  · obtain ⟨calls, hcalls⟩ := m.executeCommand_issues checks payloads command
    rw [hcalls]
    exact keptByCalls_draws.issueAll m.context calls

theorem run_advances (m : Machine) (commands : List Command) :
    m.Advances (m.run checks payloads commands) := by
  induction commands generalizing m with
  | nil => exact ⟨rfl, Nat.le_refl _⟩
  | cons command rest ih => exact (m.executeCommand_advances checks payloads command).trans (ih _)

theorem execute_advances (m : Machine) (commands : List Command) :
    m.Advances (m.execute checks commands payloads).2 := by
  have hopened : m.Advances (m.readAway checks) :=
    ⟨by rw [(readAway_calls checks m).registry_eq],
      Nat.le_of_eq (congrArg Array.size (readAway_draws checks m)).symm⟩
  rw [execute_machine]
  exact hopened.trans (run_advances checks payloads _ commands)

end Machine

namespace Viewer

variable {v w : Viewer} {batch : Batch} {payloads : List (List UInt8)} {report : Report}

/-- The other viewer takes part like this one and knows as many resources. It has logged and
published all that this one has, and possibly more. -/
structure Advances (v w : Viewer) : Prop where
  degraded_eq : w.isDegraded = v.isDegraded
  size_eq : w.registry.size = v.registry.size
  drawn : v.context.elim 0 (·.draws.size) ≤ w.context.elim 0 (·.draws.size)
  told : v.journal.entries <+: w.journal.entries

theorem Advances.refl (v : Viewer) : v.Advances v :=
  ⟨rfl, rfl, Nat.le_refl _, List.prefix_rfl⟩

theorem Advances.trans {u : Viewer} (h : u.Advances v) (h' : v.Advances w) : u.Advances w where
  degraded_eq := h'.degraded_eq.trans h.degraded_eq
  size_eq := h'.size_eq.trans h.size_eq
  drawn := Nat.le_trans h.drawn h'.drawn
  told := h.told.trans h'.told

theorem publish_prefix (registry : Registry) (handles : List Handle) (j : Journal) :
    j.entries <+: (handles.foldl (publish registry) j).entries := by
  induction handles generalizing j with
  | nil => exact List.prefix_rfl
  | cons h rest ih =>
      have hfirst : j.entries <+: (publish registry j h).entries := by
        simp only [publish]
        split
        · exact List.prefix_append _ _
        · exact List.prefix_rfl
      exact hfirst.trans (ih _)

theorem publishDirty_advances (v : Viewer) : v.Advances v.publishDirty where
  degraded_eq := rfl
  size_eq := rfl
  drawn := Nat.le_refl _
  told := publish_prefix _ _ _

theorem uploadCamera_advances (v : Viewer) : v.Advances v.uploadCamera := by
  simp only [uploadCamera]
  split
  · next ctx buffer hctx hbuffer =>
      refine ⟨?_, rfl, ?_, List.prefix_rfl⟩
      · simp only [isDegraded, show v.context = some ctx from hctx, Option.isNone_some]
      · simp only [show v.context = some ctx from hctx, Option.elim_some]
        exact keptByCalls_draws.issueAll ctx _
  · exact ⟨rfl, rfl, Nat.le_refl _, List.prefix_rfl⟩

theorem pass_advances (v : Viewer) (p : Pass) : v.Advances (v.pass p) := by
  have hupload := v.uploadCamera_advances
  simp only [pass, execute]
  split
  · exact hupload
  · next ctx hctx =>
      refine hupload.trans (Advances.trans ?_ (publishDirty_advances _))
      have hrun := Machine.execute_advances v.uploadCamera.checks p.payloads
        ⟨ctx, v.uploadCamera.registry, v.uploadCamera.bindings⟩ p.commands
      refine ⟨?_, hrun.size_eq, ?_, List.prefix_rfl⟩
      · simp only [isDegraded, hctx, Option.isNone_some]
      · simp only [hctx, Option.elim_some]
        exact hrun.drawn

theorem passes_advances (v : Viewer) (passes : List Pass) : v.Advances (passes.foldl pass v) := by
  induction passes generalizing v with
  | nil => exact .refl v
  | cons p rest ih => exact (v.pass_advances p).trans (ih _)

theorem receive_advances (v : Viewer) (batch : Batch) (payloads : List (List UInt8)) :
    v.Advances (v.receive batch payloads).2 := by
  have hplan : v.Advances (v.plan (.receive batch payloads)).1 := by
    simp only [plan]
    split
    · exact .refl v
    · cases batch.commands.forM (checkPayload payloads) with
      | error e => exact .refl v
      | ok _ =>
          simp only [clearFor]
          split <;> split <;> exact ⟨rfl, rfl, Nat.le_refl _, List.prefix_rfl⟩
  have hreact := v.react_eq_plan (.receive batch payloads)
  rw [react] at hreact
  rw [hreact]
  exact hplan.trans (passes_advances _ _)

/-- A pass of a viewer that takes part reports on every command once. -/
theorem execute_counts (hv : v.isDegraded = false) (commands : List Command)
    (payloads : List (List UInt8)) :
    (v.execute commands payloads).1.executed +
      (v.execute commands payloads).1.failures.length = commands.length := by
  have hupload : v.uploadCamera.isDegraded = false := v.uploadCamera_advances.degraded_eq.trans hv
  simp only [execute]
  split
  · next hctx => simp [isDegraded, hctx] at hupload
  · exact Machine.executed_add_failures commands 0 _

theorem run_counts (hv : v.isDegraded = false) :
    v.run.1.executed + v.run.1.failures.length = v.commands.length := by
  have hsynced : v.desynced = false := (Bool.or_eq_false_iff.mp hv).2
  simp only [run, hsynced, Bool.false_eq_true, if_false]
  exact execute_counts hv v.commands v.payloads

end Viewer

/-- How many commands are remembered once a batch was taken, if there were `n` before. -/
def Batch.remembers (batch : Batch) (n : Nat) : Nat :=
  (if batch.clear then 0 else n) + if batch.onlyOnce then 0 else batch.commands.length

namespace Viewer

variable {v w : Viewer} {batch : Batch} {payloads : List (List UInt8)} {report : Report}

/-- A batch that is accepted is reported on together with all that is remembered by then. -/
theorem receive_counts (hv : v.isDegraded = false)
    (hreport : v.receive batch payloads = (.ok report, w)) :
    w.commands.length = batch.remembers v.commands.length ∧
    report.executed + report.failures.length =
      w.commands.length + if batch.onlyOnce then batch.commands.length else 0 := by
  have hcheck := checked_of_receive hv (congrArg Prod.fst hreport)
  rw [receive_of_sound hv hcheck] at hreport
  have hcleared : (v.clearFor batch).isDegraded = false := by
    rw [← hv, clearFor]
    split <;> rfl
  have hlength : (v.clearFor batch).commands.length =
      if batch.clear then 0 else v.commands.length := by
    rw [clearFor]
    split <;> rfl
  cases honce : batch.onlyOnce with
  | true =>
      simp only [honce, if_true, Prod.mk.injEq, Except.ok.injEq] at hreport
      obtain ⟨rfl, rfl⟩ := hreport
      let own : Pass := ⟨batch.commands, payloads⟩
      have hpassed : ((v.clearFor batch).pass own).isDegraded = false :=
        ((v.clearFor batch).pass_advances own).degraded_eq.trans hcleared
      have hfirst := execute_counts hcleared batch.commands payloads
      have hsecond := run_counts hpassed
      have hpass := congrArg List.length ((v.clearFor batch).pass_keeps own).1
      have hrun := congrArg List.length ((v.clearFor batch).pass own).run_keeps.1
      simp only [pass, own] at hsecond hpass hrun
      simp only [Report.merge, List.length_append, Batch.remembers, honce, if_true, hrun, hpass,
        ← hlength] at hsecond ⊢
      omega
  | false =>
      simp only [honce, Bool.false_eq_true, if_false, Prod.mk.injEq, Except.ok.injEq] at hreport
      obtain ⟨rfl, rfl⟩ := hreport
      have hremembered : ((v.clearFor batch).remember batch payloads).isDegraded = false := hcleared
      have hcounted := run_counts hremembered
      have hrun := congrArg List.length
        ((v.clearFor batch).remember batch payloads).run_keeps.1
      refine ⟨?_, by simpa [hrun] using hcounted⟩
      rw [hrun]
      simp [remember, Batch.remembers, honce, hlength]

end Viewer

end GlPlayback
