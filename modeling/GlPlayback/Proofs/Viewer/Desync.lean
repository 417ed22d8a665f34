import GlPlayback.Proofs.Gl.Footprint
import GlPlayback.Proofs.Interpreter.Conversation
import GlPlayback.Proofs.Viewer.Entries

/-!
A viewer whose registry is out of order. It registers nothing and takes no batch any more, and no
entry brings a pass about; what is left of a new size is the call for its viewport.
-/
namespace GlPlayback

namespace Viewer

namespace Entry

/-- Entries of the host, who neither chooses the checks anew nor changes the context itself. -/
def IsHosts : Entry → Prop
  | withChecks _ | changeContext _ => False
  | _ => True

theorem IsHosts.isHandsOff {entry : Entry} (hentry : entry.IsHosts) : entry.IsHandsOff := by
  cases entry with
  | changeContext _ => exact hentry
  | _ => trivial

end Entry

/-- The other viewer is out of order as well. It agrees with this one, and its context was given
these calls only. -/
structure Idles (v : Viewer) (calls : List Call) (w : Viewer) : Prop where
  agrees : v.Agrees w
  desynced : w.desynced = true
  context_eq : w.context = v.context.map fun ctx => ctx.issueAll calls

variable {v w : Viewer} {entry : Entry} {calls : List Call}

theorem Idles.refl (hv : v.desynced = true) : v.Idles [] v :=
  ⟨.refl v, hv, by cases v.context <;> rfl⟩

theorem Agrees.trans {u : Viewer} (h : u.Agrees v) (h' : v.Agrees w) : u.Agrees w where
  registry_eq := h'.registry_eq.trans h.registry_eq
  bindings_eq := h'.bindings_eq.trans h.bindings_eq
  journal_eq := h'.journal_eq.trans h.journal_eq
  commands_eq := h'.commands_eq.trans h.commands_eq
  payloads_eq := h'.payloads_eq.trans h.payloads_eq

theorem Idles.trans {u : Viewer} {more : List Call} (h : u.Idles calls v) (h' : v.Idles more w) :
    u.Idles (calls ++ more) w where
  agrees := h.agrees.trans h'.agrees
  desynced := h'.desynced
  context_eq := by
    rw [h'.context_eq, h.context_eq, Option.map_map]
    refine congrArg (u.context.map ·) (funext fun ctx => ?_)
    exact (ctx.issueAll_append calls more).symm

section Desynced

variable (hv : v.desynced = true)
include hv

theorem register_of_desynced (uid : Nat) : v.register uid = (.error .outOfSync, v) := by
  simp only [register, hv, if_true]

theorem receive_of_desynced (batch : Batch) (payloads : List (List UInt8)) :
    v.receive batch payloads = (.ok {}, v) := by
  have hdegraded : v.isDegraded = true := by rw [isDegraded, hv, Bool.or_true]
  simp only [receive, hdegraded, if_true]

theorem replays_of_desynced : v.replays = [] := by
  simp only [replays, hv, if_true]

end Desynced

/-- A quiet entry replays what is remembered, if anything. -/
theorem plan_replays (v : Viewer) (hquiet : entry.isQuiet = true) :
    (v.plan entry).2 = [] ∨ (v.plan entry).2 = (v.plan entry).1.replays := by
  cases entry with
  | withChecks _ | register _ | receive _ _ => cases hquiet
  | setSize width height =>
      simp only [plan]
      cases ViewerConfig.checkSize width height with
      | error e => exact .inl rfl
      | ok _ => exact .inr rfl
  | frame =>
      simp only [plan]
      split <;> exact .inr rfl
  | run | setPosition _ | setYaw _ | setPitch _ | setMatrixMajor _ => exact .inr rfl
  | setMouseSpeed _ | setMoveSpeed _ | setMoveKeys _ | mouseDown | mouseUp | mouseOut
  | mouseMove _ _ | keyDown _ _ | keyUp _ | requestRedraw | changeContext _ => exact .inl rfl

theorem react_idles (hv : v.desynced = true) (hentry : entry.IsHosts) :
    v.Idles entry.resizes?.toList (v.react entry) := by
  cases hquiet : entry.isQuiet with
  | false =>
      cases entry with
      | withChecks _ => exact hentry.elim
      | register uid =>
          rw [react, register_of_desynced hv]
          exact .refl hv
      | receive batch payloads =>
          rw [react, receive_of_desynced hv]
          exact .refl hv
      | _ => cases hquiet
  | true =>
      obtain ⟨-, hcontext, hdesynced⟩ := v.plan_leaves hentry.isHandsOff
      have hleft : (v.plan entry).1.desynced = true := (hdesynced hquiet).trans hv
      have hpasses : (v.plan entry).2 = [] := by
        rcases v.plan_replays hquiet with hnone | hreplays
        · exact hnone
        · rw [hreplays, replays_of_desynced hleft]
      rw [react_eq_plan, hpasses]
      exact ⟨v.plan_agrees hquiet, hleft, hcontext⟩

theorem after_idles (hv : v.desynced = true) (entries : List Entry)
    (hentries : ∀ entry ∈ entries, entry.IsHosts) :
    v.Idles (entries.filterMap Entry.resizes?) (v.after entries) := by
  induction entries generalizing v with
  | nil => exact .refl hv
  | cons entry rest ih =>
      obtain ⟨hfirst, hrest⟩ := List.forall_mem_cons.mp hentries
      have hstep := react_idles hv hfirst
      have hlater := hstep.trans (ih hstep.desynced hrest)
      cases hresizes : entry.resizes? with
      | none =>
          rw [hresizes] at hlater
          rw [List.filterMap_cons_none hresizes]
          exact hlater
      | some call =>
          rw [hresizes] at hlater
          rw [List.filterMap_cons_some hresizes]
          exact hlater

theorem callCount_viewport (ctx : Context) (width height : UInt32) :
    (ctx.issue (viewport width height)).callCount "viewport" = ctx.callCount "viewport" + 1 := by
  let counts (ctx' : Context) : Prop := ctx'.callCount "viewport" = ctx.callCount "viewport" + 1
  have hcounted : counts (ctx.countCall "viewport") := by
    simp only [counts, Context.callCount, Context.countCall, Table.get?_insert, if_true,
      Option.getD_some]
  have hviewport (area : Quad Int32) :
      Yields counts (fun _ => True) ((ctx.countCall "viewport").viewport area) :=
    (Yields.any _).bind fun _ _ => hcounted
  refine Context.exec_of_attempt counts ?_ fun error lost => hcounted
  exact (hviewport _).map fun _ hchanged => hchanged

theorem callCount_issueAll {calls : List Call}
    (hcalls : ∀ call ∈ calls, ∃ width height, call = viewport width height) (ctx : Context) :
    (ctx.issueAll calls).callCount "viewport" = ctx.callCount "viewport" + calls.length := by
  induction calls generalizing ctx with
  | nil => rfl
  | cons call rest ih =>
      obtain ⟨⟨width, height, rfl⟩, hrest⟩ := List.forall_mem_cons.mp hcalls
      have hlater := ih hrest (ctx.issue (viewport width height))
      rw [callCount_viewport] at hlater
      rw [List.length_cons, ← Nat.add_assoc, Nat.add_right_comm]
      exact hlater

/-- The context is the same if and only if no size was accepted, since every call is counted. -/
theorem issueAll_resizes_iff (ctx : Context) (entries : List Entry) :
    ctx.issueAll (entries.filterMap Entry.resizes?) = ctx ↔
      ∀ entry ∈ entries, entry.resizes? = none := by
  have hviewports : ∀ call ∈ entries.filterMap Entry.resizes?,
      ∃ width height, call = viewport width height := by
    intro call hcall
    obtain ⟨entry, -, hresizes⟩ := List.mem_filterMap.mp hcall
    exact resizes?_eq_some hresizes
  rw [← List.filterMap_eq_nil_iff]
  constructor
  · intro hsame
    have hcount := callCount_issueAll hviewports ctx
    rw [hsame] at hcount
    exact List.length_eq_zero_iff.mp (by omega)
  · intro hnone
    rw [hnone]
    rfl

/-- Once a registration has failed, whatever the host does leaves the registry, what is bound, what
is remembered and what was published; every registration fails and every batch is passed over with
the empty report. Of the calls to the context only the viewports of new sizes are left, so it is the
same if and only if no size was accepted. -/
theorem after_failed_register {ctx : Context} (hctx : v.context = some ctx) {uid : Nat}
    {e : ViewerError} (hfailed : (v.register uid).1 = .error e) (entries : List Entry)
    (hentries : ∀ entry ∈ entries, entry.IsHosts) :
    let w := (v.register uid).2.after entries
    v.Agrees w ∧
    w.context = some (ctx.issueAll (entries.filterMap Entry.resizes?)) ∧
    (w.context = some ctx ↔ ∀ entry ∈ entries, entry.resizes? = none) ∧
    (∀ uid', w.register uid' = (.error .outOfSync, w)) ∧
    ∀ batch payloads, w.receive batch payloads = (.ok {}, w) := by
  intro w
  obtain ⟨hagrees, hdesynced, hcontext⟩ : v.Agrees (v.register uid).2 ∧
      (v.register uid).2.desynced = true ∧ (v.register uid).2.context = some ctx := by
    simp only [register] at hfailed ⊢
    by_cases hv : v.desynced = true
    · rw [if_pos hv]
      exact ⟨.refl v, hv, hctx⟩
    · rw [if_neg hv] at hfailed ⊢
      cases hregister : v.registry.register uid with
      | ok registered =>
          rw [hregister] at hfailed
          cases hfailed
      | error cause => exact ⟨⟨rfl, rfl, rfl, rfl, rfl⟩, rfl, hctx⟩
  have hidles : Idles _ _ w := after_idles hdesynced entries hentries
  have hissued : w.context = some (ctx.issueAll (entries.filterMap Entry.resizes?)) := by
    rw [hidles.context_eq, hcontext]
    rfl
  refine ⟨hagrees.trans hidles.agrees, hissued, ?_, register_of_desynced hidles.desynced,
    receive_of_desynced hidles.desynced⟩
  rw [hissued, Option.some.injEq]
  exact issueAll_resizes_iff ctx entries

/-- The first resource has to have number 0. After another one was registered, a batch and a frame
leave the context. -/
theorem batch_after_failed_register :
    ∃ v ctx, Viewer.new (some (Context.new 700 500)) {} false = .ok v ∧ v.context = some ctx ∧
      (v.register 1).1 = .error (.registration (.desync 0 1)) ∧
      let w := (v.register 1).2.after
        [.receive { commands := [⟨.create .buffer 0, none⟩] } [], .frame]
      v.Agrees w ∧ w.context = some ctx ∧ w.register 0 = (.error .outOfSync, w) := by
  obtain ⟨v, hnew, hctx, hfailed⟩ :
      ∃ v, Viewer.new (some (Context.new 700 500)) {} false = .ok v ∧
        v.context = some ((ViewBlock.create (Context.new 700 500)).2.issue (viewport 700 500)) ∧
        (v.register 1).1 = .error (.registration (.desync 0 1)) := ⟨_, rfl, rfl, rfl⟩
  obtain ⟨hagrees, -, hcontext, hregister, -⟩ := after_failed_register hctx hfailed
    [.receive { commands := [⟨.create .buffer 0, none⟩] } [], .frame] (by simp [Entry.IsHosts])
  refine ⟨v, _, hnew, hctx, hfailed, hagrees, hcontext.mpr ?_, hregister 0⟩
  simp [Entry.resizes?]

/-- A new size after a failed registration still changes the viewport of the context. -/
theorem setSize_after_failed_register :
    ∃ v, Viewer.new (some (Context.new 700 500)) {} false = .ok v ∧
      (v.register 1).1 = .error (.registration (.desync 0 1)) ∧
      v.context.map (·.fixed.viewport) = some ⟨0, 0, 700, 500⟩ ∧
      ((v.register 1).2.after [.setSize 10 20]).context.map (·.fixed.viewport) =
        some ⟨0, 0, 10, 20⟩ :=
  ⟨_, rfl, rfl, rfl, rfl⟩

end Viewer

end GlPlayback
