import GlPlayback.Proofs.Gl.Linked
import GlPlayback.Proofs.Interpreter.Calling
import GlPlayback.Proofs.Interpreter.Histories

/-!
What the record of a program says after a link. Its message tells whether the link succeeded, and
its lists are those of the last link that did.
-/
namespace GlPlayback

namespace Asking

theorem linkState_kept {P : Call → Prop} {α : Type} {x : Asking α} (hx : Only P x)
    (hcreate : ¬ P .createProgram) (hlink : ∀ program, ¬ P (.linkProgram program))
    (ctx : Context) : (x.run ctx).2.linkState? = ctx.linkState? := by
  rw [run_context]
  have hcalls := hx.mem_calls ctx
  generalize x.calls ctx = calls at hcalls
  induction calls generalizing ctx with
  | nil => rfl
  | cons call rest ih =>
      have hcall := hcalls call List.mem_cons_self
      have hfirst : (ctx.issue call).linkState? = ctx.linkState? := by
        refine Context.exec_linkState ?_ ?_
        · rintro rfl
          exact hcreate hcall
        · rintro program rfl
          exact hlink program hcall
      exact (ih (ctx.issue call) fun other hother =>
        hcalls other (List.mem_cons_of_mem call hother)).trans hfirst

theorem linked_run (program : ObjectId) (record : ProgramRecord) (ctx : Context) :
    (linked program record).run ctx =
      let asked := ctx.countCall "get_program_parameter"
      if ((ctx.linkState? program).map fun s => Context.flag s.1).getD 0 = 0 then
        ({ record with message := some (ctx.programLog program) },
          asked.countCall "get_program_info_log")
      else (describe program).run asked := by
  have hstatus : ctx.exec (.getProgramParameter program Enumerant.linkStatus) =
      ((ctx.linkState? program).map fun s => Context.flag s.1,
        ctx.countCall "get_program_parameter") := by
    simp only [Context.exec, Context.attempt, Context.programParameter_linkStatus]
    rfl
  have hrun : (linked program record).run ctx =
      (if ((ctx.exec (.getProgramParameter program Enumerant.linkStatus)).1 :
          Option Int32).getD 0 = 0 then do
        let log : String ← ask (.getProgramLog program)
        return { record with message := some log }
      else describe program : Asking ProgramRecord).run
        (ctx.exec (.getProgramParameter program Enumerant.linkStatus)).2 := rfl
  rw [hrun, hstatus]
  simp only
  split <;> rfl

theorem linked_result (program : ObjectId) (record : ProgramRecord) (ctx : Context) :
    (ctx.ReportsLinked program →
      ((linked program record).run ctx).1.message = some "linked") ∧
    (¬ ctx.ReportsLinked program → ((linked program record).run ctx).1 =
      { record with message := some (ctx.programLog program) }) := by
  rw [linked_run, Context.reportsLinked_iff]
  rcases ctx.linkState? program with _ | ⟨_ | _, log⟩
  · simp
  · simp [Context.flag]
  · refine ⟨fun _ => ?_, fun h => absurd ⟨log, rfl⟩ h⟩
    exact (returns_describe program).run _

end Asking

/-- Nothing active is recorded of a program. -/
def ProgramRecord.IsBare (record : ProgramRecord) : Prop :=
  record.uniforms = [] ∧ record.blocks = [] ∧ record.attributes = []

/-- A record of a program without anything active, or of no program. -/
def ResourceRecord.IsBare : ResourceRecord → Prop
  | program record => record.IsBare
  | _ => True

theorem NewObject.record_isBare (what : NewObject) : what.record.IsBare := by
  cases what with
  | program => exact ⟨rfl, rfl, rfl⟩
  | texture | shader _ | buffer | vertexArray | framebuffer => trivial

namespace Machine

variable {m : Machine} {h : Handle}

def Bare (m : Machine) (h : Handle) : Prop :=
  (m.registry.record h).IsBare

theorem Bare.asking (hbare : m.Bare h) {α : Type} (conversation : Asking α) :
    (m.asking conversation).2.Bare h :=
  hbare

theorem Bare.settle (hbare : m.Bare h) {result : Except RegistryError Registry}
    (hresult : ∀ r, result = .ok r → (r.record h).IsBare) : (m.settle result).2.Bare h := by
  cases result with
  | ok r => exact hresult r rfl
  | error e => exact hbare

theorem Bare.settle_changeRecord (hbare : m.Bare h) {other : Handle}
    {change : ResourceRecord → ResourceRecord}
    (hchange : other = h → (change (m.registry.record h)).IsBare) :
    (m.settle (m.registry.changeRecord other change)).2.Bare h := by
  refine hbare.settle fun r hr => ?_
  rw [Registry.record_of_changeRecord hr]
  split
  · next heq =>
      subst heq
      exact hchange rfl
  · exact hbare

theorem Bare.place (hbare : m.Bare h) {other : Handle} {what : NewObject}
    {record : ResourceRecord} (hrecord : record.IsBare) (made : Option ObjectId) :
    (m.place other what record made).2.Bare h := by
  cases made with
  | none => exact hbare
  | some id =>
      refine hbare.settle fun r hr => ?_
      rw [Registry.record_of_create hr]
      split
      · exact hrecord
      · exact hbare

theorem Bare.settle_addPointer (hbare : m.Bare h) (array buffer : Handle)
    (pointer : PointerRecord) :
    (m.settle (m.registry.addPointer array buffer pointer)).2.Bare h := by
  refine hbare.settle fun r hr => ?_
  obtain ⟨x, -, hadded⟩ := bind_eq_ok_iff.mp hr
  split at hadded
  · rw [Registry.record_of_changeRecord hadded]
    split
    · trivial
    · exact hbare
  · cases hadded
    exact hbare

/-- Only a link records what is active. -/
theorem Bare.perform (hbare : m.Bare h) {op : Operation} (hop : ∀ id, op ≠ .link h id) :
    (m.perform op).2.Bare h := by
  cases op with
  | nothing | issue _ | useProgram _ | bindVertexArray _ | bindBuffer _ _ => exact hbare
  | create other what => exact (hbare.asking (Asking.make what)).place what.record_isBare _
  | compile other shader =>
      have hcompiled := hbare.asking (Asking.compile shader)
      simp only [Machine.perform]
      -- Any other conversation would do, and this one would be run for the comparison.
      generalize m.asking (Asking.compile shader) = asked at hcompiled
      refine hcompiled.settle_changeRecord fun _ => ?_
      have hrecord : (asked.2.registry.record h).IsBare := hcompiled
      split
      · trivial
      · exact hrecord
  | link other program =>
      have hne : other ≠ h := by
        rintro rfl
        exact hop program rfl
      have hlinked := hbare.asking (Asking.link program)
      simp only [Machine.perform]
      generalize (m.asking (Asking.link program)).2 = m' at hlinked
      split
      · exact hlinked
      · next before _ =>
          have hdescribed := hlinked.asking (Asking.linked program before)
          generalize m'.asking (Asking.linked program before) = described at hdescribed
          exact hdescribed.settle_changeRecord fun heq => absurd heq hne
  | bufferData target contents usage shown =>
      have hfilled := hbare.asking (Asking.fill target.code usage contents)
      simp only [Machine.perform]
      cases shown with
      | none => exact hfilled
      | some other => exact hfilled.settle_changeRecord fun _ => trivial
  | createUniformBuffer other block usage =>
      have hmade := hbare.asking (Asking.makeBlockBuffer block usage)
      simp only [Machine.perform]
      generalize m.asking (Asking.makeBlockBuffer block usage) = asked at hmade
      obtain ⟨made, m'⟩ := asked
      have hrecord : ResourceRecord.IsBare
          (.buffer ⟨some (.bytes block.size.toInt), some .uniform, some block⟩) := trivial
      refine Bare.place ?_ hrecord made
      cases made with
      | none => exact hmade
      | some id => exact hmade
  | setPointer call place pointer =>
      have hissued : (m.issue call).Bare h := hbare
      cases place with
      | none => exact hissued
      | some place => exact hissued.settle_addPointer place.1 place.2 pointer

/-- A link leaves in the record what the conversation after it comes to. -/
theorem perform_link_run {id : ObjectId} (hid : m.registry.object h .program = .ok id) :
    ∃ before m', m.registry.record h = .program before ∧
      m.perform (.link h id) = (.ok (), m') ∧
      m'.registry.record h =
        .program ((Asking.linked id before).run ((Asking.link id).run m.context).2).1 ∧
      m'.context = ((Asking.linked id before).run ((Asking.link id).run m.context).2).2 := by
  obtain ⟨⟨object, record⟩, hx, hkind, -⟩ := Registry.object_eq_ok_iff.mp hid
  cases record with
  | program before =>
      have hrecord := Registry.record_of_get hx
      generalize hlink : ((Asking.link id).run m.context).2 = context
      generalize hlinked : (Asking.linked id before).run context = described
      obtain ⟨after, context'⟩ := described
      have hperform := perform_link hrecord hlink hlinked
      rw [settle_changeRecord ⟨_, hx⟩] at hperform
      refine ⟨before, _, hrecord, hperform, ?_, congrArg Prod.snd hlinked.symm⟩
      have hget := Registry.get_write_self m.registry h
        fun x => { x with record := .program after }
      rw [hx] at hget
      rw [hlinked]
      exact Registry.record_of_get hget
  | unset | buffer _ | shader _ _ | vertexArray _ | texture | framebuffer => cases hkind

/-- What a link leaves in the record tells whether the program is linked now. -/
theorem perform_link_record {id : ObjectId} (hid : m.registry.object h .program = .ok id) :
    ∃ before after m', m.registry.record h = .program before ∧
      m.perform (.link h id) = (.ok (), m') ∧ m'.registry.record h = .program after ∧
      (m'.context.ReportsLinked id → after.message = some "linked") ∧
      (¬ m'.context.ReportsLinked id →
        after = { before with message := some (m'.context.programLog id) }) := by
  obtain ⟨before, m', hrecord, hperform, hafter, hcontext⟩ := perform_link_run hid
  generalize ((Asking.link id).run m.context).2 = context at hafter hcontext
  obtain ⟨hlinked, hfailed⟩ := Asking.linked_result id before context
  have hkept : m'.context.linkState? = context.linkState? := by
    rw [hcontext]
    exact Asking.linkState_kept (Asking.only_linked id before)
      (by simp [Call.IsQuestion, Call.touches])
      (fun program => by simp [Call.IsQuestion, Call.touches]) context
  have hreports : m'.context.ReportsLinked id ↔ context.ReportsLinked id := by
    rw [Context.reportsLinked_iff, Context.reportsLinked_iff, hkept]
  have hlog : m'.context.programLog id = context.programLog id := by
    rw [Context.programLog_eq, Context.programLog_eq, hkept]
  refine ⟨before, _, m', hrecord, hperform, hafter, ?_, ?_⟩
  · rw [hreports]
    exact hlinked
  · rw [hreports, hlog]
    exact hfailed

theorem readAway_registry (m : Machine) (checks : Bool) :
    (m.readAway checks).registry = m.registry :=
  (readAway_calls checks m).registry_eq

theorem readAway_linkState (m : Machine) (checks : Bool) :
    (m.readAway checks).context.linkState? = m.context.linkState? := by
  cases checks with
  | false => rfl
  | true => exact Context.exec_linkState nofun nofun

theorem readAway_reportsLinked (m : Machine) (checks : Bool) (id : ObjectId) :
    (m.readAway checks).context.ReportsLinked id ↔ m.context.ReportsLinked id := by
  rw [Context.reportsLinked_iff, Context.reportsLinked_iff, readAway_linkState]

theorem readAway_programLog (m : Machine) (checks : Bool) (id : ObjectId) :
    (m.readAway checks).context.programLog id = m.context.programLog id := by
  rw [Context.programLog_eq, Context.programLog_eq, readAway_linkState]

/-- A command links a program, and the program is linked then. -/
def Links (m : Machine) (h : Handle) : Event → Prop
  | .command checks payloads command => ∃ id,
      Operation.resolve (m.surroundings payloads) command = .ok (.link h id) ∧
      (m.executeCommand checks payloads command).2.context.ReportsLinked id
  | _ => False

theorem Bare.executeCommand (hbound : m.BindsCreated) (hbare : m.Bare h) {checks : Bool}
    {payloads : List (List UInt8)} {command : Command}
    (hlinks : ¬ m.Links h (.command checks payloads command)) :
    (m.executeCommand checks payloads command).2.Bare h := by
  rcases executeCommand_cases hbound checks payloads command with
    ⟨e, -, hfailed⟩ | ⟨op, m', hresolve, hop, -⟩
  · rw [hfailed]
    exact hbare
  · have hperform := hop.performed
    rw [executeCommand_machine hresolve hperform]
    simp only [Bare, readAway_registry]
    by_cases hlink : ∃ id, op = .link h id
    · obtain ⟨id, rfl⟩ := hlink
      have hid : m.registry.object h .program = .ok id :=
        (Operation.resolve_yields _ _).value hresolve
      obtain ⟨before, after, m₁, hbefore, hdone, hafter, -, hfailed⟩ := perform_link_record hid
      cases hperform.symm.trans hdone
      have hreports : ¬ m'.context.ReportsLinked id := by
        intro hreports
        refine hlinks ⟨id, hresolve, ?_⟩
        rw [executeCommand_machine hresolve hperform, readAway_reportsLinked]
        exact hreports
      simp only [Bare, hbefore] at hbare
      simp only [hafter, hfailed hreports]
      exact hbare
    · have hbare' := hbare.perform fun id heq => hlink ⟨id, heq⟩
      rwa [hperform] at hbare'

theorem Bare.react (hbound : m.BindsCreated) (hbare : m.Bare h) {event : Event}
    (hlinks : ¬ m.Links h event) : (m.react event).Bare h := by
  cases event with
  | register uid =>
      simp only [Machine.react]
      cases hregister : m.registry.register uid with
      | error e => exact hbare
      | ok registered =>
          simp only [Bare, Registry.record_register hregister]
          exact hbare
  | command checks payloads command => exact hbare.executeCommand hbound hlinks
  | call call => exact hbare
  | takeDirty => exact hbare
  | restart => exact hbare

theorem Bare.after (hbound : m.BindsCreated) (hbare : m.Bare h) (events : List Event)
    (hlinks : ∀ earlier event later, events = earlier ++ event :: later →
      ¬ (m.after earlier).Links h event) : (m.after events).Bare h := by
  have hkept := Along.invariant (fun m event (hm : m.BindsCreated ∧ m.Bare h) hlinks =>
      ⟨react_bindsCreated hm.1 event, hm.2.react hm.1 hlinks⟩)
    ⟨hbound, hbare⟩ (along_iff.mpr hlinks)
  exact hkept.2

theorem keptByCalls_plainLogs : KeptByCalls fun ctx ctx' => ctx.PlainLogs → ctx'.PlainLogs where
  refl _ := id
  trans h h' hctx := h' (h hctx)
  exec _ call h := h.exec call

theorem after_plainLogs (width height : UInt32) (events : List Event) :
    ((fresh width height).after events).context.PlainLogs :=
  keptByCalls_plainLogs.after (fresh width height) events (Context.plainLogs_new width height)

theorem perform_plainLogs (hplain : m.context.PlainLogs) (op : Operation) :
    (m.perform op).2.context.PlainLogs := by
  rw [perform_context]
  exact keptByCalls_plainLogs.issueAll m.context _ hplain

theorem message_eq_linked_iff {ctx : Context} (hplain : ctx.PlainLogs) {id : ObjectId}
    {before after : ProgramRecord}
    (hlinked : ctx.ReportsLinked id → after.message = some "linked")
    (hfailed : ¬ ctx.ReportsLinked id →
      after = { before with message := some (ctx.programLog id) }) :
    after.message = some "linked" ↔ ctx.ReportsLinked id := by
  refine ⟨fun hmessage => Classical.byContradiction fun hreports => ?_, hlinked⟩
  rw [hfailed hreports] at hmessage
  exact hplain.programLog_ne id (Option.some.inj hmessage)

theorem handle_registered (s : Surroundings) (raw : Int) :
    Yields (fun handle => s.registry.handle raw = .ok handle) (fun _ => True) (s.handle raw) :=
  (Yields.of_forall _ (fun _ hh => hh) fun _ _ => trivial).mapError fun _ _ => trivial

theorem resource_registered (s : Surroundings) (raw : Int) (kind : ResourceKind) :
    Yields (fun x => s.registry.handle raw = .ok x.1 ∧ s.registry.object x.1 kind = .ok x.2)
      (fun _ => True) (s.resource raw kind) := by
  have hobject (handle : Handle) : Yields (fun id => s.registry.object handle kind = .ok id)
      (fun _ => True) (s.object handle kind) :=
    (Yields.of_forall _ (fun _ hid => hid) fun _ _ => trivial).mapError fun _ _ => trivial
  exact (handle_registered s raw).bind fun handle hh => (hobject handle).bind fun id hid =>
    ⟨hh, hid⟩

theorem resolve_linkProgram (s : Surroundings) (raw : Int) (payload : Option PayloadRef) :
    Yields (fun op => ∃ handle id, s.registry.handle raw = .ok handle ∧
        s.registry.object handle .program = .ok id ∧ op = .link handle id)
      (fun _ => True) (Operation.resolve s ⟨.linkProgram raw, payload⟩) :=
  (resource_registered s raw .program).bind fun x hx => ⟨x.1, x.2, hx.1, hx.2, rfl⟩

/-- After a link that was carried out, the record says "linked" exactly if the program is. A link
that failed puts its log there and changes nothing else, so the record lists nothing active as long
as no earlier link of the program succeeded. -/
theorem linkProgram_recorded (width height : UInt32) (events : List Event) {checks : Bool}
    {payloads : List (List UInt8)} {raw : Int} {payload : Option PayloadRef} {m' : Machine}
    (hok : ((fresh width height).after events).executeCommand checks payloads
      ⟨.linkProgram raw, payload⟩ = (.ok (), m')) :
    let m := (fresh width height).after events
    ∃ h id before after, m.registry.handle raw = .ok h ∧
      m.registry.object h .program = .ok id ∧ m.registry.record h = .program before ∧
      m'.registry.record h = .program after ∧
      (after.message = some "linked" ↔ m'.context.ReportsLinked id) ∧
      (¬ m'.context.ReportsLinked id →
        after = { before with message := some (m'.context.programLog id) }) ∧
      (¬ m'.context.ReportsLinked id →
        (∀ earlier event later, events = earlier ++ event :: later →
          ¬ ((fresh width height).after earlier).Links h event) → after.IsBare) := by
  intro m
  cases hresolve : Operation.resolve (m.surroundings payloads) ⟨.linkProgram raw, payload⟩ with
  | error e => cases hok.symm.trans (executeCommand_of_error hresolve)
  | ok op =>
      obtain ⟨h, id, hh, hid, rfl⟩ := (resolve_linkProgram _ raw payload).value hresolve
      change m.registry.object h .program = .ok id at hid
      obtain ⟨before, after, m₁, hbefore, hperform, hafter, hlinked, hfailed⟩ :=
        perform_link_record hid
      have hm' : m' = m₁.readAway checks :=
        (congrArg Prod.snd hok).symm.trans (executeCommand_machine hresolve hperform)
      have hplain : m₁.context.PlainLogs := by
        have hkept := perform_plainLogs (after_plainLogs width height events) (.link h id)
        rwa [hperform] at hkept
      refine ⟨h, id, before, after, hh, hid, hbefore, ?_⟩
      rw [hm', readAway_registry, readAway_reportsLinked, readAway_programLog]
      refine ⟨hafter, message_eq_linked_iff hplain hlinked hfailed, hfailed, ?_⟩
      intro hreports hearlier
      have hbare : m.Bare h :=
        Bare.after (fresh_bindsCreated width height) trivial events hearlier
      simp only [Bare, hbefore] at hbare
      rw [hfailed hreports]
      exact hbare

/-- A program that was never given shaders is not linked, and its record gets the log. -/
theorem linkProgram_without_shaders_recorded :
    let m := (fresh 1 1).after [.register 0, .command false [] ⟨.create .program 0, none⟩]
    let m' := (m.executeCommand false [] ⟨.linkProgram 0, none⟩).2
    m.executeCommand false [] ⟨.linkProgram 0, none⟩ = (.ok (), m') ∧
      ¬ m'.context.ReportsLinked 1 ∧
      m'.registry.record ⟨0⟩ =
        .program { message := some "ERROR: Linking failed: no vertex shader attached" } := by
  intro m m'
  have hok : m.executeCommand false [] ⟨.linkProgram 0, none⟩ = (.ok (), m') := rfl
  have hreports : ¬ m'.context.ReportsLinked 1 := by
    intro hreports
    cases hreports
  obtain ⟨h, id, before, after, hh, hid, hbefore, hafter, -, hfailed, -⟩ :=
    linkProgram_recorded 1 1 _ hok
  cases (Except.ok.inj hh : (⟨0⟩ : Handle) = h)
  cases (Except.ok.inj hid : 1 = id)
  cases (ResourceRecord.program.inj hbefore : {} = before)
  rw [hfailed hreports] at hafter
  exact ⟨hok, hreports, hafter⟩

/-- After a link that fails, the record still lists the uniform of the link before it, which the
context has forgotten. -/
theorem relink_keeps_stale_uniforms :
    let m := (fresh 1 1).after [.register 0, .register 1, .register 2,
      .command false [] ⟨.create (.shader "VERTEX_SHADER") 0, none⟩,
      .command false [] ⟨.shaderSource 0 "uniform float u; void main(){}", none⟩,
      .command false [] ⟨.compileShader 0, none⟩,
      .command false [] ⟨.create (.shader "FRAGMENT_SHADER") 1, none⟩,
      .command false [] ⟨.shaderSource 1 "void main(){}", none⟩,
      .command false [] ⟨.compileShader 1, none⟩,
      .command false [] ⟨.create .program 2, none⟩,
      .command false [] ⟨.attachShader 2 0, none⟩,
      .command false [] ⟨.attachShader 2 1, none⟩,
      .command false [] ⟨.linkProgram 2, none⟩,
      .command false [] ⟨.shaderSource 1 "", none⟩,
      .command false [] ⟨.compileShader 1, none⟩]
    let m' := (m.executeCommand false [] ⟨.linkProgram 2, none⟩).2
    (m.executeCommand false [] ⟨.linkProgram 2, none⟩).1 = .ok () ∧
      ¬ m'.context.ReportsLinked 3 ∧
      (m'.context.objects.programs.get? 3).map (·.uniforms) = some [] ∧
      m'.registry.record ⟨2⟩ = .program {
        message := some "ERROR: Linking failed: fragment shader not compiled"
        uniforms := [⟨"u", "FLOAT", 1, some 4⟩] } := by
  intro m m'
  obtain ⟨hok, hstate, hforgotten, hrecord⟩ :
      (m.executeCommand false [] ⟨.linkProgram 2, none⟩).1.toBool = true ∧
      m'.context.linkState? 3 =
        some (false, "ERROR: Linking failed: fragment shader not compiled") ∧
      (m'.context.objects.programs.get? 3).map (·.uniforms) = some [] ∧
      m'.registry.record ⟨2⟩ = .program {
        message := some "ERROR: Linking failed: fragment shader not compiled"
        uniforms := [⟨"u", "FLOAT", 1, some 4⟩] } := by
    decide +kernel
  have hreports : ¬ m'.context.ReportsLinked 3 := by
    rw [Context.reportsLinked_iff, hstate]
    exact nofun
  refine ⟨?_, hreports, hforgotten, hrecord⟩
  generalize (m.executeCommand false [] ⟨.linkProgram 2, none⟩).1 = result at hok
  cases result with
  | ok _ => rfl
  | error e => cases hok

end Machine

end GlPlayback
