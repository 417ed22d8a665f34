import GlPlayback.Proofs.Interpreter.Coherence
import GlPlayback.Proofs.Interpreter.Linkage
import GlPlayback.Proofs.Interpreter.Listing

/-!
The record of a program after a link that succeeded lists the program as the context has it then,
its view block bound. Neither the link nor the questions after it leave an error behind.
-/
namespace GlPlayback

namespace Asking

theorem programs_kept {α : Type} {x : Asking α} (hx : Only Call.IsQuestion x) (ctx : Context) :
    (x.run ctx).2.objects.programs = ctx.objects.programs := by
  have hkept : (x.run ctx).2.part .programObjects = ctx.part .programObjects := by
    rw [run_context]
    refine Context.issueAll_part (fun call hcall => ?_) (by simp)
    rw [hx.mem_calls ctx call hcall]
    exact List.not_mem_nil
  exact hkept

end Asking

namespace Context

variable {ctx ctx' ctx'' : Context} {program : ObjectId} {p : ProgramObject}

/-- A program stays, though it may change, and no error is raised. -/
structure Updates (ctx : Context) (program : ObjectId) (ctx' : Context) : Prop where
  has : ctx'.objects.Has .program program
  error_eq : ctx'.error = ctx.error

theorem Updates.trans (h : ctx.Updates program ctx') (h' : ctx'.Updates program ctx'') :
    ctx.Updates program ctx'' :=
  ⟨h'.has, h'.error_eq.trans h.error_eq⟩

theorem has_insert (programs : Table ObjectId ProgramObject) (program : ObjectId)
    (p : ProgramObject) : ((programs.insert program p).get? program).isSome := by
  rw [Table.get?_insert, if_pos rfl]
  rfl

theorem updates_linkProgram (hp : ctx.objects.programs.get? program = some p) :
    ctx.Updates program (ctx.issue (.linkProgram program)) := by
  simp only [issue, exec, attempt, linkProgram, countCall, hp]
  cases Linking.link ctx.objects.shaders ctx.nextId p with
  | none => exact ⟨Option.isSome_of_eq_some hp, rfl⟩
  | some outcome => exact ⟨has_insert _ program outcome.program, rfl⟩

theorem updates_validateProgram (hp : ctx.objects.programs.get? program = some p) :
    ctx.Updates program (ctx.issue (.validateProgram program)) := by
  simp only [issue, exec, attempt, validateProgram, changeProgram, countCall, hp]
  exact ⟨has_insert _ program _, rfl⟩

/-- The index under which a block is found by name is that of a block. -/
theorem uniformBlockIndex_found (hp : ctx.objects.programs.get? program = some p)
    {name : String} (hfound : ctx.uniformBlockIndex program name ≠ Enumerant.invalidIndex) :
    ∃ block, p.blocks[(ctx.uniformBlockIndex program name).toNat]? = some block := by
  simp only [uniformBlockIndex, hp, Option.bind_some] at hfound ⊢
  cases hfind : p.blocks.findIdx? fun block => block.name == name with
  | none => exact absurd (by rw [hfind]; rfl) hfound
  | some i =>
      obtain ⟨hi, -⟩ := List.findIdx?_eq_some_iff_findIdx_eq.mp hfind
      have hle : (UInt32.ofNat i).toNat ≤ i := by
        rw [UInt32.toNat_ofNat']
        exact Nat.mod_le i _
      exact ⟨_, List.getElem?_eq_getElem (Nat.lt_of_le_of_lt hle hi)⟩

theorem updates_uniformBlockBinding (hp : ctx.objects.programs.get? program = some p)
    {index binding : UInt32} {block : LinkedBlock} (hblock : p.blocks[index.toNat]? = some block)
    (hbinding : binding < uniformBindings) :
    ctx.Updates program (ctx.issue (.uniformBlockBinding program index binding)) := by
  have hcheck : Attempt.check (binding < uniformBindings) .invalidValue = .ok () :=
    if_pos (decide_eq_true hbinding)
  simp only [issue, exec, attempt, uniformBlockBinding, hcheck, bind, Except.bind, changeProgram,
    countCall, hp, hblock]
  exact ⟨has_insert _ program _, rfl⟩

end Context

namespace Asking

variable {program : ObjectId} {p : ProgramObject} {ctx : Context}

theorem link_updates (hhas : ctx.objects.Has .program program) :
    ctx.Updates program ((link program).run ctx).2 := by
  have hrun : ((link program).run ctx).2 =
      (ctx.issue (.linkProgram program)).issue (.validateProgram program) := rfl
  obtain ⟨before, hbefore⟩ := Option.isSome_iff_exists.mp hhas
  have hlink := Context.updates_linkProgram hbefore
  obtain ⟨after, hafter⟩ := Option.isSome_iff_exists.mp hlink.has
  rw [hrun]
  exact hlink.trans (Context.updates_validateProgram hafter)

/-- Whether there is a view block to bind or not, the program is listed as it is then. -/
theorem describe_run (hhas : ctx.objects.Has .program program) :
    ∃ ctx', ctx.Updates program ctx' ∧ (describe program).run ctx = (listing program).run ctx' := by
  obtain ⟨p, hp⟩ := Option.isSome_iff_exists.mp hhas
  have hp' : (ctx.countCall "get_uniform_block_index").objects.programs.get? program = some p := hp
  have hasked : ctx.Updates program (ctx.countCall "get_uniform_block_index") := ⟨hhas, rfl⟩
  have hrun : (describe program).run ctx =
      (if ctx.uniformBlockIndex program ViewBlock.name ≠ Enumerant.invalidIndex then do
        ask (.uniformBlockBinding program (ctx.uniformBlockIndex program ViewBlock.name)
          ViewBlock.binding)
        listing program
      else listing program : Asking ProgramRecord).run
        (ctx.countCall "get_uniform_block_index") := rfl
  rw [hrun]
  split
  · next hfound =>
      obtain ⟨block, hblock⟩ := Context.uniformBlockIndex_found hp hfound
      have hbinding : ViewBlock.binding < uniformBindings := by decide
      have hbound : (ctx.countCall "get_uniform_block_index").Updates program
          ((ctx.countCall "get_uniform_block_index").issue (.uniformBlockBinding program
            (ctx.uniformBlockIndex program ViewBlock.name) ViewBlock.binding)) :=
        Context.updates_uniformBlockBinding hp' hblock hbinding
      exact ⟨_, hasked.trans hbound, run_bind _ _ _⟩
  · exact ⟨_, hasked, rfl⟩

/-- After a link that succeeded, the program is listed as it is then. -/
theorem linked_listing (record : ProgramRecord) (hhas : ctx.objects.Has .program program)
    (hp : ((linked program record).run ctx).2.objects.programs.get? program = some p)
    (hlinked : p.linked = true) :
    ∃ ctx', ctx.Updates program ctx' ∧ ctx'.objects.programs.get? program = some p ∧
      (linked program record).run ctx = (listing program).run ctx' := by
  have hkept : ((linked program record).run ctx).2.linkState? = ctx.linkState? :=
    linkState_kept (only_linked program record) (by simp [Call.IsQuestion, Call.touches])
      (fun other => by simp [Call.IsQuestion, Call.touches]) ctx
  have hstate : ctx.linkState? program = some (true, p.log) := by
    rw [← hkept, Context.linkState?, hp, Option.map_some, hlinked]
  have hrun : (linked program record).run ctx =
      (describe program).run (ctx.countCall "get_program_parameter") := by
    rw [linked_run, hstate]
    rfl
  have hhas' : (ctx.countCall "get_program_parameter").objects.Has .program program := hhas
  obtain ⟨ctx', hupdates, hlisting⟩ := describe_run hhas'
  rw [hrun, hlisting, programs_kept (only_listing program)] at hp
  exact ⟨ctx', ⟨hupdates.has, hupdates.error_eq⟩, hp, hrun.trans hlisting⟩

/-- After a link that succeeded, the record lists what the program has. -/
theorem linked_lists (record : ProgramRecord) (hhas : ctx.objects.Has .program program)
    (hp : ((linked program record).run ctx).2.objects.programs.get? program = some p)
    (hlinked : p.linked = true) (hjoined : p.IsJoined) (hfits : p.Fits) :
    ((linked program record).run ctx).1.Lists p ∧
      ((linked program record).run ctx).2.error = ctx.error := by
  obtain ⟨ctx', hupdates, hp', hrun⟩ := linked_listing record hhas hp hlinked
  obtain ⟨listed, htells, hlists⟩ := tells_listing program hjoined hfits
  obtain ⟨hrecord, -, herror⟩ := htells ctx' hp'
  rw [hrun, hrecord, herror, hupdates.error_eq]
  exact ⟨hlists, rfl⟩

end Asking

namespace Machine

variable {m : Machine} {h : Handle} {id : ObjectId}

theorem keptByCalls_joined : KeptByCalls fun ctx ctx' => ctx.Joined → ctx'.Joined where
  refl _ := id
  trans h h' hctx := h' (h hctx)
  exec _ call h := h.exec call

theorem executeCommand_ok {m' : Machine} {checks : Bool} {payloads : List (List UInt8)}
    {command : Command} {op : Operation}
    (hresolve : Operation.resolve (m.surroundings payloads) command = .ok op)
    (hperform : m.perform op = (.ok (), m')) (hclear : m'.context.error = none) :
    (m.executeCommand checks payloads command).1 = .ok () := by
  simp only [executeCommand, hresolve, hperform]
  cases checks with
  | false => rfl
  | true =>
      rw [if_pos rfl, poll_eq, hclear]

theorem readAway_programs (m : Machine) (checks : Bool) :
    (m.readAway checks).context.objects.programs = m.context.objects.programs := by
  cases checks <;> rfl

theorem readAway_error (m : Machine) (checks : Bool) :
    (m.readAway checks).context.error = if checks then none else m.context.error := by
  cases checks <;> rfl

theorem resolve_linkProgram_eq {s : Surroundings} {raw : Int} {payload : Option PayloadRef}
    (hh : s.registry.handle raw = .ok h) (hid : s.registry.object h .program = .ok id) :
    Operation.resolve s ⟨.linkProgram raw, payload⟩ = .ok (.link h id) := by
  have hhandle : s.handle raw = .ok h := congrArg (Except.mapError CommandError.registry) hh
  have hobject : s.object h .program = .ok id :=
    congrArg (Except.mapError CommandError.registry) hid
  simp only [Operation.resolve, Surroundings.resource, hhandle, bind, Except.bind, hobject]
  rfl

/-- The object behind a program's resource is a program, if it ends up as one. -/
theorem Accounted.has_program (ha : m.Accounted) (hid : m.registry.object h .program = .ok id)
    {ctx : Context} (hgrows : m.context.Grows ctx) (hhas : ctx.objects.Has .program id) :
    m.context.objects.Has .program id := by
  obtain ⟨x, hx, -, hobject⟩ := Registry.object_eq_ok_iff.mp hid
  obtain ⟨what, hwhat⟩ := ha.known hx hobject
  cases (hgrows.numbered ha.numbered).alone (hgrows.has ha.numbered hwhat) hhas
  exact hwhat

/-- After a link that succeeded, the record of the program lists what the program has: every loose
uniform with its own location, every block that has members, and every attribute, each once, in
order, and nothing else. The command leaves no error behind. -/
theorem linkProgram_lists (width height : UInt32) (events : List Event) {checks : Bool}
    {payloads : List (List UInt8)} {raw : Int} {payload : Option PayloadRef}
    {result : Except CommandError Unit} {m' : Machine} {p : ProgramObject}
    (hrun : ((fresh width height).after events).executeCommand checks payloads
      ⟨.linkProgram raw, payload⟩ = (result, m')) :
    let m := (fresh width height).after events
    m.registry.handle raw = .ok h → m.registry.object h .program = .ok id →
    m'.context.objects.programs.get? id = some p → p.linked = true → p.Fits →
    (∃ record, m'.registry.record h = .program record ∧ record.Lists p) ∧
      m'.context.error = (if checks then none else m.context.error) ∧
      (m.context.error = none → result = .ok ()) := by
  intro m hh hid hp hlinked hfits
  have hm' : (m.executeCommand checks payloads ⟨.linkProgram raw, payload⟩).2 = m' :=
    congrArg Prod.snd hrun
  have hreact : m.after [.command checks payloads ⟨.linkProgram raw, payload⟩] = m' := hm'
  have hjoined : p.IsJoined := by
    have hkept := keptByCalls_joined.after m [.command checks payloads ⟨.linkProgram raw, payload⟩]
      (keptByCalls_joined.after (fresh width height) events (Context.joined_new width height))
    rw [hreact] at hkept
    exact hkept.programs id p hp
  have hhas : m.context.objects.Has .program id := by
    have hgrows := keptByCalls_grows.after m
      [.command checks payloads ⟨.linkProgram raw, payload⟩]
    rw [hreact] at hgrows
    exact (after_accounted (fresh_bindsCreated width height)
      (fresh_accounted width height) events).has_program hid hgrows (Option.isSome_of_eq_some hp)
  have hresolve : Operation.resolve (m.surroundings payloads) ⟨.linkProgram raw, payload⟩ =
      .ok (.link h id) := resolve_linkProgram_eq hh hid
  obtain ⟨before, performed, -, hperform, hrecord, hcontext⟩ := perform_link_run hid
  have hdone : m' = performed.readAway checks :=
    hm'.symm.trans (executeCommand_machine hresolve hperform)
  rw [hdone, readAway_programs, hcontext] at hp
  have hupdates := Asking.link_updates hhas
  obtain ⟨hlists, herror⟩ := Asking.linked_lists before hupdates.has hp hlinked hjoined hfits
  rw [hupdates.error_eq, ← hcontext] at herror
  refine ⟨⟨_, ?_, hlists⟩, ?_, fun hclear => ?_⟩
  · rw [hdone, readAway_registry]
    exact hrecord
  · rw [hdone, readAway_error, herror]
  · exact (congrArg Prod.fst hrun).symm.trans
      (executeCommand_ok hresolve hperform (herror.trans hclear))

/-- An array that the other stage declares as a plain uniform, the view block, and an input. -/
theorem linkProgram_lists_both_stages :
    let events : List Event := [.register 0, .register 1, .register 2,
      .command false [] ⟨.create (.shader "VERTEX_SHADER") 0, none⟩,
      .command false [] ⟨.shaderSource 0 "uniform float u[2]; in vec4 p; void main(){}", none⟩,
      .command false [] ⟨.compileShader 0, none⟩,
      .command false [] ⟨.create (.shader "FRAGMENT_SHADER") 1, none⟩,
      .command false [] ⟨.shaderSource 1
        "uniform float u; uniform ViewBlock \x7b vec3 at; float far; \x7d; void main(){}", none⟩,
      .command false [] ⟨.compileShader 1, none⟩,
      .command false [] ⟨.create .program 2, none⟩,
      .command false [] ⟨.attachShader 2 0, none⟩,
      .command false [] ⟨.attachShader 2 1, none⟩]
    let m := (fresh 1 1).after events
    let m' := (m.executeCommand true [] ⟨.linkProgram 2, none⟩).2
    ∃ p record, m'.context.objects.programs.get? 3 = some p ∧
      m'.registry.record ⟨2⟩ = .program record ∧ record.Lists p ∧
      record.uniforms = [⟨"u[0]", "FLOAT", 2, some 4⟩] ∧
      p.membersOf 0 = [⟨"at", "FLOAT_VEC3", 1, 0⟩, ⟨"far", "FLOAT", 1, 12⟩] ∧
      record.attributes = [⟨"p", "FLOAT_VEC4", 1, 0⟩] ∧
      m.executeCommand true [] ⟨.linkProgram 2, none⟩ = (.ok (), m') := by
  intro events m m'
  let p : ProgramObject := {
    vertexShader := some 1
    fragmentShader := some 2
    linked := true
    validated := true
    uniforms := [
      ⟨⟨"u[0]", .scalar .float, 2⟩, .loose 4⟩,
      ⟨⟨"at", .vector .float .three, 1⟩, .member 0 0⟩,
      ⟨⟨"far", .scalar .float, 1⟩, .member 0 12⟩]
    blocks := [⟨"ViewBlock", 16, 0, 2⟩]
    attributes := [⟨⟨"p", .vector .float .four, 1⟩, 0⟩] }
  obtain ⟨hh, hid, hclear, hp⟩ : m.registry.handle 2 = .ok ⟨2⟩ ∧
      m.registry.object ⟨2⟩ .program = .ok 3 ∧
      ((fresh 1 1).after events).context.error = none ∧
      m'.context.objects.programs.get? 3 = some p := by
    decide +kernel
  have hfits : p.Fits := ⟨by decide, by decide, by decide, by decide⟩
  have huniforms : p.looseRecords = [⟨"u[0]", "FLOAT", 2, some 4⟩] := by decide
  have hmembers : p.membersOf 0 = [⟨"at", "FLOAT_VEC3", 1, 0⟩, ⟨"far", "FLOAT", 1, 12⟩] := by
    decide
  have hattributes : p.attributes.map p.attributeRecord = [⟨"p", "FLOAT_VEC4", 1, 0⟩] := by
    decide
  have hrun : m.executeCommand true [] ⟨.linkProgram 2, none⟩ =
      ((m.executeCommand true [] ⟨.linkProgram 2, none⟩).1, m') :=
    (Prod.eta _).symm
  obtain ⟨⟨record, hrecord, hlists⟩, -, hdone⟩ :=
    linkProgram_lists 1 1 events hrun hh hid hp rfl hfits
  exact ⟨p, record, hp, hrecord, hlists, hlists.uniforms.trans huniforms, hmembers,
    hlists.attributes.trans hattributes,
    hrun.trans (congrArg (fun result => (result, m')) (hdone hclear))⟩

end Machine

end GlPlayback
