import GlPlayback.Proofs.Gl.Cells
import GlPlayback.Proofs.Interpreter.Relisting

/-!
Two contexts that have the same objects under other numbers, and the same in some of their cells.
They stay so while both are put the same calls under their own numbers, and a cell that a call sets
becomes one of those in which they have the same.
-/
namespace GlPlayback

/-- The call with the objects that it changes or binds under other numbers. -/
def Call.rename (f : ObjectId → ObjectId) : Call → Call
  | shaderSource shader source => .shaderSource (f shader) source
  | compileShader shader => .compileShader (f shader)
  | attachShader program shader => .attachShader (f program) (f shader)
  | bindAttributeLocation program index name => .bindAttributeLocation (f program) index name
  | linkProgram program => .linkProgram (f program)
  | bindBuffer target buffer => .bindBuffer target (buffer.map f)
  | bindBufferBase target index buffer => .bindBufferBase target index (buffer.map f)
  | bindVertexArray array => .bindVertexArray (array.map f)
  | call => call

namespace Context

open Attempt

/-- The cells that a link goes by. -/
def linkCells (ctx : Context) (program : ObjectId) : List Cell :=
  match ctx.draft? program with
  | none => []
  | some draft =>
      [.attached program .vertex, .attached program .fragment] ++
        (draft.vertexShader.toList ++ draft.fragmentShader.toList).map .code ++
        ((draft.vertexShader.bind ctx.shader?).elim [] fun shader =>
          shader.interface.attributes.map fun decl => .wanted program decl.name)

/-- The cells that a call goes by. -/
def goesBy (ctx : Context) : Call → List Cell
  | .compileShader shader => [.source shader]
  | .linkProgram program => ctx.linkCells program
  | _ => []

/-- The other context has the same objects under the numbers that `f` gives them, the numbers to
come included, and the same in the cells that are known. -/
structure Echoes (f : ObjectId → ObjectId) (known : Cell → Prop) (ctx ctx' : Context) : Prop where
  injective : Function.Injective f
  ahead : ∀ k, f (ctx.nextId + k) = ctx'.nextId + k
  has_iff : ∀ what id, ctx'.objects.Has what (f id) ↔ ctx.objects.Has what id
  agrees : ∀ cell, known cell → cell.Agrees f ctx ctx'
  sane : ctx.Sane
  sane' : ctx'.Sane

variable {f : ObjectId → ObjectId} {known : Cell → Prop} {ctx ctx' : Context} {call : Call}

/-- The cells that are known after a call. -/
def learn (ctx : Context) (call : Call) (known : Cell → Prop) (cell : Cell) : Prop :=
  cell ∈ ctx.sets call ∨ (known cell ∧ cell ∉ blurs call)

namespace Echoes

theorem mono {fewer : Cell → Prop} (h : ctx.Echoes f known ctx')
    (hfewer : ∀ cell, fewer cell → known cell) : ctx.Echoes f fewer ctx' :=
  ⟨h.injective, h.ahead, h.has_iff, fun cell hcell => h.agrees cell (hfewer cell hcell), h.sane,
    h.sane'⟩

theorem nextId_eq (h : ctx.Echoes f known ctx') : f ctx.nextId = ctx'.nextId :=
  h.ahead 0

theorem stage_eq (h : ctx.Echoes f known ctx') (id : ObjectId) :
    (ctx'.shader? (f id)).map (·.stage) = (ctx.shader? id).map (·.stage) := by
  cases hs : ctx.shader? id with
  | none =>
      have hnone : ctx'.shader? (f id) = none :=
        shader?_eq_none_iff.mpr fun stage hhas =>
          shader?_eq_none_iff.mp hs stage ((h.has_iff _ _).mp hhas)
      rw [hnone]
  | some s =>
      have hhas := (h.has_iff (.shader s.stage) id).mpr (shader?_stage hs)
      rw [shader?, Option.map_map]
      exact hhas

theorem isSome_draft?_eq (h : ctx.Echoes f known ctx') (id : ObjectId) :
    (ctx'.draft? (f id)).isSome = (ctx.draft? id).isSome :=
  Bool.eq_iff_iff.mpr
    (draft?_isSome_iff.trans ((h.has_iff .program id).trans draft?_isSome_iff.symm))

theorem accepts_eq (h : ctx.Echoes f known ctx') (target : UInt32) (buffer : Option ObjectId) :
    ctx'.accepts (.bindBuffer target (buffer.map f)) = ctx.accepts (.bindBuffer target buffer) := by
  rw [accepts_bindBuffer, accepts_bindBuffer]
  cases buffer with
  | none => rfl
  | some id =>
      have hhas : (ctx'.objects.buffers.get? (f id)).isSome =
          (ctx.objects.buffers.get? id).isSome := Bool.eq_iff_iff.mpr (h.has_iff .buffer id)
      simp only [Option.map_some, Option.all_some, hhas]

theorem sets_rename (h : ctx.Echoes f known ctx') (call : Call) :
    ctx'.sets (call.rename f) = (ctx.sets call).map (Cell.rename f) := by
  cases call with
  | attachShader program shader =>
      have hstage := congrArg (Option.map fun stage => Cell.attached (f program) stage)
        (h.stage_eq shader)
      simp only [Option.map_map, Function.comp_def] at hstage
      simp only [sets, Call.rename, hstage]
      cases ctx.shader? shader <;> rfl
  | bindAttributeLocation program index name =>
      simp only [sets, Call.rename]
      split <;> rfl
  | bindBuffer target buffer =>
      simp only [sets, Call.rename, h.accepts_eq]
      split <;> rfl
  | bindBufferBase target index buffer =>
      simp only [sets, Call.rename, accepts_bindBufferBase]
      split <;> rfl
  | _ => rfl

theorem blurs_rename (f : ObjectId → ObjectId) (call : Call) :
    blurs (call.rename f) = (blurs call).map (Cell.rename f) := by
  cases call <;> rfl

/-- The code of a shader is that of the source that it is compiled from. -/
theorem agrees_code (h : ctx.Echoes f known ctx') {shader : ObjectId}
    (hsource : (Cell.source shader).Agrees f ctx ctx') :
    (Cell.code shader).Agrees f (ctx.exec (.compileShader shader)).2
      (ctx'.exec (.compileShader (f shader))).2 := by
  have hstage := h.stage_eq shader
  simp only [Cell.Agrees] at hsource
  simp only [Cell.Agrees, exec_compileShader_shader?, if_true, Option.map_map]
  cases hs : ctx.shader? shader with
  | none =>
      rw [hs] at hstage
      rw [Option.map_eq_none_iff.mp hstage]
  | some s =>
      rw [hs] at hstage hsource
      obtain ⟨s', hs', hstage⟩ := Option.map_eq_some_iff.mp hstage
      rw [hs'] at hsource ⊢
      exact congrArg some (ShaderObject.code_compile hstage (Option.some.inj hsource))

theorem agrees_attached (h : ctx.Echoes f known ctx') {program shader : ObjectId}
    {s : ShaderObject} (hs : ctx.shader? shader = some s) :
    (Cell.attached program s.stage).Agrees f (ctx.exec (.attachShader program shader)).2
      (ctx'.exec (.attachShader (f program) (f shader))).2 := by
  have hdraft := h.isSome_draft?_eq program
  have hstage := h.stage_eq shader
  rw [hs] at hstage
  obtain ⟨s', hs', hstage⟩ := Option.map_eq_some_iff.mp hstage
  simp only [Cell.Agrees, exec_attachShader_draft?, hs, hs', if_true, Option.bind_map,
    Function.comp_def, ProgramObject.attached_attach, hstage]
  cases hd : ctx.draft? program <;> cases hd' : ctx'.draft? (f program) <;> simp_all

theorem agrees_wanted (h : ctx.Echoes f known ctx') (program : ObjectId) {index : UInt32}
    (hindex : index.toNat < attributeSlots) (name : String) :
    (Cell.wanted program name).Agrees f
      (ctx.exec (.bindAttributeLocation program index name)).2
      (ctx'.exec (.bindAttributeLocation (f program) index name)).2 := by
  have hdraft := h.isSome_draft?_eq program
  simp only [Cell.Agrees, exec_bindAttributeLocation_draft?, if_pos hindex, if_true,
    Option.bind_map, Function.comp_def, Table.get?_insert]
  cases hd : ctx.draft? program <;> cases hd' : ctx'.draft? (f program) <;> simp_all

/-- Both contexts have the same in a cell that both were told of. -/
theorem agrees_set (h : ctx.Echoes f known ctx') (hknown : ∀ cell ∈ ctx.goesBy call, known cell)
    {cell : Cell} (hcell : cell ∈ ctx.sets call) :
    cell.Agrees f (ctx.exec call).2 (ctx'.exec (call.rename f)).2 := by
  cases call with
  | shaderSource shader source =>
      cases List.mem_singleton.mp hcell
      have hsource := congrArg (Option.map fun _ => source) (h.stage_eq shader)
      simp only [Option.map_map] at hsource
      simp only [Cell.Agrees, Call.rename, exec_shaderSource_shader?, if_true, Option.map_map]
      exact hsource
  | compileShader shader =>
      cases List.mem_singleton.mp hcell
      exact h.agrees_code (h.agrees _ (hknown _ List.mem_cons_self))
  | attachShader program shader =>
      simp only [sets] at hcell
      cases hs : ctx.shader? shader with
      | none =>
          rw [hs] at hcell
          cases hcell
      | some s =>
          rw [hs] at hcell
          cases List.mem_singleton.mp hcell
          exact h.agrees_attached hs
  | bindAttributeLocation program index name =>
      simp only [sets] at hcell
      split at hcell
      · next hindex =>
          cases List.mem_singleton.mp hcell
          exact h.agrees_wanted program hindex name
      · cases hcell
  | bindBuffer target buffer =>
      have haccepts := h.accepts_eq target buffer
      cases hown : ctx.accepts (.bindBuffer target buffer) with
      | false => simp [sets, hown] at hcell
      | true =>
          simp only [sets, hown, if_true] at hcell
          cases List.mem_singleton.mp hcell
          simp only [Cell.Agrees, Call.rename, exec_bindBuffer_bound, haccepts, hown, and_self,
            if_true]
  | bindBufferBase target index buffer =>
      have haccepts : ctx'.accepts (.bindBufferBase target index (buffer.map f)) =
          ctx.accepts (.bindBufferBase target index buffer) := by
        rw [accepts_bindBufferBase, accepts_bindBufferBase]
      cases hown : ctx.accepts (.bindBufferBase target index buffer) with
      | false => simp [sets, hown] at hcell
      | true =>
          simp only [sets, hown, if_true] at hcell
          cases List.mem_singleton.mp hcell
          simp only [Cell.Agrees, Call.rename, exec_bindBufferBase_bound, haccepts, hown, and_self,
            if_true]
  | _ => cases hcell

/-- A call that gives out no number, put to both contexts. -/
theorem exec (h : ctx.Echoes f known ctx') (call : Call) (hgives : call.givesNumbers = false)
    (hknown : ∀ cell ∈ ctx.goesBy call, known cell) :
    (ctx.exec call).2.Echoes f (ctx.learn call known) (ctx'.exec (call.rename f)).2 := by
  have hgives' : (call.rename f).givesNumbers = false := by
    rw [← hgives]
    cases call <;> rfl
  have hsame := ctx.exec_same hgives
  have hsame' := ctx'.exec_same hgives'
  refine ⟨h.injective, ?_, ?_, ?_, h.sane.exec call, h.sane'.exec _⟩
  · rw [hsame.nextId_eq, hsame'.nextId_eq]
    exact h.ahead
  · intro what id
    rw [hsame.has_iff, hsame'.has_iff]
    exact h.has_iff what id
  · intro cell hcell
    by_cases hset : cell ∈ ctx.sets call
    · exact h.agrees_set hknown hset
    · obtain ⟨hold, hblurs⟩ := hcell.resolve_left hset
      have hrenamed {cells : List Cell} (hcells : cell ∉ cells) :
          cell.rename f ∉ cells.map (Cell.rename f) := by
        intro hmem
        obtain ⟨other, hother, heq⟩ := List.mem_map.mp hmem
        exact hcells (Cell.rename_injective h.injective heq ▸ hother)
      have hmakes {call : Call} (hgives : call.givesNumbers = false) :
          ¬ ((∃ type, call = .createShader type) ∨ call = .createProgram) := by
        rintro (⟨type, rfl⟩ | rfl)
        · cases hgives
        · cases hgives
      apply (h.agrees cell hold).kept
      · exact exec_kept h.sane.numbered h.sane.held hset hblurs fun hmade =>
          absurd hmade (hmakes hgives)
      · apply exec_kept h.sane'.numbered h.sane'.held
        · rw [h.sets_rename]
          exact hrenamed hset
        · rw [blurs_rename]
          exact hrenamed hblurs
        · exact fun hmade => absurd hmade (hmakes hgives')

section Rests

variable {ctx₁ : Context}

/-- What only one of the contexts goes through does not matter if it changes nothing there. -/
theorem rests_left (h : ctx.Echoes f known ctx') (hrests : ctx.Rests ctx₁) (hsane : ctx₁.Sane) :
    ctx₁.Echoes f known ctx' := by
  refine ⟨h.injective, ?_, ?_, ?_, hsane, h.sane'⟩
  · rw [hrests.same.nextId_eq]
    exact h.ahead
  · intro what id
    rw [hrests.same.has_iff]
    exact h.has_iff what id
  · intro cell hcell
    exact (h.agrees cell hcell).kept (hrests.kept cell) (.refl _)

theorem rests_right (h : ctx.Echoes f known ctx') (hrests : ctx'.Rests ctx₁) (hsane : ctx₁.Sane) :
    ctx.Echoes f known ctx₁ := by
  refine ⟨h.injective, ?_, ?_, ?_, h.sane, hsane⟩
  · rw [hrests.same.nextId_eq]
    exact h.ahead
  · intro what id
    rw [hrests.same.has_iff]
    exact h.has_iff what id
  · intro cell hcell
    exact (h.agrees cell hcell).kept (.refl _) (hrests.kept _)

end Rests

/-- Calls on the side may differ, and one context may be put more of them. -/
theorem issueAll (h : ctx.Echoes f known ctx') {calls calls' : List Call}
    (hcalls : ∀ call ∈ calls, call.isAside = true)
    (hcalls' : ∀ call ∈ calls', call.isAside = true) :
    (ctx.issueAll calls).Echoes f known (ctx'.issueAll calls') :=
  (h.rests_left (h.sane.issueAll_rests hcalls) (h.sane.issueAll calls)).rests_right
    (h.sane'.issueAll_rests hcalls') (h.sane'.issueAll calls')

end Echoes

end Context

/-- A new shader as links see it, if this is one. -/
def NewObject.shader? : NewObject → Option ShaderObject
  | shader stage => some { stage }
  | _ => none

/-- A new program as its next link takes it, if this is one. -/
def NewObject.draft? : NewObject → Option ProgramObject
  | program => some {}
  | _ => none

namespace Context

variable {f : ObjectId → ObjectId} {known : Cell → Prop} {ctx ctx' : Context}

theorem exec_creation_makes (what : NewObject) :
    ctx.Makes what (ctx.exec (Asking.creation what)).2 := by
  have hmakes := (Asking.make_run what ctx).2
  rw [Asking.run_context, Asking.calls_make] at hmakes
  exact hmakes

/-- Nothing was ever written to a new object. -/
theorem Numbered.exec_creation (hn : ctx.Numbered) (what : NewObject) :
    (ctx.exec (Asking.creation what)).2.shader? ctx.nextId = what.shader? ∧
      (ctx.exec (Asking.creation what)).2.draft? ctx.nextId = what.draft? := by
  obtain ⟨hshader, hdraft⟩ := hn.unused (Nat.le_refl _)
  cases what with
  | shader stage =>
      refine ⟨?_, ?_⟩
      · rw [Asking.creation, exec_createShader_shader?, if_pos rfl, NewObject.shader?]
      · refine (congrFun (exec_draft? ?_ ?_ ?_) ctx.nextId).trans hdraft <;> simp [Asking.creation]
  | program =>
      refine ⟨?_, ?_⟩
      · refine (congrFun (exec_shader? ?_ ?_ ?_) ctx.nextId).trans hshader <;>
        simp [Asking.creation]
      · rw [Asking.creation, exec_createProgram_draft?, if_pos rfl, NewObject.draft?]
  | texture | buffer | vertexArray | framebuffer =>
      refine ⟨?_, ?_⟩
      · refine (congrFun (exec_shader? ?_ ?_ ?_) ctx.nextId).trans hshader <;>
        simp [Asking.creation]
      · refine (congrFun (exec_draft? ?_ ?_ ?_) ctx.nextId).trans hdraft <;> simp [Asking.creation]

namespace Echoes

theorem agrees_creation (h : ctx.Echoes f known ctx') (what : NewObject) {cell : Cell}
    (hcell : cell.object? = some ctx.nextId) :
    cell.Agrees f (ctx.exec (Asking.creation what)).2 (ctx'.exec (Asking.creation what)).2 := by
  obtain ⟨hshader, hdraft⟩ := h.sane.numbered.exec_creation what
  obtain ⟨hshader', hdraft'⟩ := h.sane'.numbered.exec_creation what
  rw [← h.nextId_eq] at hshader' hdraft'
  cases cell with
  | source id | code id =>
      cases hcell
      simp only [Cell.Agrees, hshader, hshader']
  | attached id stage =>
      cases hcell
      simp only [Cell.Agrees, hdraft, hdraft']
      cases what <;> cases stage <;> rfl
  | wanted id name =>
      cases hcell
      simp only [Cell.Agrees, hdraft, hdraft']
  | bound target => cases hcell

/-- Both contexts make an object, each under its next number. -/
theorem creation (h : ctx.Echoes f known ctx') (what : NewObject) :
    (ctx.exec (Asking.creation what)).2.Echoes f known (ctx'.exec (Asking.creation what)).2 := by
  have hmakes := ctx.exec_creation_makes what
  have hmakes' := ctx'.exec_creation_makes what
  refine ⟨h.injective, ?_, ?_, ?_, h.sane.exec _, h.sane'.exec _⟩
  · intro k
    rw [hmakes.nextId_eq, hmakes'.nextId_eq, Nat.add_assoc, Nat.add_assoc]
    exact h.ahead (1 + k)
  · intro what' id
    rw [hmakes.has_iff h.sane.numbered, hmakes'.has_iff h.sane'.numbered, h.has_iff,
      ← h.nextId_eq, h.injective.eq_iff]
  · intro cell hcell
    by_cases hnew : cell.object? = some ctx.nextId
    · exact h.agrees_creation what hnew
    · have hsets (c : Context) : c.sets (Asking.creation what) = [] := by cases what <;> rfl
      have hblurs : blurs (Asking.creation what) = [] := by cases what <;> rfl
      apply (h.agrees cell hcell).kept
      · apply exec_kept h.sane.numbered h.sane.held
        · simp [hsets]
        · simp [hblurs]
        · exact fun _ => hnew
      · apply exec_kept h.sane'.numbered h.sane'.held
        · simp [hsets]
        · simp [hblurs]
        · intro _ hnew'
          rw [Cell.object?_rename, ← h.nextId_eq] at hnew'
          obtain ⟨id, hid, heq⟩ := Option.map_eq_some_iff.mp hnew'
          exact hnew (by rw [hid, h.injective heq])

section Link

variable {program : ObjectId}

/-- A link sees of a shader what its last compilation came to. -/
theorem stageInterface_eq (ctx : Context) (stage : Stage) (attached : Option ObjectId) :
    Linking.stageInterface ctx.objects.shaders stage attached =
      match (attached.bind ctx.shader?).map (·.code) with
      | none => .error (.notAttached stage)
      | some code => if code.1 then .ok code.2.2 else .error (.notCompiled stage) := by
  simp only [Linking.stageInterface]
  cases attached with
  | none => rfl
  | some id =>
      simp only [Option.bind_some, shader?]
      cases ctx.objects.shaders.get? id <;> rfl

theorem linksAlike (h : ctx.Echoes f known ctx')
    (hknown : ∀ cell ∈ ctx.linkCells program, known cell) :
    ctx.LinksAlike program ctx' (f program) := by
  refine ⟨h.isSome_draft?_eq program, ?_⟩
  intro p p' hp hp'
  have hdraft : ctx.draft? program = some p.asDraft := by rw [draft?, hp, Option.map_some]
  have hdraft' : ctx'.draft? (f program) = some p'.asDraft := by rw [draft?, hp', Option.map_some]
  simp only [linkCells, hdraft] at hknown
  have hattached (stage : Stage) : p'.attached stage = (p.attached stage).map f := by
    have hagrees : (Cell.attached program stage).Agrees f ctx ctx' :=
      h.agrees _ (hknown _ (by cases stage <;> simp))
    simp only [Cell.Agrees, hdraft, hdraft', Option.bind_some] at hagrees
    cases stage <;> exact hagrees
  have hcode (stage : Stage) : ((p'.attached stage).bind ctx'.shader?).map (·.code) =
      ((p.attached stage).bind ctx.shader?).map (·.code) := by
    rw [hattached]
    cases hid : p.attached stage with
    | none => rfl
    | some id =>
        have hagrees : (Cell.code id).Agrees f ctx ctx' := by
          apply h.agrees _ (hknown _ _)
          cases stage <;> simp_all [ProgramObject.attached, ProgramObject.asDraft]
        exact hagrees
  refine ⟨?_, ?_⟩
  · intro stage
    rw [stageInterface_eq, stageInterface_eq, hcode]
  · intro interface hinterface decl hdecl
    have hagrees : (Cell.wanted program decl.name).Agrees f ctx ctx' := by
      apply h.agrees _ (hknown _ _)
      simp only [Linking.stageInterface] at hinterface
      cases hvertex : p.vertexShader with
      | none => simp [hvertex] at hinterface
      | some id =>
          cases hs : ctx.objects.shaders.get? id with
          | none => simp [hvertex, hs] at hinterface
          | some s =>
              simp only [hvertex, Option.bind_some, hs] at hinterface
              split at hinterface
              · cases hinterface
                have hshader : p.asDraft.vertexShader.bind ctx.shader? = some s.unmarked := by
                  simp only [ProgramObject.asDraft, hvertex, Option.bind_some, shader?, hs,
                    Option.map_some]
                rw [hshader, List.mem_append]
                exact .inr (List.mem_map_of_mem hdecl)
              · cases hinterface
    simp only [Cell.Agrees, hdraft, hdraft', Option.bind_some] at hagrees
    exact hagrees

/-- Both contexts link a program from the same. -/
theorem link (h : ctx.Echoes f known ctx') (hknown : ∀ cell ∈ ctx.linkCells program, known cell)
    (hpossible : (ctx.linkSummary? program).isSome = true) :
    (ctx.exec (.linkProgram program)).2.Echoes f known (ctx'.exec (.linkProgram (f program))).2 ∧
      Asking.ListAlike program (f program) (ctx.exec (.linkProgram program)).2
        (ctx'.exec (.linkProgram (f program))).2 := by
  obtain ⟨summary, hsummary⟩ := Option.isSome_iff_exists.mp hpossible
  have hsummary' : ctx'.linkSummary? (f program) = some summary :=
    (h.linksAlike hknown).linkSummary?_eq.trans hsummary
  obtain ⟨hnext, hlisted, hhas⟩ := exec_linkProgram hsummary
  obtain ⟨hnext', hlisted', hhas'⟩ := exec_linkProgram hsummary'
  refine ⟨⟨h.injective, ?_, ?_, ?_, h.sane.exec _, h.sane'.exec _⟩, hlisted'.trans hlisted.symm⟩
  · intro k
    rw [hnext, hnext', Nat.add_assoc, Nat.add_assoc]
    exact h.ahead (summary.1 + k)
  · intro what id
    rw [hhas, hhas']
    exact h.has_iff what id
  · intro cell hcell
    have hmakes (id : ObjectId) :
        ¬ ((∃ type, Call.linkProgram id = .createShader type) ∨
          Call.linkProgram id = .createProgram) := by
      simp
    exact (h.agrees cell hcell).kept
      (exec_kept h.sane.numbered h.sane.held List.not_mem_nil List.not_mem_nil fun hmade =>
        absurd hmade (hmakes _))
      (exec_kept h.sane'.numbered h.sane'.held List.not_mem_nil List.not_mem_nil fun hmade =>
        absurd hmade (hmakes _))

end Link

end Echoes

end Context

end GlPlayback
