import GlPlayback.Proofs.Gl.Relinking

/-!
What calls go by, besides what they say themselves, cut into cells. A call sets few of them, and it
leaves every other one as it was, unless the cell is part of an object that it makes.
-/
namespace GlPlayback

/-- What the last compilation of a shader came to. -/
def ShaderObject.code (s : ShaderObject) : Bool × String × ShaderInterface :=
  (s.compiled, s.log, s.interface)

theorem ShaderObject.source_compile (s : ShaderObject) : s.compile.source = s.source := by
  simp only [compile]
  split <;> rfl

/-- A compilation goes by the stage and the text. -/
theorem ShaderObject.code_compile {s s' : ShaderObject} (hstage : s'.stage = s.stage)
    (hsource : s'.source = s.source) : s'.compile.code = s.compile.code := by
  simp only [compile, hstage, hsource]
  split <;> rfl

namespace Context

open Attempt

inductive Cell where
  | source (shader : ObjectId)
  | code (shader : ObjectId)
  /-- The shader of a stage that the next link of a program takes. -/
  | attached (program : ObjectId) (stage : Stage)
  /-- The location that the next link of a program is to give an attribute. -/
  | wanted (program : ObjectId) (name : String)
  /-- The buffer bound to a target. -/
  | bound (target : UInt32)
  deriving DecidableEq, Repr

namespace Cell

/-- The object that a cell is part of. -/
def object? : Cell → Option ObjectId
  | source id | code id | attached id _ | wanted id _ => some id
  | bound _ => none

def rename (f : ObjectId → ObjectId) : Cell → Cell
  | source id => source (f id)
  | code id => code (f id)
  | attached id stage => attached (f id) stage
  | wanted id name => wanted (f id) name
  | bound target => bound target

variable {f : ObjectId → ObjectId} {ctx ctx' ctx₁ ctx₁' : Context}

theorem rename_injective (hf : Function.Injective f) : Function.Injective (rename f) := by
  intro c c' h
  cases c <;> cases c' <;> simp_all [rename, hf.eq_iff]

theorem object?_rename (c : Cell) : (c.rename f).object? = c.object?.map f := by
  cases c <;> rfl

/-- Another context has in a cell what this one has in it, with its objects renamed. -/
def Agrees (f : ObjectId → ObjectId) (ctx ctx' : Context) : Cell → Prop
  | source id => (ctx'.shader? (f id)).map (·.source) = (ctx.shader? id).map (·.source)
  | code id => (ctx'.shader? (f id)).map (·.code) = (ctx.shader? id).map (·.code)
  | attached id stage => (ctx'.draft? (f id)).bind (·.attached stage) =
      ((ctx.draft? id).bind (·.attached stage)).map f
  | wanted id name => (ctx'.draft? (f id)).bind (·.wanted.get? name) =
      (ctx.draft? id).bind (·.wanted.get? name)
  | bound target => ctx'.boundBuffer? target = (ctx.boundBuffer? target).map f

/-- A cell is what it was. -/
abbrev Kept (ctx ctx' : Context) : Cell → Prop :=
  Agrees id ctx ctx'

theorem Kept.refl (c : Cell) : c.Kept ctx ctx := by
  cases c <;> simp [Agrees]

theorem Kept.trans {c : Cell} (h : c.Kept ctx ctx₁) (h' : c.Kept ctx₁ ctx') : c.Kept ctx ctx' := by
  cases c <;> simp only [Agrees, id_eq, Option.map_id] at h h' ⊢ <;> exact h'.trans h

theorem Agrees.kept {c : Cell} (h : c.Agrees f ctx ctx') (hleft : c.Kept ctx ctx₁)
    (hright : (c.rename f).Kept ctx' ctx₁') : c.Agrees f ctx₁ ctx₁' := by
  cases c <;> simp only [Agrees, rename, id_eq, Option.map_id] at h hleft hright ⊢ <;>
    rw [hleft, hright, h]

end Cell

/-- A call is carried out. -/
def accepts (ctx : Context) (call : Call) : Bool :=
  match (ctx.countCall call.name).attempt call with
  | .ok _ => true
  | .error _ => false

theorem accepts_bindBuffer (ctx : Context) (target : UInt32) (buffer : Option ObjectId) :
    ctx.accepts (.bindBuffer target buffer) = (bufferTargets.contains target &&
      buffer.all fun id => (ctx.objects.buffers.get? id).isSome) := by
  simp only [accepts, attempt, bindBuffer, check]
  cases bufferTargets.contains target with
  | false => rfl
  | true =>
      cases buffer with
      | none => by_cases h : target = Enumerant.elementArrayBuffer <;> simp [h] <;> rfl
      | some id =>
          simp only [countCall]
          cases hget : ctx.objects.buffers.get? id with
          | none => simp [hget]; rfl
          | some b => by_cases h : target = Enumerant.elementArrayBuffer <;> simp [h, hget] <;> rfl

theorem accepts_bindBufferBase (ctx : Context) (target index : UInt32)
    (buffer : Option ObjectId) : ctx.accepts (.bindBufferBase target index buffer) =
      ((target == Enumerant.uniformBuffer || target == Enumerant.transformFeedbackBuffer) &&
        (target != Enumerant.uniformBuffer || decide (index < uniformBindings))) := by
  simp only [accepts, attempt, bindBufferBase, check]
  cases target == Enumerant.uniformBuffer || target == Enumerant.transformFeedbackBuffer with
  | false => rfl
  | true => cases target != Enumerant.uniformBuffer || decide (index < uniformBindings) <;> rfl

/-- The cells whose contents a call says. -/
def sets (ctx : Context) (call : Call) : List Cell :=
  match call with
  | .shaderSource shader _ => [.source shader]
  | .compileShader shader => [.code shader]
  | .attachShader program shader =>
      ((ctx.shader? shader).map fun s => .attached program s.stage).toList
  | .bindAttributeLocation program index name =>
      if index.toNat < attributeSlots then [.wanted program name] else []
  | .bindBuffer target _ | .bindBufferBase target _ _ =>
      if ctx.accepts call then [.bound target] else []
  | _ => []

/-- The cells that a call changes into what they were another time. -/
def blurs : Call → List Cell
  | .bindVertexArray _ => [.bound Enumerant.elementArrayBuffer]
  | _ => []

variable {ctx ctx' : Context} {call : Call}

theorem exec_createShader_other {type : UInt32} {id : ObjectId} (hid : ctx.nextId ≠ id) :
    (ctx.exec (.createShader type)).2.shader? id = ctx.shader? id := by
  cases hstage : Stage.ofCode? type with
  | none =>
      simp only [exec, attempt, createShader, hstage]
      rfl
  | some stage =>
      simp only [exec, attempt, createShader_of_ofCode? hstage]
      simp only [shader?, withShader, countCall, Table.get?_insert, if_neg hid]

section Kept

variable {id : ObjectId} {stage : Stage} {name : String} {target : UInt32}

theorem exec_source (hcreate : (∃ type, call = .createShader type) → ctx.nextId ≠ id)
    (hsource : ∀ source, call ≠ .shaderSource id source) :
    ((ctx.exec call).2.shader? id).map (·.source) = (ctx.shader? id).map (·.source) := by
  cases call with
  | createShader type => rw [exec_createShader_other (hcreate ⟨type, rfl⟩)]
  | shaderSource shader source =>
      have hne : shader ≠ id := fun heq => hsource source (by rw [heq])
      rw [exec_shaderSource_shader?, if_neg hne]
  | compileShader shader =>
      rw [exec_compileShader_shader?]
      split
      · simp only [Option.map_map, Function.comp_def, ShaderObject.source_compile]
      · rfl
  | _ => refine congrArg (Option.map _) (congrFun (exec_shader? ?_ ?_ ?_) id) <;> nofun

theorem exec_code (hcreate : (∃ type, call = .createShader type) → ctx.nextId ≠ id)
    (hcompile : call ≠ .compileShader id) :
    ((ctx.exec call).2.shader? id).map (·.code) = (ctx.shader? id).map (·.code) := by
  cases call with
  | createShader type => rw [exec_createShader_other (hcreate ⟨type, rfl⟩)]
  | shaderSource shader source =>
      rw [exec_shaderSource_shader?]
      split
      · rw [Option.map_map]
        rfl
      · rfl
  | compileShader shader =>
      have hne : shader ≠ id := fun heq => hcompile (by rw [heq])
      rw [exec_compileShader_shader?, if_neg hne]
  | _ => refine congrArg (Option.map _) (congrFun (exec_shader? ?_ ?_ ?_) id) <;> nofun

theorem exec_attached (hcreate : call = .createProgram → ctx.nextId ≠ id)
    (hsets : .attached id stage ∉ ctx.sets call) :
    ((ctx.exec call).2.draft? id).bind (·.attached stage) =
      (ctx.draft? id).bind (·.attached stage) := by
  cases call with
  | createProgram => rw [exec_createProgram_draft?, if_neg (hcreate rfl)]
  | attachShader program shader =>
      rw [exec_attachShader_draft?]
      cases hs : ctx.shader? shader with
      | none => rfl
      | some s =>
          simp only [sets, hs, Option.map_some, Option.toList_some, List.mem_singleton,
            Cell.attached.injEq, not_and] at hsets
          simp only
          split
          · next heq =>
              have hne : s.stage ≠ stage := fun hstage => hsets heq.symm hstage.symm
              simp only [Option.bind_map, Function.comp_def, ProgramObject.attached_attach,
                if_neg hne]
          · rfl
  | bindAttributeLocation program index name =>
      rw [exec_bindAttributeLocation_draft?]
      split
      · split
        · rw [Option.bind_map]
          cases stage <;> rfl
        · rfl
      · rfl
  | _ => refine congrArg (Option.bind · _) (congrFun (exec_draft? ?_ ?_ ?_) id) <;> nofun

theorem exec_wanted (hcreate : call = .createProgram → ctx.nextId ≠ id)
    (hsets : .wanted id name ∉ ctx.sets call) :
    ((ctx.exec call).2.draft? id).bind (·.wanted.get? name) =
      (ctx.draft? id).bind (·.wanted.get? name) := by
  cases call with
  | createProgram => rw [exec_createProgram_draft?, if_neg (hcreate rfl)]
  | attachShader program shader =>
      rw [exec_attachShader_draft?]
      cases ctx.shader? shader with
      | none => rfl
      | some s =>
          simp only
          split
          · rw [Option.bind_map]
            cases s.stage <;> rfl
          · rfl
  | bindAttributeLocation program index other =>
      rw [exec_bindAttributeLocation_draft?]
      split
      · next hindex =>
          simp only [sets, if_pos hindex, List.mem_singleton, Cell.wanted.injEq, not_and] at hsets
          split
          · next heq =>
              have hne : other ≠ name := fun hname => hsets heq.symm hname.symm
              simp only [Option.bind_map, Function.comp_def, Table.get?_insert, if_neg hne]
          · rfl
      · rfl
  | _ => refine congrArg (Option.bind · _) (congrFun (exec_draft? ?_ ?_ ?_) id) <;> simp

/-- A call that binds a buffer to a target does so if it is carried out. -/
theorem exec_binds (call : Call) {buffer : Option ObjectId} {changed : Attempt Context}
    (hbinds : (ctx.countCall call.name).Binds target buffer changed)
    (hcall : Yields (fun answered => changed = .ok answered.2) (fun e => changed = .error e)
      ((ctx.countCall call.name).attempt call)) (other : UInt32) :
    (ctx.exec call).2.boundBuffer? other =
      if ctx.accepts call = true ∧ target = other then buffer else ctx.boundBuffer? other := by
  apply exec_of_yields fun ctx' => ctx'.boundBuffer? other =
    if ctx.accepts call = true ∧ target = other then buffer else ctx.boundBuffer? other
  apply Yields.of_forall
  · intro answered hanswered
    have haccepts : ctx.accepts call = true := by rw [accepts, hanswered]
    rw [haccepts, hbinds.value (hcall.value hanswered) other]
    simp only [true_and]
    rfl
  · intro e he error lost
    have hrefused : ctx.accepts call = false := by rw [accepts, he]
    simp only [hrefused, Bool.false_eq_true, false_and, if_false]
    rfl

theorem exec_bindBuffer_bound (buffer : Option ObjectId) (other : UInt32) :
    (ctx.exec (.bindBuffer target buffer)).2.boundBuffer? other =
      if ctx.accepts (.bindBuffer target buffer) = true ∧ target = other then buffer
      else ctx.boundBuffer? other :=
  exec_binds (.bindBuffer target buffer) (bindBuffer_binds _ target buffer) (yields_effect _) other

theorem exec_bindBufferBase_bound (index : UInt32) (buffer : Option ObjectId) (other : UInt32) :
    (ctx.exec (.bindBufferBase target index buffer)).2.boundBuffer? other =
      if ctx.accepts (.bindBufferBase target index buffer) = true ∧ target = other then buffer
      else ctx.boundBuffer? other :=
  exec_binds (.bindBufferBase target index buffer)
    (bindBufferBase_binds _ target index buffer) (yields_effect _) other

end Kept

/-- A call leaves every cell that it neither sets nor blurs, unless it makes the cell's object. -/
theorem exec_kept (hn : ctx.Numbered) (hheld : ctx.HoldsArray) {cell : Cell}
    (hsets : cell ∉ ctx.sets call) (hblurs : cell ∉ blurs call)
    (hmakes : (∃ type, call = .createShader type) ∨ call = .createProgram →
      cell.object? ≠ some ctx.nextId) : cell.Kept ctx (ctx.exec call).2 := by
  have hother {id : ObjectId} (h : some id ≠ some ctx.nextId) : ctx.nextId ≠ id :=
    fun heq => h (congrArg some heq.symm)
  cases cell with
  | source id =>
      refine exec_source (fun hcreate => hother (hmakes (.inl hcreate))) ?_
      rintro source rfl
      exact hsets List.mem_cons_self
  | code id =>
      refine exec_code (fun hcreate => hother (hmakes (.inl hcreate))) ?_
      rintro rfl
      exact hsets List.mem_cons_self
  | attached id stage =>
      rw [Cell.Kept, Cell.Agrees, Option.map_id]
      exact exec_attached (fun hcreate => hother (hmakes (.inr hcreate))) hsets
  | wanted id name =>
      exact exec_wanted (fun hcreate => hother (hmakes (.inr hcreate))) hsets
  | bound target =>
      rw [Cell.Kept, Cell.Agrees, Option.map_id]
      by_cases hrebinds : call.Rebinds target
      · cases call with
        | bindBuffer other buffer =>
            cases (hrebinds : other = target)
            have hrefused : ctx.accepts (.bindBuffer target buffer) ≠ true := by
              intro haccepts
              simp [sets, haccepts] at hsets
            rw [exec_bindBuffer_bound, if_neg fun h => hrefused h.1]
            rfl
        | bindBufferBase other index buffer =>
            cases (hrebinds.1 : other = target)
            have hrefused : ctx.accepts (.bindBufferBase target index buffer) ≠ true := by
              intro haccepts
              simp [sets, haccepts] at hsets
            rw [exec_bindBufferBase_bound, if_neg fun h => hrefused h.1]
            rfl
        | bindVertexArray array =>
            cases (hrebinds : target = Enumerant.elementArrayBuffer)
            exact absurd List.mem_cons_self hblurs
        | _ => cases hrebinds
      · exact exec_bound hn hheld hrebinds

/-- A context as calls leave it. -/
structure Sane (ctx : Context) : Prop where
  numbered : ctx.Numbered
  held : ctx.HoldsArray

theorem Sane.exec (h : ctx.Sane) (call : Call) : (ctx.exec call).2.Sane :=
  ⟨(ctx.exec_grows call).numbered h.numbered, h.held.exec h.numbered call⟩

/-- The other context has the same objects, and the same in every cell. -/
structure Rests (ctx ctx' : Context) : Prop where
  same : ctx.SameObjects ctx'
  kept : ∀ cell : Cell, cell.Kept ctx ctx'

theorem Rests.refl (ctx : Context) : ctx.Rests ctx :=
  ⟨.refl ctx, Cell.Kept.refl⟩

theorem Rests.trans {ctx'' : Context} (h : ctx.Rests ctx') (h' : ctx'.Rests ctx'') :
    ctx.Rests ctx'' :=
  ⟨h.same.trans h'.same, fun cell => (h.kept cell).trans (h'.kept cell)⟩

end Context

/-- The calls that give out no number and change no cell. -/
def Call.isAside : Call → Bool
  | shaderSource _ _ | compileShader _ | attachShader _ _ | bindAttributeLocation _ _ _
  | bindBuffer _ _ | bindBufferBase _ _ _ | bindVertexArray _ => false
  | call => !call.givesNumbers

theorem Call.sets_of_aside {ctx : Context} {call : Call} (hcall : call.isAside = true) :
    ctx.sets call = [] := by
  cases call <;> first | rfl | cases hcall

namespace Context

variable {ctx ctx' : Context}

theorem Sane.exec_rests (h : ctx.Sane) {call : Call} (hcall : call.isAside = true) :
    ctx.Rests (ctx.exec call).2 := by
  have hgives : call.givesNumbers = false := by cases call <;> first | rfl | cases hcall
  have hblurs : blurs call = [] := by cases call <;> first | rfl | cases hcall
  refine ⟨exec_same hgives, fun cell => exec_kept h.numbered h.held ?_ ?_ ?_⟩
  · rw [Call.sets_of_aside hcall]
    exact List.not_mem_nil
  · rw [hblurs]
    exact List.not_mem_nil
  · rintro (⟨type, rfl⟩ | rfl)
    · cases hgives
    · cases hgives

theorem Sane.issueAll (h : ctx.Sane) (calls : List Call) : (ctx.issueAll calls).Sane := by
  induction calls generalizing ctx with
  | nil => exact h
  | cons call rest ih => exact ih (h.exec call)

theorem Sane.issueAll_rests (h : ctx.Sane) {calls : List Call}
    (hcalls : ∀ call ∈ calls, call.isAside = true) : ctx.Rests (ctx.issueAll calls) := by
  induction calls generalizing ctx with
  | nil => exact .refl ctx
  | cons call rest ih =>
      obtain ⟨hcall, hrest⟩ := List.forall_mem_cons.mp hcalls
      exact (h.exec_rests hcall).trans (ih (h.exec call) hrest)

end Context

end GlPlayback
