import GlPlayback.Proofs.Gl.Bound

/-!
What the next link of a program goes by: the shaders as they were written and compiled, and which of
them, and which attribute locations, a program is to be linked with. Few calls change that.
-/
namespace GlPlayback

open Attempt

/-- A shader, whether or not it is marked as deleted. -/
def ShaderObject.unmarked (s : ShaderObject) : ShaderObject :=
  { s with deleted := false }

theorem ShaderObject.unmarked_compile (s : ShaderObject) :
    s.compile.unmarked = s.unmarked.compile := by
  simp only [compile, unmarked]
  split <;> rfl

def ProgramObject.attached (p : ProgramObject) : Stage → Option ObjectId
  | .vertex => p.vertexShader
  | .fragment => p.fragmentShader

/-- A program as its next link takes it. -/
def ProgramObject.asDraft (p : ProgramObject) : ProgramObject where
  vertexShader := p.vertexShader
  fragmentShader := p.fragmentShader
  wanted := p.wanted

theorem ProgramObject.asDraft_attach (p : ProgramObject) (shader : ObjectId) (stage : Stage) :
    (p.attach shader stage).asDraft = p.asDraft.attach shader stage := by
  cases stage <;> rfl

theorem ProgramObject.attached_attach (p : ProgramObject) (shader : ObjectId)
    (stage other : Stage) :
    (p.attach shader stage).attached other =
      if stage = other then some shader else p.attached other := by
  cases stage <;> cases other <;> rfl

theorem Linking.link_asDraft {shaders : Table ObjectId ShaderObject} {location : ObjectId}
    {p : ProgramObject} {outcome : Outcome} (h : link shaders location p = some outcome) :
    outcome.program.asDraft = p.asDraft := by
  simp only [link] at h
  split at h
  · cases h
    rfl
  · split at h
    · cases h
    · cases h
      rfl
    · cases h
      rfl

namespace Context

variable {ctx ctx' : Context}

/-- A shader as links see it. -/
def shader? (ctx : Context) (id : ObjectId) : Option ShaderObject :=
  (ctx.objects.shaders.get? id).map ShaderObject.unmarked

/-- A program as its next link takes it. -/
def draft? (ctx : Context) (id : ObjectId) : Option ProgramObject :=
  (ctx.objects.programs.get? id).map ProgramObject.asDraft

theorem shader?_of_part (h : ctx'.part .shaderObjects = ctx.part .shaderObjects) :
    ctx'.shader? = ctx.shader? := by
  have hshaders : ctx'.objects.shaders = ctx.objects.shaders := h
  funext id
  simp only [shader?, hshaders]

theorem draft?_of_part (h : ctx'.part .programObjects = ctx.part .programObjects) :
    ctx'.draft? = ctx.draft? := by
  have hprograms : ctx'.objects.programs = ctx.objects.programs := h
  funext id
  simp only [draft?, hprograms]

theorem shader?_stage {id : ObjectId} {s : ShaderObject} (hs : ctx.shader? id = some s) :
    ctx.objects.Has (.shader s.stage) id := by
  obtain ⟨own, hown, rfl⟩ := Option.map_eq_some_iff.mp hs
  simp only [ObjectTables.Has, hown]
  rfl

theorem shader?_eq_none_iff {id : ObjectId} :
    ctx.shader? id = none ↔ ∀ stage, ¬ ctx.objects.Has (.shader stage) id := by
  simp only [shader?, ObjectTables.Has]
  cases ctx.objects.shaders.get? id <;> simp

theorem draft?_isSome_iff {id : ObjectId} :
    (ctx.draft? id).isSome ↔ ctx.objects.Has .program id := by
  simp only [draft?, Option.isSome_map]
  rfl

/-- There is nothing under a number that was not given out. -/
theorem Numbered.unused (hn : ctx.Numbered) {id : ObjectId} (hid : ctx.nextId ≤ id) :
    ctx.shader? id = none ∧ ctx.draft? id = none := by
  have hnone (what : NewObject) : ¬ ctx.objects.Has what id :=
    fun hhas => Nat.not_lt.mpr hid (hn.below hhas)
  refine ⟨shader?_eq_none_iff.mpr fun stage => hnone (.shader stage), ?_⟩
  exact Option.not_isSome_iff_eq_none.mp fun hsome => hnone .program (draft?_isSome_iff.mp hsome)

section Shaders

variable (x y : ObjectId)

theorem changeShader_shader? {change change' : ShaderObject → ShaderObject}
    (hchange : ∀ s, (change s).unmarked = change' s.unmarked) :
    Yields (fun ctx' => ctx'.shader? y =
        if x = y then (ctx.shader? y).map change' else ctx.shader? y)
      (fun _ => ctx.shader? x = none) (ctx.changeShader x change) := by
  simp only [changeShader]
  cases hx : ctx.objects.shaders.get? x with
  | none => exact congrArg (Option.map ShaderObject.unmarked) hx
  | some s =>
      change Option.map _ _ = _
      rw [Table.get?_insert]
      split
      · next heq =>
          rw [← heq, shader?, hx, Option.map_some, Option.map_some, Option.map_some, hchange]
      · rfl

/-- A call that changes one shader changes it as links see it, if there is one. -/
theorem exec_changeShader {call : Call} {change change' : ShaderObject → ShaderObject}
    (hchange : ∀ s, (change s).unmarked = change' s.unmarked)
    (hcall : Yields (fun answered => (ctx.countCall call.name).changeShader x change =
        .ok answered.2) (fun e => (ctx.countCall call.name).changeShader x change = .error e)
      ((ctx.countCall call.name).attempt call)) :
    (ctx.exec call).2.shader? y =
      if x = y then (ctx.shader? y).map change' else ctx.shader? y := by
  have hchanged : Yields (fun ctx' => ctx'.shader? y =
        if x = y then (ctx.shader? y).map change' else ctx.shader? y)
      (fun _ => ctx.shader? x = none) ((ctx.countCall call.name).changeShader x change) :=
    changeShader_shader? x y hchange
  apply exec_of_yields fun ctx' => ctx'.shader? y =
    if x = y then (ctx.shader? y).map change' else ctx.shader? y
  apply Yields.of_forall
  · intro answered hanswered
    exact hchanged.value (hcall.value hanswered)
  · intro e he error lost
    have hnone : ctx.shader? x = none := hchanged.failure (hcall.failure he)
    change ctx.shader? y = _
    split
    · next heq => rw [← heq, hnone, Option.map_none]
    · rfl

theorem exec_createShader_shader? (stage : Stage) :
    (ctx.exec (.createShader stage.code)).2.shader? y =
      if ctx.nextId = y then some { stage } else ctx.shader? y := by
  have hcode : Stage.ofCode? stage.code = some stage := by cases stage <;> rfl
  simp only [exec, attempt, createShader_of_ofCode? hcode]
  simp only [shader?, withShader, countCall, Table.get?_insert]
  split <;> rfl

theorem yields_effect (changed : Attempt Context) :
    Yields (fun answered : Unit × Context => changed = .ok answered.2)
      (fun e => changed = .error e) (effect changed) := by
  cases changed <;> exact rfl

theorem exec_shaderSource_shader? (source : String) :
    (ctx.exec (.shaderSource x source)).2.shader? y =
      if x = y then (ctx.shader? y).map fun s => { s with source } else ctx.shader? y :=
  exec_changeShader x y (fun _ => rfl) (yields_effect _)

theorem exec_compileShader_shader? :
    (ctx.exec (.compileShader x)).2.shader? y =
      if x = y then (ctx.shader? y).map ShaderObject.compile else ctx.shader? y :=
  exec_changeShader x y ShaderObject.unmarked_compile (yields_effect _)

theorem deleteShader_shader? : (ctx.deleteShader x).shader? = ctx.shader? := by
  funext y
  simp only [deleteShader]
  cases hx : ctx.objects.shaders.get? x with
  | none => rfl
  | some s =>
      simp only [shader?, Table.get?_insert]
      split
      · next heq =>
          rw [← heq, hx]
          rfl
      · rfl

end Shaders

/-- The shaders are what they were after every call that does not make, write or compile one. -/
theorem exec_shader? {call : Call} (hcreate : ∀ type, call ≠ .createShader type)
    (hsource : ∀ shader source, call ≠ .shaderSource shader source)
    (hcompile : ∀ shader, call ≠ .compileShader shader) :
    (ctx.exec call).2.shader? = ctx.shader? := by
  by_cases hdelete : ∃ shader, call = .deleteShader shader
  · obtain ⟨shader, rfl⟩ := hdelete
    exact deleteShader_shader? shader
  · apply shader?_of_part
    apply exec_part
    · cases call with
      | createShader type => exact absurd rfl (hcreate type)
      | shaderSource shader source => exact absurd rfl (hsource shader source)
      | compileShader shader => exact absurd rfl (hcompile shader)
      | deleteShader shader => exact absurd ⟨shader, rfl⟩ hdelete
      | _ => simp [Call.touches]
    · simp

section Drafts

variable (p q : ObjectId)

theorem changeProgram_draft? {change : ProgramObject → Attempt ProgramObject}
    {change' : ProgramObject → ProgramObject}
    (hchange : ∀ p, ∃ p', change p = .ok p' ∧ p'.asDraft = change' p.asDraft) :
    Yields (fun ctx' => ctx'.draft? q =
        if p = q then (ctx.draft? q).map change' else ctx.draft? q)
      (fun _ => ctx.draft? p = none) (ctx.changeProgram p change) := by
  simp only [changeProgram]
  cases hp : ctx.objects.programs.get? p with
  | none => exact congrArg (Option.map ProgramObject.asDraft) hp
  | some own =>
      obtain ⟨own', hown, hdraft⟩ := hchange own
      simp only [hown]
      change Option.map _ _ = _
      rw [Table.get?_insert]
      split
      · next heq =>
          rw [← heq, draft?, hp, Option.map_some, Option.map_some, Option.map_some, hdraft]
      · rfl

theorem exec_createProgram_draft? : (ctx.exec .createProgram).2.draft? q =
    if ctx.nextId = q then some {} else ctx.draft? q := by
  simp only [exec, attempt, created, createProgram, takeId, countCall, draft?, Table.get?_insert]
  split <;> rfl

/-- A call that changes one program changes it as its next link takes it, if there is one. -/
theorem exec_changeProgram {call : Call} {change : ProgramObject → Attempt ProgramObject}
    {change' : ProgramObject → ProgramObject}
    (hchange : ∀ p, ∃ p', change p = .ok p' ∧ p'.asDraft = change' p.asDraft)
    (hcall : Yields (fun answered => (ctx.countCall call.name).changeProgram p change =
        .ok answered.2) (fun e => (ctx.countCall call.name).changeProgram p change = .error e)
      ((ctx.countCall call.name).attempt call)) :
    (ctx.exec call).2.draft? q = if p = q then (ctx.draft? q).map change' else ctx.draft? q := by
  have hchanged : Yields (fun ctx' => ctx'.draft? q =
        if p = q then (ctx.draft? q).map change' else ctx.draft? q)
      (fun _ => ctx.draft? p = none) ((ctx.countCall call.name).changeProgram p change) :=
    changeProgram_draft? p q hchange
  apply exec_of_yields fun ctx' => ctx'.draft? q =
    if p = q then (ctx.draft? q).map change' else ctx.draft? q
  apply Yields.of_forall
  · intro answered hanswered
    exact hchanged.value (hcall.value hanswered)
  · intro e he error lost
    have hnone : ctx.draft? p = none := hchanged.failure (hcall.failure he)
    change ctx.draft? q = _
    split
    · next heq => rw [← heq, hnone, Option.map_none]
    · rfl

/-- A shader is attached if it exists, in place of another one of its stage. -/
theorem exec_attachShader_draft? (shader : ObjectId) :
    (ctx.exec (.attachShader p shader)).2.draft? q =
      match ctx.shader? shader with
      | none => ctx.draft? q
      | some s => if p = q then (ctx.draft? q).map (·.attach shader s.stage) else ctx.draft? q := by
  cases hs : ctx.objects.shaders.get? shader with
  | none =>
      have hrefused : (ctx.countCall "attach_shader").attachShader p shader =
          refuse .invalidValue := by
        simp only [attachShader, countCall, hs]
      simp only [shader?, hs, exec, attempt, Call.name, hrefused]
      rfl
  | some s =>
      have hattach : (ctx.countCall "attach_shader").attachShader p shader =
          (ctx.countCall "attach_shader").changeProgram p fun own =>
            return own.attach shader s.stage := by
        simp only [attachShader, countCall, hs]
      simp only [shader?, hs, Option.map_some]
      apply exec_changeProgram p q fun own => ⟨_, rfl, own.asDraft_attach shader s.stage⟩
      simp only [attempt, Call.name, hattach]
      exact yields_effect _

/-- A location is noted if it is that of a slot. -/
theorem exec_bindAttributeLocation_draft? (index : UInt32) (name : String) :
    (ctx.exec (.bindAttributeLocation p index name)).2.draft? q =
      if index.toNat < attributeSlots then
        if p = q then (ctx.draft? q).map fun d => { d with wanted := d.wanted.insert name index }
        else ctx.draft? q
      else ctx.draft? q := by
  by_cases hindex : index.toNat < attributeSlots
  · rw [if_pos hindex]
    have hchange (own : ProgramObject) : ∃ own',
        (return { own with wanted := own.wanted.insert name index } : Attempt ProgramObject) =
          .ok own' ∧
        own'.asDraft = { own.asDraft with wanted := own.asDraft.wanted.insert name index } :=
      ⟨_, rfl, rfl⟩
    apply exec_changeProgram p q hchange
    simp only [attempt, Call.name, bindAttributeLocation, slot, hindex, dite_true]
    exact yields_effect _
  · rw [if_neg hindex]
    simp only [exec, attempt, Call.name, bindAttributeLocation, slot, hindex, dite_false]
    rfl

end Drafts

theorem changeProgram_drafts (program : ObjectId)
    {change : ProgramObject → Attempt ProgramObject}
    (hchange : ∀ p, Yields (fun p' => p'.asDraft = p.asDraft) (fun _ => True) (change p)) :
    Yields (fun ctx' => ctx'.draft? = ctx.draft?) (fun _ => True)
      (ctx.changeProgram program change) := by
  simp only [changeProgram]
  cases hp : ctx.objects.programs.get? program with
  | none => trivial
  | some p =>
      refine (hchange p).bind fun p' hkept => ?_
      funext id
      simp only [draft?, Table.get?_insert]
      split
      · next heq => rw [← heq, hp, Option.map_some, Option.map_some, hkept]
      · rfl

theorem linkProgram_drafts (program : ObjectId) :
    Yields (fun ctx' => ctx'.draft? = ctx.draft?) (fun _ => True) (ctx.linkProgram program) := by
  simp only [linkProgram]
  cases hp : ctx.objects.programs.get? program with
  | none => trivial
  | some p =>
      simp only
      cases hlink : Linking.link ctx.objects.shaders ctx.nextId p with
      | none => trivial
      | some outcome =>
          funext id
          simp only [draft?, Table.get?_insert]
          split
          · next heq =>
              rw [← heq, hp, Option.map_some, Option.map_some, Linking.link_asDraft hlink]
          · rfl

/-- What the next links take is what it was after every call that neither makes a program nor says
what one is to be linked with. -/
theorem exec_draft? {call : Call} (hcreate : call ≠ .createProgram)
    (hattach : ∀ program shader, call ≠ .attachShader program shader)
    (hbind : ∀ program index name, call ≠ .bindAttributeLocation program index name) :
    (ctx.exec call).2.draft? = ctx.draft? := by
  refine exec_of_attempt (fun ctx' => ctx'.draft? = ctx.draft?) ?_ fun _ _ => rfl
  have hframe (hpart : .programObjects ∉ call.touches) :
      Yields (fun answered => answered.2.draft? = ctx.draft?) (fun _ => True)
        ((ctx.countCall call.name).attempt call) :=
    Yields.of_forall _ (fun answered hanswered => draft?_of_part
      (((ctx.countCall call.name).attempt_within call).value hanswered .programObjects hpart))
      fun _ _ => trivial
  have heffect {changed : Attempt Context}
      (h : Yields (fun ctx' => ctx'.draft? = ctx.draft?) (fun _ => True) changed) :
      Yields (fun answered => answered.2.draft? = ctx.draft?) (fun _ => True)
        (effect changed) := h.map fun _ h => h
  cases call with
  | createProgram => exact absurd rfl hcreate
  | attachShader program shader => exact absurd rfl (hattach program shader)
  | bindAttributeLocation program index name => exact absurd rfl (hbind program index name)
  | linkProgram program => exact heffect (linkProgram_drafts program)
  | validateProgram program => exact heffect (changeProgram_drafts program fun p => rfl)
  | uniformBlockBinding program index binding =>
      refine heffect ((any_attempt _).bind fun _ _ => changeProgram_drafts program fun p => ?_)
      split
      · trivial
      · exact rfl
  | _ => exact hframe (by simp [Call.touches])

end Context

end GlPlayback
