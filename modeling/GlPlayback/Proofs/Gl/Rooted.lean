import GlPlayback.Proofs.Gl.Cells

/-!
What is attached to a program or bound to a target was made before. Three targets are left out: to
two of them calls bind a buffer without looking for it, and the third belongs to the vertex array.
-/
namespace GlPlayback

namespace Context

/-- The targets of which nothing is said. -/
def looseTargets : List UInt32 :=
  [Enumerant.uniformBuffer, Enumerant.transformFeedbackBuffer, Enumerant.elementArrayBuffer]

def Cell.IsLoose : Cell → Prop
  | bound target => target ∈ looseTargets
  | _ => False

instance : DecidablePred Cell.IsLoose
  | .bound target => inferInstanceAs (Decidable (target ∈ looseTargets))
  | .source _ | .code _ | .attached _ _ | .wanted _ _ => .isFalse id

structure Rooted (ctx : Context) : Prop extends ctx.Sane where
  attached_lt : ∀ {program stage id},
    (ctx.draft? program).bind (·.attached stage) = some id → id < ctx.nextId
  bound_lt : ∀ {target id}, target ∉ looseTargets →
    ctx.boundBuffer? target = some id → id < ctx.nextId

variable {ctx ctx' : Context}

theorem rooted_new (width height : UInt32) : (Context.new width height).Rooted where
  numbered := numbered_new width height
  held := holdsArray_new width height
  attached_lt h := by cases h
  bound_lt {target id} _ h := by
    simp only [boundBuffer?] at h
    split at h <;> cases h

/-- Only the objects, their numbers and what is bound matter. -/
theorem Rooted.congr (h : ctx.Rooted) (hobjects : ctx'.objects = ctx.objects)
    (hbindings : ctx'.bindings = ctx.bindings) (hnext : ctx'.nextId = ctx.nextId) :
    ctx'.Rooted where
  numbered := (SameObjects.of_eq hnext hobjects).grows.numbered h.numbered
  held := by
    have hheld := h.held
    simp only [HoldsArray, hobjects, hbindings] at hheld ⊢
    exact hheld
  attached_lt {program stage id} hid := by
    rw [hnext]
    simp only [draft?, hobjects] at hid
    exact h.attached_lt hid
  bound_lt {target id} htarget hid := by
    rw [hnext]
    apply h.bound_lt htarget
    simp only [boundBuffer?, vertexArray, hobjects, hbindings] at hid ⊢
    exact hid

/-- What is attached after a call was attached before it, or it is a shader of that stage. -/
theorem exec_attached_some {call : Call} {program id : ObjectId} {stage : Stage}
    (hid : ((ctx.exec call).2.draft? program).bind (·.attached stage) = some id) :
    (ctx.draft? program).bind (·.attached stage) = some id ∨
      ctx.objects.Has (.shader stage) id := by
  by_cases hmade : call = .createProgram ∧ ctx.nextId = program
  · obtain ⟨rfl, rfl⟩ := hmade
    rw [exec_createProgram_draft?, if_pos rfl] at hid
    cases stage <;> cases hid
  by_cases hset : .attached program stage ∈ ctx.sets call
  · cases call with
    | attachShader other shader =>
        cases hs : ctx.shader? shader with
        | none => simp [sets, hs] at hset
        | some s =>
            simp only [sets, hs, Option.map_some, Option.toList_some, List.mem_singleton,
              Cell.attached.injEq] at hset
            obtain ⟨rfl, rfl⟩ := hset
            simp only [exec_attachShader_draft?, hs, if_true, Option.bind_map, Function.comp_def,
              ProgramObject.attached_attach, Option.bind_eq_some_iff] at hid
            obtain ⟨-, -, heq⟩ := hid
            cases heq
            exact .inr (shader?_stage hs)
    | bindAttributeLocation _ index _ =>
        simp only [sets] at hset
        split at hset <;> simp at hset
    | bindBuffer _ _ | bindBufferBase _ _ _ =>
        simp only [sets] at hset
        split at hset <;> simp at hset
    | shaderSource _ _ | compileShader _ => simp [sets] at hset
    | _ => cases hset
  · rw [exec_attached (fun hcreate heq => hmade ⟨hcreate, heq⟩) hset] at hid
    exact .inl hid

theorem Rooted.exec_attached_lt (h : ctx.Rooted) (call : Call) {program id : ObjectId}
    {stage : Stage}
    (hid : ((ctx.exec call).2.draft? program).bind (·.attached stage) = some id) :
    id < (ctx.exec call).2.nextId := by
  apply Nat.lt_of_lt_of_le _ (ctx.exec_grows call).nextId_le
  rcases exec_attached_some hid with hid | hhas
  · exact h.attached_lt hid
  · exact h.numbered.below hhas

theorem Rooted.exec_bound_lt (h : ctx.Rooted) (call : Call) {target : UInt32} {id : ObjectId}
    (htarget : target ∉ looseTargets) (hid : (ctx.exec call).2.boundBuffer? target = some id) :
    id < (ctx.exec call).2.nextId := by
  apply Nat.lt_of_lt_of_le _ (ctx.exec_grows call).nextId_le
  by_cases hset : .bound target ∈ ctx.sets call
  · cases call with
    | bindBuffer other buffer =>
        cases haccepts : ctx.accepts (.bindBuffer other buffer) with
        | false => simp [sets, haccepts] at hset
        | true =>
            simp only [sets, haccepts, if_true, List.mem_singleton, Cell.bound.injEq] at hset
            subst hset
            rw [exec_bindBuffer_bound, if_pos ⟨haccepts, rfl⟩] at hid
            subst hid
            rw [accepts_bindBuffer, Bool.and_eq_true, Option.all_some] at haccepts
            have hhas : ctx.objects.Has .buffer id := haccepts.2
            exact h.numbered.below hhas
    | bindBufferBase other index buffer =>
        cases haccepts : ctx.accepts (.bindBufferBase other index buffer) with
        | false => simp [sets, haccepts] at hset
        | true =>
            simp only [sets, haccepts, if_true, List.mem_singleton, Cell.bound.injEq] at hset
            subst hset
            rw [accepts_bindBufferBase, Bool.and_eq_true, Bool.or_eq_true] at haccepts
            refine absurd ?_ htarget
            rcases haccepts.1 with heq | heq
            · simp [looseTargets, eq_of_beq heq]
            · simp [looseTargets, eq_of_beq heq]
    | attachShader _ shader =>
        cases hs : ctx.shader? shader <;> simp [sets, hs] at hset
    | bindAttributeLocation _ index _ =>
        simp only [sets] at hset
        split at hset <;> simp at hset
    | shaderSource _ _ | compileShader _ => simp [sets] at hset
    | _ => cases hset
  · have hblurs : .bound target ∉ blurs call := by
      cases call with
      | bindVertexArray _ =>
          intro hmem
          cases List.mem_singleton.mp hmem
          exact htarget (by simp [looseTargets])
      | _ => exact List.not_mem_nil
    have hkept : (Cell.bound target).Kept ctx (ctx.exec call).2 :=
      exec_kept h.numbered h.held hset hblurs (by simp [Cell.object?])
    simp only [Cell.Kept, Cell.Agrees, Option.map_id] at hkept
    rw [hkept] at hid
    exact h.bound_lt htarget hid

theorem Rooted.exec (h : ctx.Rooted) (call : Call) : (ctx.exec call).2.Rooted :=
  ⟨h.toSane.exec call, h.exec_attached_lt call, h.exec_bound_lt call⟩

theorem Rooted.issueAll (h : ctx.Rooted) (calls : List Call) : (ctx.issueAll calls).Rooted := by
  induction calls generalizing ctx with
  | nil => exact h
  | cons call rest ih => exact ih (h.exec call)

/-- The calls by which the camera is written change no cell but that of the uniform target. -/
theorem Sane.issueAll_kept (h : ctx.Sane) {calls : List Call}
    (hcalls : ∀ call ∈ calls, call.isAside = true ∨
      ∃ buffer, call = .bindBuffer Enumerant.uniformBuffer buffer)
    {cell : Cell} (hcell : ¬ cell.IsLoose) : cell.Kept ctx (ctx.issueAll calls) := by
  induction calls generalizing ctx with
  | nil => exact .refl cell
  | cons call rest ih =>
      obtain ⟨hfirst, hrest⟩ := List.forall_mem_cons.mp hcalls
      have hkept : cell.Kept ctx (ctx.exec call).2 := by
        rcases hfirst with haside | ⟨buffer, rfl⟩
        · exact (h.exec_rests haside).kept cell
        · apply exec_kept h.numbered h.held
          · intro hmem
            simp only [sets] at hmem
            split at hmem
            · cases List.mem_singleton.mp hmem
              exact hcell (by simp [Cell.IsLoose, looseTargets])
            · cases hmem
          · exact List.not_mem_nil
          · rintro (⟨type, heq⟩ | heq) <;> cases heq
      exact hkept.trans (ih (h.exec call) hrest)

end Context

end GlPlayback
