import GlPlayback.Interpreter.Asking
import GlPlayback.Proofs.Gl.Footprint

/-!
Conversations with a context change it by calls only: which calls a conversation puts to the
context, and in which order, is all that matters to the context. So what every call keeps is kept by
every conversation. Conversations that make an object answer with its number.
-/
namespace GlPlayback

namespace Asking

variable {P Q : Call → Prop} {α β : Type}

/-- The calls that a conversation puts to a context, in their order. -/
def calls : Asking α → Context → List Call
  | ended _, _ => []
  | asks call next, ctx => call :: (next (ctx.exec call).1).calls (ctx.issue call)

/-- Whatever the replies are, a conversation puts calls of one sort only. -/
def Only (P : Call → Prop) : Asking α → Prop
  | ended _ => True
  | asks call next => P call ∧ ∀ reply, Only P (next reply)

theorem run_bind (x : Asking α) (f : α → Asking β) (ctx : Context) :
    (x >>= f).run ctx = (f (x.run ctx).1).run (x.run ctx).2 := by
  induction x generalizing ctx with
  | ended result => rfl
  | asks call next ih => exact ih (ctx.exec call).1 (ctx.issue call)

/-- A conversation changes the context by its calls and by nothing else. -/
theorem run_context (x : Asking α) (ctx : Context) :
    (x.run ctx).2 = ctx.issueAll (x.calls ctx) := by
  induction x generalizing ctx with
  | ended result => rfl
  | asks call next ih => exact ih (ctx.exec call).1 (ctx.issue call)

namespace Only

theorem mem_calls {x : Asking α} (h : Only P x) (ctx : Context) :
    ∀ call ∈ x.calls ctx, P call := by
  induction x generalizing ctx with
  | ended result => exact fun _ hcall => absurd hcall List.not_mem_nil
  | asks call next ih =>
      intro other hother
      rcases List.mem_cons.mp hother with rfl | hother
      · exact h.1
      · exact ih _ (h.2 _) _ other hother

theorem mono {x : Asking α} (h : Only P x) (hPQ : ∀ call, P call → Q call) : Only Q x := by
  induction x with
  | ended result => trivial
  | asks call next ih => exact ⟨hPQ call h.1, fun reply => ih reply (h.2 reply)⟩

theorem pure (a : α) : Only P (Pure.pure a : Asking α) :=
  trivial

theorem ask {call : Call} (hcall : P call) : Only P (Asking.ask call) :=
  ⟨hcall, fun _ => trivial⟩

theorem bind {x : Asking α} {f : α → Asking β} (hx : Only P x) (hf : ∀ a, Only P (f a)) :
    Only P (x >>= f) := by
  induction x with
  | ended result => exact hf result
  | asks call next ih => exact ⟨hx.1, fun reply => ih reply (hx.2 reply)⟩

theorem ite {c : Prop} [Decidable c] {x y : Asking α} (hx : Only P x) (hy : Only P y) :
    Only P (if c then x else y) := by
  split
  · exact hx
  · exact hy

theorem foldlM {f : β → α → Asking β} (hf : ∀ b a, Only P (f b a)) (as : List α) (b : β) :
    Only P (as.foldlM f b) := by
  induction as generalizing b with
  | nil => exact .pure b
  | cons a rest ih =>
      rw [List.foldlM_cons]
      exact (hf b a).bind ih

theorem mapM {f : α → Asking β} (hf : ∀ a, Only P (f a)) (as : List α) : Only P (as.mapM f) := by
  have hloop (done : List β) : Only P (List.mapM.loop f as done) := by
    induction as generalizing done with
    | nil => exact .pure done.reverse
    | cons a rest ih => exact (hf a).bind fun b => ih (b :: done)
  exact hloop []

end Only

/-- Whatever the replies are, a conversation comes to a result of one sort only. -/
def Returns (Q : α → Prop) : Asking α → Prop
  | ended result => Q result
  | asks _ next => ∀ reply, Returns Q (next reply)

theorem Returns.run {Q : α → Prop} {x : Asking α} (h : Returns Q x) (ctx : Context) :
    Q (x.run ctx).1 := by
  induction x generalizing ctx with
  | ended result => exact h
  | asks call next ih => exact ih _ (h _) _

theorem Returns.bind {Q : β → Prop} (x : Asking α) {f : α → Asking β}
    (hf : ∀ a, Returns Q (f a)) : Returns Q (x >>= f) := by
  induction x with
  | ended result => exact hf result
  | asks call next ih => exact fun reply => ih reply

/-- Every conversation keeps what every call keeps. -/
theorem kept {R : Context → Context → Prop} (hR : KeptByCalls R) (x : Asking α) (ctx : Context) :
    R ctx (x.run ctx).2 := by
  rw [run_context]
  exact hR.issueAll ctx _

section Questions

theorem only_activeCount (program : ObjectId) (name : UInt32) :
    Only Call.IsQuestion (activeCount program name) :=
  Only.bind (.ask rfl) fun _ => .pure _

theorem only_knowing (program : ObjectId) (index : UInt32) (blocks : List BlockRecord) :
    Only Call.IsQuestion (knowing program index blocks) := by
  have hempty : Only Call.IsQuestion (emptyBlock program index) :=
    Only.bind (.ask rfl) fun _ => Only.bind (.ask rfl) fun _ => .pure _
  exact .ite (.pure _) (hempty.bind fun _ => .pure _)

theorem only_addUniform (program : ObjectId) (found : Uniforms) (index : UInt32)
    (block offset : Option Int32) :
    Only Call.IsQuestion (addUniform program found index block offset) := by
  refine Only.bind (.ask rfl) fun active => ?_
  split
  · exact .pure _
  · exact Only.bind (.ask rfl) fun _ => .pure _
  · exact (only_knowing _ _ _).bind fun _ => .pure _

theorem only_uniforms (program : ObjectId) : Only Call.IsQuestion (uniforms program) :=
  (only_activeCount _ _).bind fun _ => Only.bind (.ask rfl) fun _ =>
    Only.bind (.ask rfl) fun _ => .foldlM (fun _ _ => only_addUniform _ _ _ _ _) _ _

theorem only_attributes (program : ObjectId) : Only Call.IsQuestion (attributes program) := by
  have hat (index : UInt32) : Only Call.IsQuestion (attributeAt program index) := by
    refine Only.bind (.ask rfl) fun active => ?_
    split
    · exact .pure _
    · exact Only.bind (.ask rfl) fun _ => .pure _
  exact (only_activeCount _ _).bind fun _ => (Only.mapM hat _).bind fun _ => .pure _

theorem only_compile (shader : ObjectId) :
    Only (fun call => call = .compileShader shader ∨ call.IsQuestion) (compile shader) := by
  refine Only.bind (.ask (.inl rfl)) fun _ => Only.bind (.ask (.inr rfl)) fun _ => ?_
  exact .ite (.ask (.inr rfl)) (.pure _)

theorem only_link (program : ObjectId) :
    Only (fun call => call = .linkProgram program ∨ call = .validateProgram program)
      (link program) :=
  Only.bind (.ask (.inl rfl)) fun _ => .ask (.inr rfl)

/-- What is asked about a linked program once its view block is bound. -/
def listing (program : ObjectId) : Asking ProgramRecord := do
  let found ← uniforms program
  return {
    message := some "linked"
    uniforms := found.loose
    blocks := found.blocks
    attributes := ← attributes program }

theorem only_listing (program : ObjectId) : Only Call.IsQuestion (listing program) :=
  (only_uniforms _).bind fun _ => (only_attributes _).bind fun _ => .pure _

/-- What comes after a link asks, and at most binds a block. -/
theorem only_linked (program : ObjectId) (record : ProgramRecord) :
    Only (fun call => call.IsQuestion ∨
      ∃ block binding, call = .uniformBlockBinding program block binding)
      (linked program record) := by
  have hlisting : Only (fun call => call.IsQuestion ∨
      ∃ block binding, call = .uniformBlockBinding program block binding) (listing program) :=
    (only_listing program).mono fun _ => .inl
  refine Only.bind (.ask (.inl rfl)) fun status => .ite ?_ ?_
  · exact Only.bind (.ask (.inl rfl)) fun _ => .pure _
  · refine Only.bind (.ask (.inl rfl)) fun block => .ite ?_ hlisting
    exact Only.bind (.ask (.inr ⟨_, _, rfl⟩)) fun _ => hlisting

/-- The record of a linked program says so. -/
theorem returns_describe (program : ObjectId) :
    Returns (fun record => record.message = some "linked") (describe program) := by
  have hlisting : Returns (fun record => record.message = some "linked") (listing program) :=
    .bind _ fun _ => .bind _ fun _ => rfl
  refine .bind _ fun block => ?_
  split
  · exact .bind _ fun _ => hlisting
  · exact hlisting

end Questions

theorem only_fill (target usage : UInt32) (contents : StoreContents) :
    Only (fun call => call.touches ⊆ [.bufferObjects]) (fill target usage contents) := by
  have hcall {call : Call} (h : call.touches ⊆ [.bufferObjects]) :
      Only (fun call => call.touches ⊆ [.bufferObjects]) (ask call) := .ask h
  cases contents with
  | bytes data => exact (hcall (by simp [Call.touches])).bind fun _ =>
      (hcall (by simp [Call.touches])).bind fun _ => .pure _
  | zeros size => exact (hcall (by simp [Call.touches])).bind fun _ => .pure _

/-- The call that makes an object. -/
def creation : NewObject → Call
  | .texture => .createTexture
  | .shader stage => .createShader stage.code
  | .program => .createProgram
  | .buffer => .createBuffer
  | .vertexArray => .createVertexArray
  | .framebuffer => .createFramebuffer

theorem calls_make (what : NewObject) (ctx : Context) :
    (make what).calls ctx = [creation what] := by
  cases what <;> rfl

/-- A new object has the number that was the next one. -/
theorem make_run (what : NewObject) (ctx : Context) :
    ((make what).run ctx).1 = some ctx.nextId ∧ ctx.Makes what ((make what).run ctx).2 := by
  have hmakes {name : String} {ctx' : Context} (h : (ctx.countCall name).Makes what ctx') :
      ctx.Makes what ctx' :=
    ⟨h.nextId_eq, fun hn => h.has_iff ⟨hn.below, hn.alone⟩⟩
  cases what with
  | texture => exact ⟨rfl, hmakes Context.createTexture_makes⟩
  | program => exact ⟨rfl, hmakes Context.createProgram_makes⟩
  | buffer => exact ⟨rfl, hmakes Context.createBuffer_makes⟩
  | vertexArray => exact ⟨rfl, hmakes Context.createVertexArray_makes⟩
  | framebuffer => exact ⟨rfl, hmakes Context.createFramebuffer_makes⟩
  | shader stage =>
      have hcode : Stage.ofCode? stage.code = some stage := by cases stage <;> rfl
      have hexec : ctx.exec (.createShader stage.code) =
          (some ctx.nextId, (ctx.countCall "create_shader").withShader stage) := by
        simp only [Context.exec, Call.name, Context.attempt, Context.createShader_of_ofCode? hcode]
        rfl
      refine ⟨congrArg Prod.fst hexec, ?_⟩
      have hctx : ((make (.shader stage)).run ctx).2 =
          (ctx.countCall "create_shader").withShader stage := congrArg Prod.snd hexec
      rw [hctx]
      exact hmakes (Context.withShader_makes stage)

theorem makeBlockBuffer_run (block : BlockRecord) (usage : UInt32) (ctx : Context) :
    ((makeBlockBuffer block usage).run ctx).1 = some ctx.nextId ∧
      ctx.Gains .buffer ((makeBlockBuffer block usage).run ctx).2 := by
  obtain ⟨hid, hmakes⟩ := make_run .buffer ctx
  simp only [makeBlockBuffer, run_bind, hid]
  refine ⟨rfl, hmakes.gains.trans ?_⟩
  exact (reserve block usage ctx.nextId).kept keptByCalls_grows _

theorem only_makeBlockBuffer (block : BlockRecord) (usage : UInt32) :
    Only (fun call => call.touches ⊆ [.bufferObjects] ∨
        ∃ buffer, call = .bindBuffer Enumerant.uniformBuffer buffer)
      (makeBlockBuffer block usage) := by
  refine Only.bind (.ask (.inl (by simp [Call.touches]))) fun made => ?_
  cases made with
  | none => exact .pure none
  | some id =>
      refine Only.bind ?_ fun _ => .pure _
      exact Only.bind (.ask (.inr ⟨_, rfl⟩)) fun _ =>
        Only.bind (.ask (.inl (by simp [Call.touches]))) fun _ => .ask (.inr ⟨_, rfl⟩)

theorem calls_makeBlockBuffer (block : BlockRecord) (usage : UInt32) (ctx : Context) :
    (makeBlockBuffer block usage).calls ctx =
      [.createBuffer, .bindBuffer Enumerant.uniformBuffer (some ctx.nextId),
        .bufferDataSize Enumerant.uniformBuffer block.size.toNatClampNeg usage,
        .bindBuffer Enumerant.uniformBuffer none] :=
  rfl

/-- The last call leaves no buffer bound to the uniform target. -/
theorem makeBlockBuffer_context (block : BlockRecord) (usage : UInt32) (ctx : Context) :
    ∃ ctx' : Context, ((makeBlockBuffer block usage).run ctx).2 =
      ctx'.issue (.bindBuffer Enumerant.uniformBuffer none) := by
  obtain ⟨hid, -⟩ := make_run .buffer ctx
  simp only [makeBlockBuffer, run_bind, hid]
  exact ⟨_, rfl⟩

end Asking

end GlPlayback
