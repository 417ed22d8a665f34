import GlPlayback.Proofs.Interpreter.BoundBuffers
import GlPlayback.Proofs.Interpreter.Following

/-!
Two machines that have the same in some cells, but for the numbers of objects and locations, and
that carry out the same operations. They have the same in the cells that the operations say, and so
a list of commands that goes only by what it said itself, or leaves alone, does the same on both.
-/
namespace GlPlayback

namespace Asking

/-- The message of a compilation is about what it came to. -/
theorem compile_message (shader : ObjectId) (ctx : Context) :
    ((compile shader).run ctx).1 =
      match ((ctx.issue (.compileShader shader)).shader? shader).map (·.code) with
      | none => ""
      | some code => if code.1 then "compiled" else code.2.1 := by
  generalize hcompiled : ctx.issue (.compileShader shader) = compiled
  have hparameter (c : Context) : c.shaderParameter shader Enumerant.compileStatus =
      .ok ((c.shader? shader).map fun s => Context.flag s.compiled) := by
    simp only [Context.shaderParameter, Context.shader?]
    cases c.objects.shaders.get? shader <;> rfl
  have hstatus : compiled.exec (.getShaderParameter shader Enumerant.compileStatus) =
      ((compiled.shader? shader).map fun s => Context.flag s.compiled,
        compiled.countCall "get_shader_parameter") := by
    simp only [Context.exec, Context.attempt, hparameter]
    rfl
  have hrun : ((compile shader).run ctx).1 = ((if
      ((compiled.exec (.getShaderParameter shader Enumerant.compileStatus)).1 :
        Option Int32).getD 0 = 0 then ask (.getShaderLog shader) else pure "compiled" :
      Asking String).run
        (compiled.exec (.getShaderParameter shader Enumerant.compileStatus)).2).1 := by
    rw [← hcompiled]
    rfl
  have hlog : ((ask (.getShaderLog shader)).run (compiled.countCall "get_shader_parameter")).1 =
      (compiled.shader? shader).elim "" (·.log) := by
    change (compiled.objects.shaders.get? shader).elim "" (·.log) = _
    rw [Context.shader?, Option.elim_map]
    rfl
  rw [hrun, hstatus]
  cases hs : compiled.shader? shader with
  | none =>
      rw [hs] at hlog
      exact hlog
  | some s =>
      rw [hs] at hlog
      cases hflag : s.compiled with
      | true =>
          simp only [Option.map_some, ShaderObject.code, hflag, if_true]
          rfl
      | false =>
          simp only [Option.map_some, ShaderObject.code, hflag, Bool.false_eq_true, if_false]
          exact hlog

/-- As many bytes are reported as are given, if there is a buffer that takes them. -/
theorem fill_size (target : BufferTarget) (usage : UInt32) (data : List UInt8) (ctx : Context) :
    ((fill target.code usage (.bytes data)).run ctx).1 =
      if (ctx.boundBuffer? target.code).any fun id => (ctx.objects.buffers.get? id).isSome then
        .bytes (Int32.ofNat data.length).toInt
      else .undefined := by
  have hrun : ((fill target.code usage (.bytes data)).run ctx).1 =
      ((ctx.issue (.bufferData target.code data usage)).exec
        (.getBufferParameter target.code Enumerant.bufferSize)).1.elim .undefined
          fun n : Int32 => .bytes n.toInt := rfl
  have hstill : (ctx.issue (.bufferData target.code data usage)).boundBuffer? target.code =
      ctx.boundBuffer? target.code :=
    congrFun (Context.exec_boundBuffer? (List.Subset.refl _)) target.code
  have hhas (id : ObjectId) : ((ctx.issue (.bufferData target.code data usage)).objects.buffers.get?
      id).isSome = (ctx.objects.buffers.get? id).isSome :=
    Bool.eq_iff_iff.mpr ((Context.exec_same rfl).has_iff .buffer id)
  have hnone (h : (ctx.boundBuffer? target.code).bind
      (ctx.issue (.bufferData target.code data usage)).objects.buffers.get? = none) :
      ((ctx.issue (.bufferData target.code data usage)).exec
        (.getBufferParameter target.code Enumerant.bufferSize)).1 = none := by
    rw [← hstill] at h
    exact Context.exec_bufferSize_of_none h _
  rw [hrun]
  cases hbound : ctx.boundBuffer? target.code with
  | none =>
      rw [hnone (by rw [hbound]; rfl)]
      rfl
  | some id =>
      simp only [Option.any_some]
      split
      · next hid =>
          have hstore := ctx.exec_bufferData_store data usage target.contains_code hbound hid
          rw [Context.exec_bufferSize data (hstill.trans hbound) hstore]
          rfl
      · next hid =>
          rw [hnone]
          · rfl
          · rw [hbound, Option.bind_some]
            rw [← hhas] at hid
            exact Option.not_isSome_iff_eq_none.mp hid

end Asking

namespace Machine

/-- The cells that carrying an operation out goes by. -/
def needs (m : Machine) : Operation → List Cell
  | .compile h shader => [.resource h, .context (.source shader)]
  | .link h program =>
      (m.context.linkCells program).map .context ++
        if ((Asking.link program).run m.context).2.ReportsLinked program then [] else [.record h]
  | .bufferData target (.bytes _) _ (some _) => [.context (.bound target.code)]
  | .setPointer _ (some (array, _)) _ => [.record array]
  | _ => []

/-- An operation is none that the context cannot carry out at all. -/
def admits (m : Machine) : Operation → Bool
  | .link _ program => (m.context.linkSummary? program).isSome
  | _ => true

/-- The cells that are known after an operation. -/
def learn (m : Machine) (op : Operation) (known : Cell → Prop) (cell : Cell) : Prop :=
  cell ∈ m.sets op ∨ (known cell ∧ cell ∉ m.blurs op)

end Machine

section Context

variable {f : ObjectId → ObjectId} {known : Context.Cell → Prop} {ctx ctx' : Context}

theorem Call.IsPlain.goesBy {call : Call} (hcall : call.IsPlain) : ctx.goesBy call = [] := by
  cases call <;> first | rfl | exact hcall.elim

theorem Operation.calls_rename_bindVertexArray (f : ObjectId → ObjectId)
    (array : Option (Handle × ObjectId)) (r : Registry) (ctx : Context) :
    ((bindVertexArray array).rename f).calls r ctx =
      [(Call.bindVertexArray (array.map (·.2))).rename f] := by
  cases array <;> rfl

theorem Operation.calls_rename_bindBuffer (f : ObjectId → ObjectId) (target : BufferTarget)
    (buffer : Option (Handle × ObjectId)) (r : Registry) (ctx : Context) :
    ((bindBuffer target buffer).rename f).calls r ctx =
      [(Call.bindBuffer target.code (buffer.map (·.2))).rename f] := by
  cases buffer <;> rfl

/-- The buffer for a block is bound only while it is made, so that nothing is bound in the end. -/
theorem Context.Echoes.createUniformBuffer (h : ctx.Echoes f known ctx') (handle : Handle)
    (block : BlockRecord) (usage : UInt32) (r r' : Registry) :
    (ctx.issueAll ((Operation.createUniformBuffer handle block usage).calls r ctx)).Echoes f
      (fun cell => cell ∈ (Operation.createUniformBuffer handle block usage).contextSets ctx ∨
        known cell)
      (ctx'.issueAll ((Operation.createUniformBuffer handle block usage).calls r' ctx')) := by
  simp only [Operation.calls, Asking.calls_makeBlockBuffer, ← h.nextId_eq]
  have hnone {call : Call} (hgoes : ∀ c : Context, c.goesBy call = []) (c : Context)
      {known : Context.Cell → Prop} : ∀ cell ∈ c.goesBy call, known cell := by
    rw [hgoes]
    exact fun cell hcell => absurd hcell List.not_mem_nil
  have hbound := (h.creation .buffer).exec
    (.bindBuffer Enumerant.uniformBuffer (some ctx.nextId)) rfl (hnone (fun _ => rfl) _)
  have hfilled := hbound.exec
    (.bufferDataSize Enumerant.uniformBuffer block.size.toNatClampNeg usage) rfl
    (hnone (fun _ => rfl) _)
  have hfreed := hfilled.exec (.bindBuffer Enumerant.uniformBuffer none) rfl
    (hnone (fun _ => rfl) _)
  have hkept {c : Context} {call : Call} {known : Context.Cell → Prop} {cell : Context.Cell}
      (hblurs : Context.blurs call = []) (hknown : known cell) : c.learn call known cell :=
    .inr ⟨hknown, by rw [hblurs]; exact List.not_mem_nil⟩
  apply hfreed.mono
  rintro cell (hset | hold)
  · refine .inl ?_
    simp only [Context.sets, Context.accepts_bindBuffer]
    exact hset
  · exact hkept rfl (hkept rfl (hkept rfl hold))

/-- Two contexts are put the calls of one operation. -/
theorem Operation.Follows.context_echoes {op op' : Operation} (hfollows : op.Follows f op')
    (h : ctx.Echoes f known ctx') {s : Surroundings} (hresolved : op.Resolved s)
    (hcompile : ∀ handle shader, op = .compile handle shader → known (.source shader))
    (hlink : ∀ handle program, op = .link handle program →
      (∀ cell ∈ ctx.linkCells program, known cell) ∧ (ctx.linkSummary? program).isSome = true)
    (r r' : Registry) :
    (ctx.issueAll (op.calls r ctx)).Echoes f
      (fun cell => cell ∈ op.contextSets ctx ∨ (known cell ∧ cell ∉ op.contextBlurs))
      (ctx'.issueAll (op'.calls r' ctx')) := by
  cases hfollows with
  | @aside call call' hcall hcall' =>
      have hissued : (ctx.issueAll [call]).Echoes f known (ctx'.issueAll [call']) := by
        apply h.issueAll
        · exact fun _ hmem => List.mem_singleton.mp hmem ▸ hcall
        · exact fun _ hmem => List.mem_singleton.mp hmem ▸ hcall'
      apply hissued.mono
      intro cell hcell
      simp only [contextSets, Call.sets_of_aside hcall, List.not_mem_nil, false_or] at hcell
      exact hcell.1
  | renamed op =>
      have hquiet {calls calls' : List Call} (hsets : op.contextSets ctx = [])
          (hcalls : ∀ call ∈ calls, call.isAside = true)
          (hcalls' : ∀ call ∈ calls', call.isAside = true) :
          (ctx.issueAll calls).Echoes f
            (fun cell => cell ∈ op.contextSets ctx ∨ (known cell ∧ cell ∉ op.contextBlurs))
            (ctx'.issueAll calls') := by
        apply (h.issueAll hcalls hcalls').mono
        intro cell hcell
        rw [hsets] at hcell
        exact (hcell.resolve_left List.not_mem_nil).1
      cases op with
      | nothing => exact hquiet rfl (by simp [calls]) (by simp [calls, rename])
      | issue call | setPointer call _ _ =>
          have hplain : call.IsPlain := by first | exact hresolved | exact hresolved.1
          apply (h.exec call hplain.givesNumbers _).mono
          · rintro cell (hset | ⟨hold, -⟩)
            · exact .inl hset
            · exact .inr ⟨hold, by rw [hplain.blurs]; exact List.not_mem_nil⟩
          · simp [hplain.goesBy]
      | create handle what =>
          simp only [calls, rename, Asking.calls_make]
          apply (h.creation what).mono
          rintro cell (hset | ⟨hold, -⟩)
          · cases hset
          · exact hold
      | compile handle shader =>
          obtain ⟨rest, hcalls, hrest⟩ := Asking.calls_compile shader ctx
          obtain ⟨rest', hcalls', hrest'⟩ := Asking.calls_compile (f shader) ctx'
          simp only [calls, rename, hcalls, hcalls']
          have hknown : ∀ cell ∈ ctx.goesBy (.compileShader shader), known cell := by
            intro cell hcell
            rw [List.mem_singleton.mp hcell]
            exact hcompile handle shader rfl
          exact (h.exec (.compileShader shader) rfl hknown).issueAll hrest hrest'
      | link handle program =>
          obtain ⟨hknown, hpossible⟩ := hlink handle program rfl
          obtain ⟨rest, hcalls, hrest⟩ := Operation.calls_link handle program r ctx
          obtain ⟨rest', hcalls', hrest'⟩ := Operation.calls_link handle (f program) r' ctx'
          simp only [rename, hcalls, hcalls']
          apply (((h.link hknown hpossible).1).issueAll hrest hrest').mono
          rintro cell (hset | ⟨hold, -⟩)
          · cases hset
          · exact hold
      | useProgram program =>
          apply hquiet rfl
          · exact fun _ hmem => List.mem_singleton.mp hmem ▸ rfl
          · exact fun _ hmem => List.mem_singleton.mp hmem ▸ rfl
      | bindVertexArray array =>
          rw [calls_rename_bindVertexArray]
          exact h.exec (.bindVertexArray (array.map (·.2))) rfl
            fun cell hcell => absurd hcell List.not_mem_nil
      | bindBuffer target buffer =>
          rw [calls_rename_bindBuffer]
          exact h.exec (.bindBuffer target.code (buffer.map (·.2))) rfl
            fun cell hcell => absurd hcell List.not_mem_nil
      | bufferData target contents usage shown =>
          exact hquiet rfl ((Asking.only_fill_aside _ _ _).mem_calls ctx)
            ((Asking.only_fill_aside _ _ _).mem_calls ctx')
      | createUniformBuffer handle block usage =>
          exact (h.createUniformBuffer handle block usage r r').mono fun cell =>
            Or.imp_right And.left

end Context

namespace Operation

variable {f : ObjectId → ObjectId} {op op' : Operation}

theorem context_not_mem_sets (op : Operation) {cell : Context.Cell} : .context cell ∉ op.sets := by
  unfold sets
  split <;> simp

theorem own_sets_rename (op : Operation) : (op.rename f).sets = op.sets := by
  cases op with
  | bufferData _ _ _ shown => cases shown <;> rfl
  | setPointer _ place _ => cases place <;> rfl
  | _ => rfl

theorem Follows.mem_sets (hfollows : op.Follows f op') {cell : Cell} (hcell : cell ∈ op'.sets) :
    cell ∈ op.sets := by
  cases hfollows with
  | aside => cases hcell
  | renamed op =>
      rw [own_sets_rename] at hcell
      exact hcell

theorem Follows.shown?_eq (hfollows : op.Follows f op') : op'.shown? = op.shown? := by
  cases hfollows with
  | aside => rfl
  | renamed op => cases op <;> rfl

end Operation

namespace Machine

variable {f : ObjectId → ObjectId} {known : Cell → Prop} {m m' m₁ m₁' : Machine}
  {op op' : Operation} {payloads : List (List UInt8)}

theorem CarriesOut.size_eq (hop : m.CarriesOut op m₁) : m₁.registry.size = m.registry.size :=
  hop.writes.step.size_eq

/-- A pointer is added to the record of a vertex array; any other record stays. -/
theorem CarriesOut.record_pointed {call : Call} {array buffer : Handle} {pointer : PointerRecord}
    (hop : m.CarriesOut (.setPointer call (some (array, buffer)) pointer) m₁)
    (hregistered : m.registry.IsRegistered array) :
    m₁.registry.record array =
      match m.registry.record array with
      | .vertexArray v => .vertexArray (v.add buffer pointer)
      | record => record := by
  obtain ⟨⟨object, record⟩, hx⟩ := hregistered
  have hperform : (m.issue call).settle (m.registry.addPointer array buffer pointer) =
      (.ok (), m₁) := hop.performed
  rw [Registry.record_of_get hx]
  cases record with
  | vertexArray v =>
      rw [Registry.addPointer_vertexArray hx rfl] at hperform
      have hchanged := settle_changeRecord ⟨_, hx⟩ (m.issue call).context
        fun _ => .vertexArray (v.add buffer pointer)
      have hregistry := congrArg (·.2.registry) (hperform.symm.trans hchanged)
      simp only at hregistry
      rw [hregistry, Registry.record_write_of_get hx]
  | _ =>
      rw [Registry.addPointer_of_ne hx (by simp)] at hperform
      cases hperform
      exact Registry.record_of_get hx

namespace Echoes

theorem isRegistered (h : m.Echoes f known m') {handle : Handle}
    (hregistered : m.registry.IsRegistered handle) : m'.registry.IsRegistered handle := by
  rw [Registry.isRegistered_iff, h.size_eq, ← Registry.isRegistered_iff]
  exact hregistered

/-- A resource that is made anew is the same in both machines. -/
theorem agrees_made (h : m.Echoes f known m') {handle : Handle} {record : ResourceRecord}
    (hregistered : m.registry.IsRegistered handle)
    (hleft : m₁.registry = m.registry.write handle fun _ => ⟨some m.context.nextId, record⟩)
    (hright : m₁'.registry = m'.registry.write handle fun _ => ⟨some m'.context.nextId, record⟩) :
    (Cell.resource handle).Agrees f m₁ m₁' ∧ (Cell.record handle).Agrees f m₁ m₁' := by
  obtain ⟨x, hx⟩ := hregistered
  obtain ⟨x', hx'⟩ := h.isRegistered ⟨x, hx⟩
  simp only [Cell.Agrees, hleft, hright, Registry.record_write_of_get hx,
    Registry.record_write_of_get hx', Registry.objectOf?_write_of_get hx,
    Registry.objectOf?_write_of_get hx', Option.map_some, h.context.nextId_eq, and_self]

/-- A record that is rewritten is the same in both machines if what is written is. -/
theorem agrees_rewritten {handle : Handle} (change change' : ResourceRecord → ResourceRecord)
    (hregistered : m.registry.IsRegistered handle) (hregistered' : m'.registry.IsRegistered handle)
    (hleft : m₁.registry =
      m.registry.write handle fun x => { x with record := change x.record })
    (hright : m₁'.registry =
      m'.registry.write handle fun x => { x with record := change' x.record })
    (hsame : (change' (m'.registry.record handle)).unnumbered =
      (change (m.registry.record handle)).unnumbered) :
    (Cell.record handle).Agrees f m₁ m₁' := by
  obtain ⟨x, hx⟩ := hregistered
  obtain ⟨x', hx'⟩ := hregistered'
  rw [Registry.record_of_get hx, Registry.record_of_get hx'] at hsame
  simp only [Cell.Agrees, hleft, hright, Registry.record_write_of_get hx,
    Registry.record_write_of_get hx', hsame]

section Own

variable (h : m.Echoes f known m')
include h

theorem agrees_compile {handle : Handle} {shader : ObjectId}
    (hop : m.CarriesOut (.compile handle shader) m₁)
    (hop' : m'.CarriesOut (.compile handle (f shader)) m₁')
    (hid : m.registry.object handle .shader = .ok shader)
    (hneeds : ∀ cell ∈ m.needs (.compile handle shader), known cell) :
    (Cell.record handle).Agrees f m₁ m₁' := by
  obtain ⟨hwhat, -⟩ := h.agrees (.resource handle) (hneeds _ (by simp [needs]))
  have hcompiled := h.context.exec (.compileShader shader) rfl fun cell hcell => by
    rw [List.mem_singleton.mp hcell]
    exact hneeds _ (by simp [needs])
  have hcode : (Context.Cell.code shader).Agrees f (m.context.issue (.compileShader shader))
      (m'.context.issue (.compileShader (f shader))) :=
    hcompiled.agrees (.code shader) (.inl (by simp [Context.sets]))
  have hmessage : ((Asking.compile (f shader)).run m'.context).1 =
      ((Asking.compile shader).run m.context).1 := by
    rw [Asking.compile_message, Asking.compile_message, hcode]
  have hregistered := (Registry.isCreated_of_object hid).isRegistered
  have hregistered' := h.isRegistered hregistered
  generalize hrun : (Asking.compile shader).run m.context = answered at hmessage
  generalize hrun' : (Asking.compile (f shader)).run m'.context = answered' at hmessage
  obtain ⟨message, context⟩ := answered
  obtain ⟨message', context'⟩ := answered'
  cases (hmessage : message' = message)
  have hperform := (perform_compile handle hrun).symm.trans hop.performed
  have hperform' := (perform_compile handle hrun').symm.trans hop'.performed
  rw [settle_changeRecord hregistered] at hperform
  rw [settle_changeRecord hregistered'] at hperform'
  apply agrees_rewritten (ResourceRecord.logged message) (ResourceRecord.logged message)
    hregistered hregistered' (congrArg (·.2.registry) hperform).symm
    (congrArg (·.2.registry) hperform').symm
  -- What is recorded is a shader, in both machines of the same stage.
  obtain ⟨hkind, -⟩ := Registry.object_eq_ok_iff_recorded.mp hid
  cases hrecord : m.registry.record handle with
  | shader stage s =>
      cases hrecord' : m'.registry.record handle with
      | shader stage' s' =>
          rw [hrecord, hrecord'] at hwhat
          cases hwhat
          rfl
      | _ =>
          rw [hrecord, hrecord'] at hwhat
          cases hwhat
  | _ =>
      rw [hrecord] at hkind
      cases hkind

theorem agrees_link {handle : Handle} {program : ObjectId}
    (hop : m.CarriesOut (.link handle program) m₁)
    (hop' : m'.CarriesOut (.link handle (f program)) m₁')
    (hid : m.registry.object handle .program = .ok program)
    (hid' : m'.registry.object handle .program = .ok (f program))
    (hneeds : ∀ cell ∈ m.needs (.link handle program), known cell)
    (hadmits : m.admits (.link handle program) = true) :
    (Cell.record handle).Agrees f m₁ m₁' := by
  obtain ⟨before, after, hbefore, hperform, hafter, -⟩ := perform_link_run hid
  obtain ⟨before', after', hbefore', hperform', hafter', -⟩ := perform_link_run hid'
  cases hperform.symm.trans hop.performed
  cases hperform'.symm.trans hop'.performed
  simp only [needs, List.forall_mem_append, List.forall_mem_map] at hneeds
  obtain ⟨hcells, hrecord⟩ := hneeds
  have hlinked := (h.context.link hcells hadmits).2
  have hvalidated (c : Context) (id : ObjectId) : ((Asking.link id).run c).2.listed? =
      (c.exec (.linkProgram id)).2.listed? := Context.exec_listed?_of_relists rfl
  have halike : Asking.ListAlike program (f program) ((Asking.link program).run m.context).2
      ((Asking.link (f program)).run m'.context).2 := by
    rw [Asking.ListAlike, hvalidated, hvalidated]
    exact hlinked
  simp only [Cell.Agrees, hafter, hafter']
  apply congrArg ResourceRecord.program
  apply Asking.linked_alike halike
  by_cases hreports : ((Asking.link program).run m.context).2.ReportsLinked program
  · exact .inl hreports
  · have hknown : known (.record handle) := hrecord _ (by simp [if_neg hreports])
    have hsame := h.agrees (.record handle) hknown
    simp only [Cell.Agrees, hbefore, hbefore'] at hsame
    exact .inr (ResourceRecord.program.inj hsame)

theorem agrees_upload {target : BufferTarget} {contents : StoreContents} {usage : UInt32}
    {handle : Handle} (hop : m.CarriesOut (.bufferData target contents usage (some handle)) m₁)
    (hop' : m'.CarriesOut (.bufferData target contents usage (some handle)) m₁')
    (hregistered : m.registry.IsRegistered handle)
    (hneeds : ∀ cell ∈ m.needs (.bufferData target contents usage (some handle)), known cell) :
    (Cell.record handle).Agrees f m₁ m₁' := by
  have hregistered' := h.isRegistered hregistered
  have hsize : ((Asking.fill target.code usage contents).run m'.context).1 =
      ((Asking.fill target.code usage contents).run m.context).1 := by
    cases contents with
    | zeros size => rfl
    | bytes data =>
        have hbound : (Context.Cell.bound target.code).Agrees f m.context m'.context :=
          h.context.agrees _ (hneeds _ (by simp [needs]))
        have hhas (id : ObjectId) : (m'.context.objects.buffers.get? (f id)).isSome =
            (m.context.objects.buffers.get? id).isSome :=
          Bool.eq_iff_iff.mpr (h.context.has_iff .buffer id)
        simp only [Context.Cell.Agrees] at hbound
        rw [Asking.fill_size, Asking.fill_size, hbound]
        simp only [Option.any_map, hhas]
  generalize hrun : (Asking.fill target.code usage contents).run m.context = answered at hsize
  generalize hrun' : (Asking.fill target.code usage contents).run m'.context = answered' at hsize
  obtain ⟨size, context⟩ := answered
  obtain ⟨size', context'⟩ := answered'
  cases (hsize : size' = size)
  have hperform := (perform_bufferData hregistered hrun).symm.trans hop.performed
  have hperform' := (perform_bufferData hregistered' hrun').symm.trans hop'.performed
  let filled : ResourceRecord → ResourceRecord :=
    fun _ => .buffer { size := some size, target := some target }
  exact agrees_rewritten filled filled hregistered hregistered'
    (congrArg (·.2.registry) hperform).symm (congrArg (·.2.registry) hperform').symm rfl

theorem agrees_pointer {call call' : Call} {array buffer : Handle} {pointer : PointerRecord}
    (hop : m.CarriesOut (.setPointer call (some (array, buffer)) pointer) m₁)
    (hop' : m'.CarriesOut (.setPointer call' (some (array, buffer)) pointer) m₁')
    (hregistered : m.registry.IsRegistered array) (hknown : known (.record array)) :
    (Cell.record array).Agrees f m₁ m₁' := by
  have hsame := h.agrees (.record array) hknown
  simp only [Cell.Agrees] at hsame ⊢
  rw [hop.record_pointed hregistered, hop'.record_pointed (h.isRegistered hregistered)]
  cases hrecord : m.registry.record array <;> cases hrecord' : m'.registry.record array <;>
    rw [hrecord, hrecord'] at hsame <;> first | exact hsame | cases hsame <;> rfl

end Own

/-- Both machines have the same in a cell that both were told of. -/
theorem agrees_own (h : m.Echoes f known m') {op : Operation} (hop : m.CarriesOut op m₁)
    (hop' : m'.CarriesOut (op.rename f) m₁') (hresolved : op.Resolved (m.surroundings payloads))
    (hresolved' : (op.rename f).Resolved (m'.surroundings payloads))
    (hbound : m.BindsCreated) (hneeds : ∀ cell ∈ m.needs op, known cell)
    (hadmits : m.admits op = true) {cell : Cell} (hcell : cell ∈ op.sets) :
    cell.Agrees f m₁ m₁' := by
  have hbindings := hop.bindings_eq
  have hbindings' := hop'.bindings_eq
  cases op with
  | create handle what =>
      have hleft := (perform_create hresolved what).symm.trans hop.performed
      have hright := (perform_create (h.isRegistered hresolved) what).symm.trans hop'.performed
      obtain ⟨hresource, hrecord⟩ := h.agrees_made hresolved
        (congrArg (·.2.registry) hleft).symm (congrArg (·.2.registry) hright).symm
      simp only [Operation.sets, List.mem_cons, List.not_mem_nil, or_false] at hcell
      rcases hcell with rfl | rfl
      · exact hresource
      · exact hrecord
  | createUniformBuffer handle block usage =>
      have hleft := (perform_createUniformBuffer hresolved block usage).symm.trans hop.performed
      have hright := (perform_createUniformBuffer (h.isRegistered hresolved) block usage).symm.trans
        hop'.performed
      obtain ⟨hresource, hrecord⟩ := h.agrees_made hresolved
        (congrArg (·.2.registry) hleft).symm (congrArg (·.2.registry) hright).symm
      simp only [Operation.sets, List.mem_cons, List.not_mem_nil, or_false] at hcell
      rcases hcell with rfl | rfl | rfl
      · exact hresource
      · exact hrecord
      · simp only [Cell.Agrees, hbindings, hbindings', Operation.rename, Operation.bindingsAfter,
          Table.get?_erase, if_true]
  | compile handle shader =>
      cases List.mem_singleton.mp hcell
      exact h.agrees_compile hop hop' hresolved hneeds
  | link handle program =>
      cases List.mem_singleton.mp hcell
      exact h.agrees_link hop hop' hresolved hresolved' hneeds hadmits
  | bufferData target contents usage shown =>
      cases shown with
      | none => cases hcell
      | some handle =>
          cases List.mem_singleton.mp hcell
          have hcreated := hbound handle (.inr (.inr ⟨target, hresolved handle rfl⟩))
          exact h.agrees_upload hop hop' hcreated.isRegistered hneeds
  | setPointer call place pointer =>
      cases place with
      | none => cases hcell
      | some place =>
          obtain ⟨array, buffer⟩ := place
          cases List.mem_singleton.mp hcell
          have hcreated := hbound array (.inr (.inl (hresolved.2 array buffer rfl)))
          exact h.agrees_pointer hop hop' hcreated.isRegistered
            (hneeds _ (by simp [needs]))
  | useProgram program | bindVertexArray array =>
      cases List.mem_singleton.mp hcell
      simp only [Cell.Agrees, hbindings, hbindings', Operation.rename, Operation.bindingsAfter,
        Option.map_map, Function.comp_def]
  | bindBuffer target buffer =>
      cases List.mem_singleton.mp hcell
      simp only [Cell.Agrees, hbindings, hbindings', Operation.rename, Operation.bindingsAfter,
        Option.map_map, Function.comp_def, Table.get?_set, if_true]
  | nothing | issue call => cases hcell

/-- Nothing about a resource or about what is bound changes where an operation does not say so. -/
theorem agrees_other (h : m.Echoes f known m') (hfollows : op.Follows f op')
    (hop : m.CarriesOut op m₁) (hop' : m'.CarriesOut op' m₁')
    (hresolved : op.Resolved (m.surroundings payloads))
    (hresolved' : op'.Resolved (m'.surroundings payloads)) {cell : Cell}
    (hcell : ∀ c, cell ≠ .context c) (hknown : known cell) (hsets : cell ∉ op.sets)
    (hblurs : cell ∉ m.blurs op) : cell.Agrees f m₁ m₁' := by
  have hcontext {cells : List Context.Cell} : cell ∉ cells.map Cell.context := by
    intro hmem
    obtain ⟨c, -, rfl⟩ := List.mem_map.mp hmem
    exact hcell c rfl
  have hfree {id : Option ObjectId} (hid : id ≠ none) : cell.object? ≠ id := by
    cases cell with
    | context c => exact absurd rfl (hcell c)
    | _ => exact fun heq => hid heq.symm
  have hrename : cell.rename f = cell := by
    cases cell with
    | context c => exact absurd rfl (hcell c)
    | _ => rfl
  have hagrees := h.agrees cell hknown
  apply hagrees.kept
  · apply hop.kept hresolved h.context.sane
    · rw [sets, List.mem_append, not_or]
      exact ⟨hsets, hcontext⟩
    · exact hblurs
    · exact hfree nofun
  · rw [hrename]
    apply hop'.kept hresolved' h.context.sane'
    · rw [sets, List.mem_append, not_or]
      exact ⟨fun hmem => hsets (hfollows.mem_sets hmem), hcontext⟩
    · rw [blurs, List.mem_append, not_or] at hblurs ⊢
      refine ⟨hcontext, ?_⟩
      rw [hfollows.shown?_eq]
      intro hmem
      apply hblurs.2
      split at hmem
      · next handle _ =>
          split at hmem
          · cases hmem
          · next hwhat =>
              cases List.mem_singleton.mp hmem
              rw [← hagrees.1]
              simp only [hwhat, if_false, List.mem_singleton]
      · cases hmem
    · exact hfree nofun

/-- Two machines that carry out the same operation go on alike, if they had the same in the cells
that it goes by. -/
theorem carriesOut (h : m.Echoes f known m') (hfollows : op.Follows f op')
    (hop : m.CarriesOut op m₁) (hop' : m'.CarriesOut op' m₁')
    (hresolved : op.Resolved (m.surroundings payloads))
    (hresolved' : op'.Resolved (m'.surroundings payloads)) (hbound : m.BindsCreated)
    (hneeds : ∀ cell ∈ m.needs op, known cell) (hadmits : m.admits op = true) :
    m₁.Echoes f (m.learn op known) m₁' := by
  have hcontext : m₁.context.Echoes f (fun cell => m.learn op known (.context cell))
      m₁'.context := by
    rw [hop.context_eq, hop'.context_eq]
    apply (hfollows.context_echoes h.context hresolved ?_ ?_ _ _).mono
    · rintro cell (hset | ⟨hknown, hblurs⟩)
      · refine .inl ?_
        rcases List.mem_append.mp hset with hown | hset
        · exact absurd hown op.context_not_mem_sets
        · obtain ⟨c, hc, heq⟩ := List.mem_map.mp hset
          cases heq
          exact hc
      · refine .inr ⟨hknown, fun hmem => hblurs ?_⟩
        exact List.mem_append.mpr (.inl (List.mem_map_of_mem hmem))
    · rintro handle shader rfl
      exact hneeds _ (by simp [needs])
    · rintro handle program rfl
      refine ⟨fun cell hcell => hneeds _ ?_, hadmits⟩
      exact List.mem_append.mpr (.inl (List.mem_map_of_mem hcell))
  refine ⟨hcontext, ?_, ?_⟩
  · rw [hop.size_eq, hop'.size_eq]
    exact h.size_eq
  · intro cell hcell
    by_cases hcontextual : ∃ c, cell = .context c
    · obtain ⟨c, rfl⟩ := hcontextual
      exact hcontext.agrees c hcell
    have hother : ∀ c, cell ≠ .context c := fun c heq => hcontextual ⟨c, heq⟩
    by_cases hown : cell ∈ op.sets
    · cases hfollows with
      | aside => cases hown
      | renamed op => exact h.agrees_own hop hop' hresolved hresolved' hbound hneeds hadmits hown
    · rcases hcell with hset | ⟨hknown, hblurs⟩
      · rcases List.mem_append.mp hset with hmem | hmem
        · exact absurd hmem hown
        · obtain ⟨c, -, rfl⟩ := List.mem_map.mp hmem
          exact absurd rfl (hother c)
      · exact h.agrees_other hfollows hop hop' hresolved hresolved' hother hknown hown hblurs

end Echoes

end Machine

end GlPlayback
