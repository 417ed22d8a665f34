import GlPlayback.Proofs.Gl.Cells
import GlPlayback.Proofs.Interpreter.Relisting

/-!
What commands go by, besides what they say themselves, cut into cells: what is bound, what the
registry knows of each resource, and the cells of the context. An operation sets few of them and
leaves every other one as it was.
-/
namespace GlPlayback

inductive Cell where
  | program
  | vertexArray
  | buffer (target : BufferTarget)
  /-- The object behind a resource, and of what kind it is recorded to be. -/
  | resource (h : Handle)
  | record (h : Handle)
  | context (cell : Context.Cell)
  deriving DecidableEq, Repr

namespace Cell

/-- The object that a cell is part of. -/
def object? : Cell → Option ObjectId
  | context cell => cell.object?
  | _ => none

def rename (f : ObjectId → ObjectId) : Cell → Cell
  | context cell => context (cell.rename f)
  | cell => cell

/-- Another machine has in a cell what this one has in it, with its objects renamed. The numbers of
locations in records do not count. -/
def Agrees (f : ObjectId → ObjectId) (m m' : Machine) : Cell → Prop
  | program => m'.bindings.program = m.bindings.program
  | vertexArray => m'.bindings.vertexArray = m.bindings.vertexArray
  | buffer target => m'.bindings.buffers.get? target = m.bindings.buffers.get? target
  | resource h => (m'.registry.record h).what? = (m.registry.record h).what? ∧
      m'.registry.objectOf? h = (m.registry.objectOf? h).map f
  | record h => (m'.registry.record h).unnumbered = (m.registry.record h).unnumbered
  | context cell => cell.Agrees f m.context m'.context

/-- A cell is what it was, but for the numbers of locations. -/
abbrev Kept (m m' : Machine) : Cell → Prop :=
  Agrees id m m'

variable {f : ObjectId → ObjectId} {m m' m₁ m₁' : Machine}

theorem Kept.refl (c : Cell) : c.Kept m m := by
  cases c with
  | context cell => exact Context.Cell.Kept.refl cell
  | resource h => exact ⟨rfl, Option.map_id_apply.symm⟩
  | program | vertexArray | buffer _ | record _ => rfl

theorem Kept.trans {c : Cell} (h : c.Kept m m₁) (h' : c.Kept m₁ m') : c.Kept m m' := by
  cases c with
  | context cell => exact Context.Cell.Kept.trans (c := cell) h h'
  | resource handle =>
      simp only [Agrees, Option.map_id_apply] at h h' ⊢
      exact ⟨h'.1.trans h.1, h'.2.trans h.2⟩
  | program | vertexArray | buffer _ | record _ => exact Eq.trans h' h

theorem Agrees.kept {c : Cell} (h : c.Agrees f m m') (hleft : c.Kept m m₁)
    (hright : (c.rename f).Kept m' m₁') : c.Agrees f m₁ m₁' := by
  cases c with
  | context cell => exact Context.Cell.Agrees.kept (c := cell) h hleft hright
  | resource handle =>
      simp only [Agrees, rename, Option.map_id_apply] at h hleft hright ⊢
      rw [hleft.1, hleft.2, hright.1, hright.2]
      exact h
  | program | vertexArray | buffer _ | record _ =>
      simp only [Agrees, rename] at h hleft hright ⊢
      rw [hleft, hright, h]

end Cell

namespace Operation

/-- The cells of the registry and of what is bound whose contents an operation says. -/
def sets : Operation → List Cell
  | create h _ => [.resource h, .record h]
  | createUniformBuffer h _ _ => [.resource h, .record h, .buffer .uniform]
  | compile h _ | link h _ | bufferData _ _ _ (some h) | setPointer _ (some (h, _)) _ =>
      [.record h]
  | useProgram _ => [.program]
  | bindVertexArray _ => [.vertexArray]
  | bindBuffer target _ => [.buffer target]
  | _ => []

/-- The cells of the context whose contents an operation says. -/
def contextSets (ctx : Context) : Operation → List Context.Cell
  | issue call | setPointer call _ _ => ctx.sets call
  | compile _ shader => ctx.sets (.compileShader shader)
  | bindBuffer target buffer => ctx.sets (.bindBuffer target.code (buffer.map (·.2)))
  | createUniformBuffer _ _ _ => [.bound Enumerant.uniformBuffer]
  | _ => []

/-- The cells of the context that an operation changes into what they were another time. -/
def contextBlurs : Operation → List Context.Cell
  | bindVertexArray array => Context.blurs (.bindVertexArray (array.map (·.2)))
  | _ => []

end Operation

namespace Machine

def sets (m : Machine) (op : Operation) : List Cell :=
  op.sets ++ (op.contextSets m.context).map .context

/-- The cells that an operation changes in a way that it does not say: the element buffer with the
vertex array, and the kind of a resource in whose record an upload shows though it is no buffer. -/
def blurs (m : Machine) (op : Operation) : List Cell :=
  op.contextBlurs.map .context ++
    match op.shown? with
    | some h => if (m.registry.record h).what? = some .buffer then [] else [.resource h]
    | none => []

end Machine

namespace Asking

/-- A compilation is followed by questions about it. -/
theorem calls_compile (shader : ObjectId) (ctx : Context) : ∃ rest,
    (compile shader).calls ctx = .compileShader shader :: rest ∧
      ∀ call ∈ rest, call.isAside = true := by
  refine ⟨_, rfl, ?_⟩
  apply Only.mem_calls
  exact Only.bind (.pure ()) fun _ => Only.bind (.ask rfl) fun _ => .ite (.ask rfl) (.pure _)

theorem only_linked_aside (program : ObjectId) (record : ProgramRecord) :
    Only (fun call => call.isAside = true) (linked program record) := by
  apply (only_linked program record).mono
  rintro call (hquestion | ⟨block, binding, rfl⟩)
  · cases call <;> first | rfl | cases hquestion
  · rfl

theorem only_fill_aside (target usage : UInt32) (contents : StoreContents) :
    Only (fun call => call.isAside = true) (fill target usage contents) := by
  cases contents with
  | bytes data => exact Only.bind (.ask rfl) fun _ => Only.bind (.ask rfl) fun _ => .pure _
  | zeros size => exact Only.bind (.ask rfl) fun _ => .pure _

end Asking

/-- A link is followed by questions about it, and at most a block is bound. -/
theorem Operation.calls_link (h : Handle) (program : ObjectId) (r : Registry) (ctx : Context) :
    ∃ rest, (link h program).calls r ctx = .linkProgram program :: rest ∧
      ∀ call ∈ rest, call.isAside = true := by
  refine ⟨_, rfl, ?_⟩
  intro call hcall
  rcases List.mem_append.mp hcall with hcall | hcall
  · cases List.mem_singleton.mp hcall
    rfl
  · split at hcall
    · exact (Asking.only_linked_aside _ _).mem_calls _ call hcall
    · cases hcall

/-- What a plain call may be. -/
theorem Call.IsPlain.givesNumbers {call : Call} (hcall : call.IsPlain) :
    call.givesNumbers = false := by
  cases call <;> first | rfl | exact hcall.elim

theorem Call.IsPlain.blurs {call : Call} (hcall : call.IsPlain) : Context.blurs call = [] := by
  cases call <;> first | rfl | exact hcall.elim

theorem Call.not_makes {call : Call} (hgives : call.givesNumbers = false) :
    ¬ ((∃ type, call = .createShader type) ∨ call = .createProgram) := by
  rintro (⟨type, rfl⟩ | rfl)
  · cases hgives
  · cases hgives

namespace Context

variable {ctx : Context}

/-- Every call but those that make an object leaves every cell that it neither sets nor blurs. -/
theorem Sane.exec_kept (h : ctx.Sane) {call : Call} (hgives : call.givesNumbers = false)
    {cell : Cell} (hsets : cell ∉ ctx.sets call) (hblurs : cell ∉ blurs call) :
    cell.Kept ctx (ctx.exec call).2 :=
  Context.exec_kept h.numbered h.held hsets hblurs fun hmakes =>
    absurd hmakes (Call.not_makes hgives)

end Context

section Kept

variable {op : Operation} {s : Surroundings} {m m' : Machine}

/-- An operation leaves every cell of the context that it neither sets nor blurs, unless it makes
the cell's object. -/
theorem Operation.Resolved.context_kept (hop : op.Resolved s) {ctx : Context} (hsane : ctx.Sane)
    {cell : Context.Cell} (hsets : cell ∉ op.contextSets ctx) (hblurs : cell ∉ op.contextBlurs)
    (hmakes : cell.object? ≠ some ctx.nextId) (r : Registry) :
    cell.Kept ctx (ctx.issueAll (op.calls r ctx)) := by
  have hlinks (program : ObjectId) {cell : Context.Cell} :
      cell.Kept ctx (ctx.exec (.linkProgram program)).2 := by
    apply Context.exec_kept hsane.numbered hsane.held List.not_mem_nil List.not_mem_nil
    rintro (⟨type, heq⟩ | heq) <;> cases heq
  cases op with
  | nothing => exact .refl cell
  | issue call | setPointer call _ _ =>
      have hplain : call.IsPlain := by first | exact hop | exact hop.1
      have hnone : cell ∉ Context.blurs call := by
        rw [hplain.blurs]
        exact List.not_mem_nil
      exact hsane.exec_kept hplain.givesNumbers hsets hnone
  | create h what =>
      rw [calls, Asking.calls_make]
      have hnone : ctx.sets (Asking.creation what) = [] ∧
          Context.blurs (Asking.creation what) = [] := by cases what <;> exact ⟨rfl, rfl⟩
      apply Context.exec_kept hsane.numbered hsane.held
      · simp [hnone.1]
      · simp [hnone.2]
      · exact fun _ => hmakes
  | compile h shader =>
      obtain ⟨rest, hcalls, hrest⟩ := Asking.calls_compile shader ctx
      rw [calls, hcalls]
      exact (hsane.exec_kept rfl hsets List.not_mem_nil).trans
        (((hsane.exec _).issueAll_rests hrest).kept cell)
  | link h program =>
      obtain ⟨rest, hcalls, hrest⟩ := Operation.calls_link h program r ctx
      rw [hcalls]
      exact (hlinks program).trans (((hsane.exec _).issueAll_rests hrest).kept cell)
  | useProgram program => exact hsane.exec_kept rfl List.not_mem_nil List.not_mem_nil
  | bindVertexArray array => exact hsane.exec_kept rfl List.not_mem_nil hblurs
  | bindBuffer target buffer => exact hsane.exec_kept rfl hsets List.not_mem_nil
  | bufferData target contents usage shown =>
      apply (hsane.issueAll_rests _).kept cell
      exact (Asking.only_fill_aside target.code usage contents).mem_calls ctx
  | createUniformBuffer h block usage =>
      rw [calls, Asking.calls_makeBlockBuffer]
      have hne : cell ≠ .bound Enumerant.uniformBuffer :=
        fun heq => hsets (by simp [contextSets, heq])
      have hbind {ctx : Context} (hsane : ctx.Sane) (buffer : Option ObjectId) :
          cell.Kept ctx (ctx.issue (.bindBuffer Enumerant.uniformBuffer buffer)) := by
        apply hsane.exec_kept rfl _ List.not_mem_nil
        simp only [Context.sets]
        split
        · simpa using hne
        · exact List.not_mem_nil
      have hmade : cell.Kept ctx (ctx.issue .createBuffer) := by
        apply Context.exec_kept hsane.numbered hsane.held List.not_mem_nil List.not_mem_nil
        exact fun _ => hmakes
      have hsane₁ := hsane.exec .createBuffer
      have hsane₂ := hsane₁.exec (.bindBuffer Enumerant.uniformBuffer (some ctx.nextId))
      have hsane₃ := hsane₂.exec
        (.bufferDataSize Enumerant.uniformBuffer block.size.toNatClampNeg usage)
      exact hmade.trans ((hbind hsane₁ _).trans
        (((hsane₂.exec_rests rfl).kept cell).trans (hbind hsane₃ none)))

/-- What is bound by handle is what it was, unless an operation says otherwise. -/
theorem Operation.bindings_kept (op : Operation) (b : BindingState) :
    (.program ∉ op.sets → (op.bindingsAfter b).program = b.program) ∧
    (.vertexArray ∉ op.sets → (op.bindingsAfter b).vertexArray = b.vertexArray) ∧
    ∀ target, .buffer target ∉ op.sets →
      (op.bindingsAfter b).buffers.get? target = b.buffers.get? target := by
  cases op with
  | useProgram program => exact ⟨fun h => absurd List.mem_cons_self h, fun _ => rfl, fun _ _ => rfl⟩
  | bindVertexArray array =>
      exact ⟨fun _ => rfl, fun h => absurd List.mem_cons_self h, fun _ _ => rfl⟩
  | bindBuffer target buffer =>
      refine ⟨fun _ => rfl, fun _ => rfl, fun other hother => ?_⟩
      have hne : target ≠ other := fun heq => hother (by simp [sets, heq])
      simp only [bindingsAfter, Table.get?_set, if_neg hne]
  | createUniformBuffer h block usage =>
      refine ⟨fun _ => rfl, fun _ => rfl, fun other hother => ?_⟩
      have hne : .uniform ≠ other := fun heq => hother (by simp [sets, ← heq])
      simp only [bindingsAfter, Table.get?_erase, if_neg hne]
  | nothing | issue _ | create _ _ | compile _ _ | link _ _ | bufferData _ _ _ _
  | setPointer _ _ _ => exact ⟨fun _ => rfl, fun _ => rfl, fun _ _ => rfl⟩

theorem Operation.record_mem_sets_of_written {r : Registry} {h : Handle}
    (hwritten : op.written? r = some h) : .record h ∈ op.sets := by
  cases op with
  | create _ _ | createUniformBuffer _ _ _ | compile _ _ | link _ _ =>
      cases hwritten
      simp [sets]
  | bufferData _ _ _ shown =>
      cases hwritten
      simp [sets]
  | setPointer call place pointer =>
      cases place with
      | none => cases hwritten
      | some place =>
          simp only [written?] at hwritten
          split at hwritten
          · cases hwritten
            simp [sets]
          · cases hwritten
  | nothing | issue _ | useProgram _ | bindVertexArray _ | bindBuffer _ _ => cases hwritten

theorem Operation.resource_mem_sets_of_created {h : Handle} (hcreated : op.created? = some h) :
    .resource h ∈ op.sets := by
  cases op with
  | create _ _ | createUniformBuffer _ _ _ =>
      cases hcreated
      simp [sets]
  | _ => cases hcreated

namespace Machine

/-- The record of a resource is what it was, unless an operation says otherwise. -/
theorem Writes.record_kept (hw : m.Writes op m') {h : Handle} (hsets : .record h ∉ op.sets) :
    m'.registry.record h = m.registry.record h :=
  hw.step.record_eq fun hwritten => hsets (Operation.record_mem_sets_of_written hwritten)

/-- So are its object and its kind, where no upload shows in the record of what is no buffer. -/
theorem Writes.resource_cell_kept (hw : m.Writes op m') {h : Handle}
    (hsets : .resource h ∉ op.sets)
    (hshown : op.shown? = some h → (m.registry.record h).what? = some .buffer) :
    (m'.registry.record h).what? = (m.registry.record h).what? ∧
      m'.registry.objectOf? h = m.registry.objectOf? h := by
  cases hw with
  | nothing _ _ _ hregistry =>
      rw [hregistry]
      exact ⟨rfl, rfl⟩
  | creation _ hcreated _ _ _ _ hregistry =>
      have hne : h ≠ _ := fun heq =>
        hsets (heq ▸ Operation.resource_mem_sets_of_created hcreated)
      rw [hregistry, Registry.record_write_of_ne _ _ _ hne, Registry.objectOf?_write_of_ne hne]
      exact ⟨rfl, rfl⟩
  | @revision other x change _ _ _ hx _ hwhat hregistry =>
      rw [hregistry, Registry.objectOf?_rewrite]
      refine ⟨?_, rfl⟩
      by_cases heq : h = other
      · subst heq
        rw [Registry.record_write_of_get hx, Registry.record_of_get hx, hwhat]
      · rw [Registry.record_write_of_ne _ _ _ heq]
  | @upload other record _ _ hother hh hregistry =>
      rw [hregistry, Registry.objectOf?_rewrite fun _ => .buffer record]
      refine ⟨?_, rfl⟩
      by_cases heq : h = other
      · subst heq
        obtain ⟨x, hx, -⟩ := hh
        rw [Registry.record_write_of_get hx, hshown hother]
        rfl
      · rw [Registry.record_write_of_ne _ _ _ heq]

/-- An operation leaves every cell that it neither sets nor blurs, unless it makes the cell's
object. -/
theorem CarriesOut.kept (hop : m.CarriesOut op m') (hresolved : op.Resolved s)
    (hsane : m.context.Sane) {cell : Cell} (hsets : cell ∉ m.sets op) (hblurs : cell ∉ m.blurs op)
    (hmakes : cell.object? ≠ some m.context.nextId) : cell.Kept m m' := by
  have hown : cell ∉ op.sets := fun hmem => hsets (List.mem_append.mpr (.inl hmem))
  obtain ⟨hprogram, harray, hbuffer⟩ := op.bindings_kept m.bindings
  rw [← hop.bindings_eq] at hprogram harray hbuffer
  cases cell with
  | program => exact hprogram hown
  | vertexArray => exact harray hown
  | buffer target => exact hbuffer target hown
  | record h => exact congrArg ResourceRecord.unnumbered (hop.writes.record_kept hown)
  | resource h =>
      rw [Cell.Kept, Cell.Agrees, Option.map_id_apply]
      apply hop.writes.resource_cell_kept hown
      intro hshown
      refine Decidable.byContradiction fun hwhat => hblurs ?_
      refine List.mem_append.mpr (.inr ?_)
      simp only [hshown, if_neg hwhat, List.mem_singleton]
  | context cell =>
      rw [Cell.Kept, Cell.Agrees, hop.context_eq]
      apply hresolved.context_kept hsane _ _ hmakes
      · exact fun hmem => hsets (List.mem_append.mpr (.inr (List.mem_map_of_mem hmem)))
      · exact fun hmem => hblurs (List.mem_append.mpr (.inl (List.mem_map_of_mem hmem)))

end Machine

end Kept

end GlPlayback
