import GlPlayback.Proofs.Gl.Rooted
import GlPlayback.Proofs.Interpreter.Coherence
import GlPlayback.Proofs.Interpreter.Steady

/-!
A list of commands that runs a second time. In the cells that it left alone the machine has what it
had the first time, and what it makes gets numbers behind those that it gave out then. A list that
goes by such cells, or by what it said itself, does the second time what it did the first time.
-/
namespace GlPlayback

/-- Numbers from `start` on are moved up, so that the first of them becomes `stop`. -/
def shift (start stop id : Nat) : Nat :=
  if id < start then id else id + (stop - start)

theorem shift_of_lt {start stop id : Nat} (hid : id < start) : shift start stop id = id :=
  if_pos hid

theorem shift_injective (start stop : Nat) : Function.Injective (shift start stop) := by
  intro id id' heq
  simp only [shift] at heq
  split at heq <;> split at heq <;> omega

section Behind

variable {start stop : Nat} (hle : start ≤ stop)
include hle

theorem shift_add (k : Nat) : shift start stop (start + k) = stop + k := by
  have hbehind : ¬ start + k < start := by omega
  rw [shift, if_neg hbehind]
  omega

theorem le_shift {id : Nat} (hid : start ≤ id) : stop ≤ shift start stop id := by
  have hadd := shift_add hle (id - start)
  rw [Nat.add_sub_cancel' hid] at hadd
  omega

end Behind

theorem map_shift_of_lt {start stop : Nat} {held : Option Nat}
    (hheld : ∀ id, held = some id → id < start) : held.map (shift start stop) = held := by
  cases held with
  | none => rfl
  | some id => rw [Option.map_some, shift_of_lt (hheld id rfl)]

namespace Context

variable {ctx ctx' : Context} {f : ObjectId → ObjectId} {known : Cell → Prop}

/-- Numbers that were not given out have the same behind them, namely nothing. -/
theorem agrees_of_unused (hn : ctx.Numbered) (hn' : ctx'.Numbered) {cell : Cell} {id : ObjectId}
    (hcell : cell.object? = some id) (hid : ctx.nextId ≤ id) (hid' : ctx'.nextId ≤ f id) :
    cell.Agrees f ctx ctx' := by
  obtain ⟨hshader, hdraft⟩ := hn.unused hid
  obtain ⟨hshader', hdraft'⟩ := hn'.unused hid'
  cases cell with
  | source _ | code _ =>
      cases hcell
      simp only [Cell.Agrees, hshader, hshader']
  | attached _ _ | wanted _ _ =>
      cases hcell
      simp only [Cell.Agrees, hdraft, hdraft', Option.bind_none, Option.map_none]
  | bound _ => cases hcell

/-- What was kept holds objects that have their numbers still. -/
theorem Rooted.agrees_of_kept (h : ctx.Rooted) {cell : Cell} (hloose : ¬ cell.IsLoose)
    (hcell : ∀ id, cell.object? = some id → id < ctx.nextId) (hkept : cell.Kept ctx ctx')
    (stop : Nat) : cell.Agrees (shift ctx.nextId stop) ctx ctx' := by
  cases cell with
  | source id | code id | wanted id _ =>
      simp only [Cell.Kept, Cell.Agrees, id_eq] at hkept ⊢
      rw [shift_of_lt (hcell id rfl), hkept]
  | attached id stage =>
      simp only [Cell.Kept, Cell.Agrees, id_eq, Option.map_id] at hkept ⊢
      rw [shift_of_lt (hcell id rfl), hkept, map_shift_of_lt fun _ => h.attached_lt]
  | bound target =>
      simp only [Cell.Kept, Cell.Agrees, id_eq, Option.map_id] at hkept ⊢
      rw [hkept, map_shift_of_lt fun _ => h.bound_lt hloose]

theorem Rooted.echoes_shift (h : ctx.Rooted) (hsane : ctx'.Sane) (hgrows : ctx.Grows ctx')
    (hknown : ∀ cell, known cell → (∃ id, cell.object? = some id ∧ ctx.nextId ≤ id) ∨
      (¬ cell.IsLoose ∧ cell.Kept ctx ctx')) :
    ctx.Echoes (shift ctx.nextId ctx'.nextId) known ctx' := by
  have hle := hgrows.nextId_le
  refine ⟨shift_injective _ _, shift_add hle, ?_, ?_, h.toSane, hsane⟩
  · intro what id
    by_cases hid : id < ctx.nextId
    · rw [shift_of_lt hid]
      exact hgrows.has_iff h.numbered hid
    · apply iff_of_false
      · intro hhas
        apply Nat.not_lt.mpr (le_shift hle (Nat.not_lt.mp hid))
        exact hsane.numbered.below hhas
      · exact fun hhas => hid (h.numbered.below hhas)
  · intro cell hcell
    by_cases hnew : ∃ id, cell.object? = some id ∧ ctx.nextId ≤ id
    · obtain ⟨id, hobject, hid⟩ := hnew
      exact agrees_of_unused h.numbered hsane.numbered hobject hid (le_shift hle hid)
    · obtain ⟨hloose, hkept⟩ := (hknown cell hcell).resolve_left hnew
      apply h.agrees_of_kept hloose _ hkept
      exact fun id hobject => Nat.not_le.mp fun hid => hnew ⟨id, hobject, hid⟩

end Context

namespace Machine

variable {m m' m₁ : Machine} {payloads : List (List UInt8)} {commands : List Command}

/-- The cells of which nothing is said where nothing changed. -/
def Loose : Cell → Prop
  | .context cell => cell.IsLoose
  | _ => False

/-- A cell is in the first run of a list what it is in the second: it belongs to an object that the
run itself makes, or the list leaves it alone. -/
def Firm (payloads : List (List UInt8)) (m : Machine) (commands : List Command) (cell : Cell) :
    Prop :=
  (∃ id ∈ cell.object?, m.context.nextId ≤ id) ∨
    (¬ Loose cell ∧ cell ∉ m.changesOf payloads commands)

instance : DecidablePred Loose
  | .context cell => inferInstanceAs (Decidable cell.IsLoose)
  | .program | .vertexArray | .buffer _ | .resource _ | .record _ => .isFalse id

instance (commands : List Command) : DecidablePred (m.Firm payloads commands) :=
  fun _ => inferInstanceAs (Decidable (_ ∨ _))

/-- A machine as a host leaves it that changes the context by calls only. -/
structure Poised (m : Machine) : Prop where
  bound : m.BindsCreated
  accounted : m.Accounted
  rooted : m.context.Rooted

theorem Poised.react (hm : m.Poised) (event : Event) : (m.react event).Poised := by
  refine ⟨react_bindsCreated hm.bound event, react_accounted hm.bound hm.accounted event, ?_⟩
  obtain ⟨calls, hcalls⟩ := m.react_issues event
  rw [hcalls]
  exact hm.rooted.issueAll calls

theorem Poised.after (hm : m.Poised) (events : List Event) : (m.after events).Poised := by
  induction events generalizing m with
  | nil => exact hm
  | cons event rest ih => exact ih (hm.react event)

theorem Poised.issueAll (hm : m.Poised) (calls : List Call) :
    Poised { m with context := m.context.issueAll calls } :=
  ⟨hm.bound, hm.accounted.frame (keptByCalls_grows.issueAll m.context calls) fun _ => rfl,
    hm.rooted.issueAll calls⟩

/-- Of the context only the objects, their numbers and what is bound matter. -/
theorem Poised.congr (hm : m.Poised) {context : Context}
    (hobjects : context.objects = m.context.objects)
    (hbindings : context.bindings = m.context.bindings)
    (hnext : context.nextId = m.context.nextId) : Poised { m with context } := by
  have hgrows : m.context.Grows context := (Context.SameObjects.of_eq hnext hobjects).grows
  exact ⟨hm.bound, hm.accounted.frame hgrows fun _ => rfl,
    hm.rooted.congr hobjects hbindings hnext⟩

/-- A list of commands is a history of the machine. -/
theorem execute_after (m : Machine) (checks : Bool) (commands : List Command) :
    (m.execute checks commands payloads).2 =
      m.after ((if checks then [.call .getError] else []) ++
        commands.map (.command checks payloads)) := by
  rw [execute_machine, after, List.foldl_append, List.foldl_map]
  cases checks <;> rfl

/-- The other machine takes over where this one stopped: it knows of the same resources, and the
context changed at most in loose cells. -/
structure Resumes (m m' : Machine) : Prop where
  size_eq : m'.registry.size = m.registry.size
  grows : m.context.Grows m'.context
  sane : m'.context.Sane
  kept : ∀ cell, ¬ Loose cell → cell.Kept m m'

theorem next_grows (m : Machine) (command : Command) :
    m.context.Grows (m.next payloads command).context := by
  obtain ⟨calls, hcalls⟩ := m.executeCommand_issues false payloads command
  rw [hcalls]
  exact keptByCalls_grows.issueAll m.context calls

theorem next_sane (hsane : m.context.Sane) (command : Command) :
    (m.next payloads command).context.Sane := by
  obtain ⟨calls, hcalls⟩ := m.executeCommand_issues false payloads command
  rw [hcalls]
  exact hsane.issueAll calls

theorem next_kept (hbound : m.BindsCreated) (hsane : m.context.Sane) {command : Command}
    {cell : Cell} (hchanges : cell ∉ m.changes payloads command)
    (hcell : ∀ id ∈ cell.object?, id < m.context.nextId) :
    cell.Kept m (m.next payloads command) := by
  cases hresolve : Operation.resolve (m.surroundings payloads) command with
  | error e =>
      rw [next, executeCommand_of_error hresolve]
      exact .refl cell
  | ok op =>
      obtain ⟨-, hop⟩ := next_of_resolve hbound hresolve
      simp only [changes, hresolve, List.mem_append, not_or] at hchanges
      have hresolved := (Operation.resolve_yields (m.surroundings payloads) command).value hresolve
      apply hop.kept hresolved hsane hchanges.1 hchanges.2
      exact fun hnew => Nat.lt_irrefl _ (hcell _ hnew)

theorem next_size (hbound : m.BindsCreated) (command : Command) :
    (m.next payloads command).registry.size = m.registry.size :=
  (executeCommand_step false payloads hbound command).size_eq

theorem run_resumed (hbound : m.BindsCreated) (hsane : m.context.Sane) :
    m.context.Grows (m.run false payloads commands).context ∧
    (m.run false payloads commands).context.Sane ∧
    (m.run false payloads commands).registry.size = m.registry.size ∧
    ∀ cell, cell ∉ m.changesOf payloads commands →
      (∀ id ∈ cell.object?, id < m.context.nextId) →
      cell.Kept m (m.run false payloads commands) := by
  induction commands generalizing m with
  | nil => exact ⟨.refl _, hsane, rfl, fun cell _ _ => .refl cell⟩
  | cons command rest ih =>
      have hgrows : m.context.Grows (m.next payloads command).context := m.next_grows command
      obtain ⟨hgrows', hsane', hsize, hkept⟩ :=
        ih (executeCommand_bindsCreated hbound false payloads command) (next_sane hsane command)
      refine ⟨hgrows.trans hgrows', hsane', hsize.trans (next_size hbound command), ?_⟩
      intro cell hchanges hcell
      simp only [changesOf, List.mem_append, not_or] at hchanges
      apply (next_kept hbound hsane hchanges.1 hcell).trans
      apply hkept cell hchanges.2
      exact fun id hid => Nat.lt_of_lt_of_le (hcell id hid) hgrows.nextId_le

theorem Accounted.object_lt (ha : m.Accounted) {h : Handle} {id : ObjectId}
    (hid : m.registry.objectOf? h = some id) : id < m.context.nextId := by
  obtain ⟨x, hx, hobject⟩ := Registry.objectOf?_eq_some_iff.mp hid
  obtain ⟨what, hhas⟩ := ha.known hx hobject
  exact ha.numbered.below hhas

/-- Where a list ran, the next run of it starts from the same in the firm cells. -/
theorem echoes_resumed (hm : m.Poised) (hresumes : (m.run false payloads commands).Resumes m') :
    m.Echoes (shift m.context.nextId m'.context.nextId)
      (m.Firm payloads commands) m' := by
  obtain ⟨hgrows, -, hsize, hkept⟩ : m.context.Grows (m.run false payloads commands).context ∧ _ :=
    run_resumed hm.bound hm.rooted.toSane
  have hfirm {cell : Cell} (hcell : m.Firm payloads commands cell)
      (hold : ∀ id ∈ cell.object?, id < m.context.nextId) : ¬ Loose cell ∧ cell.Kept m m' := by
    rcases hcell with ⟨id, hid, hle⟩ | ⟨hloose, hchanges⟩
    · exact absurd (hold id hid) (Nat.not_lt.mpr hle)
    · exact ⟨hloose, (hkept cell hchanges hold).trans (hresumes.kept cell hloose)⟩
  have hcontext : m.context.Echoes (shift m.context.nextId m'.context.nextId)
      (fun cell => m.Firm payloads commands (.context cell)) m'.context := by
    apply hm.rooted.echoes_shift hresumes.sane (hgrows.trans hresumes.grows)
    intro cell hcell
    by_cases hnew : ∃ id, cell.object? = some id ∧ m.context.nextId ≤ id
    · exact .inl hnew
    · exact .inr (hfirm hcell fun id hid => Nat.not_le.mp fun hle => hnew ⟨id, hid, hle⟩)
  refine ⟨hcontext, hresumes.size_eq.trans hsize, fun cell hcell => ?_⟩
  cases cell with
  | context cell => exact hcontext.agrees cell hcell
  | program | vertexArray | buffer _ | record _ => exact (hfirm hcell nofun).2
  | resource h =>
      obtain ⟨hwhat, hobject⟩ := (hfirm hcell nofun).2
      rw [Option.map_id_apply] at hobject
      refine ⟨hwhat, ?_⟩
      rw [hobject, map_shift_of_lt fun _ => hm.accounted.object_lt]

/-- A list that goes by firm cells, or by what it said itself, and that ran without a failure, runs
without a failure again and leaves every record as it left it before, but for the numbers of
locations. -/
theorem run_again (hm : m.Poised) (hbound' : m'.BindsCreated)
    (hresumes : (m.run false payloads commands).Resumes m')
    (hsteady : m.Steady payloads (m.Firm payloads commands) commands)
    (hclean : (m.execute false commands payloads).1.failures = []) :
    (m'.execute false commands payloads).1.failures = [] ∧
    ∀ h, ((m'.run false payloads commands).registry.record h).unnumbered =
      ((m.run false payloads commands).registry.record h).unnumbered := by
  have hechoes := echoes_resumed hm hresumes
  obtain ⟨hclean', hran⟩ := hechoes.run hm.bound hbound' hsteady hclean
  refine ⟨hclean', fun h => hran.agrees (.record h) (learnsOf_record ?_)⟩
  by_cases hchanges : .record h ∈ m.changesOf payloads commands
  · exact .inr hchanges
  · exact .inl (.inr ⟨id, hchanges⟩)

end Machine

end GlPlayback
