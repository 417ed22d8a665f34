import GlPlayback.Proofs.Gl.Linked
import GlPlayback.Proofs.Interpreter.Lasting

/-!
The program that uniforms and attributes are looked up in, beside the one that the context uses.
Nobody asks the context whether it took a program into use, and it takes none that is not linked.
-/
namespace GlPlayback

namespace Operation

variable {op : Operation}

/-- The program that an operation takes into use. -/
def used? : Operation → Option ObjectId
  | useProgram program => program.map (·.2)
  | _ => none

theorem Resolved.program_not_mem_touches {s : Surroundings} (hop : op.Resolved s)
    (huse : ∀ program, op ≠ .useProgram program) : .program ∉ op.touches := by
  intro hmem
  rcases hop.reserved_cases hmem trivial with ⟨-, program, heq⟩ | ⟨hpart, -⟩
  · exact huse program heq
  · cases hpart

theorem used?_of_ne (huse : ∀ program, op ≠ .useProgram program) : op.used? = none := by
  cases op with
  | useProgram program => exact absurd rfl (huse program)
  | _ => rfl

theorem program_bindingsAfter (b : BindingState) (huse : ∀ program, op ≠ .useProgram program) :
    (op.bindingsAfter b).program = b.program := by
  cases op with
  | useProgram program => exact absurd rfl (huse program)
  | _ => rfl

end Operation

namespace Machine

variable {m m' : Machine} {event : Event}

/-- The program that names are looked up in is the one that the context uses. -/
structure ProgramAgrees (m : Machine) : Prop where
  some_iff : ∀ h, m.bindings.program = some h ↔
    ∃ id, m.context.bindings.program = some id ∧ m.registry.objectOf? h = some id
  none_iff : m.bindings.program = none ↔ m.context.bindings.program = none

/-- A program that a command takes into use is linked, or in use already. -/
def UsesLinked (m : Machine) (event : Event) : Prop :=
  ∀ id, (m.operation? event).bind Operation.used? = some id →
    m.context.ReportsLinked id ∨ m.context.bindings.program = some id

instance (m : Machine) (event : Event) : Decidable (m.UsesLinked event) :=
  inferInstanceAs (Decidable (∀ id, (m.operation? event).bind Operation.used? = some id →
    m.context.ReportsLinked id ∨ m.context.bindings.program = some id))

theorem Sound.programAgrees_iff (hm : m.Sound) : m.ProgramAgrees ↔
    m.context.bindings.program = m.bindings.program.bind m.registry.objectOf? := by
  cases hbound : m.bindings.program with
  | none =>
      constructor
      · intro hagrees
        exact hagrees.none_iff.mp hbound
      · intro hnone
        refine ⟨fun h => ?_, by simp [hbound, hnone]⟩
        simp [hbound, hnone]
  | some h =>
      obtain ⟨id, hid⟩ := hm.objectOf?_isSome (hm.bindsCreated h (.inl hbound))
      simp only [Option.bind_some, hid]
      constructor
      · intro hagrees
        obtain ⟨id', hused, hid'⟩ := (hagrees.some_iff h).mp hbound
        cases hid.symm.trans hid'
        exact hused
      · intro hused
        refine ⟨fun h' => ?_, by simp [hbound, hused]⟩
        constructor
        · intro hbound'
          cases hbound.symm.trans hbound'
          exact ⟨id, hused, hid⟩
        · rintro ⟨id', hused', hid'⟩
          cases hused.symm.trans hused'
          rw [hbound, hm.objectOf?_inj hid hid']

section Step

variable (hm : m.Sound) (hevent : m.Admits event)
include hm hevent

/-- What neither the context nor the interpreter takes into use leaves the programs in step. -/
theorem Sound.programAgrees_kept (hagrees : m.ProgramAgrees)
    (hcontext : (m.react event).context.bindings.program = m.context.bindings.program)
    (hbindings : (m.react event).bindings.program = m.bindings.program) :
    (m.react event).ProgramAgrees := by
  have hnow := hm.programAgrees_iff.mp hagrees
  rw [(hm.react hevent).programAgrees_iff, hcontext, hbindings,
    hevent.bind_objectOf?_eq hm.bindsCreated fun h hh => hm.bindsCreated h (.inl hh), hnow]

/-- The interpreter takes every program into use, and the context only one that is linked. -/
theorem Sound.programAgrees_use_iff {program : Option (Handle × ObjectId)}
    (hop : ∀ h id, program = some (h, id) → m.registry.object h .program = .ok id)
    (hcontext : (m.react event).context.bindings.program =
      (m.context.issue (.useProgram (program.map (·.2)))).bindings.program)
    (hbindings : (m.react event).bindings.program = program.map (·.1)) :
    (m.react event).ProgramAgrees ↔ ∀ id, program.map (·.2) = some id →
      m.context.ReportsLinked id ∨ m.context.bindings.program = some id := by
  rw [(hm.react hevent).programAgrees_iff, hcontext, hbindings]
  cases program with
  | none => exact iff_of_true rfl nofun
  | some used =>
      obtain ⟨h, id⟩ := used
      have hobject : (m.react event).registry.objectOf? h = some id :=
        hevent.bind_objectOf?_of_object hm.bindsCreated hop
      have hexec := m.context.exec_useProgram id
      simp only [Option.map_some, Option.bind_some, hobject, Context.issue, hexec,
        Option.some.injEq, forall_eq']
      split
      · next hlinked => simp [hlinked]
      · next hlinked => simp [hlinked]

/-- Whether the programs stay in step is up to the commands that take a program into use. -/
theorem Sound.programAgrees_react_iff (hagrees : m.ProgramAgrees) :
    (m.react event).ProgramAgrees ↔ m.UsesLinked event := by
  have hkept := hm.programAgrees_kept hevent hagrees
  have hunused (huses : (m.operation? event).bind Operation.used? = none) :
      m.UsesLinked event := fun _ hid => nomatch huses.symm.trans hid
  rcases hevent.react_cases hm.bindsCreated with
    ⟨hresolve, hquiet⟩ | ⟨payloads, op, m', hresolve, hresolved, hop, hquiet⟩
  · have hcontext := hquiet.part_eq (nofun : Part.program ≠ .error)
    refine iff_of_true (hkept hcontext ?_) (hunused ?_)
    · rw [hquiet.bindings_eq]
    · rw [hresolve, Option.bind_none]
  · have hcontext : (m.react event).context.bindings.program = m'.context.bindings.program :=
      hquiet.part_eq (nofun : Part.program ≠ .error)
    have hbindings : (m.react event).bindings.program = (op.bindingsAfter m.bindings).program := by
      rw [hquiet.bindings_eq, hop.bindings_eq]
    by_cases huse : ∃ program, op = .useProgram program
    · obtain ⟨program, rfl⟩ := huse
      rw [hop.context_eq] at hcontext
      rw [hm.programAgrees_use_iff hevent hresolved hcontext hbindings]
      simp only [UsesLinked, hresolve, Option.bind_some, Operation.used?]
    · have hother : ∀ program, op ≠ .useProgram program :=
        fun program heq => huse ⟨program, heq⟩
      refine iff_of_true (hkept ?_ ?_) (hunused ?_)
      · rw [hcontext]
        exact hop.part_eq (hresolved.program_not_mem_touches hother) nofun
      · rw [hbindings, Operation.program_bindingsAfter _ hother]
      · rw [hresolve, Option.bind_some, Operation.used?_of_ne hother]

end Step

end Machine

end GlPlayback
