import GlPlayback.Proofs.Interpreter.Repeating
import GlPlayback.Proofs.Interpreter.Writing

/-!
Lists of commands each of which goes by cells that are known, or that a command before it has set.
Such a list does the same on two machines that have the same in the known cells. Records are only
ever set, and so at the end every record is known that was known or that the list has written.
-/
namespace GlPlayback

namespace Machine

section Definitions

variable (payloads : List (List UInt8))

/-- What a command does, without errors being asked for. -/
abbrev next (m : Machine) (command : Command) : Machine :=
  (m.executeCommand false payloads command).2

/-- The cells that a command changes. -/
def changes (m : Machine) (command : Command) : List Cell :=
  match Operation.resolve (m.surroundings payloads) command with
  | .ok op => m.sets op ++ m.blurs op
  | .error _ => []

/-- The cells that a list of commands changes while it runs. -/
def changesOf (m : Machine) : List Command → List Cell
  | [] => []
  | command :: rest => m.changes payloads command ++ changesOf (m.next payloads command) rest

/-- The cells that are known after a command. -/
def learns (m : Machine) (command : Command) (known : Cell → Prop) : Cell → Prop :=
  match Operation.resolve (m.surroundings payloads) command with
  | .ok op => m.learn op known
  | .error _ => known

/-- The cells that are known after a list of commands. -/
def learnsOf (m : Machine) (known : Cell → Prop) : List Command → Cell → Prop
  | [] => known
  | command :: rest => learnsOf (m.next payloads command) (m.learns payloads command known) rest

/-- All that a command goes by is known, and the context can carry it out. -/
def Heeds (m : Machine) (known : Cell → Prop) (command : Command) : Prop :=
  match Operation.resolve (m.surroundings payloads) command with
  | .ok op => (∀ cell ∈ (m.surroundings payloads).consults command.action ++ m.needs op,
      known cell) ∧ m.admits op = true
  | .error _ => True

/-- Every command of a list goes by what is known where it runs. -/
def Steady (m : Machine) (known : Cell → Prop) : List Command → Prop
  | [] => True
  | command :: rest => m.Heeds payloads known command ∧
      Steady (m.next payloads command) (m.learns payloads command known) rest

end Definitions

section Decidable

variable {payloads : List (List UInt8)}

instance (m : Machine) (op : Operation) (known : Cell → Prop) [DecidablePred known] :
    DecidablePred (m.learn op known) :=
  fun cell => inferInstanceAs (Decidable (cell ∈ m.sets op ∨ (known cell ∧ cell ∉ m.blurs op)))

instance decidableLearns (m : Machine) (command : Command) (known : Cell → Prop)
    [DecidablePred known] : DecidablePred (m.learns payloads command known) := fun cell =>
  match h : Operation.resolve (m.surroundings payloads) command with
  | .ok op => decidable_of_iff (m.learn op known cell) (by rw [learns, h])
  | .error _ => decidable_of_iff (known cell) (by rw [learns, h])

instance decidableHeeds (m : Machine) (known : Cell → Prop) [DecidablePred known]
    (command : Command) : Decidable (m.Heeds payloads known command) :=
  match h : Operation.resolve (m.surroundings payloads) command with
  | .ok op => decidable_of_iff
      ((∀ cell ∈ (m.surroundings payloads).consults command.action ++ m.needs op, known cell) ∧
        m.admits op = true) (by rw [Heeds, h])
  | .error _ => .isTrue (by rw [Heeds, h]; trivial)

instance decidableSteady (m : Machine) (known : Cell → Prop) [DecidablePred known] :
    (commands : List Command) → Decidable (m.Steady payloads known commands)
  | [] => .isTrue trivial
  | command :: rest =>
      have := decidableSteady (m.next payloads command) (m.learns payloads command known) rest
      inferInstanceAs (Decidable (_ ∧ _))

end Decidable

variable {f : ObjectId → ObjectId} {known : Cell → Prop} {m m' : Machine}
  {payloads : List (List UInt8)} {command : Command} {commands : List Command}

/-- A command that is resolved is carried out. -/
theorem next_of_resolve (hbound : m.BindsCreated) {op : Operation}
    (hresolve : Operation.resolve (m.surroundings payloads) command = .ok op) :
    m.executeCommand false payloads command = (.ok (), m.next payloads command) ∧
      m.CarriesOut op (m.next payloads command) := by
  have hresolved := (Operation.resolve_yields (m.surroundings payloads) command).value hresolve
  obtain ⟨m₁, hop⟩ := exists_carriesOut hbound hresolved
  have hexecute : m.executeCommand false payloads command = (.ok (), m₁) := by
    simp only [executeCommand, hresolve, hop.performed, Bool.false_eq_true, if_false]
  have hnext : m.next payloads command = m₁ := congrArg Prod.snd hexecute
  rw [hnext]
  exact ⟨hexecute, hop⟩

/-- A command that one machine resolves and the other machine knows all of is carried out by
both. -/
theorem Echoes.next (h : m.Echoes f known m') (hbound : m.BindsCreated) (hbound' : m'.BindsCreated)
    {op : Operation} (hresolve : Operation.resolve (m.surroundings payloads) command = .ok op)
    (hheeds : m.Heeds payloads known command) :
    m'.executeCommand false payloads command = (.ok (), m'.next payloads command) ∧
      (m.next payloads command).Echoes f (m.learns payloads command known)
        (m'.next payloads command) := by
  simp only [Heeds, hresolve, List.forall_mem_append] at hheeds
  obtain ⟨⟨hconsults, hneeds⟩, hadmits⟩ := hheeds
  obtain ⟨op', hresolve', hfollows⟩ := (Operation.resolve_follows h hconsults) op hresolve
  have hresolved := (Operation.resolve_yields (m.surroundings payloads) command).value hresolve
  have hresolved' := (Operation.resolve_yields (m'.surroundings payloads) command).value hresolve'
  obtain ⟨-, hop⟩ := next_of_resolve hbound hresolve
  obtain ⟨hexecute', hop'⟩ := next_of_resolve hbound' hresolve'
  refine ⟨hexecute', ?_⟩
  simp only [learns, hresolve]
  exact h.carriesOut hfollows hop hop' hresolved hresolved' hbound hneeds hadmits

/-- A clean run of a list that goes by what is known is clean on the other machine as well, and
leaves both with the same in the cells that are known then. -/
theorem Echoes.run (h : m.Echoes f known m') (hbound : m.BindsCreated)
    (hbound' : m'.BindsCreated) {k : Nat} (hsteady : m.Steady payloads known commands)
    (hclean : (runNumbered false payloads m (commands.zipIdx k)).1.failures = []) :
    (runNumbered false payloads m' (commands.zipIdx k)).1.failures = [] ∧
      (m.run false payloads commands).Echoes f (m.learnsOf payloads known commands)
        (m'.run false payloads commands) := by
  induction commands generalizing m m' known k with
  | nil => exact ⟨rfl, h⟩
  | cons command rest ih =>
      obtain ⟨hheeds, hlater⟩ := hsteady
      rw [List.zipIdx_cons] at hclean ⊢
      cases hresolve : Operation.resolve (m.surroundings payloads) command with
      | error e =>
          rw [runNumbered_cons_of_error _ (executeCommand_of_error hresolve)] at hclean
          exact absurd hclean (List.cons_ne_nil _ _)
      | ok op =>
          obtain ⟨hexecute, -⟩ := next_of_resolve hbound hresolve
          obtain ⟨hexecute', hnext⟩ := h.next hbound hbound' hresolve hheeds
          rw [runNumbered_cons_of_ok _ hexecute] at hclean
          rw [runNumbered_cons_of_ok _ hexecute']
          exact ih hnext (executeCommand_bindsCreated hbound false payloads command)
            (executeCommand_bindsCreated hbound' false payloads command) hlater hclean

/-- Operations set records and never blur them. -/
theorem record_not_mem_blurs (m : Machine) (op : Operation) (h : Handle) :
    .record h ∉ m.blurs op := by
  rw [blurs, List.mem_append, not_or]
  refine ⟨?_, ?_⟩
  · intro hmem
    obtain ⟨c, -, heq⟩ := List.mem_map.mp hmem
    cases heq
  · split
    · split
      · exact List.not_mem_nil
      · simp
    · exact List.not_mem_nil

/-- A record is known once it was known or written. -/
theorem learnsOf_record {h : Handle}
    (hknown : known (.record h) ∨ .record h ∈ m.changesOf payloads commands) :
    m.learnsOf payloads known commands (.record h) := by
  induction commands generalizing m known with
  | nil => exact hknown.resolve_right List.not_mem_nil
  | cons command rest ih =>
      apply ih
      simp only [changesOf, changes, List.mem_append] at hknown
      simp only [learns]
      cases hresolve : Operation.resolve (m.surroundings payloads) command with
      | error e =>
          simp only [hresolve, List.not_mem_nil, false_or] at hknown
          exact hknown
      | ok op =>
          have hclear := m.record_not_mem_blurs op h
          simp only [hresolve, List.mem_append, hclear, or_false] at hknown
          rcases hknown with hold | hset | hlater
          · exact .inl (.inr ⟨hold, hclear⟩)
          · exact .inl (.inl hset)
          · exact .inr hlater

end Machine

end GlPlayback
