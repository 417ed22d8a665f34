import GlPlayback.Proofs.Interpreter.Runs

/-!
A command that fails for a reason of its own, and not by an error of the context, leaves the
machine. A list of commands does what it does without those that fail in this way.
-/
namespace GlPlayback

def CommandError.isGl : CommandError → Bool
  | gl _ => true
  | _ => false

namespace Report

/-- The command at a place failed for a reason of its own. -/
def skips (r : Report) (index : Nat) : Bool :=
  r.failures.any fun f => f.index = index && !f.error.isGl

/-- Numbered commands without those that failed for a reason of their own. -/
def keep (r : Report) (numbered : List (Command × Nat)) : List Command :=
  (numbered.filter fun c => !r.skips c.2).map (·.1)

/-- A list without the commands that failed for a reason of their own. -/
def remaining (r : Report) (commands : List Command) : List Command :=
  r.keep commands.zipIdx

variable {r later : Report} {numbered : List (Command × Nat)}

theorem skips_eq_false {index : Nat} (h : ∀ f ∈ r.failures, f.index ≠ index) :
    r.skips index = false := by
  rw [skips, List.any_eq_false]
  intro f hf
  simp [h f hf]

theorem keep_cons (c : Command × Nat) :
    r.keep (c :: numbered) = if r.skips c.2 then r.keep numbered else c.1 :: r.keep numbered := by
  cases h : r.skips c.2 <;> simp [keep, h]

theorem keep_congr (h : ∀ c ∈ numbered, r.skips c.2 = later.skips c.2) :
    r.keep numbered = later.keep numbered := by
  rw [keep, keep, List.filter_congr fun c hc => by rw [h c hc]]

theorem skips_merge_cons (f : Failure) (later : Report) (index : Nat) :
    (merge ⟨0, [f]⟩ later).skips index =
      ((f.index = index && !f.error.isGl) || later.skips index) :=
  rfl

section Cons

variable {command : Command} {k : Nat} (hlate : ∀ f ∈ r.failures, f.index ≠ k)
include hlate

theorem keep_cons_of_ok :
    (merge ⟨1, []⟩ r).keep ((command, k) :: numbered) = command :: r.keep numbered := by
  have hskips : (merge ⟨1, []⟩ r).skips k = false := skips_eq_false hlate
  rw [keep_cons, hskips]
  rfl

/-- An error of the context counts, so its command is kept. -/
theorem keep_cons_of_error (hnumbered : ∀ c ∈ numbered, c.2 ≠ k) (e : CommandError) :
    (merge ⟨0, [⟨k, command.name, e⟩]⟩ r).keep ((command, k) :: numbered) =
      if e.isGl then command :: r.keep numbered else r.keep numbered := by
  have hrest : (merge ⟨0, [⟨k, command.name, e⟩]⟩ r).keep numbered = r.keep numbered := by
    refine keep_congr fun c hc => ?_
    simp [skips_merge_cons, (hnumbered c hc).symm]
  rw [keep_cons, hrest, skips_merge_cons, skips_eq_false hlate]
  cases e.isGl <;> simp

end Cons

end Report

namespace Machine

variable {m m' : Machine} {checks : Bool} {payloads : List (List UInt8)}

/-- Everything a command checks for itself it checks before it touches anything, or cannot fail. -/
theorem executeCommand_error_eq (hbound : m.BindsCreated) {command : Command} {e : CommandError}
    (hfailed : m.executeCommand checks payloads command = (.error e, m'))
    (he : e.isGl = false) : m' = m := by
  rcases executeCommand_cases hbound checks payloads command with
    ⟨e', -, hunresolved⟩ | ⟨op, m₁, -, -, hdone | ⟨cause, hdone⟩⟩
  · cases hunresolved.symm.trans hfailed
    rfl
  · cases hdone.symm.trans hfailed
  · cases hdone.symm.trans hfailed
    cases he

/-- A run comes to the same without the commands that failed for a reason of their own. -/
theorem runNumbered_keep (hbound : m.BindsCreated) (commands : List Command) (k j : Nat) :
    let ran := runNumbered checks payloads m (commands.zipIdx k)
    let again := runNumbered checks payloads m ((ran.1.keep (commands.zipIdx k)).zipIdx j)
    again.2 = ran.2 ∧ again.1.executed = ran.1.executed := by
  induction commands generalizing m k j with
  | nil => exact ⟨rfl, rfl⟩
  | cons command rest ih =>
      have hmoved := executeCommand_bindsCreated hbound checks payloads command
      cases h : m.executeCommand checks payloads command with
      | mk result m' =>
          rw [h] at hmoved
          have hlate (f : Failure) (hf : f ∈
              (runNumbered checks payloads m' (rest.zipIdx (k + 1))).1.failures) : f.index ≠ k :=
            Nat.ne_of_gt (le_index_of_mem_failures rest (k + 1) m' hf)
          have hnumbered (c : Command × Nat) (hc : c ∈ rest.zipIdx (k + 1)) : c.2 ≠ k :=
            Nat.ne_of_gt (List.mem_zipIdx hc).1
          cases result with
          | ok _ =>
              obtain ⟨hm, hexecuted⟩ := ih hmoved (k + 1) (j + 1)
              simp only [List.zipIdx_cons, runNumbered_cons_of_ok _ h,
                Report.keep_cons_of_ok hlate]
              exact ⟨hm, congrArg (1 + ·) hexecuted⟩
          | error e =>
              simp only [List.zipIdx_cons, runNumbered_cons_of_error _ h,
                Report.keep_cons_of_error hlate hnumbered]
              cases he : e.isGl with
              | true =>
                  obtain ⟨hm, hexecuted⟩ := ih hmoved (k + 1) (j + 1)
                  simp only [if_true, List.zipIdx_cons, runNumbered_cons_of_error _ h]
                  exact ⟨hm, congrArg (0 + ·) hexecuted⟩
              | false =>
                  -- The command left the machine, so the others begin where it began.
                  cases executeCommand_error_eq hbound h he
                  obtain ⟨hm, hexecuted⟩ := ih hbound (k + 1) j
                  exact ⟨hm, hexecuted.trans (Nat.zero_add _).symm⟩

/-- Whatever happened to a machine before, a command that fails for a reason of its own leaves it,
and a list of commands does the same without those that fail so. -/
theorem own_failures_change_nothing (width height : UInt32) (events : List Event) (checks : Bool)
    (payloads : List (List UInt8)) :
    let m := (fresh width height).after events
    (∀ command e m', m.executeCommand checks payloads command = (.error e, m') →
      (∀ cause, e ≠ .gl cause) → m' = m) ∧
    ∀ commands,
      let ran := m.execute checks commands payloads
      let again := m.execute checks (ran.1.remaining commands) payloads
      again.2 = ran.2 ∧ again.1.executed = ran.1.executed := by
  have hbound := after_bindsCreated (fresh_bindsCreated width height) events
  refine ⟨fun command e m' hfailed hown => ?_, fun commands => ?_⟩
  · refine executeCommand_error_eq hbound hfailed ?_
    cases e with
    | gl cause => exact absurd rfl (hown cause)
    | _ => rfl
  · exact runNumbered_keep ((readAway_calls checks _).bindsCreated hbound) commands 0 0

/-- An unknown command between two others fails, and is as good as not sent. -/
theorem unknown_command_changes_nothing :
    let m := (fresh 1 1).after [.register 0]
    let create : Command := ⟨.create .buffer 0, none⟩
    (m.executeCommand true [] ⟨.unknown, none⟩).1 = .error .unsupported ∧
      (m.executeCommand true [] ⟨.unknown, none⟩).2 = m ∧
      (m.execute true [create, ⟨.unknown, none⟩, create] []).1.remaining
        [create, ⟨.unknown, none⟩, create] = [create, create] ∧
      (m.execute true [create, create] []).2 =
        (m.execute true [create, ⟨.unknown, none⟩, create] []).2 := by
  have h := own_failures_change_nothing 1 1 [.register 0] true []
  have hunknown := h.1 ⟨.unknown, none⟩ .unsupported _ rfl nofun
  have hskipped := h.2 [⟨.create .buffer 0, none⟩, ⟨.unknown, none⟩, ⟨.create .buffer 0, none⟩]
  exact ⟨rfl, hunknown, rfl, hskipped.1⟩

end Machine

end GlPlayback
