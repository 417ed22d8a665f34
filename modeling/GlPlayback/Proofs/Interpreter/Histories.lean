import GlPlayback.Proofs.Interpreter.Runs

/-!
What holds all along a history: of every event and the machine that it meets, or of every machine
that the history leads through.
-/
namespace GlPlayback

namespace Machine

/-- Every event of a history meets a machine that it suits. -/
def Along (Q : Machine → Event → Prop) (m : Machine) : List Event → Prop
  | [] => True
  | event :: rest => Q m event ∧ Along Q (m.react event) rest

/-- Every machine that a history leads through is of one sort, the first and the last included. -/
def Throughout (P : Machine → Prop) (m : Machine) : List Event → Prop
  | [] => P m
  | event :: rest => P m ∧ Throughout P (m.react event) rest

variable {A Q : Machine → Event → Prop} {Inv P : Machine → Prop} {m : Machine}
  {events : List Event}

instance decidableAlong [∀ m event, Decidable (Q m event)] :
    (m : Machine) → (events : List Event) → Decidable (m.Along Q events)
  | _, [] => .isTrue trivial
  | m, event :: rest =>
      have := decidableAlong (m.react event) rest
      inferInstanceAs (Decidable (Q m event ∧ (m.react event).Along Q rest))

theorem along_of_forall (h : ∀ m event, Q m event) (m : Machine) (events : List Event) :
    m.Along Q events := by
  induction events generalizing m with
  | nil => trivial
  | cons event rest ih => exact ⟨h m event, ih (m.react event)⟩

theorem along_iff : m.Along Q events ↔
    ∀ before event rest, events = before ++ event :: rest → Q (m.after before) event := by
  induction events generalizing m with
  | nil => simp [Along]
  | cons event rest ih =>
      simp only [Along, ih]
      constructor
      · rintro ⟨hfirst, hrest⟩ before other later hsplit
        cases before with
        | nil =>
            cases hsplit
            exact hfirst
        | cons first before =>
            obtain ⟨rfl, htail⟩ := List.cons.inj hsplit
            exact hrest before other later htail
      · intro hall
        exact ⟨hall [] event rest rfl, fun before other later hsplit =>
          hall (event :: before) other later (congrArg (event :: ·) hsplit)⟩

theorem throughout_iff : m.Throughout P events ↔
    ∀ before rest, events = before ++ rest → P (m.after before) := by
  induction events generalizing m with
  | nil => simp [Throughout, after]
  | cons event rest ih =>
      simp only [Throughout, ih]
      constructor
      · rintro ⟨hfirst, hrest⟩ before later hsplit
        cases before with
        | nil => exact hfirst
        | cons first before =>
            obtain ⟨rfl, htail⟩ := List.cons.inj hsplit
            exact hrest before later htail
      · intro hall
        exact ⟨hall [] (event :: rest) rfl, fun before later hsplit =>
          hall (event :: before) later (congrArg (event :: ·) hsplit)⟩

theorem Throughout.first (h : m.Throughout P events) : P m := by
  cases events with
  | nil => exact h
  | cons event rest => exact h.1

/-- What every suitable event keeps is kept by a history of them. -/
theorem Along.invariant (hstep : ∀ m event, Inv m → A m event → Inv (m.react event))
    (hm : Inv m) (hA : m.Along A events) : Inv (m.after events) := by
  induction events generalizing m with
  | nil => exact hm
  | cons event rest ih => exact ih (hstep m event hm hA.1) hA.2

/-- Where each event tells whether a property survives it, the property holds throughout a history
exactly if all of its events say so. -/
theorem throughout_iff_along (hinv : ∀ m event, Inv m → A m event → Inv (m.react event))
    (hstep : ∀ m event, Inv m → A m event → P m → (P (m.react event) ↔ Q m event))
    (hm : Inv m) (hA : m.Along A events) (hP : P m) :
    m.Throughout P events ↔ m.Along Q events := by
  induction events generalizing m with
  | nil => exact iff_of_true hP trivial
  | cons event rest ih =>
      obtain ⟨hfirst, hrest⟩ := hA
      have hnow := hstep m event hm hfirst hP
      have hlater := ih (hinv m event hm hfirst) hrest
      constructor
      · rintro ⟨-, hthroughout⟩
        have hP' : P (m.react event) := hthroughout.first
        exact ⟨hnow.mp hP', (hlater hP').mp hthroughout⟩
      · rintro ⟨hQ, halong⟩
        exact ⟨hP, (hlater (hnow.mpr hQ)).mpr halong⟩

end Machine

end GlPlayback
