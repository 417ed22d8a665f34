import Mathlib.Data.List.Forall2

/-!
What an attempt that may fail comes to: a value that meets one condition, or an error that meets
another. A chain of attempts comes to what its links come to, and keeps up with another chain if its
links do.
-/
namespace GlPlayback

variable {ε δ α β : Type}

/-- A value meets `good`, and an error meets `bad`. -/
def Yields (good : α → Prop) (bad : ε → Prop) : Except ε α → Prop
  | .ok a => good a
  | .error e => bad e

namespace Yields

theorem value {good : α → Prop} {bad : ε → Prop} {x : Except ε α} {a : α}
    (h : Yields good bad x) (hx : x = .ok a) : good a := by
  subst hx
  exact h

theorem failure {good : α → Prop} {bad : ε → Prop} {x : Except ε α} {e : ε}
    (h : Yields good bad x) (hx : x = .error e) : bad e := by
  subst hx
  exact h

theorem imp {good better : α → Prop} {bad worse : ε → Prop} {x : Except ε α}
    (h : Yields good bad x) (hgood : ∀ a, good a → better a) (hbad : ∀ e, bad e → worse e) :
    Yields better worse x := by
  cases x with
  | ok a => exact hgood a h
  | error e => exact hbad e h

theorem bind {mid : α → Prop} {good : β → Prop} {bad : ε → Prop} {x : Except ε α}
    {f : α → Except ε β} (hx : Yields mid bad x) (hf : ∀ a, mid a → Yields good bad (f a)) :
    Yields good bad (x >>= f) := by
  cases x with
  | ok a => exact hf a hx
  | error e => exact hx

theorem map {mid : α → Prop} {good : β → Prop} {bad : ε → Prop} {x : Except ε α} {f : α → β}
    (hx : Yields mid bad x) (hf : ∀ a, mid a → good (f a)) : Yields good bad (x.map f) := by
  cases x with
  | ok a => exact hf a hx
  | error e => exact hx

theorem mapError {good : α → Prop} {mid : ε → Prop} {bad : δ → Prop} {x : Except ε α}
    {f : ε → δ} (hx : Yields good mid x) (hf : ∀ e, mid e → bad (f e)) :
    Yields good bad (x.mapError f) := by
  cases x with
  | ok a => exact hx
  | error e => exact hf e hx

theorem of_forall {good : α → Prop} {bad : ε → Prop} (x : Except ε α)
    (hg : ∀ a, x = .ok a → good a) (hb : ∀ e, x = .error e → bad e) : Yields good bad x := by
  cases x with
  | ok a => exact hg a rfl
  | error e => exact hb e rfl

theorem any (x : Except ε α) : Yields (fun _ => True) (fun _ => True) x :=
  of_forall x (fun _ _ => trivial) (fun _ _ => trivial)

theorem mapM {good : β → Prop} {bad : ε → Prop} {f : α → Except ε β}
    (hf : ∀ a, Yields good bad (f a)) (as : List α) :
    Yields (fun bs => ∀ b ∈ bs, good b) bad (as.mapM f) := by
  induction as with
  | nil => exact fun b hb => absurd hb List.not_mem_nil
  | cons a rest ih =>
      rw [List.mapM_cons]
      refine (hf a).bind fun b hb => ih.bind fun bs hbs => ?_
      intro c hc
      rcases List.mem_cons.mp hc with rfl | hc
      · exact hb
      · exact hbs c hc

end Yields

/-- Where one attempt comes to a value, another one comes to a related value. -/
def KeepsUp {γ ζ : Type} (R : α → γ → Prop) (x : Except ε α) (y : Except ζ γ) : Prop :=
  ∀ a, x = .ok a → ∃ c, y = .ok c ∧ R a c

namespace KeepsUp

variable {γ η ζ : Type} {R : α → γ → Prop} {S : β → η → Prop} {x : Except ε α} {y : Except ζ γ}

theorem value {a : α} {c : γ} (h : R a c) :
    KeepsUp R (.ok a : Except ε α) (.ok c : Except ζ γ) := by
  rintro _ ⟨⟩
  exact ⟨c, rfl, h⟩

theorem failure (e : ε) : KeepsUp R (.error e) y :=
  nofun

theorem bind {f : α → Except ε β} {g : γ → Except ζ η} (hxy : KeepsUp R x y)
    (hfg : ∀ a c, R a c → KeepsUp S (f a) (g c)) : KeepsUp S (x >>= f) (y >>= g) := by
  cases x with
  | error e => exact .failure e
  | ok a =>
      obtain ⟨c, rfl, hac⟩ := hxy a rfl
      exact hfg a c hac

/-- One attempt, after which two go on with its value. -/
theorem bothOf (x : Except ε α) {f : α → Except ε β} {g : α → Except ε η}
    (hfg : ∀ a, x = .ok a → KeepsUp S (f a) (g a)) : KeepsUp S (x >>= f) (x >>= g) := by
  cases x with
  | error e => exact .failure e
  | ok a => exact hfg a rfl

theorem both (x : Except ε α) {f : α → Except ε β} {g : α → Except ε η}
    (hfg : ∀ a, KeepsUp S (f a) (g a)) : KeepsUp S (x >>= f) (x >>= g) :=
  bothOf x fun a _ => hfg a

theorem mapM {f : α → Except ε β} {g : γ → Except ζ β} {as : List α} {cs : List γ}
    (h : List.Forall₂ (fun a c => KeepsUp Eq (f a) (g c)) as cs) :
    KeepsUp Eq (as.mapM f) (cs.mapM g) := by
  induction h with
  | nil => exact .value rfl
  | cons h _ ih =>
      rw [List.mapM_cons, List.mapM_cons]
      refine h.bind fun b _ hb => ih.bind fun bs _ hbs => ?_
      subst hb hbs
      exact .value rfl

theorem mapError {f : ε → δ} {g : ζ → δ} (hxy : KeepsUp R x y) :
    KeepsUp R (x.mapError f) (y.mapError g) := by
  cases x with
  | error e => exact .failure (f e)
  | ok a =>
      obtain ⟨c, rfl, hac⟩ := hxy a rfl
      exact .value hac

end KeepsUp

/-- An attempt keeps up with itself if its values are related to themselves. -/
theorem Yields.keepsUp {good : α → Prop} {bad : ε → Prop} {x : Except ε α} {R : α → α → Prop}
    (h : Yields good bad x) (hR : ∀ a, good a → R a a) : KeepsUp R x x := by
  intro a ha
  exact ⟨a, ha, hR a (h.value ha)⟩

theorem bind_eq_ok_iff {x : Except ε α} {f : α → Except ε β} {b : β} :
    (x >>= f) = .ok b ↔ ∃ a, x = .ok a ∧ f a = .ok b := by
  cases x with
  | ok a =>
      constructor
      · exact fun h => ⟨a, rfl, h⟩
      · rintro ⟨_, ⟨⟩, h⟩
        exact h
  | error e =>
      refine iff_of_false (fun h => by cases h) ?_
      rintro ⟨a, ha, -⟩
      cases ha

theorem map_eq_ok_iff {x : Except ε α} {f : α → β} {b : β} :
    x.map f = .ok b ↔ ∃ a, x = .ok a ∧ f a = b := by
  cases x with
  | ok a =>
      constructor
      · exact fun h => ⟨a, rfl, Except.ok.inj h⟩
      · rintro ⟨_, ⟨⟩, rfl⟩
        rfl
  | error e =>
      refine iff_of_false (fun h => by cases h) ?_
      rintro ⟨a, ha, -⟩
      cases ha

theorem mapError_eq_ok_iff {x : Except ε α} {f : ε → δ} {a : α} :
    x.mapError f = .ok a ↔ x = .ok a := by
  cases x with
  | ok b => exact ⟨fun h => congrArg Except.ok (Except.ok.inj h),
      fun h => congrArg Except.ok (Except.ok.inj h)⟩
  | error e => exact iff_of_false (fun h => by cases h) fun h => by cases h

/-- A list of attempts comes to a list exactly if each attempt comes to its value. -/
theorem mapM_eq_ok_iff {f : α → Except ε β} {as : List α} {bs : List β} :
    as.mapM f = .ok bs ↔ List.Forall₂ (fun a b => f a = .ok b) as bs := by
  induction as generalizing bs with
  | nil =>
      rw [List.mapM_nil, List.forall₂_nil_left_iff]
      exact ⟨fun h => (Except.ok.inj h).symm, fun h => congrArg Except.ok h.symm⟩
  | cons a rest ih =>
      rw [List.mapM_cons, List.forall₂_cons_left_iff]
      simp only [bind_eq_ok_iff, ← ih]
      constructor
      · rintro ⟨b, hb, later, hlater, ⟨⟩⟩
        exact ⟨b, later, hb, hlater, rfl⟩
      · rintro ⟨b, later, hb, hlater, rfl⟩
        exact ⟨b, hb, later, hlater, rfl⟩

theorem mapM_eq_ok {f : α → Except ε β} {g : α → β} {as : List α}
    (h : ∀ a ∈ as, f a = .ok (g a)) : as.mapM f = .ok (as.map g) :=
  mapM_eq_ok_iff.mpr (List.forall₂_map_right_iff.mpr (List.forall₂_same.mpr h))

section Check

variable {check : α → Except ε Unit} {as : List α}

theorem forM_cons (a : α) : (a :: as).forM check = (check a >>= fun _ => as.forM check) :=
  rfl

theorem forM_eq_ok_iff : as.forM check = .ok () ↔ ∀ a ∈ as, check a = .ok () := by
  induction as with
  | nil => exact iff_of_true rfl (List.forall_mem_nil _)
  | cons a rest ih =>
      rw [forM_cons, List.forall_mem_cons, ← ih]
      cases check a with
      | error e => exact iff_of_false (fun h => by cases h) fun h => by cases h.1
      | ok _ => exact (and_iff_right rfl).symm

/-- A list of checks ends with the first error. -/
theorem forM_eq_error_iff {e : ε} :
    as.forM check = .error e ↔ ∃ before a rest, as = before ++ a :: rest ∧
      (∀ b ∈ before, check b = .ok ()) ∧ check a = .error e := by
  induction as with
  | nil =>
      refine iff_of_false (fun h => by cases h) ?_
      rintro ⟨before, a, rest, hsplit, -⟩
      cases before <;> cases hsplit
  | cons a rest ih =>
      rw [forM_cons]
      cases hcheck : check a with
      | error first =>
          constructor
          · intro h
            cases h
            exact ⟨[], a, rest, rfl, List.forall_mem_nil _, hcheck⟩
          · rintro ⟨before, b, later, hsplit, hbefore, hb⟩
            cases before with
            | nil =>
                cases hsplit
                exact hcheck.symm.trans hb
            | cons c before =>
                cases hsplit
                cases hcheck.symm.trans (hbefore a List.mem_cons_self)
      | ok _ =>
          refine Iff.trans ih ?_
          constructor
          · rintro ⟨before, b, later, hsplit, hbefore, hb⟩
            exact ⟨a :: before, b, later, congrArg (a :: ·) hsplit,
              List.forall_mem_cons.mpr ⟨hcheck, hbefore⟩, hb⟩
          · rintro ⟨before, b, later, hsplit, hbefore, hb⟩
            cases before with
            | nil =>
                cases hsplit
                cases hcheck.symm.trans hb
            | cons c before =>
                cases hsplit
                exact ⟨before, b, later, rfl, (List.forall_mem_cons.mp hbefore).2, hb⟩

end Check

end GlPlayback
