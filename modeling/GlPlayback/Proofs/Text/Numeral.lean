import GlPlayback.Text.Numeral

/-!
A number is read back from its decimal digits.
-/
namespace GlPlayback.Text

theorem digitValue?_of_isDigit {c : Char} (hc : c.isDigit = true) :
    digitValue? c = some (c.toNat - '0'.toNat) := by
  rw [Char.isDigit, Bool.and_eq_true, decide_eq_true_iff, decide_eq_true_iff] at hc
  exact if_pos hc

theorem digitsFrom?_of_isDigit {s : List Char} (hs : ∀ c ∈ s, c.isDigit = true) (acc : Nat) :
    digitsFrom? acc s = some (Nat.ofDigitChars 10 s acc) := by
  induction s generalizing acc with
  | nil => rfl
  | cons c rest ih =>
      obtain ⟨hc, hrest⟩ := List.forall_mem_cons.mp hs
      rw [digitsFrom?, digitValue?_of_isDigit hc]
      simp only [Option.bind_eq_bind, Option.bind_some]
      rw [ih hrest, Nat.ofDigitChars_cons, Nat.mul_comm]

/-- The decimal digits of a number. -/
def decimal (n : Nat) : List Char :=
  Nat.toDigits 10 n

theorem isDigit_of_mem_decimal {n : Nat} {c : Char} (hc : c ∈ decimal n) : c.isDigit = true :=
  Nat.isDigit_of_mem_toDigits (by decide) (by decide) hc

theorem digits?_decimal (n : Nat) : digits? (decimal n) = some n := by
  obtain ⟨c, rest, hdecimal⟩ := List.exists_cons_of_ne_nil (Nat.toDigits_ne_nil (n := n) (b := 10))
  have hread := digitsFrom?_of_isDigit (fun c => isDigit_of_mem_decimal (n := n) (c := c)) 0
  rw [show Nat.ofDigitChars 10 (decimal n) 0 = n from Nat.ofDigitChars_ten_toDigits] at hread
  rw [decimal, hdecimal] at hread ⊢
  exact hread

theorem unsigned?_decimal {bound n : Nat} (hn : n < bound) :
    unsigned? bound (decimal n) = some n := by
  have hsign : ∀ rest, decimal n ≠ '+' :: rest := by
    intro rest h
    have hplus := isDigit_of_mem_decimal (n := n) (c := '+') (h ▸ List.mem_cons_self)
    exact absurd hplus (by decide)
  rw [unsigned?.eq_2 bound _ hsign, digits?_decimal]
  exact if_pos hn

theorem signed?_decimal {half n : Nat} (hn : n < half) : signed? half (decimal n) = some n := by
  have hsign : ∀ rest, decimal n ≠ '-' :: rest := by
    intro rest h
    have hminus := isDigit_of_mem_decimal (n := n) (c := '-') (h ▸ List.mem_cons_self)
    exact absurd hminus (by decide)
  rw [signed?.eq_2 half _ hsign, unsigned?_decimal hn]
  rfl

theorem uint32?_decimal (n : UInt32) : uint32? (decimal n.toNat) = some n := by
  rw [uint32?, unsigned?_decimal n.toNat_lt, Option.map_some, UInt32.ofNat_toNat]

theorem int32?_decimal {n : Nat} (hn : n < 0x80000000) :
    int32? (decimal n) = some (Int32.ofNat n) := by
  rw [int32?, signed?_decimal hn]
  rfl

end GlPlayback.Text
