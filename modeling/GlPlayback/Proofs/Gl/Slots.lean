import GlPlayback.Gl.Linking
import Mathlib.Order.Bounds.Basic

/-!
Runs of attribute slots, and the table of those that are in use. A run that an attribute asks for is
taken, whatever is in use; for one that asks for none the first free run is found. Slots and ends of
runs are counted in 32-bit numbers, which may wrap around.
-/
namespace GlPlayback

/-- A run of consecutive attribute slots. -/
structure SlotRun where
  start : Nat
  count : Nat

namespace SlotRun

def Covers (r : SlotRun) (slot : Nat) : Prop :=
  r.start ≤ slot ∧ slot < r.start + r.count

def InTable (r : SlotRun) : Prop :=
  r.start + r.count ≤ attributeSlots

def Apart (r s : SlotRun) : Prop :=
  r.start + r.count ≤ s.start ∨ s.start + s.count ≤ r.start

instance (r : SlotRun) : Decidable r.InTable :=
  inferInstanceAs (Decidable (r.start + r.count ≤ attributeSlots))

/-- Where two runs overlap, they share the later one of their first slots. -/
theorem apart_iff {r s : SlotRun} (hr : 0 < r.count) (hs : 0 < s.count) :
    r.Apart s ↔ ∀ slot, r.Covers slot → ¬ s.Covers slot := by
  simp only [Apart, Covers]
  constructor
  · intro h slot hslot
    omega
  · intro h
    have hfirst := h (max r.start s.start)
    omega

end SlotRun

namespace AttributeDecl

/-- As many slots as an attribute has columns, counting those of all its elements. -/
def width (decl : AttributeDecl) : Nat :=
  decl.type.columns.toNat * (max decl.size.toInt 1).toNat

def active (decl : AttributeDecl) : ActiveVariable :=
  ⟨decl.name, decl.type, decl.size⟩

def run (decl : AttributeDecl) (start : Nat) : SlotRun :=
  ⟨start, decl.width⟩

theorem toNat_elementCount (size : Int32) :
    (elementCount size).toNat = (max size.toInt 1).toNat := by
  simp only [elementCount, Int32.lt_iff_toInt_lt]
  have hone : (1 : Int32).toInt = 1 := rfl
  split
  · next hlow =>
      rw [max_eq_right (by omega)]
      rfl
  · next hhigh =>
      have hnonneg : 0 ≤ size := by
        rw [Int32.le_iff_toInt_le]
        have hzero : (0 : Int32).toInt = 0 := rfl
        omega
      rw [Int32.toNat_toUInt32_of_le hnonneg, max_eq_left (by omega)]
      rfl

/-- The number of slots is counted modulo the range of a 32-bit number. -/
theorem toNat_slots (decl : AttributeDecl) : decl.slots.toNat = decl.width % 0x100000000 := by
  rw [slots, UInt32.toNat_mul, toNat_elementCount]
  rfl

theorem columns_pos (type : ValueType) : 0 < type.columns.toNat := by
  cases type with
  | matrix columns rows => cases columns <;> exact Nat.zero_lt_succ _
  | scalar _ | vector _ _ | sampler _ => exact Nat.zero_lt_one

theorem width_pos (decl : AttributeDecl) : 0 < decl.width :=
  Nat.mul_pos (columns_pos decl.type) (by omega)

end AttributeDecl

namespace Linking

namespace SlotTable

variable {used : SlotTable} {runs : List SlotRun} {start count : Nat}

/-- Just the slots of certain runs are in use. -/
def Marks (used : SlotTable) (runs : List SlotRun) : Prop :=
  ∀ slot : Fin attributeSlots, used.get slot = true ↔ ∃ r ∈ runs, r.Covers slot

theorem marks_empty : Marks (Vector.replicate attributeSlots false) [] := by
  intro slot
  simp [Vector.get]

theorem Marks.take (h : used.Marks runs) (start count : Nat) :
    (used.take start count).Marks (runs ++ [⟨start, count⟩]) := by
  intro slot
  have htaken : (used.take start count).get slot =
      (used.get slot || (start ≤ slot && slot < start + count)) :=
    Vector.getElem_ofFn slot.isLt
  rw [htaken, Bool.or_eq_true, h slot]
  simp [SlotRun.Covers, or_and_right, exists_or]

/-- A run that is marked already may be counted again. -/
theorem Marks.append_of_mem (h : used.Marks runs) {r : SlotRun} (hr : r ∈ runs) :
    used.Marks (runs ++ [r]) := by
  intro slot
  rw [h slot]
  refine exists_congr fun s => and_congr_left' ?_
  simp only [List.mem_append, List.mem_singleton]
  constructor
  · exact Or.inl
  · rintro (hs | rfl)
    · exact hs
    · exact hr

/-- A run is free that lies in the table and keeps apart from all that are in use. -/
theorem Marks.isFree_iff (h : used.Marks runs) (hruns : ∀ r ∈ runs, 0 < r.count)
    (hcount : 0 < count) :
    used.isFree start count = true ↔
      (⟨start, count⟩ : SlotRun).InTable ∧ ∀ r ∈ runs, (⟨start, count⟩ : SlotRun).Apart r := by
  simp only [isFree, Bool.and_eq_true, decide_eq_true_eq, List.all_eq_true, List.mem_finRange,
    forall_const, SlotRun.InTable]
  refine and_congr_right fun hend => ?_
  constructor
  · intro hfree r hr
    refine (SlotRun.apart_iff hcount (hruns r hr)).mpr fun slot hslot hcovers => ?_
    have hlt : slot < attributeSlots := Nat.lt_of_lt_of_le hslot.2 hend
    have hused : used.get ⟨slot, hlt⟩ = true := (h ⟨slot, hlt⟩).mpr ⟨r, hr, hcovers⟩
    have hno := hfree ⟨slot, hlt⟩
    simp only [SlotRun.Covers] at hslot
    simp [hused, hslot.1, hslot.2] at hno
  · intro hapart slot
    rw [Bool.not_eq_true', Bool.eq_false_iff]
    intro hboth
    simp only [Bool.and_eq_true, decide_eq_true_eq] at hboth
    obtain ⟨⟨hused, hlower⟩, hupper⟩ := hboth
    obtain ⟨r, hr, hcovers⟩ := (h slot).mp hused
    exact (SlotRun.apart_iff hcount (hruns r hr)).mp (hapart r hr) slot ⟨hlower, hupper⟩ hcovers

theorem start_add_le (used : SlotTable) (h : used.isFree start count = true) :
    start + count ≤ attributeSlots := by
  simp only [isFree, Bool.and_eq_true, decide_eq_true_eq] at h
  exact h.1

theorem firstFree?_eq_some_iff :
    firstFree? used count = some start ↔ IsLeast {s | used.isFree s count = true} start := by
  have hin {s : Nat} (hs : used.isFree s count = true) : s < attributeSlots + 1 := by
    have hend := used.start_add_le hs
    omega
  rw [firstFree?, List.find?_range_eq_some]
  constructor
  · rintro ⟨hfree, -, hbefore⟩
    refine ⟨hfree, fun s hs => Nat.le_of_not_lt fun hlt => ?_⟩
    have hnot := hbefore s hlt
    rw [show used.isFree s count = true from hs] at hnot
    cases hnot
  · rintro ⟨hfree, hleast⟩
    refine ⟨hfree, List.mem_range.mpr (hin hfree), fun s hlt => ?_⟩
    rw [Bool.not_eq_true', Bool.eq_false_iff]
    exact fun hs => Nat.not_lt.mpr (hleast hs) hlt

theorem firstFree?_eq_none_iff :
    firstFree? used count = none ↔ ∀ s, used.isFree s count = false := by
  rw [firstFree?, List.find?_eq_none]
  constructor
  · intro h s
    rw [Bool.eq_false_iff]
    intro hs
    have hend := used.start_add_le hs
    exact h s (List.mem_range.mpr (by omega)) hs
  · intro h s _
    rw [h s]
    exact Bool.false_ne_true

end SlotTable

section Reserving

variable {wanted : Table String UInt32} {used used' : SlotTable} {decl : AttributeDecl}
  {decls : List AttributeDecl} {location : UInt32}

/-- The end of the run that an attribute asks for wraps around and seems to lie in the table. -/
def WrapsAround (decl : AttributeDecl) (location : UInt32) : Prop :=
  0x100000000 ≤ location.toNat + decl.slots.toNat ∧
    location.toNat + decl.slots.toNat ≤ 0x100000000 + attributeSlots

/-- A run that ends in the table is taken, one whose end only seems to do so leads out of the table,
and all others are refused. -/
theorem reserve_cases (used : SlotTable) (decl : AttributeDecl) (location : UInt32) :
    (location.toNat + decl.slots.toNat ≤ attributeSlots ∧
      reserve used decl location = .ok (used.take location.toNat decl.slots.toNat)) ∨
    (¬ location.toNat + decl.slots.toNat ≤ attributeSlots ∧
      ((WrapsAround decl location ∧ reserve used decl location = .error .outsideTable) ∨
        (¬ WrapsAround decl location ∧
          reserve used decl location = .error (.refused (.tooManySlots decl.name))))) := by
  have hlocation := location.toNat_lt
  have hslots := decl.slots.toNat_lt
  have hstop : (location + decl.slots).toNat =
      (location.toNat + decl.slots.toNat) % 0x100000000 := UInt32.toNat_add _ _
  have hsixteen : (16 : UInt32).toNat = 16 := rfl
  simp only [reserve, WrapsAround, gt_iff_lt, UInt32.lt_iff_toNat_lt, hsixteen, attributeSlots]
  split
  · exact .inr ⟨by omega, .inr ⟨by omega, rfl⟩⟩
  · split
    · exact .inr ⟨by omega, .inl ⟨by omega, rfl⟩⟩
    · exact .inl ⟨by omega, rfl⟩

/-- Everything that is asked for ends in the table, as far as it is counted. -/
def Fitting (wanted : Table String UInt32) (decls : List AttributeDecl) : Prop :=
  ∀ decl ∈ decls, ∀ location, fixedLocation? wanted decl = some location →
    location.toNat + decl.slots.toNat ≤ attributeSlots

theorem fitting_cons : Fitting wanted (decl :: decls) ↔
    (∀ location, fixedLocation? wanted decl = some location →
      location.toNat + decl.slots.toNat ≤ attributeSlots) ∧ Fitting wanted decls :=
  List.forall_mem_cons

theorem reserveFixed_isOk_iff :
    (∃ used', reserveFixed wanted used decls = .ok used') ↔ Fitting wanted decls := by
  induction decls generalizing used with
  | nil => simp [reserveFixed, Fitting]
  | cons decl rest ih =>
      rw [fitting_cons, reserveFixed]
      cases hfixed : fixedLocation? wanted decl with
      | none => simp [ih]
      | some location =>
          rcases reserve_cases used decl location with
            ⟨hfits, hreserve⟩ | ⟨hbeyond, ⟨-, hreserve⟩ | ⟨-, hreserve⟩⟩
          · simp [hreserve, ih, hfits]
          · simp [hreserve, hbeyond]
          · simp [hreserve, hbeyond]

/-- A run that ends in the table is not the one that leads out of it. -/
theorem exists_wraps_cons (hdecl : ∀ location, fixedLocation? wanted decl = some location →
      location.toNat + decl.slots.toNat ≤ attributeSlots) :
    (∃ before other rest location, decl :: decls = before ++ other :: rest ∧
      Fitting wanted before ∧ fixedLocation? wanted other = some location ∧
      WrapsAround other location) ↔
    ∃ before other rest location, decls = before ++ other :: rest ∧ Fitting wanted before ∧
      fixedLocation? wanted other = some location ∧ WrapsAround other location := by
  constructor
  · rintro ⟨before, other, rest, location, hsplit, hbefore, hlocation, hwraps⟩
    cases before with
    | nil =>
        cases hsplit
        have hlow := hwraps.1
        have hhigh := hdecl location hlocation
        simp only [attributeSlots] at hhigh
        omega
    | cons head before =>
        cases hsplit
        exact ⟨before, other, rest, location, rfl, (fitting_cons.mp hbefore).2, hlocation, hwraps⟩
  · rintro ⟨before, other, rest, location, rfl, hbefore, hlocation, hwraps⟩
    exact ⟨decl :: before, other, rest, location, rfl, fitting_cons.mpr ⟨hdecl, hbefore⟩,
      hlocation, hwraps⟩

/-- What is asked for leads out of the table just if the first run that does not end in it has an
end that wraps around. -/
theorem reserveFixed_eq_outsideTable_iff (used : SlotTable) :
    reserveFixed wanted used decls = .error .outsideTable ↔
      ∃ before decl rest location, decls = before ++ decl :: rest ∧ Fitting wanted before ∧
        fixedLocation? wanted decl = some location ∧ WrapsAround decl location := by
  induction decls generalizing used with
  | nil => simp [reserveFixed]
  | cons first more ih =>
      rw [reserveFixed]
      cases hfixed : fixedLocation? wanted first with
      | none =>
          rw [exists_wraps_cons (by simp [hfixed])]
          exact ih used
      | some location =>
          rcases reserve_cases used first location with
            ⟨hfits, hreserve⟩ | ⟨hbeyond, ⟨hwraps, hreserve⟩ | ⟨hno, hreserve⟩⟩
          · rw [exists_wraps_cons (by simpa [hfixed] using hfits)]
            simp only [hreserve]
            exact ih _
          · simp only [hreserve, true_iff]
            exact ⟨[], first, more, location, rfl, by simp [Fitting], hfixed, hwraps⟩
          · simp only [hreserve, Except.error.injEq, reduceCtorEq, false_iff]
            rintro ⟨before, decl, rest, other, hsplit, hbefore, hother, hwraps⟩
            cases before with
            | nil =>
                cases hsplit
                cases hfixed.symm.trans hother
                exact hno hwraps
            | cons head before =>
                cases hsplit
                exact hbeyond ((fitting_cons.mp hbefore).1 location hfixed)

end Reserving

end Linking

end GlPlayback
