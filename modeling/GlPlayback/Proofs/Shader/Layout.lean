import GlPlayback.Proofs.Outcome
import GlPlayback.Shader.Reflection
import Mathlib.Data.UInt

/-!
The layout of a uniform block beside the one that 32-bit words allow for. As long as the block ends
below the last word, the members lie where they should, one behind the other, and all of them in the
block.
-/
namespace GlPlayback

/-- Sizes and offsets are answered as signed numbers. -/
theorem toInt32_eq_ofNat (n : UInt32) : n.toInt32 = Int32.ofNat n.toNat := by
  rw [← UInt32.toInt32_ofNat', UInt32.ofNat_toNat]

namespace BlockLayout

/-- The least multiple of `align` that is not below `n`, however large. -/
def alignUp (n align : Nat) : Nat :=
  (n + align - 1) / align * align

/-- Alignment and length in bytes of a member, however long. -/
def std140 (decl : UniformDecl) : Nat × Nat :=
  if decl.isArray then (16, alignUp decl.type.layout.2.toNat 16 * (elementCount decl.size).toNat)
  else (decl.type.layout.1.toNat, decl.type.layout.2.toNat)

/-- The end of the last of these members, if the first of them lies not below `start`. -/
def std140End (start : Nat) : List UniformDecl → Nat
  | [] => start
  | decl :: rest => std140End (alignUp start (std140 decl).1 + (std140 decl).2) rest

def std140Size (decls : List UniformDecl) : Nat :=
  alignUp (std140End 0 decls) 16

theorem le_alignUp {align : Nat} (halign : 0 < align) (n : Nat) : n ≤ alignUp n align := by
  have hdivision := Nat.div_add_mod (n + align - 1) align
  have hrest := Nat.mod_lt (n + align - 1) halign
  rw [alignUp, Nat.mul_comm]
  omega

theorem alignUp_eq {align : Nat} (halign : 0 < align) (n : Nat) :
    alignUp n align = (n / align + if n % align = 0 then 0 else 1) * align := by
  have hdivision : n + align - 1 = align * (n / align) + (n % align + align - 1) := by
    have hn := Nat.div_add_mod n align
    omega
  have hrest := Nat.mod_lt n halign
  have hcarry : (n % align + align - 1) / align = if n % align = 0 then 0 else 1 := by
    split
    · next hzero => exact Nat.div_eq_of_lt (by omega)
    · next hrem =>
        have hone : n % align + align - 1 = align + (n % align - 1) := by omega
        rw [hone, Nat.add_div_left _ halign, Nat.div_eq_of_lt (by omega)]
  rw [alignUp, hdivision, Nat.mul_add_div halign, hcarry]

/-- Rounding up words is rounding up numbers, if there is a word for the result. -/
theorem toNat_roundUp {n align : UInt32} (halign : 0 < align.toNat)
    (hfits : alignUp n.toNat align.toNat < 0x100000000) :
    (roundUp n align).toNat = alignUp n.toNat align.toNat := by
  rw [alignUp_eq halign] at hfits ⊢
  have hmod : n % align = 0 ↔ n.toNat % align.toNat = 0 := by
    rw [← UInt32.toNat_inj, UInt32.toNat_mod]
    rfl
  have hcarry : (if n % align = 0 then (0 : UInt32) else 1).toNat =
      if n.toNat % align.toNat = 0 then 0 else 1 := by
    simp only [hmod]
    split <;> rfl
  have hquotient : n.toNat / align.toNat + (if n.toNat % align.toNat = 0 then 0 else 1) <
      0x100000000 := Nat.lt_of_le_of_lt (Nat.le_mul_of_pos_right _ halign) hfits
  rw [roundUp, UInt32.toNat_mul, UInt32.toNat_add, UInt32.toNat_div, hcarry,
    Nat.mod_eq_of_lt hquotient, Nat.mod_eq_of_lt hfits]

theorem layout_bounds (type : ValueType) :
    type.layout.1.toNat ∣ 16 ∧ type.layout.2.toNat ≤ 64 := by
  cases type with
  | scalar c => cases c <;> decide
  | vector c n => cases c <;> cases n <;> decide
  | matrix c r => cases c <;> cases r <;> decide
  | sampler kind => cases kind <;> decide

theorem std140_align_dvd (decl : UniformDecl) : (std140 decl).1 ∣ 16 := by
  rw [std140]
  split
  · exact Nat.dvd_refl 16
  · exact (layout_bounds decl.type).1

theorem std140_align (decl : UniformDecl) : 0 < (std140 decl).1 :=
  Nat.pos_of_dvd_of_pos (std140_align_dvd decl) (by decide)

theorem le_std140End (start : Nat) (decls : List UniformDecl) : start ≤ std140End start decls := by
  induction decls generalizing start with
  | nil => exact Nat.le_refl start
  | cons decl rest ih =>
      have hstart := le_alignUp (std140_align decl) start
      have hrest := ih (alignUp start (std140 decl).1 + (std140 decl).2)
      rw [std140End]
      omega

/-- Alignments are the same as words and as numbers, and of lengths a word keeps what it can. -/
theorem toNat_extent_mod (decl : UniformDecl) :
    (extent decl).1.toNat = (std140 decl).1 ∧
      (extent decl).2.toNat = (std140 decl).2 % 0x100000000 := by
  obtain ⟨-, hsize⟩ := layout_bounds decl.type
  rw [extent, std140]
  cases decl.isArray with
  | false => exact ⟨rfl, (Nat.mod_eq_of_lt decl.type.layout.2.toNat_lt).symm⟩
  | true =>
      have hsixteen : alignUp decl.type.layout.2.toNat 16 < 0x100000000 := by
        rw [alignUp]
        omega
      have hstride : (roundUp decl.type.layout.2 16).toNat = alignUp decl.type.layout.2.toNat 16 :=
        toNat_roundUp (by decide) hsixteen
      refine ⟨rfl, ?_⟩
      simp only [if_true]
      rw [UInt32.toNat_mul, hstride]

/-- Alignments and lengths as words are those as numbers, if there is a word for the length. -/
theorem toNat_extent {decl : UniformDecl} (hfits : (std140 decl).2 < 0x100000000) :
    (extent decl).1.toNat = (std140 decl).1 ∧ (extent decl).2.toNat = (std140 decl).2 := by
  obtain ⟨halign, hlength⟩ := toNat_extent_mod decl
  exact ⟨halign, hlength.trans (Nat.mod_eq_of_lt hfits)⟩

/-- Members that lie one behind the other, from `start` on and not beyond `stop`. -/
structure Spread (start stop : Nat) (members : List BlockMember) : Prop where
  within : ∀ m ∈ members, start ≤ m.offset.toNat ∧ m.offset.toNat + (std140 m.decl).2 ≤ stop
  apart : members.Pairwise fun m other =>
    m.offset.toNat + (std140 m.decl).2 ≤ other.offset.toNat

theorem place_cons (start : UInt32) (decl : UniformDecl) (rest : List UniformDecl) :
    place start (decl :: rest) =
      (⟨decl, roundUp start (extent decl).1⟩ ::
          (place (roundUp start (extent decl).1 + (extent decl).2) rest).1,
        (place (roundUp start (extent decl).1 + (extent decl).2) rest).2) :=
  rfl

/-- The first member is placed as numbers say, if there is a word for its end. -/
theorem place_head (start : UInt32) (decl : UniformDecl)
    (hfits : alignUp start.toNat (std140 decl).1 + (std140 decl).2 < 0x100000000) :
    (roundUp start (extent decl).1).toNat = alignUp start.toNat (std140 decl).1 ∧
      (roundUp start (extent decl).1 + (extent decl).2).toNat =
        alignUp start.toNat (std140 decl).1 + (std140 decl).2 := by
  obtain ⟨halign, hlength⟩ : (extent decl).1.toNat = (std140 decl).1 ∧
      (extent decl).2.toNat = (std140 decl).2 := toNat_extent (by omega)
  have hoffset : (roundUp start (extent decl).1).toNat = alignUp start.toNat (std140 decl).1 := by
    rw [← halign]
    refine toNat_roundUp (halign ▸ std140_align decl) ?_
    rw [halign]
    omega
  refine ⟨hoffset, ?_⟩
  rw [UInt32.toNat_add, hoffset, hlength, Nat.mod_eq_of_lt hfits]

/-- Members are placed one behind the other, if there is a word for the end of the last. -/
theorem place_spread (decls : List UniformDecl) (start : UInt32)
    (hfits : std140End start.toNat decls < 0x100000000) :
    (place start decls).2.toNat = std140End start.toNat decls ∧
      Spread start.toNat (std140End start.toNat decls) (place start decls).1 := by
  induction decls generalizing start with
  | nil => exact ⟨rfl, by simp [place], .nil⟩
  | cons decl rest ih =>
      rw [std140End] at hfits ⊢
      have hstart := le_alignUp (std140_align decl) start.toNat
      have hstop := le_std140End (alignUp start.toNat (std140 decl).1 + (std140 decl).2) rest
      obtain ⟨hoffset, hbehind⟩ := place_head start decl (by omega)
      rw [place_cons]
      generalize roundUp start (extent decl).1 = offset at hoffset hbehind ⊢
      obtain ⟨hend, hwithin, hapart⟩ := ih (offset + (extent decl).2) (hbehind ▸ hfits)
      rw [hbehind] at hend hwithin
      refine ⟨hend, ?_, ?_⟩
      · refine List.forall_mem_cons.mpr ⟨?_, fun m hm => ?_⟩
        · rw [hoffset]
          exact ⟨hstart, hstop⟩
        · obtain ⟨hlower, hupper⟩ := hwithin m hm
          exact ⟨by omega, hupper⟩
      · refine List.pairwise_cons.mpr ⟨fun m hm => ?_, hapart⟩
        rw [hoffset]
        exact (hwithin m hm).1

theorem place_decls (start : UInt32) (decls : List UniformDecl) :
    (place start decls).1.map (·.decl) = decls := by
  induction decls generalizing start with
  | nil => rfl
  | cons decl rest ih => exact congrArg (decl :: ·) (ih _)

end BlockLayout

namespace UniformBlock

/-- Members and size of a block are as the layout makes them. -/
def IsLaid (b : UniformBlock) : Prop :=
  b = BlockLayout.block b.name b.instanceName (b.members.map (·.decl))

/-- The size in bytes that a block ought to have, however large. -/
def std140Size (b : UniformBlock) : Nat :=
  BlockLayout.std140Size (b.members.map (·.decl))

theorem isLaid_block (name : String) (instanceName : Option String) (decls : List UniformDecl) :
    (BlockLayout.block name instanceName decls).IsLaid := by
  have hdecls : (BlockLayout.block name instanceName decls).members.map (·.decl) = decls :=
    BlockLayout.place_decls 0 decls
  rw [IsLaid, hdecls]
  rfl

/-- The members of a block that is not too large lie in it, one behind the other. -/
theorem IsLaid.spread {b : UniformBlock} (hb : b.IsLaid) (hfits : b.std140Size < 0x100000000) :
    b.dataSize.toNat = b.std140Size ∧
      BlockLayout.Spread 0 b.dataSize.toNat b.members := by
  have hsixteen : (0 : Nat) < 16 := by decide
  have hend : BlockLayout.std140End 0 (b.members.map (·.decl)) ≤ b.std140Size :=
    BlockLayout.le_alignUp hsixteen _
  obtain ⟨hstop, hspread⟩ := BlockLayout.place_spread (b.members.map (·.decl)) 0
    (Nat.lt_of_le_of_lt hend hfits)
  have hsize : b.dataSize.toNat = b.std140Size := by
    have hround : (BlockLayout.roundUp (BlockLayout.place 0 (b.members.map (·.decl))).2 16).toNat =
        BlockLayout.alignUp (BlockLayout.place 0 (b.members.map (·.decl))).2.toNat 16 := by
      refine BlockLayout.toNat_roundUp hsixteen ?_
      rw [hstop]
      exact hfits
    rw [hstop] at hround
    exact (congrArg (fun b : UniformBlock => b.dataSize.toNat) hb).trans hround
  have hmembers : b.members = (BlockLayout.place 0 (b.members.map (·.decl))).1 :=
    congrArg UniformBlock.members hb
  refine ⟨hsize, ?_⟩
  rw [hsize, hmembers]
  exact ⟨fun m hm => ⟨Nat.zero_le _, (hspread.within m hm).2.trans hend⟩, hspread.apart⟩

end UniformBlock

end GlPlayback
