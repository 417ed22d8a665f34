import GlPlayback.Proofs.Shader.Naming
import Mathlib.Order.Bounds.Basic

/-!
When the layout of a uniform block is consistent: every member lies at the least aligned place
behind the member before it, and the block ends at the first multiple of 16 behind the last. Numbers
allow for exactly one such layout. The words of a block hold it exactly if there is a word for its
size, paddings included.
-/
namespace GlPlayback

/-- Where a member ends, however long it is. -/
def BlockMember.stop (m : BlockMember) : Nat :=
  m.offset.toNat + (BlockLayout.std140 m.decl).2

namespace BlockLayout

theorem alignUp_lt_add {align : Nat} (halign : 0 < align) (n : Nat) :
    alignUp n align < n + align := by
  have hdivision := Nat.div_mul_le_self (n + align - 1) align
  rw [alignUp]
  omega

theorem isLeast_alignUp {align : Nat} (halign : 0 < align) (n : Nat) :
    IsLeast {m | align ∣ m ∧ n ≤ m} (alignUp n align) := by
  refine ⟨⟨Nat.dvd_mul_left align _, le_alignUp halign n⟩, ?_⟩
  rintro m ⟨⟨k, rfl⟩, hle⟩
  rw [alignUp, Nat.mul_comm align k]
  refine Nat.mul_le_mul_right align ((Nat.div_le_iff_le_mul_add_pred halign).mpr ?_)
  omega

/-- The offsets of members with these alignments and lengths, the first of them not below
`start`. -/
def offsetsFrom (start : Nat) : List (Nat × Nat) → List Nat
  | [] => []
  | (align, length) :: rest =>
      alignUp start align :: offsetsFrom (alignUp start align + length) rest

/-- The end of the last of these members. -/
def endFrom (start : Nat) : List (Nat × Nat) → Nat
  | [] => start
  | (align, length) :: rest => endFrom (alignUp start align + length) rest

theorem std140End_eq_endFrom (start : Nat) (decls : List UniformDecl) :
    std140End start decls = endFrom start (decls.map std140) := by
  induction decls generalizing start with
  | nil => rfl
  | cons decl rest ih => exact ih _

/-- Words hold the offsets of a layout, if there is a word for the end of the last member. -/
theorem place_offsets (decls : List UniformDecl) (start : UInt32)
    (hfits : std140End start.toNat decls < 0x100000000) :
    (place start decls).1.map (·.offset.toNat) = offsetsFrom start.toNat (decls.map std140) := by
  induction decls generalizing start with
  | nil => rfl
  | cons decl rest ih =>
      rw [std140End] at hfits
      have hstop := le_std140End (alignUp start.toNat (std140 decl).1 + (std140 decl).2) rest
      obtain ⟨hoffset, hbehind⟩ := place_head start decl (by omega)
      have hrest := ih (roundUp start (extent decl).1 + (extent decl).2) (hbehind ▸ hfits)
      rw [hbehind] at hrest
      rw [place_cons, List.map_cons, List.map_cons, hoffset, hrest]
      rfl

/-- Every member lies at the least multiple of its alignment that is not below the end of the member
before it, the first of them not below `start`. -/
def Placed (start : Nat) : List BlockMember → Prop
  | [] => True
  | m :: rest =>
      IsLeast {n | (std140 m.decl).1 ∣ n ∧ start ≤ n} m.offset.toNat ∧ Placed m.stop rest

/-- Where the last member ends, or `start` if there is none. -/
def stopAfter (start : Nat) : List BlockMember → Nat
  | [] => start
  | m :: rest => stopAfter m.stop rest

/-- There is just one way to place members. -/
theorem placed_iff {start : Nat} {members : List BlockMember} :
    Placed start members ↔
      members.map (·.offset.toNat) = offsetsFrom start (members.map fun m => std140 m.decl) := by
  induction members generalizing start with
  | nil => exact ⟨fun _ => rfl, fun _ => trivial⟩
  | cons m rest ih =>
      have hleast := isLeast_alignUp (std140_align m.decl) start
      simp only [Placed, hleast.isLeast_iff_eq, ih, List.map_cons, offsetsFrom, List.cons.injEq]
      constructor
      · rintro ⟨hoffset, hrest⟩
        exact ⟨hoffset.symm, hoffset ▸ hrest⟩
      · rintro ⟨hoffset, hrest⟩
        refine ⟨hoffset.symm, ?_⟩
        rw [hrest, BlockMember.stop, hoffset]

theorem Placed.stopAfter_eq {start : Nat} {members : List BlockMember} (h : Placed start members) :
    stopAfter start members = std140End start (members.map (·.decl)) := by
  induction members generalizing start with
  | nil => rfl
  | cons m rest ih =>
      obtain ⟨hoffset, hrest⟩ := h
      rw [stopAfter, ih hrest, BlockMember.stop,
        hoffset.unique (isLeast_alignUp (std140_align m.decl) start)]
      rfl

/-- What lies between the members of a layout is less than 16 bytes before each of them. -/
theorem std140End_bounds (decls : List UniformDecl) (start : Nat) :
    start + (decls.map fun decl => (std140 decl).2).sum ≤ std140End start decls ∧
      std140End start decls ≤
        start + (decls.map fun decl => (std140 decl).2).sum + 15 * decls.length := by
  induction decls generalizing start with
  | nil => exact ⟨Nat.le_refl start, Nat.le_refl start⟩
  | cons decl rest ih =>
      have hlower := le_alignUp (std140_align decl) start
      have hupper := alignUp_lt_add (std140_align decl) start
      have halign := Nat.le_of_dvd (by decide) (std140_align_dvd decl)
      obtain ⟨hleast, hmost⟩ := ih (alignUp start (std140 decl).1 + (std140 decl).2)
      simp only [List.map_cons, List.sum_cons, List.length_cons, std140End]
      omega

end BlockLayout

namespace UniformBlock

/-- The lengths of all members together, without what lies between them. -/
def extentSum (b : UniformBlock) : Nat :=
  (b.members.map fun m => (BlockLayout.std140 m.decl).2).sum

/-- Members lie aligned one behind the other, as close as can be, and the block closes behind
them. -/
structure IsConsistent (b : UniformBlock) : Prop where
  placed : BlockLayout.Placed 0 b.members
  apart : b.members.Pairwise fun m other => m.stop ≤ other.offset.toNat
  within : ∀ m ∈ b.members, m.stop ≤ b.dataSize.toNat
  size : IsLeast {n | 16 ∣ n ∧ BlockLayout.stopAfter 0 b.members ≤ n} b.dataSize.toNat

theorem std140Size_bounds (b : UniformBlock) :
    b.extentSum ≤ b.std140Size ∧ b.std140Size ≤ b.extentSum + 15 * (b.members.length + 1) := by
  obtain ⟨hleast, hmost⟩ := BlockLayout.std140End_bounds (b.members.map (·.decl)) 0
  have hlower := BlockLayout.le_alignUp (show 0 < 16 by decide)
    (BlockLayout.std140End 0 (b.members.map (·.decl)))
  have hupper := BlockLayout.alignUp_lt_add (show 0 < 16 by decide)
    (BlockLayout.std140End 0 (b.members.map (·.decl)))
  rw [List.map_map, Nat.zero_add] at hleast hmost
  rw [List.length_map] at hmost
  change b.extentSum ≤ _ at hleast
  change _ ≤ b.extentSum + _ at hmost
  rw [std140Size, BlockLayout.std140Size]
  omega

theorem IsConsistent.dataSize_eq {b : UniformBlock} (h : b.IsConsistent) :
    b.dataSize.toNat = b.std140Size := by
  have hsize := h.size
  rw [h.placed.stopAfter_eq] at hsize
  exact hsize.unique (BlockLayout.isLeast_alignUp (by decide) _)

theorem IsLaid.members_eq {b : UniformBlock} (hb : b.IsLaid) :
    b.members = (BlockLayout.place 0 (b.members.map (·.decl))).1 :=
  congrArg UniformBlock.members hb

/-- Words hold the offsets of a block that is not too large. -/
theorem IsLaid.offsets_eq {b : UniformBlock} (hb : b.IsLaid)
    (hfits : b.std140Size < 0x100000000) :
    b.members.map (·.offset.toNat) =
      BlockLayout.offsetsFrom 0 ((b.members.map (·.decl)).map BlockLayout.std140) := by
  have hend : BlockLayout.std140End 0 (b.members.map (·.decl)) ≤ b.std140Size :=
    BlockLayout.le_alignUp (by decide) _
  have hoffsets := BlockLayout.place_offsets (b.members.map (·.decl)) 0
    (Nat.lt_of_le_of_lt hend hfits)
  rw [← hb.members_eq] at hoffsets
  exact hoffsets

theorem IsLaid.isConsistent_iff {b : UniformBlock} (hb : b.IsLaid) :
    b.IsConsistent ↔ b.std140Size < 0x100000000 := by
  constructor
  · intro h
    rw [← h.dataSize_eq]
    exact b.dataSize.toNat_lt
  · intro hfits
    obtain ⟨hsize, hspread⟩ := hb.spread hfits
    have hplaced : BlockLayout.Placed 0 b.members := by
      have hoffsets := hb.offsets_eq hfits
      rw [List.map_map] at hoffsets
      exact BlockLayout.placed_iff.mpr hoffsets
    refine ⟨hplaced, hspread.apart, fun m hm => (hspread.within m hm).2, ?_⟩
    rw [hplaced.stopAfter_eq, hsize]
    exact BlockLayout.isLeast_alignUp (by decide) _

end UniformBlock

namespace Shader

/-- The block layouts that reflection makes are consistent exactly where 32-bit words have room for
them, the bytes between the members and behind the last of them included. -/
theorem reflect_isConsistent_iff {stage : Stage} {source : String} {interface : ShaderInterface}
    (h : reflect stage source = .ok interface) {b : UniformBlock} (hb : b ∈ interface.blocks) :
    (b.IsConsistent ↔ b.std140Size < 0x100000000) ∧ b.extentSum ≤ b.std140Size ∧
      b.std140Size ≤ b.extentSum + 15 * (b.members.length + 1) :=
  ⟨(((reflect_yields stage source).value h).2 b hb).isConsistent_iff, b.std140Size_bounds⟩

/-- A block with an array, a vector of three components and members of all alignments. -/
theorem reflect_isConsistent_mixed :
    let block : UniformBlock := ⟨"B", none,
      [⟨⟨"a", .scalar .float, 1, false⟩, 0⟩, ⟨⟨"b", .vector .float .three, 1, false⟩, 16⟩,
        ⟨⟨"c", .scalar .int, 1, false⟩, 28⟩, ⟨⟨"d", .scalar .bool, 3, true⟩, 32⟩,
        ⟨⟨"e", .vector .uint .two, 1, false⟩, 80⟩], 96⟩
    reflect .vertex "uniform B \x7b float a; vec3 b; int c; bool d[3]; uvec2 e; \x7d; void main(){}" =
        .ok { blocks := [block] } ∧ block.IsConsistent := by
  intro block
  have hreflect : reflect .vertex
      "uniform B \x7b float a; vec3 b; int c; bool d[3]; uvec2 e; \x7d; void main(){}" =
        .ok { blocks := [block] } := by
    decide +kernel
  refine ⟨hreflect, (reflect_isConsistent_iff hreflect (List.mem_singleton_self block)).1.mpr ?_⟩
  decide

/-- The lengths of these members fit a word together, but not the bytes before the array as well:
the last member comes back to the first. -/
theorem reflect_inconsistent :
    let block : UniformBlock := ⟨"B", none,
      [⟨⟨"a", .scalar .float, 1, false⟩, 0⟩, ⟨⟨"b", .vector .float .four, 268435455, true⟩, 16⟩,
        ⟨⟨"c", .scalar .float, 1, false⟩, 0⟩], 16⟩
    reflect .vertex "uniform B \x7b float a; vec4 b[268435455]; float c; \x7d; void main(){}" =
        .ok { blocks := [block] } ∧
      block.extentSum < 0x100000000 ∧ ¬ block.IsConsistent := by
  intro block
  refine ⟨by decide +kernel, by decide, fun h => ?_⟩
  have hapart := h.apart
  simp only [block, List.pairwise_cons] at hapart
  exact absurd (hapart.1 _ (List.mem_cons_of_mem _ (List.mem_singleton_self _))) (by decide)

end Shader

end GlPlayback
