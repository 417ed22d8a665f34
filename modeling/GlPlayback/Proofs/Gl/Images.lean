import Mathlib.Algebra.BigOperators.Group.List.Basic
import Mathlib.Algebra.Ring.Int.Defs
import GlPlayback.Proofs.Gl.Flag
import GlPlayback.Proofs.Gl.Textures

/-!
The store of an image that is loaded without pixels. Its length is a product of the edges, which is
formed in 32 bits: it is the exact one only below two gigabytes.
-/
namespace GlPlayback

open Attempt

/-- The target, the image and its edges, of a call that may load an image there. -/
def Call.image? : Call → Option (UInt32 × Context.Image × List Int32)
  | texImage2D target image => some (target, image, [image.width, image.height])
  | texImage3D target image =>
      if target = Enumerant.texture3D ∨ target = Enumerant.texture2DArray then
        some (target, image, [image.width, image.height, image.depth])
      else none
  | _ => none

namespace Context

/-- Four bytes for each element of an image with these edges. -/
def byteCount (edges : List Int32) : Int :=
  (edges.map Int32.toInt).prod * 4

/-- The image is one of level 0, and nothing is loaded into it. -/
structure Image.IsBlank (image : Image) : Prop where
  level : image.level = 0
  border : image.border = 0
  pixels : image.pixels = none

variable {ctx : Context} {call : Call} {target : UInt32} {image : Image} {edges : List Int32}
  {id : ObjectId} {t : TextureObject}

/-- The call is carried out without an error, and the texture then has this many bytes, all of them
zero. -/
structure Allocates (ctx : Context) (call : Call) (id : ObjectId) (count : Int) : Prop where
  raises : ctx.raises call = none
  lost : (ctx.issue call).lost = false
  data : ((ctx.issue call).texture? id).map (·.data) = some (List.replicate count.toNat 0)

theorem Allocates.toNat_eq {m n : Int} (h : ctx.Allocates call id m)
    (h' : ctx.Allocates call id n) : m.toNat = n.toNat := by
  have hdata := Option.some.inj (h.data.symm.trans h'.data)
  rw [← List.length_replicate (n := m.toNat) (a := (0 : UInt8)), hdata, List.length_replicate]

theorem toInt_flat (width height : Int32) :
    (width * height * 4).toInt = (byteCount [width, height]).bmod (2 ^ 32) := by
  simp [byteCount, Int32.toInt_mul]

theorem toInt_deep (width height depth : Int32) :
    (width * height * depth * 4).toInt = (byteCount [width, height, depth]).bmod (2 ^ 32) := by
  simp [byteCount, Int32.toInt_mul, Int.mul_assoc]

theorem byteCount_nonneg (hedges : ∀ edge ∈ edges, 0 ≤ edge) : 0 ≤ byteCount edges := by
  refine Int.mul_nonneg ?_ (by decide)
  induction edges with
  | nil => exact Int.one_nonneg
  | cons edge rest ih =>
      obtain ⟨hedge, hrest⟩ := List.forall_mem_cons.mp hedges
      rw [List.map_cons, List.prod_cons]
      exact Int.mul_nonneg (Int32.le_iff_toInt_le.mp hedge) (ih hrest)

/-- A size below two gigabytes is kept, and any other is not. -/
theorem bmod_eq_iff {n : Int} (hn : 0 ≤ n) : n.bmod (2 ^ 32) = n ↔ n < 2 ^ 31 := by
  constructor
  · intro h
    have := Int.bmod_lt (x := n) (m := 2 ^ 32) (by decide)
    omega
  · intro h
    exact Int.bmod_eq_of_le (by omega) (by omega)

section Bound

variable (hbound : ctx.boundTexture? target = some id) (ht : ctx.texture? id = some t)
  (hmutable : t.immutable = false) (hblank : image.IsBlank)
include hbound ht hmutable hblank

/-- The texture gets as many zeros as the product of its edges says, unless that is negative. -/
theorem changeTexture_blank (depth size : Int32) :
    (0 ≤ size.toInt → ∃ t', t'.data = List.replicate size.toInt.toNat 0 ∧
      ctx.changeTexture target (loadImage image depth size) =
        .ok { ctx with objects.textures := ctx.objects.textures.insert id t' }) ∧
    (size.toInt < 0 → ctx.changeTexture target (loadImage image depth size) =
      .error .impossible) := by
  have ht' : ctx.objects.textures.get? id = some t := ht
  simp only [changeTexture, hbound, ht', loadImage, check, hmutable, Bool.not_false, if_true,
    hblank.level, hblank.pixels, blank, Int32.le_iff_toInt_le, Int32.toInt_zero]
  constructor
  · intro hsize
    simp only [if_pos hsize]
    exact ⟨_, rfl, rfl⟩
  · intro hsize
    simp only [if_neg (Int.not_le.mpr hsize)]
    rfl

end Bound

/-- With edges that are not negative, the call gets as far as the texture, and the size it asks for
is the exact one up to a multiple of 2 ^ 32. -/
theorem attempt_blank (ctx : Context) (hcall : call.image? = some (target, image, edges))
    (hedges : ∀ edge ∈ edges, 0 ≤ edge) (hblank : image.IsBlank) :
    ∃ depth size : Int32, size.toInt = (byteCount edges).bmod (2 ^ 32) ∧
      (ctx.attempt call).map (·.2) = ctx.changeTexture target (loadImage image depth size) := by
  have heffect (x : Attempt Context) : (effect x).map (·.2) = x := by cases x <;> rfl
  cases call with
  | texImage2D target image =>
      cases hcall
      simp only [List.mem_cons, List.not_mem_nil, or_false, forall_eq_or_imp, forall_eq] at hedges
      have hchecked : (0 ≤ image.width && 0 ≤ image.height && image.border == 0 &&
          0 ≤ image.level) = true := by
        simp [hedges, hblank.border, hblank.level]
      refine ⟨1, _, toInt_flat image.width image.height, (heffect _).trans ?_⟩
      simp only [texImage2D, check, hchecked, if_true]
      rfl
  | texImage3D target image =>
      simp only [Call.image?, Option.ite_none_right_eq_some, Option.some.injEq] at hcall
      obtain ⟨htarget, hcall⟩ := hcall
      cases hcall
      simp only [List.mem_cons, List.not_mem_nil, or_false, forall_eq_or_imp, forall_eq] at hedges
      have hchecked : (0 ≤ image.width && 0 ≤ image.height && 0 ≤ image.depth &&
          image.border == 0 && 0 ≤ image.level) = true := by
        simp [hedges, hblank.border, hblank.level]
      have hdeep : (target == Enumerant.texture3D || target == Enumerant.texture2DArray) =
          true := by
        simpa using htarget
      refine ⟨image.depth, _, toInt_deep image.width image.height image.depth, (heffect _).trans ?_⟩
      simp only [texImage3D, check, hchecked, hdeep, if_true]
      rfl
  | _ => cases hcall

theorem issue_of_attempt_ok {ctx' : Context}
    (h : ((ctx.countCall call.name).attempt call).map (·.2) = .ok ctx') :
    ctx.raises call = none ∧ ctx.issue call = ctx' := by
  obtain ⟨answered, hanswered, rfl⟩ := map_eq_ok_iff.mp h
  simp only [raises, issue, exec, hanswered, and_self]

theorem issue_of_attempt_impossible
    (h : ((ctx.countCall call.name).attempt call).map (·.2) = .error .impossible) :
    ctx.raises call = none ∧ (ctx.issue call).lost = true := by
  have hattempt : (ctx.countCall call.name).attempt call = .error .impossible := by
    cases hanswered : (ctx.countCall call.name).attempt call with
    | ok answered => cases (congrArg (·.map (·.2)) hanswered).symm.trans h
    | error refusal =>
        cases (congrArg (·.map (·.2)) hanswered).symm.trans h
        rfl
  simp only [raises, issue, exec, hattempt, and_self]

section Outcome

variable (hcall : call.image? = some (target, image, edges))
  (hbound : ctx.boundTexture? target = some id) (ht : ctx.texture? id = some t)
  (hmutable : t.immutable = false) (hblank : image.IsBlank)
  (hedges : ∀ edge ∈ edges, 0 ≤ edge)
include hcall hbound ht hmutable hblank hedges

theorem allocates_of_nonneg (hknown : ctx.lost = false)
    (hsize : 0 ≤ (byteCount edges).bmod (2 ^ 32)) :
    ctx.Allocates call id ((byteCount edges).bmod (2 ^ 32)) := by
  let counted := ctx.countCall call.name
  have hbound' : counted.boundTexture? target = some id := hbound
  obtain ⟨depth, size, hexact, hattempt⟩ := counted.attempt_blank hcall hedges hblank
  rw [← hexact] at hsize ⊢
  obtain ⟨t', hdata, hchanged⟩ :=
    (changeTexture_blank hbound' ht hmutable hblank depth size).1 hsize
  obtain ⟨hraises, hissue⟩ := issue_of_attempt_ok (hattempt.trans hchanged)
  refine ⟨hraises, by rw [hissue]; exact hknown, ?_⟩
  rw [hissue, texture?, Table.get?_insert, if_pos rfl, Option.map_some, hdata]

theorem lost_of_neg (hsize : (byteCount edges).bmod (2 ^ 32) < 0) :
    ctx.raises call = none ∧ (ctx.issue call).lost = true := by
  let counted := ctx.countCall call.name
  have hbound' : counted.boundTexture? target = some id := hbound
  obtain ⟨depth, size, hexact, hattempt⟩ := counted.attempt_blank hcall hedges hblank
  rw [← hexact] at hsize
  have hchanged := (changeTexture_blank hbound' ht hmutable hblank depth size).2 hsize
  exact issue_of_attempt_impossible (hattempt.trans hchanged)

/-- An image without pixels gets exactly its bytes, all of them zero, if these are less than
2 ^ 31. Otherwise it gets as many as are left of them in 32 bits with a sign; if that is negative,
the call cannot be carried out. -/
theorem blank_image_allocated_iff (hknown : ctx.lost = false) :
    (ctx.Allocates call id (byteCount edges) ↔ byteCount edges < 2 ^ 31) ∧
    (0 ≤ (byteCount edges).bmod (2 ^ 32) →
      ctx.Allocates call id ((byteCount edges).bmod (2 ^ 32))) ∧
    ((byteCount edges).bmod (2 ^ 32) < 0 →
      ctx.raises call = none ∧ (ctx.issue call).lost = true) := by
  have hnonneg := byteCount_nonneg hedges
  have hallocates := allocates_of_nonneg hcall hbound ht hmutable hblank hedges hknown
  have hlost := lost_of_neg hcall hbound ht hmutable hblank hedges
  refine ⟨?_, hallocates, hlost⟩
  rw [← bmod_eq_iff hnonneg]
  constructor
  · intro hexact
    rcases Int.lt_or_le ((byteCount edges).bmod (2 ^ 32)) 0 with hneg | hsize
    · cases hexact.lost.symm.trans (hlost hneg).2
    · have hsame := (hallocates hsize).toNat_eq hexact
      omega
  · intro hkept
    rw [hkept] at hallocates
    exact hallocates hnonneg

end Outcome

/-- A blank image of two by three by four elements takes 96 bytes. -/
theorem blank_image_allocated_deep :
    let ctx := (new 1 1).issueAll
      [.createTexture, .bindTexture Enumerant.texture3D (some 1)]
    let image : Image := ⟨0, 0x1908, 2, 3, 4, 0, 0x1908, 0x1401, none⟩
    ctx.Allocates (.texImage3D Enumerant.texture3D image) 1 96 := by
  intro ctx image
  have hcall : (Call.texImage3D Enumerant.texture3D image).image? =
      some (Enumerant.texture3D, image, [2, 3, 4]) := by decide
  have hbound : ctx.boundTexture? Enumerant.texture3D = some 1 := by decide +kernel
  have ht : ctx.texture? 1 = some { target := some Enumerant.texture3D } := by decide +kernel
  have hallocated := blank_image_allocated_iff hcall hbound ht rfl ⟨rfl, rfl, rfl⟩ (by simp)
    (by decide +kernel)
  exact hallocated.1.mpr (by decide)

/-- A blank image of 2 ^ 16 by 2 ^ 14 elements takes no byte at all instead of 2 ^ 32. -/
theorem wide_image_allocates_nothing :
    let ctx := (new 1 1).issueAll
      [.createTexture, .bindTexture Enumerant.texture2D (some 1)]
    let image : Image := ⟨0, 0x1908, 65536, 16384, 0, 0, 0x1908, 0x1401, none⟩
    let call := Call.texImage2D Enumerant.texture2D image
    ctx.raises call = none ∧ ((ctx.issue call).texture? 1).map (·.data) = some [] ∧
      byteCount [65536, 16384] = 4294967296 ∧
      ¬ ctx.Allocates call 1 (byteCount [65536, 16384]) := by
  intro ctx image call
  have hcall : call.image? = some (Enumerant.texture2D, image, [65536, 16384]) := rfl
  have hbound : ctx.boundTexture? Enumerant.texture2D = some 1 := by decide +kernel
  have ht : ctx.texture? 1 = some { target := some Enumerant.texture2D } := by decide +kernel
  have hallocates := allocates_of_nonneg hcall hbound ht rfl ⟨rfl, rfl, rfl⟩ (by simp)
    (by decide +kernel) (by decide)
  refine ⟨hallocates.raises, hallocates.data, by decide, fun hexact => ?_⟩
  exact absurd (hexact.toNat_eq hallocates) (by decide)

end Context

end GlPlayback
