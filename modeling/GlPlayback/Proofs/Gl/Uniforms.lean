import GlPlayback.Proofs.Gl.Flag

/-!
Uploads to the uniforms of the program in use. One that is made of whole elements replaces the value
at its location, and any other is refused.
-/
namespace GlPlayback

open Attempt

namespace UniformValue

/-- How many numbers a value is made of. -/
def count : UniformValue → Nat
  | float _ data => data.length
  | int _ data => data.length
  | uint _ data => data.length
  | matrix _ _ _ data => data.length

/-- How many numbers make up one element of a value. -/
def width : UniformValue → Nat
  | float components _ => components
  | int components _ => components
  | uint components _ => components
  | matrix columns rows _ _ => columns * rows

/-- The call that uploads a value. -/
def call (location : ObjectId) : UniformValue → Call
  | float components data => .uniformFloats location components data
  | int components data => .uniformInts location components data
  | uint components data => .uniformUInts location components data
  | matrix columns rows transpose data => .uniformMatrix location columns rows transpose data

/-- A value is made of one whole element or more. -/
def IsWhole (value : UniformValue) : Prop :=
  0 < value.count ∧ value.width ∣ value.count

instance (value : UniformValue) : Decidable value.IsWhole :=
  inferInstanceAs (Decidable (_ ∧ _))

theorem isWhole_iff {value : UniformValue} : value.IsWhole ↔
    (value.width != 0 && value.count != 0 && value.count % value.width == 0) = true := by
  simp only [Bool.and_eq_true, bne_iff_ne, beq_iff_eq, IsWhole, Nat.dvd_iff_mod_eq_zero]
  constructor
  · rintro ⟨hcount, hmod⟩
    refine ⟨⟨fun hwidth => ?_, Nat.ne_of_gt hcount⟩, hmod⟩
    rw [hwidth, Nat.mod_zero] at hmod
    exact Nat.ne_of_gt hcount hmod
  · rintro ⟨⟨-, hcount⟩, hmod⟩
    exact ⟨Nat.pos_of_ne_zero hcount, hmod⟩

end UniformValue

namespace Context

variable {ctx : Context} {location : ObjectId} {value : UniformValue}

/-- A location belongs to the program in use. -/
def Owns (ctx : Context) (location : ObjectId) : Prop :=
  ∃ id p, ctx.bindings.program = some id ∧ ctx.objects.programs.get? id = some p ∧
    ∃ u ∈ p.uniforms, u.place = .loose location

theorem setUniform_eq (howned : ctx.Owns location) (value : UniformValue) :
    ctx.setUniform location value.count value.width value =
      if value.IsWhole then
        .ok { ctx with objects.uniforms := ctx.objects.uniforms.insert location value }
      else .error (.error .invalidValue) := by
  obtain ⟨id, p, hbound, hp, u, hu, hplace⟩ := howned
  have hany : ((ctx.bindings.program.bind ctx.objects.programs.get?).any fun p =>
      p.uniforms.any fun u => u.place.location? == some location) = true := by
    rw [hbound, Option.bind_some, hp, Option.any_some, List.any_eq_true]
    exact ⟨u, hu, by rw [hplace]; exact beq_self_eq_true _⟩
  simp only [setUniform, check, hany, if_true, UniformValue.isWhole_iff]
  split <;> rfl

/-- An upload to a location of the program in use. -/
theorem upload_effect (howned : ctx.Owns location) (value : UniformValue) :
    ctx.Effect (value.call location) (if value.IsWhole then none else some .invalidValue)
      (if value.IsWhole then
        { ctx.objects with uniforms := ctx.objects.uniforms.insert location value }
      else ctx.objects) := by
  have howned' (name : String) : (ctx.countCall name).Owns location := howned
  have hcounted (name : String) := setUniform_eq (howned' name) value
  by_cases hwhole : value.IsWhole
  · simp only [if_pos hwhole] at hcounted ⊢
    cases value <;> exact effect_of_ok (congrArg effect (hcounted _))
  · simp only [if_neg hwhole] at hcounted ⊢
    cases value <;> exact effect_of_refused (congrArg effect (hcounted _))

end Context

end GlPlayback
