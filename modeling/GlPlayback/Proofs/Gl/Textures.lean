import GlPlayback.Proofs.Gl.Footprint

/-!
Textures all along a sequence of calls. The first binding gives a texture its target for good, and
a unit has at each target only textures of that target. Storage fixes the image of a texture: no
later call changes it.
-/
namespace GlPlayback

open Attempt

/-- What loading an image or fixing the storage sets of a texture. -/
structure TextureImage where
  levels : UInt32
  internalFormat : UInt32
  format : UInt32
  width : UInt32
  height : UInt32
  depth : UInt32
  data : List UInt8
  deriving DecidableEq, Repr

namespace TextureObject

def image (t : TextureObject) : TextureImage where
  levels := t.levels
  internalFormat := t.internalFormat
  format := t.format
  width := t.width
  height := t.height
  depth := t.depth
  data := t.data

/-- What a texture may become: it keeps the target it has, and its image once that is fixed. -/
structure Develops (t t' : TextureObject) : Prop where
  target : ∀ target, t.target = some target → t'.target = some target
  immutable : t.immutable = true → t'.immutable = true
  image : t.immutable = true → t'.image = t.image

/-- One step of a texture, which fixes its image or does not. -/
structure Turns (fixes : Prop) (t t' : TextureObject) : Prop extends t.Develops t' where
  immutable_iff : t'.immutable = true ↔ t.immutable = true ∨ fixes

variable {t t' t'' : TextureObject} {fixes : Prop}

theorem Develops.refl (t : TextureObject) : t.Develops t :=
  ⟨fun _ h => h, id, fun _ => rfl⟩

theorem Develops.trans (h : t.Develops t') (h' : t'.Develops t'') : t.Develops t'' where
  target target htarget := h'.target target (h.target target htarget)
  immutable himmutable := h'.immutable (h.immutable himmutable)
  image himmutable := (h'.image (h.immutable himmutable)).trans (h.image himmutable)

theorem Turns.refl (h : fixes → t.immutable = true) : t.Turns fixes t :=
  ⟨.refl t, ⟨.inl, fun h' => h'.elim id h⟩⟩

theorem Turns.of_sameImage (hfixes : ¬ fixes)
    (htarget : ∀ target, t.target = some target → t'.target = some target)
    (himmutable : t'.immutable = t.immutable) (himage : t'.image = t.image) :
    t.Turns fixes t' where
  target := htarget
  immutable h := himmutable.trans h
  image _ := himage
  immutable_iff := by rw [himmutable, or_iff_left hfixes]

/-- The image of a texture that is not fixed may change. -/
theorem Turns.of_mutable (hmutable : t.immutable = false) (htarget : t'.target = t.target)
    (himmutable : t'.immutable = true ↔ fixes) : t.Turns fixes t' where
  target target h := htarget.trans h
  immutable h := nomatch hmutable.symm.trans h
  image h := nomatch hmutable.symm.trans h
  immutable_iff := by rw [himmutable, hmutable, Bool.false_eq_true, false_or]

end TextureObject

namespace Context

variable {ctx ctx' : Context} {fixes : ObjectId → Prop} {id : ObjectId} {target : UInt32}

/-- The texture whose image a call fixes, if its values allow that. -/
def fixed? (ctx : Context) : Call → Option ObjectId
  | .texStorage2D target levels _ width height =>
      if 1 ≤ levels ∧ 1 ≤ width ∧ 1 ≤ height then ctx.boundTexture? target else none
  | .texStorage3D target levels _ width height depth =>
      if 1 ≤ levels ∧ 1 ≤ width ∧ 1 ≤ height ∧ 1 ≤ depth then ctx.boundTexture? target else none
  | _ => none

/-- The texture that a unit has at a target. -/
def unitTexture? (ctx : Context) (unit : Nat) (target : UInt32) : Option ObjectId :=
  ctx.bindings.units[unit]?.bind (·.get? target)

def texture? (ctx : Context) (id : ObjectId) : Option TextureObject :=
  ctx.objects.textures.get? id

def HasImmutable (ctx : Context) (id : ObjectId) : Prop :=
  ∃ t, ctx.texture? id = some t ∧ t.immutable = true

/-- The other context has the same textures one step later, and maybe new ones. -/
structure Carries (ctx : Context) (fixes : ObjectId → Prop) (ctx' : Context) : Prop where
  kept : ∀ {id t}, ctx.texture? id = some t →
    ∃ t', ctx'.texture? id = some t' ∧ t.Turns (fixes id) t'
  fresh : ∀ {id t'}, ctx.texture? id = none → ctx'.texture? id = some t' → t' = {}

theorem Carries.of_eq (htextures : ctx'.objects.textures = ctx.objects.textures)
    (hfixes : ∀ {id t}, ctx.texture? id = some t → fixes id → t.immutable = true) :
    ctx.Carries fixes ctx' where
  kept {_ t} ht := ⟨t, by rw [texture?, htextures]; exact ht, .refl (hfixes ht)⟩
  fresh hnone hsome := by
    rw [texture?, htextures] at hsome
    cases hnone.symm.trans hsome

/-- One texture turns into another, and no other one is fixed. -/
theorem Carries.insert {t t' : TextureObject} (ht : ctx.texture? id = some t)
    (hturns : t.Turns (fixes id) t') (honly : ∀ other, fixes other → other = id)
    (htextures : ctx'.objects.textures = ctx.objects.textures.insert id t') :
    ctx.Carries fixes ctx' where
  kept {other s} hs := by
    simp only [texture?, htextures, Table.get?_insert]
    by_cases hother : id = other
    · subst hother
      cases ht.symm.trans hs
      exact ⟨t', if_pos rfl, hturns⟩
    · refine ⟨s, (if_neg hother).trans hs, .refl fun h => ?_⟩
      exact absurd (honly other h).symm hother
  fresh {other s} hnone hsome := by
    simp only [texture?, htextures, Table.get?_insert] at hsome
    split at hsome
    · next hother =>
        subst hother
        cases ht.symm.trans hnone
    · cases hnone.symm.trans hsome

/-- What an attempt makes of the textures; if it is refused, there was nothing for it to fix. -/
abbrev CarriesOn (ctx : Context) (fixes : ObjectId → Prop) : Attempt Context → Prop :=
  Yields (ctx.Carries fixes) fun _ => ctx.Carries fixes ctx

theorem changeTexture_carries {change : TextureObject → Attempt TextureObject} {fixing : Prop}
    (hchange : ∀ t, Yields (t.Turns fixing) (fun _ => fixing → t.immutable = true) (change t))
    (hfixes : ∀ id, fixes id ↔ fixing ∧ ctx.boundTexture? target = some id) :
    ctx.CarriesOn fixes (ctx.changeTexture target change) := by
  simp only [changeTexture]
  cases hbound : ctx.boundTexture? target with
  | none =>
      refine Carries.of_eq rfl fun {id _} _ hid => ?_
      rw [hfixes, hbound] at hid
      cases hid.2
  | some bound =>
      have honly (other : ObjectId) (hother : fixes other) : other = bound := by
        rw [hfixes, hbound] at hother
        exact (Option.some.inj hother.2).symm
      have hfixing : fixes bound ↔ fixing := by rw [hfixes, hbound, and_iff_left rfl]
      simp only
      cases ht : ctx.objects.textures.get? bound with
      | none =>
          refine Carries.of_eq rfl fun {id t} hid hfixed => ?_
          rw [honly id hfixed] at hid
          cases ht.symm.trans hid
      | some t =>
          refine Yields.bind (.of_forall _ (fun _ => (hchange t).value) fun e he => ?_)
            fun t' hturns => Carries.insert ht (by rwa [hfixing]) honly rfl
          refine Carries.of_eq rfl fun {id s} hid hfixed => ?_
          rw [honly id hfixed] at hid hfixed
          cases ht.symm.trans hid
          exact (hchange t).failure he (hfixing.mp hfixed)

/-- A change that fixes nothing. -/
theorem changeTexture_carries_of_not {change : TextureObject → Attempt TextureObject}
    (hchange : ∀ t, Yields (t.Turns False) (fun _ => True) (change t))
    (hfixes : ∀ id, ¬ fixes id) : ctx.CarriesOn fixes (ctx.changeTexture target change) := by
  have hnot (id : ObjectId) : fixes id ↔ False ∧ ctx.boundTexture? target = some id :=
    iff_of_false (hfixes id) And.left
  exact changeTexture_carries
    (fun t => .of_forall _ (fun _ => (hchange t).value) fun _ _ => False.elim) hnot

theorem loadImage_turns (image : Image) (depth size : Int32) (t : TextureObject) :
    Yields (t.Turns False) (fun _ => True) (loadImage image depth size t) := by
  cases himmutable : t.immutable with
  | true =>
      simp only [loadImage, check, himmutable, Bool.not_true, Bool.false_eq_true, if_false]
      trivial
  | false =>
      have hmutable (s : TextureObject) (h : s.target = t.target ∧ s.immutable = false) :
          t.Turns False s :=
        .of_mutable himmutable h.1 (by rw [h.2, Bool.false_eq_true])
      simp only [loadImage, check, himmutable, Bool.not_false, if_true]
      split
      · split
        · exact hmutable _ ⟨rfl, rfl⟩
        · exact (any_attempt (blank size)).bind fun _ _ => hmutable _ ⟨rfl, rfl⟩
      · exact hmutable _ ⟨rfl, himmutable⟩

theorem texStorage_carries {internalFormat : UInt32} {levels width height depth : Int32}
    (hfixes : ∀ id, fixes id ↔ (1 ≤ levels ∧ 1 ≤ width ∧ 1 ≤ height ∧ 1 ≤ depth) ∧
      ctx.boundTexture? target = some id) :
    ctx.CarriesOn fixes (ctx.texStorage target levels internalFormat width height depth) := by
  by_cases hsized : 1 ≤ levels ∧ 1 ≤ width ∧ 1 ≤ height ∧ 1 ≤ depth
  · have hchecked : (1 ≤ levels && 1 ≤ width && 1 ≤ height && 1 ≤ depth) = true := by
      simpa only [Bool.and_eq_true, decide_eq_true_eq, and_assoc] using hsized
    simp only [texStorage, check, hchecked, if_true]
    have hbound (id : ObjectId) : fixes id ↔ True ∧ ctx.boundTexture? target = some id := by
      rw [hfixes, and_iff_right hsized, true_and]
    refine changeTexture_carries (fun t => ?_) hbound
    cases himmutable : t.immutable with
    | true =>
        simp only [Bool.not_true, Bool.false_eq_true, if_false]
        exact fun _ => trivial
    | false => exact .of_mutable himmutable rfl (iff_of_true rfl trivial)
  · have hchecked : (1 ≤ levels && 1 ≤ width && 1 ≤ height && 1 ≤ depth) = false := by
      rw [Bool.eq_false_iff]
      simpa only [ne_eq, Bool.and_eq_true, decide_eq_true_eq, and_assoc] using hsized
    simp only [texStorage, check, hchecked, Bool.false_eq_true, if_false]
    exact Carries.of_eq rfl fun _ hfixed => absurd ((hfixes _).mp hfixed).1 hsized

theorem createTexture_carries (hn : ctx.Numbered) (hfixes : ∀ id, ¬ fixes id) :
    ctx.Carries fixes ctx.createTexture.2 where
  kept {id t} ht := by
    have hold : ¬ ctx.nextId = id := by
      rintro rfl
      exact hn.nextId_free .texture (Option.isSome_iff_exists.mpr ⟨t, ht⟩)
    refine ⟨t, ?_, .refl fun h => absurd h (hfixes id)⟩
    simp only [texture?, createTexture, takeId, Table.get?_insert, if_neg hold]
    exact ht
  fresh {id t'} hnone hsome := by
    simp only [texture?, createTexture, takeId, Table.get?_insert] at hsome
    split at hsome
    · exact (Option.some.inj hsome).symm
    · cases hnone.symm.trans hsome

/-- What an accepted binding leaves: the unit in use has the texture at the target, and the texture
has the target. -/
structure BindsTexture (ctx : Context) (target : UInt32) (texture : Option ObjectId)
    (ctx' : Context) : Prop where
  bindings : ctx'.bindings = { ctx.bindings with
    units := ctx.bindings.units.setIfInBounds ctx.bindings.activeTexture
      ((ctx.bindings.units[ctx.bindings.activeTexture]?.getD ∅).set target texture) }
  textures : (texture = none ∧ ctx'.objects.textures = ctx.objects.textures) ∨
    ∃ id t, texture = some id ∧ ctx.texture? id = some t ∧
      (∀ other, t.target = some other → other = target) ∧
      ctx'.objects.textures = ctx.objects.textures.insert id { t with target := some target }

theorem bindTexture_binds (target : UInt32) (texture : Option ObjectId) :
    Yields (ctx.BindsTexture target texture) (fun _ => True) (ctx.bindTexture target texture) := by
  refine (any_attempt _).bind fun _ _ => ?_
  cases texture with
  | none => exact ⟨rfl, .inl ⟨rfl, rfl⟩⟩
  | some id =>
      simp only
      cases ht : ctx.objects.textures.get? id with
      | none => trivial
      | some t =>
          simp only [check]
          cases hall : t.target.all (· == target) with
          | false => trivial
          | true =>
              refine ⟨rfl, .inr ⟨id, t, rfl, ht, fun other hother => ?_, rfl⟩⟩
              rw [hother, Option.all_some] at hall
              exact eq_of_beq hall

theorem BindsTexture.carries {texture : Option ObjectId} (h : ctx.BindsTexture target texture ctx')
    (hfixes : ∀ id, ¬ fixes id) : ctx.Carries fixes ctx' := by
  rcases h.textures with ⟨-, htextures⟩ | ⟨id, t, -, ht, htarget, htextures⟩
  · exact .of_eq htextures fun _ hfixed => absurd hfixed (hfixes _)
  · have hturns : t.Turns (fixes id) { t with target := some target } :=
      .of_sameImage (hfixes id) (fun other hother => by rw [htarget other hother]) rfl rfl
    exact .insert ht hturns (fun other hfixed => absurd hfixed (hfixes other)) htextures

/-- What an accepted call does to the textures. A refused one had nothing to fix. -/
theorem attempt_carries (hn : ctx.Numbered) (call : Call) :
    Yields (fun answered => ctx.Carries (ctx.fixed? call = some ·) answered.2)
      (fun _ => ctx.Carries (ctx.fixed? call = some ·) ctx) (ctx.attempt call) := by
  have hframe (htextures : .textureObjects ∉ call.touches) (hfixed : ctx.fixed? call = none) :
      Yields (fun answered => ctx.Carries (ctx.fixed? call = some ·) answered.2)
        (fun _ => ctx.Carries (ctx.fixed? call = some ·) ctx) (ctx.attempt call) := by
    have hnothing {ctx' : Context} (heq : ctx'.objects.textures = ctx.objects.textures) :
        ctx.Carries (ctx.fixed? call = some ·) ctx' :=
      .of_eq heq fun _ hid => nomatch hfixed.symm.trans hid
    exact Yields.of_forall _ (fun answered hanswered =>
      hnothing ((ctx.attempt_within call).value hanswered _ htextures)) fun _ _ => hnothing rfl
  have heffect {changed : Attempt Context}
      (hchanged : ctx.CarriesOn (ctx.fixed? call = some ·) changed) :
      Yields (fun answered => ctx.Carries (ctx.fixed? call = some ·) answered.2)
        (fun _ => ctx.Carries (ctx.fixed? call = some ·) ctx) (effect changed) :=
    hchanged.map fun _ h => h
  have hchecks {condition : Bool} {e : GlError} {next : Attempt Context}
      (hfixed : ctx.fixed? call = none)
      (hnext : ctx.CarriesOn (ctx.fixed? call = some ·) next) :
      ctx.CarriesOn (ctx.fixed? call = some ·) (check condition e >>= fun _ => next) := by
    cases condition with
    | true => exact hnext
    | false => exact Carries.of_eq rfl fun _ hid => nomatch hfixed.symm.trans hid
  cases call with
  | createTexture => exact createTexture_carries hn fun _ => nofun
  | bindTexture target texture =>
      refine heffect (.of_forall _ (fun ctx' hctx' => ?_) fun _ _ => ?_)
      · exact ((bindTexture_binds target texture).value hctx').carries fun _ => nofun
      · exact .of_eq rfl fun _ => nofun
  | generateMipmap _ | texParameterInt _ _ _ | texParameterFloat _ _ _ =>
      exact heffect (changeTexture_carries_of_not
        (fun _ => .of_sameImage id (fun _ h => h) rfl rfl) fun _ => nofun)
  | texImage2D _ image =>
      exact heffect (hchecks rfl
        (changeTexture_carries_of_not (loadImage_turns image _ _) fun _ => nofun))
  | texImage3D _ image =>
      exact heffect (hchecks rfl (hchecks rfl
        (changeTexture_carries_of_not (loadImage_turns image _ _) fun _ => nofun)))
  | texStorage2D _ _ _ _ _ =>
      refine heffect (texStorage_carries fun id => ?_)
      simp only [fixed?, Option.ite_none_right_eq_some, Int32.le_refl, and_true]
  | texStorage3D _ _ _ _ _ _ =>
      refine heffect (texStorage_carries fun id => ?_)
      simp only [fixed?, Option.ite_none_right_eq_some]
  | _ => exact hframe (by simp [Call.touches]) rfl

theorem exec_carries (hn : ctx.Numbered) (call : Call) :
    ctx.Carries (ctx.fixed? call = some ·) (ctx.exec call).2 := by
  have hcounted : (ctx.countCall call.name).Numbered := ⟨hn.below, hn.alone⟩
  have hattempt := attempt_carries hcounted call
  refine exec_of_yields (ctx.Carries (ctx.fixed? call = some ·))
    (.of_forall _ (fun answered h => ?_) fun e h error lost => ?_)
  · exact ⟨(hattempt.value h).kept, (hattempt.value h).fresh⟩
  · exact ⟨(hattempt.failure h).kept, (hattempt.failure h).fresh⟩

/-- The unit in use is one that exists, and what a unit has at a target is a texture of that
target. -/
structure UnitsHold (ctx : Context) : Prop where
  active : ctx.bindings.activeTexture < textureUnits
  target : ∀ {unit target id}, ctx.unitTexture? unit target = some id →
    ∃ t, ctx.texture? id = some t ∧ t.target = some target

theorem unitsHold_new (width height : UInt32) : (new width height).UnitsHold where
  active := (by decide : 0 < textureUnits)
  target {unit target id} h := by
    obtain ⟨table, htable, hid⟩ := Option.bind_eq_some_iff.mp h
    obtain ⟨hunit, rfl⟩ := Vector.getElem?_eq_some_iff.mp htable
    have hempty : ((Vector.replicate textureUnits ∅)[unit] : Table UInt32 ObjectId) = ∅ :=
      Vector.getElem_replicate hunit
    change Table.get? (Vector.replicate textureUnits ∅)[unit] target = some id at hid
    rw [hempty] at hid
    cases hid

/-- Textures keep their targets, so only a call that changes a unit could break the law. -/
theorem UnitsHold.of_carries (h : ctx.UnitsHold) (hcarries : ctx.Carries fixes ctx')
    (hunits : ctx'.bindings.units = ctx.bindings.units)
    (hactive : ctx'.bindings.activeTexture < textureUnits) : ctx'.UnitsHold where
  active := hactive
  target {unit target id} hid := by
    rw [unitTexture?, hunits] at hid
    obtain ⟨t, ht, htarget⟩ := h.target hid
    obtain ⟨t', ht', hturns⟩ := hcarries.kept ht
    exact ⟨t', ht', hturns.target target htarget⟩

theorem BindsTexture.unitTexture?_eq {texture : Option ObjectId}
    (h : ctx.BindsTexture target texture ctx') (hactive : ctx.bindings.activeTexture < textureUnits)
    (unit : Nat) (other : UInt32) :
    ctx'.unitTexture? unit other =
      if ctx.bindings.activeTexture = unit ∧ target = other then texture
      else ctx.unitTexture? unit other := by
  simp only [unitTexture?, h.bindings, Vector.getElem?_setIfInBounds]
  by_cases hunit : ctx.bindings.activeTexture = unit
  · subst hunit
    simp only [if_true, hactive, true_and, Vector.getElem?_eq_getElem hactive, Option.getD_some,
      Option.bind_some, Table.get?_set]
  · simp only [hunit, false_and, if_false]

theorem BindsTexture.unitsHold {texture : Option ObjectId}
    (h : ctx.BindsTexture target texture ctx') (hholds : ctx.UnitsHold) : ctx'.UnitsHold where
  active := by
    rw [h.bindings]
    exact hholds.active
  target {unit other id} hid := by
    rw [h.unitTexture?_eq hholds.active] at hid
    split at hid
    · next hplace =>
        subst hid
        rcases h.textures with ⟨hnone, -⟩ | ⟨bound, t, hbound, -, -, htextures⟩
        · cases hnone
        · cases hbound
          refine ⟨{ t with target := some target }, ?_, congrArg some hplace.2⟩
          rw [texture?, htextures, Table.get?_insert, if_pos rfl]
    · obtain ⟨t, ht, htarget⟩ := hholds.target hid
      have hcarries : ctx.Carries (fun _ => False) ctx' := h.carries fun _ => not_false
      obtain ⟨t', ht', hturns⟩ := hcarries.kept ht
      exact ⟨t', ht', hturns.target other htarget⟩

theorem UnitsHold.exec (h : ctx.UnitsHold) (hn : ctx.Numbered) (call : Call) :
    (ctx.exec call).2.UnitsHold := by
  have hcarries := exec_carries hn call
  have hframe (hunits : .units ∉ call.touches) (hactive : .activeTexture ∉ call.touches) :
      (ctx.exec call).2.UnitsHold := by
    have hsame : (ctx.exec call).2.bindings.activeTexture = ctx.bindings.activeTexture :=
      exec_part hactive nofun
    exact h.of_carries hcarries (exec_part hunits nofun) (hsame ▸ h.active)
  have hcounted : (ctx.countCall call.name).UnitsHold := ⟨h.active, h.target⟩
  have hrefused (error : Option GlError) (lost : Bool) :
      UnitsHold { ctx.countCall call.name with error, lost } := ⟨h.active, h.target⟩
  cases call with
  | bindTexture target texture =>
      refine exec_of_attempt UnitsHold ?_ hrefused
      exact (bindTexture_binds target texture).map fun _ hbinds => hbinds.unitsHold hcounted
  | activeTexture name =>
      refine exec_of_attempt UnitsHold ?_ hrefused
      have hset : Yields UnitsHold (fun _ => True)
          ((ctx.countCall (Call.activeTexture name).name).activeTexture name) := by
        simp only [Context.activeTexture, check]
        split
        · next hunit => exact ⟨of_decide_eq_true hunit, h.target⟩
        · trivial
      exact hset.map fun _ h => h
  | _ => exact hframe (by simp [Call.touches]) (by simp [Call.touches])

theorem UnitsHold.issueAll (h : ctx.UnitsHold) (hn : ctx.Numbered) (calls : List Call) :
    (ctx.issueAll calls).UnitsHold := by
  induction calls generalizing ctx with
  | nil => exact h
  | cons call rest ih => exact ih (h.exec hn call) ((ctx.exec_grows call).numbered hn)

theorem issueAll_develops (hn : ctx.Numbered) (calls : List Call) {t : TextureObject}
    (ht : ctx.texture? id = some t) :
    ∃ t', (ctx.issueAll calls).texture? id = some t' ∧ t.Develops t' := by
  induction calls generalizing ctx t with
  | nil => exact ⟨t, ht, .refl t⟩
  | cons call rest ih =>
      obtain ⟨t₁, ht₁, hturns⟩ := (exec_carries hn call).kept ht
      obtain ⟨t', ht', hdevelops⟩ := ih ((ctx.exec_grows call).numbered hn) ht₁
      exact ⟨t', ht', hturns.toDevelops.trans hdevelops⟩

/-- A texture that a call is to fix is there, so one step decides whether its image is fixed. -/
theorem UnitsHold.exec_hasImmutable_iff (h : ctx.UnitsHold) (hn : ctx.Numbered) (call : Call) :
    (ctx.exec call).2.HasImmutable id ↔ ctx.HasImmutable id ∨ ctx.fixed? call = some id := by
  have hcarries := exec_carries hn call
  have hbound (hfixed : ctx.fixed? call = some id) : ∃ t, ctx.texture? id = some t := by
    have htexture {target : UInt32} (hid : ctx.boundTexture? target = some id) :
        ∃ t, ctx.texture? id = some t := (h.target hid).imp fun _ => And.left
    cases call with
    | texStorage2D _ _ _ _ _ | texStorage3D _ _ _ _ _ _ =>
        simp only [fixed?, Option.ite_none_right_eq_some] at hfixed
        exact htexture hfixed.2
    | _ => cases hfixed
  constructor
  · rintro ⟨t', ht', himmutable⟩
    cases ht : ctx.texture? id with
    | none =>
        cases hcarries.fresh ht ht'
        cases himmutable
    | some t =>
        obtain ⟨s, hs, hturns⟩ := hcarries.kept ht
        cases hs.symm.trans ht'
        exact (hturns.immutable_iff.mp himmutable).imp_left fun hold => ⟨t, ht, hold⟩
  · intro hfixed
    obtain ⟨t, ht⟩ := hfixed.elim (fun ⟨t, ht, _⟩ => ⟨t, ht⟩) hbound
    obtain ⟨t', ht', hturns⟩ := hcarries.kept ht
    refine ⟨t', ht', hturns.immutable_iff.mpr (hfixed.imp_left ?_)⟩
    rintro ⟨s, hs, himmutable⟩
    cases ht.symm.trans hs
    exact himmutable

theorem UnitsHold.issueAll_hasImmutable_iff (h : ctx.UnitsHold) (hn : ctx.Numbered)
    (calls : List Call) : (ctx.issueAll calls).HasImmutable id ↔ ctx.HasImmutable id ∨
      ∃ first call rest, calls = first ++ call :: rest ∧
        (ctx.issueAll first).fixed? call = some id := by
  induction calls generalizing ctx with
  | nil => simp [Context.issueAll]
  | cons call rest ih =>
      refine (ih (h.exec hn call) ((ctx.exec_grows call).numbered hn)).trans ?_
      rw [h.exec_hasImmutable_iff hn call, or_assoc]
      refine or_congr_right ⟨?_, ?_⟩
      · rintro (hfixed | ⟨first, other, later, rfl, hfixed⟩)
        · exact ⟨[], call, rest, rfl, hfixed⟩
        · exact ⟨call :: first, other, later, rfl, hfixed⟩
      · rintro ⟨first, other, later, hsplit, hfixed⟩
        cases first with
        | nil =>
            cases hsplit
            exact .inl hfixed
        | cons _ first =>
            cases hsplit
            exact .inr ⟨first, other, later, rfl, hfixed⟩

end Context

end GlPlayback
