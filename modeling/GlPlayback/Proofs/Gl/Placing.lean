import GlPlayback.Proofs.Gl.Slots
import GlPlayback.Proofs.Outcome
import GlPlayback.Shader.Reflection

/-!
How attribute slots are given out. An attribute that asks for a location gets it; each of the
others, in order, gets the first run of slots that keeps apart from all runs that are asked for and
from those given out before.
-/
namespace GlPlayback

namespace Linking

section Placing

variable {wanted : Table String UInt32} {decls rest : List AttributeDecl} {decl : AttributeDecl}
  {starts : List Nat} {used used' : SlotTable} {runs : List SlotRun}

theorem fixedLocation?_eq_none_iff : fixedLocation? wanted decl = none ↔
    decl.location = none ∧ wanted.get? decl.name = none := by
  simp [fixedLocation?]

/-- The runs that attributes ask for. -/
def fixedRuns (wanted : Table String UInt32) (decls : List AttributeDecl) : List SlotRun :=
  decls.filterMap fun decl =>
    (fixedLocation? wanted decl).map fun location => decl.run location.toNat

/-- The runs of the first attributes, as many as starts are given. -/
def runsAt (decls : List AttributeDecl) (starts : List Nat) : List SlotRun :=
  (decls.zip starts).map fun placed => placed.1.run placed.2

/-- Once the first attributes have their starts, another one could have this one: its run would lie
in the table, and apart from all runs that are asked for and all that were given out. -/
structure CanStart (wanted : Table String UInt32) (decls : List AttributeDecl)
    (starts : List Nat) (decl : AttributeDecl) (start : Nat) : Prop where
  inTable : (decl.run start).InTable
  apart : ∀ r ∈ fixedRuns wanted decls ++ runsAt decls starts, (decl.run start).Apart r

/-- An attribute starts where it asks for, by its layout before a wanted location. If it asks for
none, it has the first start that is left for it. -/
structure Suits (wanted : Table String UInt32) (decls : List AttributeDecl)
    (starts : List Nat) (decl : AttributeDecl) (start : Nat) : Prop where
  layout : ∀ location, decl.location = some location → start = location.toNat
  bound : ∀ location, decl.location = none → wanted.get? decl.name = some location →
    start = location.toNat
  free : decl.location = none → wanted.get? decl.name = none →
    IsLeast {s | CanStart wanted decls starts decl s} start

theorem suits_of_fixed {location : UInt32} (h : fixedLocation? wanted decl = some location) :
    Suits wanted decls starts decl location.toNat := by
  cases hlayout : decl.location with
  | some own =>
      have heq : own = location := by simpa [fixedLocation?, hlayout] using h
      exact ⟨by simp [hlayout, heq], by simp [hlayout], by simp [hlayout]⟩
  | none =>
      have hbound : wanted.get? decl.name = some location := by
        simpa [fixedLocation?, hlayout] using h
      exact ⟨by simp [hlayout], by simp [hbound], by simp [hbound]⟩

theorem suits_of_free {start : Nat} (h : fixedLocation? wanted decl = none)
    (hleast : IsLeast {s | CanStart wanted decls starts decl s} start) :
    Suits wanted decls starts decl start := by
  obtain ⟨hlayout, hbound⟩ := fixedLocation?_eq_none_iff.mp h
  exact ⟨by simp [hlayout], by simp [hbound], fun _ _ => hleast⟩

/-- The first attributes have their starts, each one in turn. -/
def IsPlaced (wanted : Table String UInt32) (decls : List AttributeDecl) (starts : List Nat) :
    Prop :=
  ∀ i decl start, decls[i]? = some decl → starts[i]? = some start →
    Suits wanted decls (starts.take i) decl start

theorem isPlaced_nil : IsPlaced wanted decls [] :=
  fun _ _ _ _ hstart => nomatch hstart

theorem IsPlaced.append (h : IsPlaced wanted decls starts)
    (hdecl : decls[starts.length]? = some decl) {start : Nat} (hstart : Suits wanted decls starts decl start) :
    IsPlaced wanted decls (starts ++ [start]) := by
  intro i other s hother hs
  rcases Nat.lt_trichotomy i starts.length with hlt | rfl | hlt
  · rw [List.getElem?_append_left hlt] at hs
    rw [List.take_append_of_le_length (Nat.le_of_lt hlt)]
    exact h i other s hother hs
  · rw [List.getElem?_concat_length] at hs
    cases hs
    cases hdecl.symm.trans hother
    rwa [List.take_left]
  · rw [List.getElem?_eq_none (by simpa using Nat.succ_le_of_lt hlt)] at hs
    cases hs

/-- Some attribute that asks for no location finds no free run when its turn comes. -/
def Overflows (wanted : Table String UInt32) (decls : List AttributeDecl) : Prop :=
  ∃ starts decl, IsPlaced wanted decls starts ∧ decls[starts.length]? = some decl ∧
    decl.location = none ∧ wanted.get? decl.name = none ∧
    ∀ start, ¬ CanStart wanted decls starts decl start

theorem reserveFixed_marks (hslots : ∀ decl ∈ decls, decl.slots.toNat = decl.width)
    (hused : used.Marks runs) (h : reserveFixed wanted used decls = .ok used') :
    used'.Marks (runs ++ fixedRuns wanted decls) := by
  induction decls generalizing used runs with
  | nil =>
      cases h
      simpa [fixedRuns] using hused
  | cons decl rest ih =>
      obtain ⟨hdecl, hrest⟩ := List.forall_mem_cons.mp hslots
      rw [reserveFixed] at h
      cases hfixed : fixedLocation? wanted decl with
      | none =>
          simp only [hfixed] at h
          simpa [fixedRuns, hfixed] using ih hrest hused h
      | some location =>
          rcases reserve_cases used decl location with
            ⟨-, hreserve⟩ | ⟨-, ⟨-, hreserve⟩ | ⟨-, hreserve⟩⟩
          · simp only [hfixed, hreserve, hdecl] at h
            have hmarks := ih hrest (hused.take location.toNat decl.width) h
            rw [List.append_assoc, List.singleton_append] at hmarks
            simpa [fixedRuns, hfixed, AttributeDecl.run] using hmarks
          · simp only [hfixed, hreserve, reduceCtorEq] at h
          · simp only [hfixed, hreserve, reduceCtorEq] at h

theorem fixedRuns_pos : ∀ r ∈ fixedRuns wanted decls, 0 < r.count := by
  intro r hr
  obtain ⟨decl, -, hrun⟩ := List.mem_filterMap.mp hr
  obtain ⟨location, -, rfl⟩ := Option.map_eq_some_iff.mp hrun
  exact decl.width_pos

theorem runsAt_pos : ∀ r ∈ runsAt decls starts, 0 < r.count := by
  intro r hr
  obtain ⟨⟨decl, start⟩, -, rfl⟩ := List.mem_map.mp hr
  exact decl.width_pos

theorem runsAt_append (hdecl : decls[starts.length]? = some decl) (start : Nat) :
    runsAt decls (starts ++ [start]) = runsAt decls starts ++ [decl.run start] := by
  obtain ⟨hlt, rfl⟩ := List.getElem?_eq_some_iff.mp hdecl
  have hlength : (decls.take starts.length).length = starts.length :=
    List.length_take_of_le (Nat.le_of_lt hlt)
  have hzip (more : List Nat) : decls.zip (starts ++ more) =
      (decls.take starts.length).zip starts ++ (decls.drop starts.length).zip more := by
    rw [← List.zip_append hlength, List.take_append_drop]
  have hbefore := hzip []
  rw [List.append_nil, List.zip_nil_right, List.append_nil] at hbefore
  rw [runsAt, hzip, ← hbefore, List.drop_eq_getElem_cons hlt, List.map_append,
    List.zip_cons_cons, List.zip_nil_right]
  rfl

/-- What is free in the table are the starts that an attribute could have. -/
theorem isFree_iff_canStart
    (hused : used.Marks (fixedRuns wanted decls ++ runsAt decls starts)) (decl : AttributeDecl)
    (start : Nat) :
    used.isFree start decl.width = true ↔ CanStart wanted decls starts decl start := by
  rw [hused.isFree_iff (List.forall_mem_append.mpr ⟨fixedRuns_pos, runsAt_pos⟩) decl.width_pos]
  exact ⟨fun h => ⟨h.1, h.2⟩, fun h => ⟨h.inTable, h.apart⟩⟩

theorem placeAttributes_of_fixed {location : UInt32}
    (h : fixedLocation? wanted decl = some location) :
    placeAttributes wanted used (decl :: rest) =
      (placeAttributes wanted used rest).map (⟨decl.active, location⟩ :: ·) := by
  simp only [placeAttributes, h]
  rfl

theorem placeAttributes_of_free {start : Nat} (h : fixedLocation? wanted decl = none)
    (hfirst : firstFree? used decl.slots.toNat = some start) :
    placeAttributes wanted used (decl :: rest) =
      (placeAttributes wanted (used.take start decl.slots.toNat) rest).map
        (⟨decl.active, UInt32.ofNat start⟩ :: ·) := by
  have hend := used.start_add_le (SlotTable.firstFree?_eq_some_iff.mp hfirst).1
  simp only [placeAttributes, h, hfirst]
  rw [if_neg (by omega)]
  rfl

theorem placeAttributes_of_full (rest : List AttributeDecl)
    (h : fixedLocation? wanted decl = none)
    (hfirst : firstFree? used decl.slots.toNat = none) :
    ∃ e, placeAttributes wanted used (decl :: rest) = .error (.refused e) := by
  simp only [placeAttributes, h, hfirst]
  split
  · exact ⟨_, rfl⟩
  · exact ⟨_, rfl⟩

theorem placeAttributes_yields (hslots : ∀ decl ∈ decls, decl.slots.toNat = decl.width)
    (hsplit : ∃ done, decls = done ++ rest ∧ done.length = starts.length)
    (hused : used.Marks (fixedRuns wanted decls ++ runsAt decls starts))
    (hplaced : IsPlaced wanted decls starts) :
    Yields (fun attributes : List LinkedAttribute =>
        attributes.map (·.active) = rest.map AttributeDecl.active ∧
          IsPlaced wanted decls (starts ++ attributes.map (·.location.toNat)))
      (fun _ => Overflows wanted decls) (placeAttributes wanted used rest) := by
  induction rest generalizing starts used with
  | nil => simpa [placeAttributes, Yields, pure, Except.pure] using hplaced
  | cons decl rest ih =>
      obtain ⟨done, hdecls, hlength⟩ := hsplit
      have hdecl : decls[starts.length]? = some decl := by
        rw [hdecls, ← hlength, List.getElem?_append_right (Nat.le_refl _), Nat.sub_self,
          List.getElem?_cons_zero]
      have hwidth : decl.slots.toNat = decl.width := hslots decl (List.mem_of_getElem? hdecl)
      have hmore (start : Nat) :
          ∃ done', decls = done' ++ rest ∧ done'.length = (starts ++ [start]).length :=
        ⟨done ++ [decl], by simp [hdecls], by simp [hlength]⟩
      cases hfixed : fixedLocation? wanted decl with
      | some location =>
          have hmem : decl.run location.toNat ∈ fixedRuns wanted decls ++ runsAt decls starts :=
            List.mem_append_left _ (List.mem_filterMap.mpr
              ⟨decl, List.mem_of_getElem? hdecl, by rw [hfixed]; rfl⟩)
          have hmarks := hused.append_of_mem hmem
          rw [List.append_assoc, ← runsAt_append hdecl] at hmarks
          rw [placeAttributes_of_fixed hfixed]
          refine (ih (hmore _) hmarks (hplaced.append hdecl (suits_of_fixed hfixed))).map
            fun more hmore => ⟨by simp [hmore.1], ?_⟩
          simpa using hmore.2
      | none =>
          have hcan := isFree_iff_canStart hused decl
          cases hfirst : firstFree? used decl.slots.toNat with
          | none =>
              obtain ⟨e, herror⟩ := placeAttributes_of_full rest hfixed hfirst
              obtain ⟨hlayout, hbound⟩ := fixedLocation?_eq_none_iff.mp hfixed
              rw [herror]
              refine ⟨starts, decl, hplaced, hdecl, hlayout, hbound, fun s hs => ?_⟩
              have hnot := SlotTable.firstFree?_eq_none_iff.mp hfirst s
              rw [hwidth, (hcan s).mpr hs] at hnot
              cases hnot
          | some start =>
              have hleast := SlotTable.firstFree?_eq_some_iff.mp hfirst
              have hend : start + decl.slots.toNat ≤ 16 := used.start_add_le hleast.1
              simp only [hwidth, hcan] at hleast
              have hmarks := hused.take start decl.width
              rw [List.append_assoc, ← AttributeDecl.run, ← runsAt_append hdecl] at hmarks
              rw [placeAttributes_of_free hfixed hfirst, hwidth]
              refine (ih (hmore _) hmarks
                (hplaced.append hdecl (suits_of_free hfixed hleast))).map
                fun more hmore => ⟨by simp [hmore.1], ?_⟩
              have hstart : (UInt32.ofNat start).toNat = start := by
                rw [UInt32.toNat_ofNat', Nat.mod_eq_of_lt (by omega)]
              simpa [hstart] using hmore.2

theorem assignLocations_of_fitting (h : Fitting wanted decls) :
    ∃ used, reserveFixed wanted (Vector.replicate attributeSlots false) decls = .ok used ∧
      assignLocations wanted decls = placeAttributes wanted used decls := by
  obtain ⟨used, hused⟩ := reserveFixed_isOk_iff.mpr h
  refine ⟨used, hused, ?_⟩
  simp only [assignLocations, hused]
  rfl

theorem assignLocations_of_not_fitting (h : ¬ Fitting wanted decls) :
    ∃ e, reserveFixed wanted (Vector.replicate attributeSlots false) decls = .error e ∧
      assignLocations wanted decls = .error e := by
  cases hused : reserveFixed wanted (Vector.replicate attributeSlots false) decls with
  | ok used => exact absurd (reserveFixed_isOk_iff.mp ⟨used, hused⟩) h
  | error e =>
      refine ⟨e, rfl, ?_⟩
      simp only [assignLocations, hused]
      rfl

theorem Suits.unique {start other : Nat} (h : Suits wanted decls starts decl start)
    (hother : Suits wanted decls starts decl other) : start = other := by
  cases hlayout : decl.location with
  | some location => rw [h.layout location hlayout, hother.layout location hlayout]
  | none =>
      cases hbound : wanted.get? decl.name with
      | some location => rw [h.bound location hlayout hbound, hother.bound location hlayout hbound]
      | none => exact (h.free hlayout hbound).unique (hother.free hlayout hbound)

/-- The starts of the first attributes are determined. -/
theorem IsPlaced.take_eq {others : List Nat} (h : IsPlaced wanted decls starts)
    (hothers : IsPlaced wanted decls others) {k : Nat} (hk : k ≤ starts.length)
    (hk' : k ≤ others.length) (hdecls : k ≤ decls.length) : starts.take k = others.take k := by
  induction k with
  | zero => rfl
  | succ k ih =>
      have hbefore := ih (by omega) (by omega) (by omega)
      have hdecl : decls[k]? = some decls[k] := List.getElem?_eq_getElem hdecls
      have hstart : starts[k]? = some starts[k] := List.getElem?_eq_getElem hk
      have hother : others[k]? = some others[k] := List.getElem?_eq_getElem hk'
      have hsuits := h k _ _ hdecl hstart
      rw [hbefore] at hsuits
      rw [List.take_add_one, List.take_add_one, hbefore, hstart, hother,
        hsuits.unique (hothers k _ _ hdecl hother)]

theorem IsPlaced.not_overflows (h : IsPlaced wanted decls starts)
    (hlength : starts.length = decls.length) : ¬ Overflows wanted decls := by
  rintro ⟨others, decl, hothers, hdecl, hlayout, hbound, hnone⟩
  obtain ⟨hlt, -⟩ := List.getElem?_eq_some_iff.mp hdecl
  have hbefore : starts.take others.length = others.take others.length :=
    h.take_eq hothers (by omega) (Nat.le_refl _) (by omega)
  rw [List.take_length] at hbefore
  have hstart : starts[others.length]? = some starts[others.length] :=
    List.getElem?_eq_getElem (by omega)
  have hsuits := h _ _ _ hdecl hstart
  rw [hbefore] at hsuits
  exact hnone _ (hsuits.free hlayout hbound).1

/-- As far as they are counted, all runs end in the table. -/
theorem placeAttributes_within (hfits : Fitting wanted rest) :
    Yields (List.Forall₂ (fun (decl : AttributeDecl) (a : LinkedAttribute) =>
        a.active = decl.active ∧ a.location.toNat + decl.slots.toNat ≤ attributeSlots) rest)
      (fun e => e ≠ .outsideTable) (placeAttributes wanted used rest) := by
  induction rest generalizing used with
  | nil => exact .nil
  | cons decl rest ih =>
      obtain ⟨hdecl, hrest⟩ := fitting_cons.mp hfits
      cases hfixed : fixedLocation? wanted decl with
      | some location =>
          rw [placeAttributes_of_fixed hfixed]
          exact (ih hrest).map fun more hmore => .cons ⟨rfl, hdecl location hfixed⟩ hmore
      | none =>
          cases hfirst : firstFree? used decl.slots.toNat with
          | none =>
              obtain ⟨e, herror⟩ := placeAttributes_of_full rest hfixed hfirst
              rw [herror]
              exact nofun
          | some start =>
              have hend : start + decl.slots.toNat ≤ 16 :=
                used.start_add_le (SlotTable.firstFree?_eq_some_iff.mp hfirst).1
              rw [placeAttributes_of_free hfixed hfirst]
              refine (ih hrest).map fun more hmore => .cons ⟨rfl, ?_⟩ hmore
              rw [UInt32.toNat_ofNat', Nat.mod_eq_of_lt (by omega)]
              exact hend

end Placing

variable {wanted : Table String UInt32} {decls : List AttributeDecl}

/-- No count of slots and no end of a run that is asked for wraps around. -/
structure Counted (wanted : Table String UInt32) (decls : List AttributeDecl) : Prop where
  width : ∀ decl ∈ decls, decl.width < 0x100000000
  stop : ∀ decl ∈ decls, ∀ location, fixedLocation? wanted decl = some location →
    location.toNat + decl.width < 0x100000000

theorem Counted.slots (h : Counted wanted decls) :
    ∀ decl ∈ decls, decl.slots.toNat = decl.width := by
  intro decl hdecl
  rw [decl.toNat_slots, Nat.mod_eq_of_lt (h.width decl hdecl)]

theorem Counted.fitting_iff (h : Counted wanted decls) : Fitting wanted decls ↔
    ∀ decl ∈ decls, ∀ location, fixedLocation? wanted decl = some location →
      (decl.run location.toNat).InTable := by
  refine forall₂_congr fun decl hdecl => forall₂_congr fun location _ => ?_
  rw [h.slots decl hdecl]
  rfl

theorem Counted.assignLocations_yields (h : Counted wanted decls) (hfits : Fitting wanted decls) :
    Yields (fun attributes : List LinkedAttribute =>
        attributes.map (·.active) = decls.map AttributeDecl.active ∧
          IsPlaced wanted decls (attributes.map (·.location.toNat)))
      (fun _ => Overflows wanted decls) (assignLocations wanted decls) := by
  obtain ⟨used, hused, hassign⟩ := assignLocations_of_fitting hfits
  have hmarks := reserveFixed_marks h.slots SlotTable.marks_empty hused
  have hnone : runsAt decls [] = [] := congrArg (List.map _) List.zip_nil_right
  rw [hassign]
  refine placeAttributes_yields h.slots ⟨[], rfl, rfl⟩ ?_ isPlaced_nil
  rwa [hnone, List.append_nil]

/-- Attributes that ask for a location get it, a layout before a wanted one, and each of the others
gets the first start of a run that is left for it. This fails just if a run that is asked for ends
beyond the table, or if there is no such start for some attribute at its turn. -/
theorem assignLocations_first_fit (h : Counted wanted decls) :
    (∀ attributes, assignLocations wanted decls = .ok attributes →
      attributes.map (·.active) = decls.map AttributeDecl.active ∧
        IsPlaced wanted decls (attributes.map (·.location.toNat))) ∧
    ((∃ e, assignLocations wanted decls = .error e) ↔
      (∃ decl ∈ decls, ∃ location, fixedLocation? wanted decl = some location ∧
        ¬ (decl.run location.toNat).InTable) ∨ Overflows wanted decls) := by
  have hbeyond : (∃ decl ∈ decls, ∃ location, fixedLocation? wanted decl = some location ∧
      ¬ (decl.run location.toNat).InTable) ↔ ¬ Fitting wanted decls := by
    rw [h.fitting_iff]
    simp
  have hplaced (attributes) (hok : assignLocations wanted decls = .ok attributes) :
      attributes.map (·.active) = decls.map AttributeDecl.active ∧
        IsPlaced wanted decls (attributes.map (·.location.toNat)) := by
    by_cases hfits : Fitting wanted decls
    · exact (h.assignLocations_yields hfits).value hok
    · obtain ⟨e, -, herror⟩ := assignLocations_of_not_fitting hfits
      cases herror.symm.trans hok
  refine ⟨hplaced, ?_⟩
  rw [hbeyond]
  constructor
  · rintro ⟨e, herror⟩
    by_cases hfits : Fitting wanted decls
    · exact .inr ((h.assignLocations_yields hfits).failure herror)
    · exact .inl hfits
  · rintro (hnot | hover)
    · obtain ⟨e, -, herror⟩ := assignLocations_of_not_fitting hnot
      exact ⟨e, herror⟩
    · cases hassign : assignLocations wanted decls with
      | error e => exact ⟨e, rfl⟩
      | ok attributes =>
          obtain ⟨hactive, hstarts⟩ := hplaced attributes hassign
          have hlength := congrArg List.length hactive
          rw [List.length_map, List.length_map] at hlength
          refine absurd hover (hstarts.not_overflows ?_)
          rw [List.length_map, hlength]

/-- A matrix that four slots are kept free for behind those which later attributes ask for, one by
its layout and against a wanted location, the other by a wanted location. -/
theorem assignLocations_first_fit_around_later :
    let position : AttributeDecl := ⟨"position", .vector .float .three, 1, none⟩
    let model : AttributeDecl := ⟨"model", .matrix .four .four, 1, none⟩
    let normal : AttributeDecl := ⟨"normal", .vector .float .three, 1, some 1⟩
    let uv : AttributeDecl := ⟨"uv", .vector .float .two, 1, none⟩
    let decls := [position, model, normal, uv]
    let wanted := ((∅ : Table String UInt32).insert "uv" 5).insert "normal" 9
    Counted wanted decls ∧
      assignLocations wanted decls = .ok
        [⟨position.active, 0⟩, ⟨model.active, 6⟩, ⟨normal.active, 1⟩, ⟨uv.active, 5⟩] ∧
      IsPlaced wanted decls [0, 6, 1, 5] ∧ ¬ Overflows wanted decls := by
  intro position model normal uv decls wanted
  have hstops : ∀ decl ∈ decls, (fixedLocation? wanted decl).all
      fun location => location.toNat + decl.width < 0x100000000 := by decide
  have hcounted : Counted wanted decls := by
    refine ⟨by decide, fun decl hdecl location hlocation => ?_⟩
    have hstop := hstops decl hdecl
    rw [hlocation] at hstop
    exact of_decide_eq_true hstop
  have hassign : assignLocations wanted decls = .ok
      [⟨position.active, 0⟩, ⟨model.active, 6⟩, ⟨normal.active, 1⟩, ⟨uv.active, 5⟩] := by decide
  obtain ⟨hplaced, hfails⟩ := assignLocations_first_fit hcounted
  refine ⟨hcounted, hassign, (hplaced _ hassign).2, fun hover => ?_⟩
  obtain ⟨e, herror⟩ := hfails.mpr (.inr hover)
  cases herror.symm.trans hassign

theorem assignLocations_within {attributes : List LinkedAttribute}
    (h : assignLocations wanted decls = .ok attributes) :
    List.Forall₂ (fun decl a => a.active = decl.active ∧
      a.location.toNat + decl.slots.toNat ≤ attributeSlots) decls attributes := by
  by_cases hfits : Fitting wanted decls
  · obtain ⟨used, -, hassign⟩ := assignLocations_of_fitting hfits
    exact (placeAttributes_within hfits).value (hassign.symm.trans h)
  · obtain ⟨e, -, herror⟩ := assignLocations_of_not_fitting hfits
    cases herror.symm.trans h

theorem assignLocations_eq_outsideTable_iff :
    assignLocations wanted decls = .error .outsideTable ↔
      ∃ before decl rest location, decls = before ++ decl :: rest ∧ Fitting wanted before ∧
        fixedLocation? wanted decl = some location ∧ WrapsAround decl location := by
  rw [← reserveFixed_eq_outsideTable_iff (Vector.replicate attributeSlots false)]
  by_cases hfits : Fitting wanted decls
  · obtain ⟨used, hused, hassign⟩ := assignLocations_of_fitting hfits
    rw [hassign, hused]
    exact iff_of_false (fun he => (placeAttributes_within hfits).failure he rfl) nofun
  · obtain ⟨e, hreserve, herror⟩ := assignLocations_of_not_fitting hfits
    rw [herror, hreserve]
    exact ⟨fun he => congrArg _ (Except.error.inj he), fun he => congrArg _ (Except.error.inj he)⟩

/-- The run of an attribute, as far as its slots are counted, lies in the table just if they do not
wrap around. -/
theorem run_inTable_iff {decl : AttributeDecl} {start : Nat}
    (h : start + decl.slots.toNat ≤ attributeSlots) :
    (decl.run start).InTable ↔ decl.width < 0x100000000 := by
  simp only [SlotRun.InTable, AttributeDecl.run, attributeSlots] at h ⊢
  rw [decl.toNat_slots] at h
  omega

/-- Where slots are given out, each attribute has its run in the table just if its slots do not wrap
around when they are counted. The table is left just if the first run that is asked for and does not
end in it has an end that wraps around. So if nothing wraps around, either a link error is reported,
or every attribute has its run in the table. -/
theorem assignLocations_in_table (wanted : Table String UInt32) (decls : List AttributeDecl) :
    (∀ attributes, assignLocations wanted decls = .ok attributes →
      List.Forall₂ (fun decl a => a.active = decl.active ∧
        ((decl.run a.location.toNat).InTable ↔ decl.width < 0x100000000)) decls attributes) ∧
    (assignLocations wanted decls = .error .outsideTable ↔
      ∃ before decl rest location, decls = before ++ decl :: rest ∧ Fitting wanted before ∧
        fixedLocation? wanted decl = some location ∧ WrapsAround decl location) ∧
    (Counted wanted decls →
      (∃ e, assignLocations wanted decls = .error (.refused e)) ∨
      ∃ attributes, assignLocations wanted decls = .ok attributes ∧
        List.Forall₂ (fun decl a => a.active = decl.active ∧
          (decl.run a.location.toNat).InTable) decls attributes) := by
  have hwithin (attributes) (hok : assignLocations wanted decls = .ok attributes) :
      List.Forall₂ (fun decl a => a.active = decl.active ∧
        ((decl.run a.location.toNat).InTable ↔ decl.width < 0x100000000)) decls attributes :=
    (assignLocations_within hok).imp fun decl a h => ⟨h.1, run_inTable_iff h.2⟩
  refine ⟨hwithin, assignLocations_eq_outsideTable_iff, fun hcounted => ?_⟩
  cases hassign : assignLocations wanted decls with
  | ok attributes =>
      refine .inr ⟨attributes, rfl, List.forall₂_iff_get.mpr ?_⟩
      obtain ⟨hlength, hruns⟩ := List.forall₂_iff_get.mp (hwithin attributes hassign)
      refine ⟨hlength, fun i hi hi' => ?_⟩
      obtain ⟨hactive, hrun⟩ := hruns i hi hi'
      exact ⟨hactive, hrun.mpr (hcounted.width _ (List.getElem_mem hi))⟩
  | error e =>
      cases e with
      | refused e => exact .inl ⟨e, rfl⟩
      | outsideTable =>
          obtain ⟨before, decl, rest, location, rfl, -, hlocation, hlow, -⟩ :=
            assignLocations_eq_outsideTable_iff.mp hassign
          have hmem : decl ∈ before ++ decl :: rest := by simp
          have hstop := hcounted.stop decl hmem location hlocation
          rw [hcounted.slots decl hmem] at hlow
          omega

/-- An array of matrices, the slots of which are counted as none, and an attribute that asks for the
last of all locations. -/
theorem assignLocations_out_of_table :
    let matrices : AttributeDecl := ⟨"a", .matrix .four .four, 1073741824, none⟩
    let last : AttributeDecl := ⟨"a", .scalar .float, 1, some 4294967295⟩
    Shader.reflect .vertex "in mat4 a[1073741824]; void main(){}" =
        .ok { attributes := [matrices] } ∧
      assignLocations ∅ [matrices] = .ok [⟨matrices.active, 0⟩] ∧ ¬ (matrices.run 0).InTable ∧
      Shader.reflect .vertex "layout(location = 4294967295) in float a; void main(){}" =
        .ok { attributes := [last] } ∧
      assignLocations ∅ [last] = .error .outsideTable := by
  intro matrices last
  have hmatrices : Shader.reflect .vertex "in mat4 a[1073741824]; void main(){}" =
      .ok { attributes := [matrices] } := by
    decide +kernel
  have hlast : Shader.reflect .vertex "layout(location = 4294967295) in float a; void main(){}" =
      .ok { attributes := [last] } := by
    decide +kernel
  exact ⟨hmatrices, by decide, by decide, hlast, by decide⟩

end Linking

end GlPlayback
