import GlPlayback.Proofs.Gl.Slots
import GlPlayback.Proofs.Shader.Offsets

/-!
The standard layout lays a matrix out as an array of its columns or as an array of its rows, as the
qualifiers of the matrix and of its block say. Reflection drops these qualifiers and lays every
matrix out in columns. It gives a block the standard layout nevertheless, if the matrices that ought
to lie in rows have as many rows as columns, and there is a word for the size of the block.
-/
namespace GlPlayback

/-- Whether the columns or the rows of a matrix lie one behind the other. -/
inductive MatrixOrder where
  | columnMajor
  | rowMajor
  deriving DecidableEq, Repr

def MatrixOrder.ofWord? (word : List Char) : Option MatrixOrder :=
  if word = "row_major".toList then some .rowMajor
  else if word = "column_major".toList then some .columnMajor
  else none

namespace BlockLayout

/-- How many vectors a value consists of, and how many components each of them has. Opaque types have
no place in a block. -/
def vectorsOf (order : MatrixOrder) : ValueType → Nat × Nat
  | .scalar _ => (1, 1)
  | .vector _ size => (1, size.count.toNat)
  | .matrix columns rows =>
      match order with
      | .columnMajor => (columns.count.toNat, rows.count.toNat)
      | .rowMajor => (rows.count.toNat, columns.count.toNat)
  | .sampler _ => (0, 0)

/-- Alignment and length of a vector. Three components are aligned as four are. -/
def vectorExtent (components : Nat) : Nat × Nat :=
  (if components = 3 then 16 else 4 * components, 4 * components)

/-- Alignment and length of an array of vectors. Its elements lie as far apart as their alignment
says, but at least four components apart. -/
def arrayExtent (count components : Nat) : Nat × Nat :=
  let stride := alignUp (vectorExtent components).1 16
  (stride, count * stride)

/-- Alignment and length of a member under the rules of the standard layout. An array of matrices is
an array of all their vectors. -/
def ruledExtent (order : MatrixOrder) (decl : UniformDecl) : Nat × Nat :=
  let (count, components) := vectorsOf order decl.type
  match decl.isArray, decl.type with
  | true, _ => arrayExtent ((max decl.size.toInt 1).toNat * count) components
  | false, .matrix .. => arrayExtent count components
  | false, _ => vectorExtent components

def ruledExtents (members : List (MatrixOrder × UniformDecl)) : List (Nat × Nat) :=
  members.map fun member => ruledExtent member.1 member.2

def ruledSize (members : List (MatrixOrder × UniformDecl)) : Nat :=
  alignUp (endFrom 0 (ruledExtents members)) 16

/-- No matrix in rows, unless it has as many rows as columns. -/
def IsIndifferent (order : MatrixOrder) (type : ValueType) : Prop :=
  ∀ columns rows, order = .rowMajor → type = .matrix columns rows → columns = rows

theorem vectorsOf_eq_iff {order : MatrixOrder} {type : ValueType} :
    (vectorsOf order type).1 = (vectorsOf .columnMajor type).1 ↔ IsIndifferent order type := by
  cases type with
  | scalar component => exact iff_of_true rfl nofun
  | vector component size => exact iff_of_true rfl nofun
  | sampler kind => exact iff_of_true rfl nofun
  | matrix columns rows =>
      cases order with
      | columnMajor => exact iff_of_true rfl nofun
      | rowMajor =>
          have hcount : rows.count.toNat = columns.count.toNat ↔ columns = rows := by
            cases columns <;> cases rows <;> decide
          refine hcount.trans ⟨?_, fun h => h columns rows rfl rfl⟩
          rintro h _ _ - ⟨⟩
          exact h

/-- A matrix has at most twice as many columns as rows. -/
theorem vectorsOf_le (order : MatrixOrder) (type : ValueType) :
    (vectorsOf .columnMajor type).1 ≤ 2 * (vectorsOf order type).1 := by
  cases type with
  | scalar component => exact Nat.le_succ 1
  | vector component size => exact Nat.le_succ 1
  | sampler kind => exact Nat.zero_le _
  | matrix columns rows => cases order <;> cases columns <;> cases rows <;> decide

/-- The vectors of an array or a matrix lie four components apart, in whichever order. -/
theorem stride_eq {type : ValueType} (hsampler : type.isSampler = false) (order : MatrixOrder) :
    alignUp (vectorExtent (vectorsOf order type).2).1 16 = 16 ∧
      alignUp type.layout.2.toNat 16 = 16 * (vectorsOf .columnMajor type).1 := by
  cases type with
  | scalar component => cases order <;> cases component <;> decide
  | vector component size => cases order <;> cases component <;> cases size <;> decide
  | matrix columns rows => cases order <;> cases columns <;> cases rows <;> decide
  | sampler kind => cases hsampler

/-- Extents differ from those of reflection at most in how many vectors they count. -/
theorem ruledExtent_cases {decl : UniformDecl} (hsampler : decl.type.isSampler = false) :
    (∀ order, ruledExtent order decl = std140 decl ∧ IsIndifferent order decl.type) ∨
      ∃ count, 0 < count ∧
        std140 decl = (16, count * (16 * (vectorsOf .columnMajor decl.type).1)) ∧
        ∀ order, ruledExtent order decl = (16, count * (16 * (vectorsOf order decl.type).1)) := by
  obtain ⟨name, type, size, isArray⟩ := decl
  have hstride := stride_eq hsampler
  cases isArray with
  | true =>
      refine .inr ⟨(max size.toInt 1).toNat, by omega, ?_, fun order => ?_⟩
      · rw [std140, if_pos rfl, (hstride .columnMajor).2, AttributeDecl.toNat_elementCount,
          Nat.mul_comm]
      · simp only [ruledExtent, arrayExtent, hstride]
        rw [Nat.mul_assoc, Nat.mul_comm _ 16]
  | false =>
      cases type with
      | scalar component =>
          exact .inl fun order => ⟨by cases component <;> rfl, fun _ _ _ h => by cases h⟩
      | vector component size =>
          exact .inl fun order =>
            ⟨by cases component <;> cases size <;> rfl, fun _ _ _ h => by cases h⟩
      | sampler kind => cases hsampler
      | matrix columns rows =>
          refine .inr ⟨1, Nat.one_pos, ?_, fun order => ?_⟩
          · cases columns <;> cases rows <;> rfl
          · simp only [ruledExtent, arrayExtent, hstride]
            rw [Nat.one_mul, Nat.mul_comm]

/-- Two extents that are the same but for the number of vectors they count. -/
structure Alike (f g : Nat × Nat) : Prop where
  align : f.1 = g.1
  length : f.2 = g.2 ∨ f.1 = 16 ∧ 16 ∣ f.2 ∧ 16 ∣ g.2 ∧ f.2 ≤ 2 * g.2

theorem alike_ruledExtent {decl : UniformDecl} (hsampler : decl.type.isSampler = false)
    (order : MatrixOrder) : Alike (std140 decl) (ruledExtent order decl) := by
  rcases ruledExtent_cases hsampler with hplain | ⟨count, -, hcode, hruled⟩
  · rw [(hplain order).1]
    exact ⟨rfl, .inl rfl⟩
  · rw [hcode, hruled order]
    refine ⟨rfl, .inr ⟨rfl, ?_, ?_, ?_⟩⟩
    · exact Nat.dvd_mul_left_of_dvd (Nat.dvd_mul_right 16 _) count
    · exact Nat.dvd_mul_left_of_dvd (Nat.dvd_mul_right 16 _) count
    · have hle := Nat.mul_le_mul_left (count * 16) (vectorsOf_le order decl.type)
      calc count * (16 * (vectorsOf .columnMajor decl.type).1)
          = count * 16 * (vectorsOf .columnMajor decl.type).1 := (Nat.mul_assoc ..).symm
        _ ≤ count * 16 * (2 * (vectorsOf order decl.type).1) := hle
        _ = 2 * (count * (16 * (vectorsOf order decl.type).1)) := by
          rw [Nat.mul_left_comm, Nat.mul_assoc count]

theorem std140_eq_ruledExtent_iff {decl : UniformDecl} (hsampler : decl.type.isSampler = false)
    (order : MatrixOrder) :
    std140 decl = ruledExtent order decl ↔ IsIndifferent order decl.type := by
  rcases ruledExtent_cases hsampler with hplain | ⟨count, hcount, hcode, hruled⟩
  · exact iff_of_true (hplain order).1.symm (hplain order).2
  · rw [hcode, hruled order, ← vectorsOf_eq_iff, Prod.mk.injEq, eq_self, true_and,
      Nat.mul_right_inj (Nat.ne_of_gt hcount), Nat.mul_right_inj (by decide), eq_comm]

theorem alignUp_of_dvd {n align : Nat} (halign : 0 < align) (h : align ∣ n) :
    alignUp n align = n :=
  Nat.le_antisymm ((isLeast_alignUp halign n).2 ⟨h, Nat.le_refl n⟩) (le_alignUp halign n)

theorem roundUp_of_dvd {n align : UInt32} (halign : 0 < align.toNat)
    (h : align.toNat ∣ n.toNat) : (roundUp n align).toNat = n.toNat := by
  have heq := alignUp_of_dvd halign h
  rw [toNat_roundUp halign (heq.trans_lt n.toNat_lt), heq]

/-- Layouts that start at different multiples of 16 have different offsets or different ends. -/
theorem place_ne {start : UInt32} {other : Nat} (hstart : 16 ∣ start.toNat) (hother : 16 ∣ other)
    (hne : start.toNat ≠ other) {decls : List UniformDecl} {extents : List (Nat × Nat)}
    (halike : List.Forall₂ (fun decl => Alike (std140 decl)) decls extents)
    (hoffsets : (place start decls).1.map (·.offset.toNat) = offsetsFrom other extents) :
    (roundUp (place start decls).2 16).toNat ≠ alignUp (endFrom other extents) 16 := by
  cases halike with
  | nil =>
      have hround : (roundUp start 16).toNat = start.toNat := roundUp_of_dvd (by decide) hstart
      rw [place, endFrom, hround, alignUp_of_dvd (by decide) hother]
      exact hne
  | @cons decl extent' rest extents' hhead _ =>
      obtain ⟨halign, -⟩ := toNat_extent_mod decl
      have hdvd := std140_align_dvd decl
      have hpos := std140_align decl
      rw [place_cons, List.map_cons, offsetsFrom, List.cons.injEq, ← hhead.align,
        alignUp_of_dvd hpos (hdvd.trans hother), roundUp_of_dvd (halign ▸ hpos)
          (halign ▸ hdvd.trans hstart)] at hoffsets
      exact absurd hoffsets.1 hne

theorem le_endFrom {decls : List UniformDecl} {extents : List (Nat × Nat)}
    (halike : List.Forall₂ (fun decl => Alike (std140 decl)) decls extents) (start : Nat) :
    start ≤ endFrom start extents := by
  induction halike generalizing start with
  | nil => exact Nat.le_refl start
  | @cons decl extent' _ _ hhead _ ih =>
      have hstart := le_alignUp (hhead.align ▸ std140_align decl) start
      have hrest := ih (alignUp start extent'.1 + extent'.2)
      rw [endFrom]
      omega

/-- Words hold a layout by alike extents only if the extents are the same: a first difference would
move what lies behind it. -/
theorem extents_eq_of_place {decls : List UniformDecl} {extents : List (Nat × Nat)}
    (halike : List.Forall₂ (fun decl => Alike (std140 decl)) decls extents) (start : UInt32)
    (hoffsets : (place start decls).1.map (·.offset.toNat) = offsetsFrom start.toNat extents)
    (hend : (roundUp (place start decls).2 16).toNat =
      alignUp (endFrom start.toNat extents) 16) : decls.map std140 = extents := by
  induction halike generalizing start with
  | nil => rfl
  | @cons decl ruled rest others hhead hrest ih =>
      have hword : alignUp (endFrom start.toNat (ruled :: others)) 16 < 0x100000000 :=
        hend ▸ UInt32.toNat_lt _
      simp only [place_cons, List.map_cons, offsetsFrom, endFrom, List.cons.injEq]
        at hoffsets hend hword
      obtain ⟨hoffset, hoffsets⟩ := hoffsets
      have hfits : alignUp start.toNat ruled.1 + ruled.2 < 0x100000000 := by
        have hround := le_alignUp (show 0 < 16 by decide)
          (endFrom (alignUp start.toNat ruled.1 + ruled.2) others)
        have hle := le_endFrom hrest (alignUp start.toNat ruled.1 + ruled.2)
        omega
      obtain ⟨-, hlength⟩ := toNat_extent_mod decl
      have hbehind : (roundUp start (extent decl).1 + (extent decl).2).toNat =
          (alignUp start.toNat ruled.1 + (std140 decl).2) % 0x100000000 := by
        rw [UInt32.toNat_add, hoffset, hlength, Nat.add_mod_mod]
      by_cases hsame : (std140 decl).2 = ruled.2
      · rw [hsame, Nat.mod_eq_of_lt hfits] at hbehind
        rw [← hbehind] at hoffsets hend
        rw [List.map_cons, ih _ hoffsets hend]
        exact congrArg (· :: others) (Prod.ext hhead.align hsame)
      · obtain ⟨hsixteen, hcode, hruled, hle⟩ := hhead.length.resolve_left hsame
        have hfirst : 16 ∣ alignUp start.toNat ruled.1 := by
          rw [← hhead.align, hsixteen]
          exact (isLeast_alignUp (by decide) _).1.1
        refine absurd hend (place_ne ?_ (Nat.dvd_add hfirst hruled) ?_ hrest hoffsets)
        · rw [hbehind]
          exact (Nat.dvd_mod_iff (by decide)).mpr (Nat.dvd_add hfirst hcode)
        · -- the lengths differ by less than words count
          rw [hbehind]
          omega

end BlockLayout

namespace UniformBlock

open BlockLayout

/-- Offsets and size are those that the standard layout prescribes for members in these orders. -/
def FollowsRules (b : UniformBlock) (members : List (MatrixOrder × UniformDecl)) : Prop :=
  b.members.map (·.offset.toNat) = offsetsFrom 0 (ruledExtents members) ∧
    b.dataSize.toNat = ruledSize members

instance (b : UniformBlock) (members : List (MatrixOrder × UniformDecl)) :
    Decidable (b.FollowsRules members) :=
  inferInstanceAs (Decidable (_ ∧ _))

theorem IsLaid.followsRules_iff {b : UniformBlock} (hb : b.IsLaid)
    {members : List (MatrixOrder × UniformDecl)}
    (hmembers : members.map (·.2) = b.members.map (·.decl))
    (hsampler : ∀ member ∈ members, member.2.type.isSampler = false) :
    b.FollowsRules members ↔
      (∀ member ∈ members, IsIndifferent member.1 member.2.type) ∧
        ruledSize members < 0x100000000 := by
  have hextents : (b.members.map (·.decl)).map std140 = ruledExtents members ↔
      ∀ member ∈ members, IsIndifferent member.1 member.2.type := by
    rw [← hmembers, List.map_map, ruledExtents, List.map_inj_left]
    exact forall₂_congr fun member hmem => std140_eq_ruledExtent_iff (hsampler member hmem) _
  rw [← hextents]
  constructor
  · rintro ⟨hoffsets, hsize⟩
    refine ⟨?_, hsize ▸ b.dataSize.toNat_lt⟩
    have halike : List.Forall₂ (fun decl => Alike (std140 decl)) (b.members.map (·.decl))
        (ruledExtents members) := by
      rw [← hmembers, ruledExtents, List.forall₂_map_left_iff, List.forall₂_map_right_iff]
      exact List.forall₂_same.mpr fun member hmem =>
        alike_ruledExtent (hsampler member hmem) member.1
    have hdata : b.dataSize = roundUp (place 0 (b.members.map (·.decl))).2 16 :=
      congrArg UniformBlock.dataSize hb
    rw [hb.members_eq] at hoffsets
    rw [hdata] at hsize
    exact extents_eq_of_place halike 0 hoffsets hsize
  · rintro ⟨heq, hfits⟩
    have hsize : b.std140Size = ruledSize members := by
      rw [std140Size, BlockLayout.std140Size, std140End_eq_endFrom, heq, ruledSize]
    rw [← hsize] at hfits
    refine ⟨?_, (hb.spread hfits).1.trans hsize⟩
    rw [hb.offsets_eq hfits, heq]

end UniformBlock

namespace Shader

open Text

/-- The entries of a leading `layout(...)`. -/
def layoutEntries (text : List Char) : List (List Char) :=
  match (afterMark? "layout".toList (trimStart text)).map trimStart with
  | some ('(' :: inside) =>
      match splitFirst? ')' inside with
      | some (entries, _) => (splitWhere (· == ',') entries).map trim
      | none => []
  | _ => []

/-- The order that is named last. -/
def namedOrder? (qualifiers : List (List Char)) : Option MatrixOrder :=
  (qualifiers.filterMap MatrixOrder.ofWord?).getLast?

/-- The members that a statement declares. Their order is what the statement names, in its
`layout(...)` or as a word of its own, and `order` otherwise. -/
def statementMembers (line : Nat) (order : MatrixOrder) (statement : List Char) :
    List (MatrixOrder × UniformDecl) :=
  let named := namedOrder? (layoutEntries statement ++ words (takeLayout statement).2)
  ((memberDecls line statement).toOption.getD []).map (named.getD order, ·)

/-- The members of the block that an item declares. Matrices lie in columns, if neither they nor the
block name an order. -/
def Item.members (item : Item) : List (MatrixOrder × UniformDecl) :=
  let order := (namedOrder? (layoutEntries item.text)).getD .columnMajor
  (splitWhere (· == ';') (item.braced?.elim [] (·.1))).flatMap (statementMembers item.line order)

/-- The blocks of a source, each beside the item that declares it. -/
def declaredBlocks (stage : Stage) (source : String) : List (Item × UniformBlock) :=
  ((blankDirectives (stripComments source.toList)).toOption.elim [] items).flatMap fun item =>
    (((item.declarations stage).toOption.getD []).filterMap Declaration.block?).map (item, ·)

/-- A list of attempts that each come to a list, all of them without an error. -/
theorem flatten_of_mapM {ε α β : Type} {f : α → Except ε (List β)} {as : List α}
    {bs : List (List β)} (h : as.mapM f = .ok bs) :
    bs.flatten = as.flatMap fun a => (f a).toOption.getD [] := by
  induction mapM_eq_ok_iff.mp h with
  | nil => rfl
  | cons hhead hrest ih =>
      rw [List.flatten_cons, List.flatMap_cons, ih (mapM_eq_ok_iff.mpr hrest), hhead]
      rfl

theorem statementMembers_decls (line : Nat) (order : MatrixOrder) (statement : List Char) :
    (statementMembers line order statement).map (·.2) =
      (memberDecls line statement).toOption.getD [] := by
  rw [statementMembers, List.map_map]
  exact List.map_id _

theorem IsDeclared.block?_eq_none {stage : Stage} {declaration : Declaration}
    (h : IsDeclared stage declaration) : declaration.block? = none := by
  obtain ⟨storage, location, type, d, -, hdeclare⟩ := h
  cases storage <;> cases stage <;> cases hdeclare <;> rfl

/-- The block that an item declares is laid out, and has the members of the item. -/
theorem declarations_block {stage : Stage} {item : Item} {found : List Declaration}
    (h : item.declarations stage = .ok found) {b : UniformBlock}
    (hb : b ∈ found.filterMap Declaration.block?) :
    b.IsLaid ∧ item.members.map (·.2) = b.members.map (·.decl) := by
  obtain ⟨declaration, hmem, hblock⟩ := List.mem_filterMap.mp hb
  rcases (declarations_yields stage item).value h with
    hplain | ⟨name, body, behind, block, hbraced, hmade, rfl⟩
  · rw [(hplain declaration hmem).block?_eq_none] at hblock
    cases hblock
  · cases List.mem_singleton.mp hmem
    cases hblock
    obtain ⟨hlaid, decls, hdecls, hmembers⟩ := blockOf_eq_ok hmade
    refine ⟨hlaid, ?_⟩
    rw [hmembers, flatten_of_mapM hdecls, Item.members, hbraced, List.map_flatMap]
    simp only [statementMembers_decls]
    rfl

theorem declarationsOf_eq_ok {stage : Stage} {source : List Char} {found : List Declaration}
    (h : declarationsOf stage source = .ok found) :
    ∃ code groups, blankDirectives (stripComments source) = .ok code ∧
      (items code).mapM (Item.declarations stage) = .ok groups ∧ found = groups.flatten := by
  obtain ⟨code, hcode, h⟩ := bind_eq_ok_iff.mp h
  obtain ⟨-, -, h⟩ := bind_eq_ok_iff.mp h
  simp only at h
  split at h
  · cases h
  · obtain ⟨groups, hgroups, h⟩ := bind_eq_ok_iff.mp h
    cases h
    exact ⟨code, groups, hcode, hgroups, rfl⟩

/-- The blocks of an interface are those that the items of the source declare. -/
theorem reflect_declaredBlocks {stage : Stage} {source : String} {interface : ShaderInterface}
    (h : reflect stage source = .ok interface) :
    (declaredBlocks stage source).map (·.2) = interface.blocks ∧
      ∀ item b, (item, b) ∈ declaredBlocks stage source →
        b.IsLaid ∧ item.members.map (·.2) = b.members.map (·.decl) := by
  obtain ⟨found, hfound, rfl⟩ := map_eq_ok_iff.mp h
  obtain ⟨code, groups, hcode, hgroups, rfl⟩ := declarationsOf_eq_ok hfound
  have hblocks : declaredBlocks stage source = (items code).flatMap fun item =>
      (((item.declarations stage).toOption.getD []).filterMap Declaration.block?).map
        (item, ·) := by
    rw [declaredBlocks, hcode]
    rfl
  rw [hblocks]
  constructor
  · change _ = groups.flatten.filterMap Declaration.block?
    rw [flatten_of_mapM hgroups, List.map_flatMap, List.filterMap_flatMap]
    simp only [List.map_map, Function.comp_def, List.map_id_fun', id_eq]
  · intro item b hmem
    obtain ⟨_, hitem, hmem⟩ := List.mem_flatMap.mp hmem
    obtain ⟨_, hb, ⟨⟩⟩ := List.mem_map.mp hmem
    cases hdeclared : item.declarations stage with
    | error e =>
        rw [hdeclared] at hb
        cases hb
    | ok group =>
        rw [hdeclared] at hb
        exact declarations_block hdeclared hb

/-- Reflection gives a block of values the standard layout exactly if each of its matrices that
ought to lie in rows has as many rows as columns, and there is a word for the size of the block. -/
theorem reflect_followsRules_iff {stage : Stage} {source : String} {interface : ShaderInterface}
    (h : reflect stage source = .ok interface) :
    (declaredBlocks stage source).map (·.2) = interface.blocks ∧
      ∀ item b, (item, b) ∈ declaredBlocks stage source →
        item.members.map (·.2) = b.members.map (·.decl) ∧
          ((∀ member ∈ item.members, member.2.type.isSampler = false) →
            (b.FollowsRules item.members ↔
              (∀ member ∈ item.members, BlockLayout.IsIndifferent member.1 member.2.type) ∧
                BlockLayout.ruledSize item.members < 0x100000000)) := by
  obtain ⟨hblocks, hdeclared⟩ := reflect_declaredBlocks h
  refine ⟨hblocks, fun item b hmem => ?_⟩
  obtain ⟨hlaid, hmembers⟩ := hdeclared item b hmem
  exact ⟨hmembers, hlaid.followsRules_iff hmembers⟩

/-- A block in row order, with a square matrix and one that keeps to columns itself. -/
theorem reflect_followsRules_square :
    let source := "layout(std140, row_major) uniform B \x7b mat3 m; " ++
      "layout(column_major) mat2x3 n[2]; float x; \x7d; void main(){}"
    let block : UniformBlock := ⟨"B", none,
      [⟨⟨"m", .matrix .three .three, 1, false⟩, 0⟩, ⟨⟨"n", .matrix .two .three, 2, true⟩, 48⟩,
        ⟨⟨"x", .scalar .float, 1, false⟩, 112⟩], 128⟩
    ∃ item, reflect .vertex source = .ok { blocks := [block] } ∧
      declaredBlocks .vertex source = [(item, block)] ∧
      item.members = [(.rowMajor, ⟨"m", .matrix .three .three, 1, false⟩),
        (.columnMajor, ⟨"n", .matrix .two .three, 2, true⟩),
        (.rowMajor, ⟨"x", .scalar .float, 1, false⟩)] ∧
      block.FollowsRules item.members := by
  intro source block
  let item : Item := ⟨1, ("layout(std140, row_major) uniform B \x7b mat3 m; " ++
    "layout(column_major) mat2x3 n[2]; float x; \x7d").toList, true⟩
  have hreflect : reflect .vertex source = .ok { blocks := [block] } := by
    decide +kernel
  have hblocks : declaredBlocks .vertex source = [(item, block)] := by
    decide +kernel
  have hmembers : item.members = [(.rowMajor, ⟨"m", .matrix .three .three, 1, false⟩),
      (.columnMajor, ⟨"n", .matrix .two .three, 2, true⟩),
      (.rowMajor, ⟨"x", .scalar .float, 1, false⟩)] := by
    decide +kernel
  refine ⟨item, hreflect, hblocks, hmembers, ?_⟩
  have hmem : (item, block) ∈ declaredBlocks .vertex source := by
    rw [hblocks]
    exact List.mem_singleton_self _
  have hrules := ((reflect_followsRules_iff hreflect).2 item block hmem).2
  rw [hmembers] at hrules ⊢
  refine (hrules (by decide)).mpr ⟨?_, by decide⟩
  simp only [List.forall_mem_cons]
  refine ⟨?_, ?_, ?_, List.forall_mem_nil _⟩
  · rintro _ _ - ⟨⟩
    rfl
  · exact nofun
  · exact nofun

/-- A matrix with two columns of three rows, which ought to lie in three rows. -/
theorem reflect_ignores_row_order :
    let source := "uniform B \x7b layout(row_major) mat2x3 m; float x; \x7d; void main(){}"
    let block : UniformBlock := ⟨"B", none,
      [⟨⟨"m", .matrix .two .three, 1, false⟩, 0⟩, ⟨⟨"x", .scalar .float, 1, false⟩, 32⟩], 48⟩
    ∃ item, reflect .vertex source = .ok { blocks := [block] } ∧
      declaredBlocks .vertex source = [(item, block)] ∧
      item.members = [(.rowMajor, ⟨"m", .matrix .two .three, 1, false⟩),
        (.columnMajor, ⟨"x", .scalar .float, 1, false⟩)] ∧
      BlockLayout.offsetsFrom 0 (BlockLayout.ruledExtents item.members) = [0, 48] ∧
      BlockLayout.ruledSize item.members = 64 ∧ ¬ block.FollowsRules item.members := by
  intro source block
  let item : Item :=
    ⟨1, "uniform B \x7b layout(row_major) mat2x3 m; float x; \x7d".toList, true⟩
  have hmembers : item.members = [(.rowMajor, ⟨"m", .matrix .two .three, 1, false⟩),
      (.columnMajor, ⟨"x", .scalar .float, 1, false⟩)] := by
    decide +kernel
  refine ⟨item, by decide +kernel, by decide +kernel, hmembers, ?_⟩
  rw [hmembers]
  decide

end Shader

end GlPlayback
