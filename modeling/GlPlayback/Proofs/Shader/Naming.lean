import GlPlayback.Proofs.Outcome
import GlPlayback.Proofs.Shader.Layout
import GlPlayback.Proofs.Text.Cutting
import GlPlayback.Shader.Reflection

/-!
What is read off a source. A declarator is cut at its first bracket, so no loose uniform has one in
its name. Therefore the active names of two uniforms tell them apart, whether they are arrays or
not. The members of a block lie where the layout puts them.
-/
namespace GlPlayback

/-- A name without a bracket. -/
def UniformDecl.IsPlain (d : UniformDecl) : Prop :=
  '[' ∉ d.name.toList

namespace Shader

open Text

theorem declarator?_isPlain {text : List Char} {d : Declarator} (h : declarator? text = some d) :
    '[' ∉ d.name.toList := by
  simp only [declarator?] at h
  generalize trim ((splitFirst? '=' text).elim text (·.1)) = bare at h
  split at h
  · cases h
  · split at h
    · next hcut =>
        cases h
        rw [String.toList_ofList]
        exact not_mem_of_splitFirst?_eq_none hcut
    · next name rest hcut =>
        cases h
        rw [String.toList_ofList]
        exact fun hmem => not_mem_of_splitFirst?_eq_some hcut (mem_of_mem_trim hmem)

theorem declarators_yields (line : Nat) (type : List Char) (rest : List (List Char)) :
    Yields (fun ds => ∀ d ∈ ds, '[' ∉ d.name.toList) (fun _ => True)
      (declarators line type rest) := by
  refine Yields.mapM (fun text => ?_) _
  split
  · next d hd => exact declarator?_isPlain hd
  · trivial

/-- What is declared, if it is a loose uniform, has a plain name, and if it is a block, is laid
out. -/
structure Declaration.IsSound (declaration : Declaration) : Prop where
  plain : ∀ d, declaration.uniform? = some d → d.IsPlain
  laid : ∀ b, declaration.block? = some b → b.IsLaid

theorem declare_isSound {storage : Storage} {stage : Stage} {location : Option UInt32}
    {type : ValueType} {d : Declarator} (hd : '[' ∉ d.name.toList) {declaration : Declaration}
    (h : storage.declare stage location type d = some declaration) : declaration.IsSound := by
  cases storage with
  | uniform =>
      cases h
      refine ⟨fun u hu => ?_, nofun⟩
      cases hu
      exact hd
  | input =>
      cases h
      exact ⟨nofun, nofun⟩
  | incoming =>
      cases stage with
      | vertex =>
          cases h
          exact ⟨nofun, nofun⟩
      | fragment => cases h

/-- What one of its declarators declares. -/
def IsDeclared (stage : Stage) (declaration : Declaration) : Prop :=
  ∃ (storage : Storage) (location : Option UInt32) (type : ValueType) (d : Declarator),
    '[' ∉ d.name.toList ∧ storage.declare stage location type d = some declaration

theorem plainDeclarations_yields (stage : Stage) (line : Nat) (location : Option UInt32)
    (text : List Char) :
    Yields (fun found => ∀ declaration ∈ found, IsDeclared stage declaration) (fun _ => True)
      (plainDeclarations stage line location text) := by
  have hnone : ∀ declaration ∈ ([] : List Declaration), IsDeclared stage declaration := by simp
  simp only [plainDeclarations]
  split
  · exact hnone
  · split
    · exact hnone
    · trivial
    · next storage _ _ _ _ =>
        split
        · exact hnone
        · next type _ =>
            refine (declarators_yields line _ _).bind fun ds hds => ?_
            intro declaration hmem
            obtain ⟨d, hd, hdeclare⟩ := List.mem_filterMap.mp hmem
            exact ⟨storage, location, type, d, hds d hd, hdeclare⟩

/-- The text in the braces of an item and the text behind them. -/
def Item.braced? (item : Item) : Option (List Char × List Char) :=
  (splitFirst? '\x7b' (takeLayout item.text).2).bind fun parts => splitLast? '\x7d' parts.2

/-- An item declares what declarators declare, or else one block, made of the text in its braces. -/
theorem declarations_yields (stage : Stage) (item : Item) :
    Yields (fun found => (∀ declaration ∈ found, IsDeclared stage declaration) ∨
        ∃ name body behind block, item.braced? = some (body, behind) ∧
          blockOf item.line name body behind = .ok block ∧ found = [.block block])
      (fun _ => True) (item.declarations stage) := by
  have hnone : ∀ declaration ∈ ([] : List Declaration), IsDeclared stage declaration := by simp
  simp only [Item.declarations]
  split
  · exact .inl hnone
  · split
    · exact .of_forall _ (fun found h =>
        .inl ((plainDeclarations_yields stage item.line _ _).value h)) (fun _ _ => trivial)
    · next head tail hbraces =>
        split
        · exact .inl hnone
        · split
          · exact .inl hnone
          · split
            · next name _ body behind hbody _ =>
                refine .of_forall _ (fun found h => ?_) (fun _ _ => trivial)
                obtain ⟨block, hblock, hfound⟩ := bind_eq_ok_iff.mp h
                cases hfound
                refine .inr ⟨name, body, behind, block, ?_, hblock, rfl⟩
                rw [Item.braced?, hbraces]
                exact hbody
            · trivial

/-- A block has the members that the statements in its braces declare, laid out. -/
theorem blockOf_eq_ok {line : Nat} {name body behind : List Char} {block : UniformBlock}
    (h : blockOf line name body behind = .ok block) :
    block.IsLaid ∧ ∃ decls, (splitWhere (· == ';') body).mapM (memberDecls line) = .ok decls ∧
      block.members.map (·.decl) = decls.flatten := by
  obtain ⟨decls, hdecls, hblock⟩ := bind_eq_ok_iff.mp h
  cases hblock
  exact ⟨UniformBlock.isLaid_block _ _ _, decls, hdecls, BlockLayout.place_decls 0 _⟩

theorem declarations_isSound {stage : Stage} {item : Item} {found : List Declaration}
    (h : item.declarations stage = .ok found) : ∀ declaration ∈ found, declaration.IsSound := by
  intro declaration hmem
  rcases (declarations_yields stage item).value h with
    hplain | ⟨name, body, behind, block, -, hblock, rfl⟩
  · obtain ⟨storage, location, type, d, hd, hdeclare⟩ := hplain declaration hmem
    exact declare_isSound hd hdeclare
  · cases List.mem_singleton.mp hmem
    refine ⟨nofun, fun b hb => ?_⟩
    cases hb
    exact (blockOf_eq_ok hblock).1

theorem declarationsOf_yields (stage : Stage) (source : List Char) :
    Yields (fun found => ∀ declaration ∈ found, declaration.IsSound) (fun _ => True)
      (declarationsOf stage source) := by
  have hitems (code : List Char) :
      Yields (fun found => ∀ declaration ∈ found, declaration.IsSound) (fun _ => True)
        (do
          let found ← (items code).mapM (Item.declarations stage)
          return found.flatten) := by
    refine (Yields.mapM (fun item => .of_forall _ (fun _ => declarations_isSound)
      (fun _ _ => trivial)) _).bind fun found hfound => ?_
    intro declaration hmem
    obtain ⟨group, hgroup, hmem⟩ := List.mem_flatten.mp hmem
    exact hfound group hgroup declaration hmem
  refine (Yields.any _).bind fun code _ => (Yields.any _).bind fun _ _ => ?_
  simp only
  split
  · trivial
  · exact hitems code

/-- No loose uniform that is read off a source has a bracket in its name, and every block that is
read off it is laid out. -/
theorem reflect_yields (stage : Stage) (source : String) :
    Yields (fun i : ShaderInterface => (∀ d ∈ i.uniforms, d.IsPlain) ∧ ∀ b ∈ i.blocks, b.IsLaid)
      (fun _ => True) (reflect stage source) := by
  refine (declarationsOf_yields stage source.toList).map fun found hfound => ⟨?_, ?_⟩
  · intro d hd
    obtain ⟨declaration, hmem, hu⟩ := List.mem_filterMap.mp hd
    exact (hfound declaration hmem).plain d hu
  · intro b hb
    obtain ⟨declaration, hmem, hblock⟩ := List.mem_filterMap.mp hb
    exact (hfound declaration hmem).laid b hblock

end Shader

/-- What stands in a name before its first bracket. -/
def stem (name : String) : List Char :=
  name.toList.takeWhile (· != '[')

theorem stem_element (name : String) : stem (name ++ "[0]") = stem name := by
  have hcut (s : List Char) :
      (s ++ "[0]".toList).takeWhile (· != '[') = s.takeWhile (· != '[') := by
    induction s with
    | nil => rfl
    | cons c rest ih =>
        rw [List.cons_append, List.takeWhile_cons, List.takeWhile_cons, ih]
  rw [stem, String.toList_append, hcut, stem]

theorem UniformDecl.IsPlain.stem_activeName {d : UniformDecl} (hd : d.IsPlain) :
    stem d.activeName = d.name.toList := by
  have hname : stem d.name = d.name.toList := by
    have hplain : ∀ c ∈ d.name.toList, (c != '[') = true := by
      intro c hc
      rw [bne_iff_ne]
      rintro rfl
      exact hd hc
    have hall : (d.name.toList ++ []).takeWhile (· != '[') = d.name.toList ++ [] :=
      List.takeWhile_append_of_pos hplain
    rwa [List.append_nil] at hall
  rw [activeName]
  split
  · rw [stem_element, hname]
  · exact hname

end GlPlayback
