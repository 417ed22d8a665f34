import GlPlayback.Proofs.Outcome
import GlPlayback.Proofs.Shader.Printing
import GlPlayback.Proofs.Shader.Scanning

/-!
Reflection reads off the text of a printed shader what the shader declares. Each declaration is
first read by itself, then found by the passes over the whole text.
-/
namespace GlPlayback.Shader

open Text

theorem not_mem_of_forall {p : Char → Bool} {s : List Char} (hs : ∀ c ∈ s, p c = true) {c : Char}
    (hc : p c = false) : c ∉ s :=
  fun h => absurd ((hs c h).symm.trans hc) (by decide)

theorem isBlank_of_isNameChar {c : Char} (hc : isNameChar c = true) : isBlank c = false := by
  have hc : (decide (65 ≤ c.toNat ∧ c.toNat ≤ 90) ||
      (decide (97 ≤ c.toNat) && decide (c.toNat ≤ 122)) ||
      (decide (48 ≤ c.toNat) && decide (c.toNat ≤ 57)) || c == '_') = true := hc
  simp only [Bool.or_eq_true, Bool.and_eq_true, decide_eq_true_eq, beq_iff_eq] at hc
  have hrange : 48 ≤ c.toNat ∧ c.toNat ≤ 122 := by
    rcases hc with hc | rfl
    · omega
    · decide
  simp only [isBlank, Bool.or_eq_false_iff, Bool.and_eq_false_iff, decide_eq_false_iff_not,
    beq_eq_false_iff_ne]
  omega

theorem isNameChar_of_mem_decimal {n : Nat} {c : Char} (hc : c ∈ decimal n) :
    isNameChar c = true := by
  rw [isNameChar, Char.isAlphanum, isDigit_of_mem_decimal hc, Bool.or_true, Bool.true_or]

namespace Identifier

theorem isNameChar_of_mem (i : Identifier) : ∀ c ∈ i.text.toList, isNameChar c = true := by
  have hformed := i.wellFormed
  cases htext : i.text.toList with
  | nil => exact fun _ hc => absurd hc List.not_mem_nil
  | cons c rest =>
      rw [htext, isIdentifier, Bool.and_eq_true] at hformed
      exact List.all_eq_true.mp hformed.2

theorem isWord (i : Identifier) : IsWord i.text.toList where
  nonempty h := by
    have hformed := i.wellFormed
    rw [h] at hformed
    exact absurd hformed Bool.false_ne_true
  visible c hc := isBlank_of_isNameChar (i.isNameChar_of_mem c hc)

end Identifier

namespace TypeName

theorem isNameChar_of_mem (t : TypeName) : ∀ c ∈ t.text.toList, isNameChar c = true :=
  List.all_eq_true.mp <|
    (by decide : ∀ e ∈ ValueType.keywords, e.1.toList.all isNameChar = true) _ t.known

theorem isWord (t : TypeName) : IsWord t.text.toList :=
  (by decide : ∀ e ∈ ValueType.keywords, IsWord e.1.toList) _ t.known

theorem unskipped (t : TypeName) : t.text ∉ memberQualifiers :=
  (by decide : ∀ e ∈ ValueType.keywords, e.1 ∉ memberQualifiers) _ t.known

theorem ofKeyword?_eq (t : TypeName) : ValueType.ofKeyword? t.text = some t.type :=
  (by decide : ∀ e ∈ ValueType.keywords, ValueType.ofKeyword? e.1 = some e.2) _ t.known

end TypeName

/-- Text that no layout qualifier starts. -/
def Bare (text : List Char) : Prop :=
  ∃ c rest, text = c :: rest ∧ isBlank c = false ∧ c ≠ 'l'

theorem Bare.append {s : List Char} (hs : Bare s) (t : List Char) : Bare (s ++ t) := by
  obtain ⟨c, rest, rfl, hblank, hne⟩ := hs
  exact ⟨c, rest ++ t, rfl, hblank, hne⟩

theorem TypeName.bare (t : TypeName) : Bare t.text.toList := by
  have hhead : t.text.toList.head? ≠ some 'l' :=
    (by decide : ∀ e ∈ ValueType.keywords, e.1.toList.head? ≠ some 'l') _ t.known
  obtain ⟨c, rest, htext⟩ := List.exists_cons_of_ne_nil t.isWord.nonempty
  refine ⟨c, rest, htext, t.isWord.visible c (htext ▸ List.mem_cons_self), ?_⟩
  rintro rfl
  rw [htext] at hhead
  exact hhead rfl

theorem Storage.bare (s : Storage) : Bare s.word := by
  cases s <;> exact ⟨_, _, rfl, by decide, by decide⟩

theorem Storage.isWord (s : Storage) : IsWord s.word := by
  cases s <;> decide

theorem Storage.isNameChar_of_mem (s : Storage) : ∀ c ∈ s.word, isNameChar c = true := by
  rw [← List.all_eq_true]
  cases s <;> decide

theorem Storage.unskipped (s : Storage) : String.ofList s.word ∉ memberQualifiers := by
  cases s <;> decide

theorem Storage.ofWord?_word (s : Storage) : Storage.ofWord? s.word = some s := by
  cases s <;> decide

section Layout

variable {text blanks : List Char}

theorem takeLayout_of_bare (htext : Bare text) (hblanks : ∀ c ∈ blanks, isBlank c = true) :
    takeLayout (blanks ++ text) = (none, text) := by
  obtain ⟨c, rest, rfl, hblank, hne⟩ := htext
  have hmark : afterMark? "layout".toList (c :: rest) = none := if_neg (Ne.symm hne)
  rw [takeLayout]
  simp only [trimStart_append hblanks, trimStart_cons hblank, hmark, Option.map_none]

theorem takeLayout_of_layout {qualifiers : List Char} (hqualifiers : ')' ∉ qualifiers)
    (hblanks : ∀ c ∈ blanks, isBlank c = true) :
    takeLayout (blanks ++ withLayout (some qualifiers) text) =
      (locationIn? qualifiers, ' ' :: text) := by
  have hmark (rest : List Char) :
      afterMark? "layout".toList ("layout".toList ++ '(' :: rest) = some ('(' :: rest) := by
    rfl
  have hstart (rest : List Char) : trimStart ("layout".toList ++ '(' :: rest) =
      "layout".toList ++ '(' :: rest := by
    rfl
  have hopen (rest : List Char) : trimStart ('(' :: rest) = '(' :: rest := by
    rfl
  rw [takeLayout]
  simp only [withLayout, Option.elim_some, trimStart_append hblanks, hstart, hmark, hopen,
    Option.map_some, splitFirst?_append_cons hqualifiers]

/-- A layout qualifier comes off with its location, and at most a blank stays behind. -/
theorem takeLayout_withLayout {qualifiers : Option (List Char)} (htext : Bare text)
    (hqualifiers : ∀ q ∈ qualifiers, ')' ∉ q) (hblanks : ∀ c ∈ blanks, isBlank c = true) :
    ∃ lead, (∀ c ∈ lead, isBlank c = true) ∧
      takeLayout (blanks ++ withLayout qualifiers text) =
        (qualifiers.bind locationIn?, lead ++ text) := by
  cases qualifiers with
  | none => exact ⟨[], by simp, takeLayout_of_bare htext hblanks⟩
  | some q =>
      exact ⟨[' '], List.forall_mem_singleton.mpr rfl,
        takeLayout_of_layout (hqualifiers q rfl) hblanks⟩

theorem locationIn?_decimal (n : UInt32) :
    locationIn? ("location = ".toList ++ decimal n.toNat) = some n := by
  have hdigits {c : Char} (hc : isNameChar c = false) : c ∉ decimal n.toNat :=
    not_mem_of_forall (fun _ => isNameChar_of_mem_decimal) hc
  have hcomma : ∀ c ∈ "location = ".toList ++ decimal n.toNat, (c == ',') = false := by
    intro c hc
    rw [beq_eq_false_iff_ne]
    rintro rfl
    exact (List.mem_append.mp hc).elim (by decide) (hdigits (by decide))
  have hsplit : splitFirst? '=' ("location = ".toList ++ decimal n.toNat) =
      some ("location ".toList, ' ' :: decimal n.toNat) :=
    splitFirst?_append_cons (s := "location ".toList) (by decide) _
  have hkey : trim "location ".toList = "location".toList := by decide
  have hvalue : trim (' ' :: decimal n.toNat) = decimal n.toNat :=
    trim_cons rfl fun c hc => isBlank_of_isNameChar (isNameChar_of_mem_decimal hc)
  rw [locationIn?, splitWhere_of_forall hcomma]
  simp only [List.findSome?_cons, hsplit, Option.bind_eq_bind, Option.bind_some, hkey, hvalue,
    uint32?_decimal, if_true]

end Layout

/-- The one declaration that a statement comes to. -/
def Statement.declaration : Statement → Declaration
  | plain .uniform _ v => .uniform v.uniformDecl
  | plain _ location v => .input (v.attributeDecl location)
  | block _ name instanceName members => .block (Statement.blockDeclared name instanceName members)

namespace Variable

def isDeclaratorChar (c : Char) : Bool :=
  isNameChar c || c == '[' || c == ']'

theorem isDeclaratorChar_of_mem (v : Variable) :
    ∀ c ∈ v.declarator, isDeclaratorChar c = true := by
  intro c hc
  rcases List.mem_append.mp hc with hc | hc
  · rw [isDeclaratorChar, v.name.isNameChar_of_mem c hc]
    rfl
  · cases hlength : v.length with
    | none =>
        rw [hlength] at hc
        exact absurd hc List.not_mem_nil
    | some n =>
        rw [hlength, Option.elim_some, List.mem_cons, List.mem_append, List.mem_singleton] at hc
        rcases hc with rfl | hc | rfl
        · decide
        · rw [isDeclaratorChar, isNameChar_of_mem_decimal hc]
          rfl
        · decide

theorem isBlank_of_isDeclaratorChar {c : Char} (hc : isDeclaratorChar c = true) :
    isBlank c = false := by
  rw [isDeclaratorChar, Bool.or_eq_true, Bool.or_eq_true, beq_iff_eq, beq_iff_eq] at hc
  rcases hc with (hc | rfl) | rfl
  · exact isBlank_of_isNameChar hc
  · decide
  · decide

def isTextChar (c : Char) : Bool :=
  isDeclaratorChar c || c == ' '

theorem isTextChar_of_isNameChar {c : Char} (hc : isNameChar c = true) : isTextChar c = true := by
  rw [isTextChar, isDeclaratorChar, hc]
  rfl

variable (v : Variable)

theorem isTextChar_of_mem : ∀ c ∈ v.text, isTextChar c = true := by
  intro c hc
  rw [text, List.mem_append, List.mem_cons] at hc
  rcases hc with hc | rfl | hc
  · exact isTextChar_of_isNameChar (v.typeName.isNameChar_of_mem c hc)
  · decide
  · rw [isTextChar, v.isDeclaratorChar_of_mem c hc]
    rfl

theorem isWord_declarator : IsWord v.declarator where
  nonempty := by simp [declarator, v.name.isWord.nonempty]
  visible c hc := isBlank_of_isDeclaratorChar (v.isDeclaratorChar_of_mem c hc)

theorem unskipped_declarator : String.ofList v.declarator ∉ memberQualifiers := by
  cases hlength : v.length with
  | none =>
      rw [declarator, hlength, Option.elim_none, List.append_nil, String.ofList_toList]
      exact v.name.unskipped
  | some n =>
      intro hmem
      have hplain : ∀ q ∈ memberQualifiers, '[' ∉ q.toList := by decide
      refine hplain _ hmem ?_
      rw [String.toList_ofList, declarator, hlength]
      exact List.mem_append_right _ List.mem_cons_self

theorem declarator?_declarator :
    declarator? v.declarator = some ⟨v.name.text, v.size, v.length.isSome⟩ := by
  have hequals : '=' ∉ v.declarator := not_mem_of_forall v.isDeclaratorChar_of_mem (by decide)
  have hname : '[' ∉ v.name.text.toList := not_mem_of_forall v.name.isNameChar_of_mem (by decide)
  have hfilled : v.declarator.isEmpty = false :=
    List.isEmpty_eq_false_iff.mpr v.isWord_declarator.nonempty
  rw [declarator?]
  simp only [splitFirst?_eq_none hequals, Option.elim_none,
    trim_of_visible v.isWord_declarator.visible, hfilled, Bool.false_eq_true, if_false]
  cases hlength : v.length with
  | none =>
      have htext : v.declarator = v.name.text.toList := by
        rw [declarator, hlength, Option.elim_none, List.append_nil]
      simp only [htext, splitFirst?_eq_none hname, String.ofList_toList, size, hlength,
        Option.elim_none, Option.isSome_none]
  | some n =>
      have htext : v.declarator = v.name.text.toList ++ '[' :: (decimal n ++ [']']) := by
        rw [declarator, hlength, Option.elim_some]
      have hread : trim ((decimal n ++ [']']).reverse.dropWhile (· == ']')).reverse =
          decimal n := by
        rw [dropEnd_of_forall (fun c hc => ?_) (List.forall_mem_singleton.mpr rfl)]
        · exact trim_of_visible fun c hc => isBlank_of_isNameChar (isNameChar_of_mem_decimal hc)
        · rw [beq_eq_false_iff_ne]
          rintro rfl
          exact absurd (isNameChar_of_mem_decimal hc) (by decide)
      simp only [htext, splitFirst?_append_cons hname, hread, int32?_decimal n.isLt,
        trim_of_visible v.name.isWord.visible, String.ofList_toList, size, hlength,
        Option.elim_some, Option.getD_some, Option.isSome_some]

theorem declarators_declarator (line : Nat) (type : List Char) :
    declarators line type [v.declarator] =
      .ok [⟨v.name.text, v.size, v.length.isSome⟩] := by
  have hcomma : ∀ c ∈ v.declarator, (c == ',') = false := by
    intro c hc
    rw [beq_eq_false_iff_ne]
    rintro rfl
    exact not_mem_of_forall v.isDeclaratorChar_of_mem (by decide) hc
  simp only [declarators, unwords, splitWhere_of_forall hcomma, List.mapM_cons, List.mapM_nil,
    declarator?_declarator]
  rfl

theorem wordsWithout_cons {skipped : List String} {c : Char} (hc : isBlank c = true)
    (t : List Char) : wordsWithout skipped (c :: t) = wordsWithout skipped t := by
  rw [wordsWithout, words_cons hc]
  rfl

/-- Words in front, none of which is skipped, and then the variable. -/
theorem wordsWithout_text {skipped : List String} (hskipped : skipped ⊆ memberQualifiers)
    {before : List Char} {ws : List (List Char)} (hbefore : words before = ws)
    (hws : ∀ w ∈ ws, String.ofList w ∉ skipped) :
    wordsWithout skipped (before ++ ' ' :: v.text) =
      ws ++ [v.typeName.text.toList, v.declarator] := by
  have hwords : words (before ++ ' ' :: v.text) = ws ++ [v.typeName.text.toList, v.declarator] := by
    rw [words_append_cons rfl, hbefore, text, v.typeName.isWord.words_append rfl,
      v.isWord_declarator.words_eq]
  rw [wordsWithout, hwords, List.filter_eq_self]
  intro w hw
  rw [Bool.not_eq_true', List.contains_eq_mem, decide_eq_false_iff_not]
  rw [List.mem_append, List.mem_cons, List.mem_singleton] at hw
  rcases hw with hw | rfl | rfl
  · exact hws w hw
  · rw [String.ofList_toList]
    exact fun h => v.typeName.unskipped (hskipped h)
  · exact fun h => v.unskipped_declarator (hskipped h)

theorem bare_text : Bare v.text :=
  v.typeName.bare.append _

theorem memberDecls_text (line : Nat) : memberDecls line (' ' :: v.text) = .ok [v.uniformDecl] := by
  have hlayout : takeLayout (' ' :: v.text) = (none, v.text) :=
    takeLayout_of_bare v.bare_text
      (List.forall_mem_singleton.mpr rfl : ∀ c ∈ [' '], isBlank c = true)
  have hwords : wordsWithout memberQualifiers v.text =
      [v.typeName.text.toList, v.declarator] := by
    rw [← wordsWithout_cons (c := ' ') rfl]
    exact v.wordsWithout_text (List.Subset.refl _) (rfl : words [] = []) (List.forall_mem_nil _)
  simp only [memberDecls, hlayout, hwords, String.ofList_toList, v.typeName.ofKeyword?_eq,
    declarators_declarator]
  rfl

theorem plainDeclarations_text (line : Nat) (storage : Storage) (location : Option UInt32)
    {before : List Char} (hbefore : words before = [storage.word]) :
    plainDeclarations .vertex line location (before ++ ' ' :: v.text) =
      .ok [(Statement.plain storage location v).declaration] := by
  have hskipped : qualifiers ⊆ memberQualifiers := by decide
  have hwords := v.wordsWithout_text hskipped hbefore fun w hw h => by
    rw [List.mem_singleton.mp hw] at h
    exact storage.unskipped (hskipped h)
  simp only [plainDeclarations, hwords, List.singleton_append, storage.ofWord?_word,
    String.ofList_toList, v.typeName.ofKeyword?_eq, declarators_declarator]
  cases storage <;> rfl

end Variable

theorem blockOf_text (line : Nat) (name : Identifier) (instanceName : Option Identifier)
    (members : List Variable) :
    blockOf line name.text.toList (Statement.blockBody members)
        (Statement.blockTail instanceName) =
      .ok (Statement.blockDeclared name instanceName members) := by
  have hmark (v : Variable) : ∀ c ∈ ' ' :: v.text, (c == ';') = false := by
    intro c hc
    rw [beq_eq_false_iff_ne]
    rintro rfl
    exact (List.mem_cons.mp hc).elim (by decide)
      (not_mem_of_forall v.isTextChar_of_mem (by decide))
  have hstatements : splitWhere (· == ';') (Statement.blockBody members) =
      members.map (fun v => ' ' :: v.text) ++ [[' ']] :=
    splitWhere_flatMap (c := ';') rfl members (fun v _ => hmark v) [' ']
  have hmembers : (members.map fun v => ' ' :: v.text).mapM (memberDecls line) =
      .ok (members.map fun v => [v.uniformDecl]) := by
    rw [List.mapM_map]
    exact mapM_eq_ok fun (v : Variable) _ => v.memberDecls_text line
  have hdecls : (splitWhere (· == ';') (Statement.blockBody members)).mapM (memberDecls line) =
      .ok (members.map (fun v => [v.uniformDecl]) ++ [[]]) := by
    rw [hstatements, List.mapM_append, hmembers]
    rfl
  have hflat : (members.map (fun v : Variable => [v.uniformDecl]) ++ [[]]).flatten =
      members.map Variable.uniformDecl := by
    rw [List.flatten_append, ← List.flatMap_def, ← List.map_eq_flatMap]
    exact List.append_nil _
  have hinstance : trim ((splitFirst? '[' (Statement.blockTail instanceName)).elim
      (Statement.blockTail instanceName) (·.1)) = instanceName.elim [] (·.text.toList) := by
    cases instanceName with
    | none => rfl
    | some i =>
        have hbracket : '[' ∉ ' ' :: i.text.toList := by
          rw [List.mem_cons, not_or]
          exact ⟨by decide, not_mem_of_forall i.isNameChar_of_mem (by decide)⟩
        simp only [Statement.blockTail, Option.elim_some, splitFirst?_eq_none hbracket,
          Option.elim_none]
        exact trim_cons rfl i.isWord.visible
  have hname : (if (instanceName.elim [] (·.text.toList)).isEmpty then none
      else some (String.ofList (instanceName.elim [] (·.text.toList)))) =
        instanceName.map (·.text) := by
    cases instanceName with
    | none => rfl
    | some i =>
        have hfilled : i.text.toList.isEmpty = false :=
          List.isEmpty_eq_false_iff.mpr i.isWord.nonempty
        simp only [Option.elim_some, hfilled, Bool.false_eq_true, if_false, String.ofList_toList,
          Option.map_some]
  simp only [blockOf, hdecls, hinstance, hname, String.ofList_toList, Statement.blockDeclared,
    ← hflat]
  rfl

namespace Statement

theorem bare_content (s : Statement) : Bare s.content := by
  cases s with
  | plain storage location v => exact storage.bare.append _
  | block std140 name instanceName members =>
      exact ⟨_, _, rfl, by decide, by decide⟩

def isQualifierChar (c : Char) : Bool :=
  isNameChar c || c == ' ' || c == '='

theorem isQualifierChar_of_mem (s : Statement) :
    ∀ q ∈ s.qualifiers, ∀ c ∈ q, isQualifierChar c = true := by
  cases s with
  | plain storage location v =>
      cases location with
      | none => exact fun q hq => nomatch hq
      | some n =>
          rintro q ⟨⟩ c hc
          rcases List.mem_append.mp hc with hc | hc
          · have hall : "location = ".toList.all isQualifierChar = true := by decide
            exact List.all_eq_true.mp hall c hc
          · rw [isQualifierChar, isNameChar_of_mem_decimal hc]
            rfl
  | block std140 name instanceName members =>
      cases std140 with
      | false => exact fun q hq => nomatch hq
      | true =>
          rintro q ⟨⟩
          rw [← List.all_eq_true]
          decide

/-- The location that a statement asks for. -/
def location? : Statement → Option UInt32
  | plain _ location _ => location
  | block .. => none

theorem locationIn?_qualifiers (s : Statement) : s.qualifiers.bind locationIn? = s.location? := by
  cases s with
  | plain storage location v =>
      cases location with
      | none => rfl
      | some n => exact locationIn?_decimal n
  | block std140 name instanceName members =>
      cases std140 <;> rfl

variable {blanks : List Char}

theorem takeLayout_text (s : Statement) (hblanks : ∀ c ∈ blanks, isBlank c = true) :
    ∃ lead, (∀ c ∈ lead, isBlank c = true) ∧
      takeLayout (blanks ++ s.text) = (s.location?, lead ++ s.content) := by
  rw [← s.locationIn?_qualifiers]
  exact takeLayout_withLayout s.bare_content
    (fun q hq => not_mem_of_forall (s.isQualifierChar_of_mem q hq) (by decide)) hblanks

theorem not_mem_plain (storage : Storage) (location : Option UInt32) (v : Variable) {c : Char}
    (hc : Variable.isTextChar c = false) : c ∉ (plain storage location v).content := by
  have hcontent : (plain storage location v).content = storage.word ++ ' ' :: v.text := rfl
  have hword : ∀ c ∈ storage.word, Variable.isTextChar c = true :=
    fun c hc => Variable.isTextChar_of_isNameChar (storage.isNameChar_of_mem c hc)
  have hspace : c ≠ ' ' := by
    rintro rfl
    exact absurd hc (by decide)
  rw [hcontent, List.mem_append, List.mem_cons, not_or, not_or]
  exact ⟨not_mem_of_forall hword hc, hspace, not_mem_of_forall v.isTextChar_of_mem hc⟩

theorem splitFirst?_plain (storage : Storage) (location : Option UInt32) (v : Variable)
    {lead : List Char} (hlead : ∀ c ∈ lead, isBlank c = true) :
    splitFirst? '\x7b' (lead ++ (plain storage location v).content) = none := by
  refine splitFirst?_eq_none ?_
  rw [List.mem_append, not_or]
  exact ⟨not_mem_of_forall hlead (by decide), not_mem_plain storage location v (by decide)⟩

theorem not_mem_blockTail (instanceName : Option Identifier) {c : Char}
    (hc : isNameChar c = false) (hspace : c ≠ ' ') : c ∉ blockTail instanceName := by
  cases instanceName with
  | none => exact List.not_mem_nil
  | some i =>
      rw [blockTail, Option.elim_some, List.mem_cons, not_or]
      exact ⟨hspace, not_mem_of_forall i.isNameChar_of_mem hc⟩

/-- A block up to its brace, behind blanks. -/
def blockHead (lead : List Char) (name : Identifier) : List Char :=
  lead ++ (Storage.uniform.word ++ ' ' :: (name.text.toList ++ [' ']))

section Head

variable {lead : List Char} (hlead : ∀ c ∈ lead, isBlank c = true) (name : Identifier)
include hlead

theorem not_mem_blockHead {c : Char} (hc : isNameChar c = false) (hblank : isBlank c = false) :
    c ∉ blockHead lead name := by
  have hspace : c ≠ ' ' := by
    rintro rfl
    exact absurd hblank (by decide)
  rw [blockHead, List.mem_append, List.mem_append, List.mem_cons, List.mem_append,
    List.mem_singleton, not_or, not_or, not_or, not_or]
  exact ⟨not_mem_of_forall hlead hblank,
    not_mem_of_forall Storage.uniform.isNameChar_of_mem hc, hspace,
    not_mem_of_forall name.isNameChar_of_mem hc, hspace⟩

theorem words_blockHead :
    words (blockHead lead name) = [Storage.uniform.word, name.text.toList] := by
  rw [blockHead, words_append_of_blank hlead, Storage.uniform.isWord.words_append rfl,
    name.isWord.words_append rfl]
  rfl

theorem splitFirst?_block (std140 : Bool) (instanceName : Option Identifier)
    (members : List Variable) :
    splitFirst? '\x7b' (lead ++ (block std140 name instanceName members).content) =
      some (blockHead lead name, blockBody members ++ '\x7d' :: blockTail instanceName) := by
  have hbrace : '\x7b' ∉ blockHead lead name := not_mem_blockHead hlead name (by decide) (by decide)
  have hcontent : lead ++ (block std140 name instanceName members).content =
      blockHead lead name ++ '\x7b' :: (blockBody members ++ '\x7d' :: blockTail instanceName) := by
    simp only [blockHead, content, List.append_assoc, List.cons_append, List.nil_append]
  rw [hcontent, splitFirst?_append_cons hbrace]

end Head

theorem isFunction_text (s : Statement) (hblanks : ∀ c ∈ blanks, isBlank c = true) :
    isFunction (blanks ++ s.text) = false := by
  obtain ⟨lead, hlead, htake⟩ := s.takeLayout_text hblanks
  rw [isFunction, htake]
  cases s with
  | plain storage location v => simp only [splitFirst?_plain storage location v hlead]
  | block std140 name instanceName members =>
      have hparen : '(' ∉ blockHead lead name :=
        not_mem_blockHead hlead name (by decide) (by decide)
      simp only [splitFirst?_block hlead name std140 instanceName members]
      rw [List.contains_eq_mem, decide_eq_false_iff_not]
      exact hparen

theorem declarations_text (s : Statement) (hblanks : ∀ c ∈ blanks, isBlank c = true)
    (line : Nat) (semicolon : Bool) :
    Item.declarations .vertex ⟨line, blanks ++ s.text, semicolon⟩ = .ok [s.declaration] := by
  obtain ⟨lead, hlead, htake⟩ := s.takeLayout_text hblanks
  rw [Item.declarations, s.isFunction_text hblanks]
  cases s with
  | plain storage location v =>
      have hcontent : lead ++ (plain storage location v).content =
          lead ++ storage.word ++ ' ' :: v.text := (List.append_assoc _ _ _).symm
      have hbefore : words (lead ++ storage.word) = [storage.word] := by
        rw [words_append_of_blank hlead, storage.isWord.words_eq]
      simp only [htake, splitFirst?_plain storage location v hlead, Bool.false_eq_true, if_false]
      rw [hcontent]
      exact v.plainDeclarations_text line storage location hbefore
  | block std140 name instanceName members =>
      have htail : '\x7d' ∉ blockTail instanceName :=
        not_mem_blockTail instanceName (by decide) (by decide)
      have hword : ¬Storage.uniform.word ≠ "uniform".toList := fun h => h rfl
      simp only [htake, splitFirst?_block hlead name std140 instanceName members,
        words_blockHead hlead name, splitLast?_append_cons htail, if_neg hword, blockOf_text,
        Bool.false_eq_true, if_false]
      rfl

end Statement

end GlPlayback.Shader
