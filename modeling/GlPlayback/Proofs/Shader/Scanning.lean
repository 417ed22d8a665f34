import GlPlayback.Shader.Source
import GlPlayback.Proofs.Text.Cutting

/-!
What each pass over a shader's source does with text that is put together from properly nested
pieces.
-/
namespace GlPlayback

namespace Bracket

@[simp]
theorem ofOpening?_opening (b : Bracket) : ofOpening? b.opening = some b := by
  cases b <;> rfl

@[simp]
theorem ofOpening?_closing (b : Bracket) : ofOpening? b.closing = none := by
  cases b <;> rfl

@[simp]
theorem ofClosing?_closing (b : Bracket) : ofClosing? b.closing = some b := by
  cases b <;> rfl

theorem opening_ne_newline (b : Bracket) : b.opening ≠ '\n' := by
  cases b <;> decide

theorem closing_ne_newline (b : Bracket) : b.closing ≠ '\n' := by
  cases b <;> decide

end Bracket

namespace Shader

open Text

section Comments

variable {c : Char} {s : List Char}

theorem pair_infix_cons {a b : Char} :
    [a, b] <:+: c :: s ↔ (a = c ∧ s.head? = some b) ∨ [a, b] <:+: s := by
  rw [List.infix_cons_iff, List.cons_prefix_cons]
  cases s with
  | nil => simp
  | cons d s =>
    have hhead : b = d ↔ (d :: s).head? = some b := by
      rw [List.head?_cons, Option.some_inj, eq_comm]
    rw [List.cons_prefix_cons, hhead, and_iff_left (List.nil_prefix)]

/-- A slash is code unless it begins a comment with the character behind it. -/
theorem stripComments_cons (h : c = '/' → s.head? ≠ some '/' ∧ s.head? ≠ some '*') :
    stripComments (c :: s) = c :: stripComments s :=
  stripCommentsFrom.eq_3 c s (fun _ hc hs => (h hc).1 (hs ▸ rfl))
    fun _ hc hs => (h hc).2 (hs ▸ rfl)

theorem stripComments_eq_self (hline : ¬['/', '/'] <:+: s) (hblock : ¬['/', '*'] <:+: s) :
    stripComments s = s := by
  induction s with
  | nil => rfl
  | cons c s ih =>
    rw [pair_infix_cons, not_or, not_and] at hline hblock
    rw [stripComments_cons fun hc => ⟨hline.1 hc.symm, hblock.1 hc.symm⟩, ih hline.2 hblock.2]

theorem stripComments_eq (hs : '/' ∉ s) : stripComments s = s :=
  stripComments_eq_self (fun h => hs (h.subset List.mem_cons_self))
    fun h => hs (h.subset List.mem_cons_self)

end Comments

section Directives

variable {line : List Char}

theorem directive?_eq_none (hline : '#' ∉ line) : directive? line = none := by
  rw [directive?]
  cases htrimmed : trimStart line with
  | nil => rfl
  | cons c rest =>
      have hmem : c ∈ line := by
        have hsuffix : trimStart line <:+ line := List.dropWhile_suffix isBlank
        exact hsuffix.subset (htrimmed ▸ List.mem_cons_self)
      have hne : '#' ≠ c := fun h => hline (h ▸ hmem)
      rw [afterMark?, if_neg hne]
      rfl

theorem blankDirectivesFrom_eq {texts : List (List Char)} (h : ∀ text ∈ texts, '#' ∉ text)
    (n : Nat) : blankDirectivesFrom n texts = .ok (texts.flatMap (· ++ ['\n'])) := by
  induction texts generalizing n with
  | nil => rfl
  | cons text rest ih =>
      obtain ⟨htext, hrest⟩ := List.forall_mem_cons.mp h
      simp only [blankDirectivesFrom, directive?_eq_none htext, ih hrest, List.flatMap_cons,
        List.append_assoc]
      rfl

theorem dropCarriageReturn_eq (hline : '\r' ∉ line) : dropCarriageReturn line = line := by
  rw [dropCarriageReturn]
  split
  · next rest h => exact absurd (List.mem_reverse.mp (h ▸ List.mem_cons_self)) hline
  · rfl

/-- Lines without carriage returns, the last of them not empty. -/
theorem lines_flatMap {texts : List (List Char)} {last : List Char}
    (htexts : ∀ text ∈ texts, '\n' ∉ text ∧ '\r' ∉ text) (hlast : '\n' ∉ last)
    (hne : last ≠ []) :
    lines (texts.flatMap (· ++ ['\n']) ++ last) = texts ++ [last] := by
  have hother {text : List Char} (h : '\n' ∉ text) : ∀ c ∈ text, (c == '\n') = false :=
    fun c hc => beq_eq_false_iff_ne.mpr fun heq => h (heq ▸ hc)
  have hcut := splitWhere_flatMap (p := (· == '\n')) (c := '\n') (f := id) rfl texts
    (fun text htext => hother (htexts text htext).1) last
  rw [splitWhere_of_forall (hother hlast), List.map_id] at hcut
  have hkept : texts.map dropCarriageReturn = texts := by
    rw [List.map_congr_left fun text htext => dropCarriageReturn_eq (htexts text htext).2]
    exact List.map_id' texts
  have hcut' : splitWhere (· == '\n') (texts.flatMap (· ++ ['\n']) ++ last) = texts ++ [last] :=
    hcut
  simp only [lines, hcut', List.dropLast_concat, hkept, List.getLastD_concat,
    List.isEmpty_eq_false_iff.mpr hne]
  rfl

end Directives

/-- A character that is no bracket. -/
def isPlain (c : Char) : Bool :=
  (Bracket.ofOpening? c).isNone && (Bracket.ofClosing? c).isNone

theorem isPlain_iff {c : Char} :
    isPlain c = true ↔ Bracket.ofOpening? c = none ∧ Bracket.ofClosing? c = none := by
  simp [isPlain]

/-- Characters of a kind to which no bracket belongs. -/
theorem isPlain_of_forall {p : Char → Bool}
    (hp : ∀ b : Bracket, p b.opening = false ∧ p b.closing = false) {c : Char} (hc : p c = true) :
    isPlain c = true := by
  have hne {d : Char} (hd : p d = false) : c ≠ d := by
    rintro rfl
    exact absurd (hc.symm.trans hd) (by decide)
  have hopening : Bracket.ofOpening? c = none := by
    simp only [Bracket.ofOpening?, if_neg (hne (hp _).1)]
  have hclosing : Bracket.ofClosing? c = none := by
    simp only [Bracket.ofClosing?, if_neg (hne (hp _).2)]
  exact isPlain_iff.mpr ⟨hopening, hclosing⟩

/-- Text in which brackets match. -/
inductive Nests : List Char → Prop
  | nil : Nests []
  | plain {c : Char} {rest : List Char} (hc : isPlain c = true) (hrest : Nests rest) :
      Nests (c :: rest)
  | enclosed (b : Bracket) {inside rest : List Char} (hinside : Nests inside)
      (hrest : Nests rest) : Nests (b.opening :: (inside ++ b.closing :: rest))

namespace Nests

variable {s t : List Char}

theorem of_plain (hs : ∀ c ∈ s, isPlain c = true) : Nests s := by
  induction s with
  | nil => exact nil
  | cons c rest ih =>
      obtain ⟨hc, hrest⟩ := List.forall_mem_cons.mp hs
      exact plain hc (ih hrest)

theorem append (hs : Nests s) (ht : Nests t) : Nests (s ++ t) := by
  induction hs with
  | nil => exact ht
  | plain hc _ ih => exact plain hc ih
  | enclosed b hinside _ _ ih =>
      rw [List.cons_append, List.append_assoc, List.cons_append]
      exact enclosed b hinside ih

theorem flatMap {α : Type} {f : α → List Char} (xs : List α) (hf : ∀ x ∈ xs, Nests (f x)) :
    Nests (xs.flatMap f) := by
  induction xs with
  | nil => exact nil
  | cons x rest ih =>
      obtain ⟨hx, hrest⟩ := List.forall_mem_cons.mp hf
      exact hx.append (ih hrest)

theorem checkBracketsFrom_append (hs : Nests s) (line : Nat) (stack : List (Bracket × Nat))
    (rest : List Char) :
    ∃ line', checkBracketsFrom line stack (s ++ rest) = checkBracketsFrom line' stack rest := by
  induction hs generalizing line stack rest with
  | nil => exact ⟨line, rfl⟩
  | @plain c _ hc _ ih =>
      obtain ⟨hopening, hclosing⟩ := isPlain_iff.mp hc
      simp only [List.cons_append, checkBracketsFrom, hopening, hclosing]
      split
      · exact ih (line + 1) stack rest
      · exact ih line stack rest
  | @enclosed b _ after _ _ ihInside ihRest =>
      obtain ⟨inner, hinner⟩ := ihInside line ((b, line) :: stack) (b.closing :: (after ++ rest))
      obtain ⟨line', houter⟩ := ihRest inner stack rest
      refine ⟨line', ?_⟩
      simp only [List.cons_append, List.append_assoc, checkBracketsFrom,
        if_neg b.opening_ne_newline, Bracket.ofOpening?_opening, hinner,
        if_neg b.closing_ne_newline, Bracket.ofOpening?_closing, Bracket.ofClosing?_closing,
        if_true, houter]

theorem checkBrackets_eq (hs : Nests s) : checkBrackets s = .ok () := by
  obtain ⟨line', h⟩ := hs.checkBracketsFrom_append 1 [] []
  rw [checkBrackets, ← List.append_nil s, h]
  rfl

end Nests

/-- The scan for items goes over `s` and ends none, from one depth of brackets to another. The
text of the current item was `taken` before, backwards. -/
def Scans (depth : Nat) (taken s : List Char) (depth' : Nat) : Prop :=
  ∀ line started rest, ∃ line' started', itemsFrom depth line started taken (s ++ rest) =
    itemsFrom depth' line' started' (s.reverse ++ taken) rest

namespace Scans

variable {depth depth₁ depth₂ : Nat} {taken s t : List Char}

theorem nil (depth : Nat) (taken : List Char) : Scans depth taken [] depth :=
  fun line started _ => ⟨line, started, rfl⟩

theorem append (hs : Scans depth taken s depth₁)
    (ht : Scans depth₁ (s.reverse ++ taken) t depth₂) : Scans depth taken (s ++ t) depth₂ := by
  intro line started rest
  obtain ⟨line₁, started₁, h₁⟩ := hs line started (t ++ rest)
  obtain ⟨line₂, started₂, h₂⟩ := ht line₁ started₁ rest
  refine ⟨line₂, started₂, ?_⟩
  rw [List.append_assoc, h₁, h₂, List.reverse_append, List.append_assoc]

theorem plain {c : Char} (hc : isPlain c = true) (hstop : c = ';' → depth ≠ 0)
    (taken : List Char) : Scans depth taken [c] depth := by
  intro line started rest
  obtain ⟨hopening, hclosing⟩ := isPlain_iff.mp hc
  have hgoes : ¬(c = ';' ∧ depth = 0) := fun h => hstop h.1 h.2
  simp only [List.cons_append, List.nil_append, itemsFrom, hopening, hclosing,
    Option.isSome_none, Bool.false_eq_true, if_false, if_neg hgoes, List.reverse_singleton]
  exact ⟨_, _, rfl⟩

theorem opening (b : Bracket) (depth : Nat) (taken : List Char) :
    Scans depth taken [b.opening] (depth + 1) := by
  intro line started rest
  simp only [List.cons_append, List.nil_append, itemsFrom, Bracket.ofOpening?_opening,
    Option.isSome_some, if_true, List.reverse_singleton]
  exact ⟨_, _, rfl⟩

/-- A brace that ends a function would end the item too. -/
theorem closing (b : Bracket)
    (hbody : b = .brace → depth = 0 → isFunction (b.closing :: taken).reverse = false) :
    Scans (depth + 1) taken [b.closing] depth := by
  intro line started rest
  have hgoes : ¬(b.closing = '\x7d' ∧ depth = 0 ∧
      isFunction (b.closing :: taken).reverse = true) := by
    rintro ⟨hbrace, hdepth, hfunction⟩
    have hb : b = .brace := by
      cases b
      · rfl
      · exact absurd hbrace (by decide)
      · exact absurd hbrace (by decide)
    rw [hbody hb hdepth] at hfunction
    exact absurd hfunction Bool.false_ne_true
  simp only [List.cons_append, List.nil_append, itemsFrom, Bracket.ofOpening?_closing,
    Bracket.ofClosing?_closing, Option.isSome_none, Option.isSome_some, Bool.false_eq_true,
    if_false, if_true, Nat.add_sub_cancel, if_neg hgoes, List.reverse_singleton]
  exact ⟨_, _, rfl⟩

end Scans

/-- Inside brackets the scan for items goes over everything that nests. -/
theorem Nests.scans {s : List Char} (hs : Nests s) (depth : Nat) (taken : List Char) :
    Scans (depth + 1) taken s (depth + 1) := by
  induction hs generalizing depth taken with
  | nil => exact Scans.nil _ _
  | plain hc _ ih =>
      exact (Scans.plain hc (fun _ => Nat.succ_ne_zero _) taken).append (ih depth _)
  | @enclosed b inside rest _ _ ihInside ihRest =>
      have hopened := (Scans.opening b (depth + 1) taken).append (ihInside (depth + 1) _)
      have hclosed := hopened.append (Scans.closing b fun _ h => absurd h (Nat.succ_ne_zero _))
      have hall := hclosed.append (ihRest depth _)
      rw [List.append_assoc, List.append_assoc] at hall
      exact hall

namespace Scans

variable {taken s : List Char}

theorem enclosed (b : Bracket) {inside : List Char} (hinside : Nests inside)
    (hbody : b = .brace →
      isFunction (taken.reverse ++ b.opening :: (inside ++ [b.closing])) = false) :
    Scans 0 taken (b.opening :: (inside ++ [b.closing])) 0 := by
  have hopened := (opening b 0 taken).append (hinside.scans 0 _)
  refine hopened.append (closing b fun hb _ => ?_)
  rw [← hbody hb]
  congr 1
  simp

/-- A semicolon behind the text makes an item of it. -/
theorem semicolon (hs : Scans 0 taken s 0) (line : Nat) (started : Option Nat)
    (rest : List Char) :
    ∃ first line', itemsFrom 0 line started taken (s ++ ';' :: rest) =
      (⟨first, taken.reverse ++ s, true⟩ :: (itemsFrom 0 line' none [] rest).1,
        (itemsFrom 0 line' none [] rest).2) := by
  obtain ⟨line', started', h⟩ := hs line started (';' :: rest)
  have htext : (s.reverse ++ taken).reverse = taken.reverse ++ s := by simp
  refine ⟨started'.getD line', line', h.trans ?_⟩
  rw [← htext]
  cases started' <;> rfl

/-- A brace that ends a function makes an item of it. -/
theorem function (hs : Scans 0 taken s 1)
    (hbody : isFunction (taken.reverse ++ (s ++ ['\x7d'])) = true) (line : Nat)
    (started : Option Nat) (rest : List Char) :
    ∃ first line', itemsFrom 0 line started taken (s ++ '\x7d' :: rest) =
      (⟨first, taken.reverse ++ (s ++ ['\x7d']), false⟩ :: (itemsFrom 0 line' none [] rest).1,
        (itemsFrom 0 line' none [] rest).2) := by
  obtain ⟨line', started', h⟩ := hs line started ('\x7d' :: rest)
  have htext : ('\x7d' :: (s.reverse ++ taken)).reverse = taken.reverse ++ (s ++ ['\x7d']) := by
    simp
  have hopening : Bracket.ofOpening? '\x7d' = none := rfl
  have hclosing : Bracket.ofClosing? '\x7d' = some .brace := rfl
  refine ⟨started'.getD line', line', h.trans ?_⟩
  rw [itemsFrom]
  simp only [hopening, hclosing, Option.isSome_none, Option.isSome_some, Bool.false_eq_true,
    if_false, if_true, htext, hbody, and_self]
  cases started' <;> rfl

end Scans

/-- Outside brackets a semicolon would end the item, and the end of a brace could. -/
theorem Nests.scans_surface {s : List Char} (hs : Nests s) (hmark : ';' ∉ s)
    (hbrace : '\x7b' ∉ s) (taken : List Char) : Scans 0 taken s 0 := by
  induction hs generalizing taken with
  | nil => exact Scans.nil _ _
  | @plain c rest hc _ ih =>
      rw [List.mem_cons, not_or] at hmark hbrace
      refine (Scans.plain hc (fun h => absurd h.symm hmark.1) taken).append ?_
      exact ih hmark.2 hbrace.2 _
  | @enclosed b inside rest hinside _ _ ih =>
      have hsplit : b.opening :: (inside ++ b.closing :: rest) =
          b.opening :: (inside ++ [b.closing]) ++ rest := by simp
      rw [hsplit] at hmark hbrace ⊢
      rw [List.mem_append, not_or] at hmark hbrace
      have hb : b ≠ .brace := by
        rintro rfl
        exact hbrace.1 List.mem_cons_self
      refine (Scans.enclosed b hinside fun h => absurd h hb).append ?_
      exact ih hmark.2 hbrace.2 _

theorem hasRun_append {a b c : List Char} {ws : List (List Char)} (h : hasRun a b c ws = true)
    (before : List (List Char)) : hasRun a b c (before ++ ws) = true := by
  induction before with
  | nil => exact h
  | cons w rest ih =>
      rw [List.cons_append]
      match hrest : rest ++ ws with
      | x :: y :: more =>
          rw [hasRun, ← hrest, ih, Bool.or_true]
      | [x] =>
          rw [hrest] at ih
          exact absurd ih Bool.false_ne_true
      | [] =>
          rw [hrest] at ih
          exact absurd ih Bool.false_ne_true

end Shader

end GlPlayback
