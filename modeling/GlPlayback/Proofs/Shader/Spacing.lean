import GlPlayback.Proofs.Shader.Places

/-!
A space right behind a top-level item. It changes nothing in the result, except where the entry
point stands behind the place and is found only because of the space.
-/
namespace GlPlayback.Shader

open Text

section Errors

/-- If the attempt fails, then at a token of the line. -/
abbrev FailsInLine {α : Type} (line : Nat) : Except CompileError α → Prop :=
  Yields (fun _ => True) fun e => ∃ token, e = .unexpected line token

variable {stage : Stage} {line : Nat}

theorem FailsInLine.mapM {α β : Type} {f : α → Except CompileError β}
    (hf : ∀ a, FailsInLine line (f a)) (as : List α) : FailsInLine line (as.mapM f) :=
  .of_forall _ (fun _ _ => trivial) fun _ he => (Yields.mapM hf as).failure he

theorem declarators_fails (type : List Char) (rest : List (List Char)) :
    FailsInLine line (declarators line type rest) := by
  refine .mapM (fun text => ?_) _
  cases declarator? text with
  | none => exact ⟨_, rfl⟩
  | some declarator => trivial

theorem memberDecls_fails (statement : List Char) :
    FailsInLine line (memberDecls line statement) := by
  simp only [memberDecls]
  split
  · trivial
  · split
    · exact ⟨_, rfl⟩
    · exact (declarators_fails _ _).bind fun _ _ => trivial

theorem blockOf_fails (name body behind : List Char) :
    FailsInLine line (blockOf line name body behind) :=
  (FailsInLine.mapM memberDecls_fails _).bind fun _ _ => trivial

theorem plainDeclarations_fails (location : Option UInt32) (text : List Char) :
    FailsInLine line (plainDeclarations stage line location text) := by
  simp only [plainDeclarations]
  split
  · trivial
  · split
    · trivial
    · exact ⟨_, rfl⟩
    · split
      · trivial
      · exact (declarators_fails _ _).bind fun _ _ => trivial

/-- What is wrong with an item is reported for the line in which the item starts. -/
theorem Item.declarations_fails (i : Item) : FailsInLine i.line (i.declarations stage) := by
  simp only [Item.declarations]
  split
  · trivial
  · split
    · exact plainDeclarations_fails _ _
    · split
      · trivial
      · split
        · trivial
        · split
          · exact (blockOf_fails _ _ _).bind fun _ _ => trivial
          · exact ⟨_, rfl⟩

/-- Unmatched brackets are not taken for a missing entry point. -/
theorem checkBracketsFrom_yields (line : Nat) (stack : List (Bracket × Nat)) (code : List Char) :
    Yields (fun _ => True) (· ≠ .noMain) (checkBracketsFrom line stack code) := by
  induction code generalizing line stack with
  | nil =>
      cases stack with
      | nil => trivial
      | cons _ _ => exact CompileError.noConfusion
  | cons c rest ih =>
      simp only [checkBracketsFrom]
      split
      · exact ih _ _
      · split
        · exact ih _ _
        · split
          · exact ih _ _
          · split
            · exact CompileError.noConfusion
            · split
              · exact ih _ _
              · exact CompileError.noConfusion

theorem declarationsIn_eq_noMain_iff {code : List Char} :
    declarationsIn stage code = .error .noMain ↔
      checkBrackets code = .ok () ∧ definesMain code = false := by
  have hitem (i : Item) : Yields (fun _ => True) (· ≠ .noMain) (i.declarations stage) := by
    refine .of_forall _ (fun _ _ => trivial) fun e he => ?_
    obtain ⟨token, rfl⟩ := i.declarations_fails.failure he
    exact nofun
  rw [declarationsIn]
  cases hbrackets : checkBrackets code with
  | error e =>
      refine iff_of_false (fun h => ?_) fun h => nomatch h.1
      cases h
      exact (checkBracketsFrom_yields 1 [] code).failure hbrackets rfl
  | ok _ =>
      cases hmain : definesMain code with
      | false => exact iff_of_true rfl ⟨rfl, rfl⟩
      | true =>
          refine iff_of_false (fun h => ?_) fun h => nomatch h.2
          cases hfound : (items code).mapM (Item.declarations stage) with
          | ok found =>
              rw [hfound] at h
              cases h
          | error e =>
              rw [hfound] at h
              cases h
              exact (Yields.mapM hitem _).failure hfound rfl

end Errors

section Code

variable {stage : Stage} {code : List Char}

theorem itemsFrom_space (depth line : Nat) (started : Option Nat) (taken rest : List Char) :
    itemsFrom depth line started taken (' ' :: rest) =
      itemsFrom depth line started (' ' :: taken) rest :=
  rfl

theorem mapM_declarations_eq {is js : List Item} (h : List.Forall₂ (Item.Alike Eq) is js) :
    is.mapM (Item.declarations stage) = js.mapM (Item.declarations stage) := by
  induction h with
  | nil => rfl
  | cons h _ ih => rw [List.mapM_cons, List.mapM_cons, h.declarations_eq, ih]

theorem mapM_items_space (hcode : Apart code) (stage : Stage) (t : List Char) :
    (items (code ++ ' ' :: t)).mapM (Item.declarations stage) =
      (items (code ++ t)).mapM (Item.declarations stage) := by
  obtain ⟨line, started, -, h⟩ := itemsFrom_append fresh_initial 1 code
  let taken := (itemsFrom 0 1 none [] code).2.reverse
  have htaken : trimStart (' ' :: taken).reverse = trimStart taken.reverse := by
    rw [List.reverse_cons, List.reverse_reverse, trimStart_of_blank hcode]
    exact trimStart_of_blank
      (List.forall_mem_append.mpr ⟨hcode, List.forall_mem_singleton.mpr rfl⟩)
  have hstarted : Option.Rel Eq started started := by
    cases started with
    | none => exact .none
    | some _ => exact .some rfl
  have halike :
      List.Forall₂ (Item.Alike Eq) (itemsFrom (depthAfter 0 code) line started (' ' :: taken) t).1
        (itemsFrom (depthAfter 0 code) line started taken t).1 :=
    itemsFrom_alike (fun _ _ => congrArg (· + 1)) rfl hstarted htaken t
  simp only [items, h, itemsFrom_space, List.mapM_append]
  rw [mapM_declarations_eq halike]

variable {s : List Char} {c : Char} (hc : c = ';' ∨ c = '\x7d')
include hc

theorem definesMain_space (t : List Char) : definesMain (s ++ c :: ' ' :: t) =
    (beginsMain (spaceParens t) || definesMain (s ++ c :: t)) := by
  obtain ⟨own, h⟩ := definesMain_join hc s
  have hspace : (spaceParens (' ' :: t)).dropWhile (!isBlank ·) = ' ' :: spaceParens t := by
    rw [spaceParens_cons (by decide)]
    rfl
  rw [h, h, hspace, words_cons rfl, hasMain_words, Bool.or_left_comm]

theorem declarationsIn_space_eq (hcode : Apart (s ++ [c])) {t : List Char}
    (h : ¬(beginsMain (spaceParens t) = true ∧
      declarationsIn stage (s ++ c :: t) = .error .noMain)) :
    declarationsIn stage (s ++ c :: ' ' :: t) = declarationsIn stage (s ++ c :: t) := by
  have hbrackets : checkBrackets (s ++ c :: ' ' :: t) = checkBrackets (s ++ c :: t) := by
    have hspace := checkBracketsFrom_space 1 [] (s ++ [c]) t
    rwa [List.append_assoc, List.append_assoc] at hspace
  rw [declarationsIn_eq_noMain_iff] at h
  rw [declarationsIn, declarationsIn, hbrackets, definesMain_space hc]
  cases hchecked : checkBrackets (s ++ c :: t) with
  | error e => rfl
  | ok _ =>
      have hmain : (beginsMain (spaceParens t) || definesMain (s ++ c :: t)) =
          definesMain (s ++ c :: t) := by
        cases hbegins : beginsMain (spaceParens t) with
        | false => rfl
        | true =>
            cases hdefined : definesMain (s ++ c :: t) with
            | true => rfl
            | false => exact absurd ⟨hbegins, hchecked, hdefined⟩ h
      have hitems := mapM_items_space hcode stage t
      rw [List.append_assoc, List.append_assoc, List.singleton_append, List.singleton_append]
        at hitems
      rw [hmain, hitems]

theorem declarationsIn_space_ne {t : List Char} (h : beginsMain (spaceParens t) = true) :
    declarationsIn stage (s ++ c :: ' ' :: t) ≠ .error .noMain := by
  rw [ne_eq, declarationsIn_eq_noMain_iff, definesMain_space hc, h]
  exact fun hnone => nomatch hnone.2

end Code

/-- The text ends right behind a mark that ends a top-level item, outside comments and preprocessor
lines. -/
structure ItemEnd (before : List Char) : Prop where
  outside : scanAfter .code before = .code
  mark : (stripComments before).getLast? = some ';' ∨ (stripComments before).getLast? = some '\x7d'
  directives : directive? (lastLine (stripComments before)) = none
  apart : Apart (codeOf before)

theorem ItemEnd.stripComments_append {before : List Char} (h : ItemEnd before)
    (after : List Char) :
    stripComments (before ++ after) = stripComments before ++ stripComments after := by
  refine Shader.stripComments_append h.outside ?_ after
  rcases h.mark with hmark | hmark <;> rw [hmark] <;> decide

theorem ItemEnd.exists_line {before : List Char} (h : ItemEnd before) :
    ∃ whole line c, (c = ';' ∨ c = '\x7d') ∧ EndsLine whole ∧ '\n' ∉ line ++ [c] ∧
      directive? (line ++ [c]) = none ∧ stripComments before = whole ++ (line ++ [c]) := by
  obtain ⟨whole, hends, hline, hsplit⟩ := exists_lastLine (stripComments before)
  have hdirective := h.directives
  have hmark := h.mark
  rw [hsplit] at hmark
  generalize lastLine (stripComments before) = line at hline hsplit hdirective hmark
  rcases List.eq_nil_or_concat' line with rfl | ⟨line, c, rfl⟩
  · rcases hends with rfl | ⟨rest, rfl⟩
    · simp at hmark
    · simp at hmark
  · have hc : c = ';' ∨ c = '\x7d' := by simpa [← List.append_assoc] using hmark
    exact ⟨whole, line, c, hc, hends, hline, hdirective, hsplit⟩

/-- What stands behind the place, if it is code and goes on in the same line. -/
def behind (text : List Char) : List Char :=
  (lines text).headD [] ++ '\n' :: blankLines (lines text).tail

/-- A preprocessor line does not begin the entry point. -/
theorem beginsMain_directive {line : List Char} (h : directive? line ≠ none) (rest : List Char) :
    beginsMain (spaceParens (line ++ rest)) = false := by
  rw [ne_eq, directive?_eq_none_iff, not_not] at h
  cases line with
  | nil => cases h
  | cons c more =>
      cases hc : isBlank c with
      | true =>
          have hparen : c ≠ '(' := by
            rintro rfl
            cases hc
          rw [List.cons_append, spaceParens_cons hparen, beginsMain, List.head?_cons,
            Option.any_some, hc]
          rfl
      | false =>
          rw [List.find?_cons_of_pos (by rw [hc]; rfl)] at h
          cases h
          rw [List.cons_append, spaceParens_cons (by decide), beginsMain, words_visible hc]
          rfl

theorem beginsMain_behind (text : List Char) :
    beginsMain (spaceParens (behind text)) =
      beginsMain (spaceParens (blankLines (lines text))) := by
  rw [behind]
  cases lines text with
  | nil => rfl
  | cons first rest =>
      rw [blankLines_cons, List.headD_cons, List.tail_cons]
      by_cases hdirective : directive? first = none
      · rw [lineCode_of_none hdirective]
      · have hcode : lineCode first = [] := if_pos (Option.isSome_iff_ne_none.mpr hdirective)
        rw [hcode, beginsMain_directive hdirective]
        rfl

theorem blankDirectivesFrom_yields (line : Nat) (texts : List (List Char)) :
    Yields (fun _ => True) (· ≠ .noMain) (blankDirectivesFrom line texts) := by
  induction texts generalizing line with
  | nil => trivial
  | cons text rest ih =>
      rw [blankDirectivesFrom_cons]
      split
      · exact nofun
      · exact (ih _).bind fun _ _ => trivial

/-- Whether there is an `#error` line does not depend on a line that is code. -/
theorem exists_checked {whole : List Char} (hends : EndsLine whole) (t : List Char) :
    ∃ checked : Except CompileError Unit, checked ≠ .error .noMain ∧
      ∀ line c, '\n' ∉ line ++ [c] → c ≠ '\r' → (∀ rest, directive? (line ++ [c] ++ rest) = none) →
        blankDirectives (whole ++ (line ++ [c] ++ t)) =
          checked.map fun _ => blankLines (lines whole) ++ (line ++ [c] ++ behind t) := by
  let rest := (lines t).tail
  let checked : Except CompileError Unit := do
    let _ ← blankDirectivesFrom 1 (lines whole)
    let _ ← blankDirectivesFrom (1 + (lines whole).length + 1) rest
    return ()
  have hchecked : Yields (fun _ => True) (· ≠ .noMain) checked :=
    (blankDirectivesFrom_yields _ _).bind fun _ _ =>
      (blankDirectivesFrom_yields _ _).bind fun _ _ => trivial
  refine ⟨checked, fun h => hchecked.failure h rfl, fun line c hline hc hdirective => ?_⟩
  have hreturn : dropCarriageReturn (line ++ [c]) = line ++ [c] := by
    rw [dropCarriageReturn_concat, if_neg hc]
  have hlines : lines (whole ++ (line ++ [c] ++ t)) =
      lines whole ++ (line ++ [c] ++ (lines t).headD []) :: rest := by
    rw [hends.lines_append, lines_continued_eq hline (by simp) hreturn]
  simp only [blankDirectives, hlines, blankDirectivesFrom_append, blankDirectivesFrom_cons,
    errorReason?_of_none (hdirective _), lineCode_of_none (hdirective _), checked]
  cases htexts : blankDirectivesFrom 1 (lines whole) with
  | error e => rfl
  | ok code =>
      cases hrest : blankDirectivesFrom (1 + (lines whole).length + 1) rest with
      | error e => rfl
      | ok later =>
          rw [(blankDirectivesFrom_eq_ok_iff.mp htexts).2,
            (blankDirectivesFrom_eq_ok_iff.mp hrest).2, behind, ← List.append_assoc (line ++ [c])]
          rfl

/-- Code in front of a place and behind it, or an error that has to do with neither. -/
theorem ItemEnd.exists_code {before : List Char} (h : ItemEnd before) (after : List Char) :
    ∃ code c, (c = ';' ∨ c = '\x7d') ∧ Apart (code ++ [c]) ∧
      ∃ checked : Except CompileError Unit, checked ≠ .error .noMain ∧
        blankDirectives (stripComments (before ++ after)) =
          checked.map (fun _ => code ++ c :: behind (stripComments after)) ∧
        blankDirectives (stripComments (before ++ ' ' :: after)) =
          checked.map (fun _ => code ++ c :: ' ' :: behind (stripComments after)) := by
  obtain ⟨whole, line, c, hc, hends, hline, hdirective, hsplit⟩ := h.exists_line
  obtain ⟨checked, hchecked, hblank⟩ := exists_checked hends (stripComments after)
  have hcode : codeOf before = blankLines (lines whole) ++ line ++ [c] ++ ['\n'] := by
    rw [codeOf, hsplit, blankLines_lines hends hline (by simp) hdirective]
    simp only [List.append_assoc]
  have hc' : c ≠ '\r' ∧ isBlank c = false := by
    rcases hc with rfl | rfl <;> decide
  have hvisible : ∃ d ∈ line ++ [c], isBlank d = false := ⟨c, by simp, hc'.2⟩
  have hdirective' := directive?_append_left hdirective hvisible
  refine ⟨blankLines (lines whole) ++ line, c, hc, ?_, checked, hchecked, ?_, ?_⟩
  · have hapart := h.apart
    rw [hcode] at hapart
    exact (apart_append_blanks (List.forall_mem_singleton.mpr rfl)).mp hapart
  · have hplain := hblank line c hline hc'.1 hdirective'
    rw [h.stripComments_append, hsplit, List.append_assoc whole, hplain]
    simp only [List.append_assoc, List.singleton_append]
  · have hline' : '\n' ∉ line ++ [c] ++ [' '] := by
      simpa [not_or] using hline
    have hspaced := hblank (line ++ [c]) ' ' hline' (by decide) fun rest => by
      rw [List.append_assoc (line ++ [c])]
      exact hdirective' _
    have hspace : stripComments (' ' :: after) = [' '] ++ stripComments after := rfl
    have hsource : stripComments (before ++ ' ' :: after) =
        whole ++ (line ++ [c] ++ [' '] ++ stripComments after) := by
      rw [h.stripComments_append, hsplit, hspace]
      simp only [List.append_assoc]
    rw [hsource, hspaced]
    simp only [List.append_assoc, List.cons_append, List.nil_append]

/-- Without comments and preprocessor lines, the source begins with the head of the entry point. -/
def BeginsMain (source : List Char) : Prop :=
  beginsMain (spaceParens (codeOf source)) = true

instance : DecidablePred BeginsMain := fun _ => inferInstanceAs (Decidable (_ = true))

theorem reflect_eq_noMain_iff {stage : Stage} {source : String} :
    reflect stage source = .error .noMain ↔
      declarationsOf stage source.toList = .error .noMain := by
  rw [reflect]
  cases declarationsOf stage source.toList with
  | ok found => exact iff_of_false nofun nofun
  | error e =>
      constructor
      · rintro ⟨⟩
        rfl
      · rintro ⟨⟩
        rfl

/-- A space right behind a top-level item keeps the result, interface or error, unless the entry
point begins there and is not found for want of the space. -/
theorem space_harmless_iff {before : String} (h : ItemEnd before.toList) (stage : Stage)
    (after : String) : reflect stage (before ++ " " ++ after) = reflect stage (before ++ after) ↔
      ¬(BeginsMain after.toList ∧ reflect stage (before ++ after) = .error .noMain) := by
  obtain ⟨code, c, hc, hapart, checked, hchecked, hplain, hspaced⟩ := h.exists_code after.toList
  have hplain' : declarationsOf stage (before ++ after).toList = checked >>= fun _ =>
      declarationsIn stage (code ++ c :: behind (stripComments after.toList)) := by
    rw [String.toList_append, declarationsOf_eq, hplain]
    cases checked <;> rfl
  have hspaced' : declarationsOf stage (before ++ " " ++ after).toList = checked >>= fun _ =>
      declarationsIn stage (code ++ c :: ' ' :: behind (stripComments after.toList)) := by
    have hsource : (before ++ " " ++ after).toList = before.toList ++ ' ' :: after.toList := by
      simp [String.toList_append]
    rw [hsource, declarationsOf_eq, hspaced]
    cases checked <;> rfl
  have hbegins : BeginsMain after.toList ↔
      beginsMain (spaceParens (behind (stripComments after.toList))) = true := by
    rw [beginsMain_behind]
    rfl
  rw [hbegins]
  constructor
  · rintro hsame ⟨hbegins, hnone⟩
    rw [hnone, reflect_eq_noMain_iff, hspaced'] at hsame
    cases checked with
    | error e =>
        cases hsame
        exact hchecked rfl
    | ok _ => exact declarationsIn_space_ne hc hbegins hsame
  · intro hfound
    rw [reflect_eq_noMain_iff, hplain'] at hfound
    rw [reflect, reflect, hplain', hspaced']
    cases checked with
    | error e => rfl
    | ok _ => exact congrArg (Except.map interfaceOf) (declarationsIn_space_eq hc hapart hfound)

/-- A uniform behind the entry point may follow at once. -/
theorem space_harmless_uniform :
    reflect .vertex ("void main() \x7b\x7d" ++ " " ++ "uniform vec2 size;") =
      reflect .vertex ("void main() \x7b\x7d" ++ "uniform vec2 size;") := by
  have hend : ItemEnd "void main() \x7b\x7d".toList :=
    ⟨by decide, by decide, by decide, by decide⟩
  exact (space_harmless_iff hend .vertex "uniform vec2 size;").mpr (by decide)

/-- The entry point of this shader is found only with a space in front of it. -/
theorem space_finds_main :
    ItemEnd "uniform float x;".toList ∧
    reflect .vertex ("uniform float x;" ++ "void main() \x7b\x7d") = .error .noMain ∧
    reflect .vertex ("uniform float x;" ++ " " ++ "void main() \x7b\x7d") = .ok
      ⟨[], [⟨"x", .scalar .float, 1, false⟩], []⟩ :=
  ⟨⟨by decide, by decide, by decide, by decide⟩, by decide, by decide⟩

end GlPlayback.Shader
