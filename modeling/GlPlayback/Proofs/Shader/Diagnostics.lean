import GlPlayback.Proofs.Shader.Brackets
import GlPlayback.Proofs.Shader.Heads
import GlPlayback.Proofs.Shader.Spacing

/-!
Which line of a source an error names. Comments are taken out of a source line by line here, so that
a bracket has the number of the line in which it stands.
-/
namespace GlPlayback.Shader

open Text

section Comments

/-- Comments are taken out of a line whatever follows it, and leave `own`. At the end of a text, a
space stands for a block comment that is still open. -/
structure Leaves (scan : CommentScan) (line own : List Char) : Prop where
  single : '\n' ∉ own
  alone : stripCommentsFrom scan line = own ∨ stripCommentsFrom scan line = own ++ [' ']
  continued (rest : List Char) : stripCommentsFrom scan (line ++ '\n' :: rest) =
    own ++ '\n' :: stripCommentsFrom (scanAfter scan (line ++ ['\n'])) rest

namespace Leaves

variable {scan scan' : CommentScan} {line line' own : List Char}

theorem skip (h : Leaves scan' line' own)
    (hline : stripCommentsFrom scan line = stripCommentsFrom scan' line')
    (hnext : ∀ rest, stripCommentsFrom scan (line ++ '\n' :: rest) =
      stripCommentsFrom scan' (line' ++ '\n' :: rest))
    (hafter : scanAfter scan (line ++ ['\n']) = scanAfter scan' (line' ++ ['\n'])) :
    Leaves scan line own where
  single := h.single
  alone := hline ▸ h.alone
  continued rest := by rw [hnext, h.continued, hafter]

theorem cons {c : Char} (h : Leaves scan' line' own) (hc : c ≠ '\n')
    (hline : stripCommentsFrom scan line = c :: stripCommentsFrom scan' line')
    (hnext : ∀ rest, stripCommentsFrom scan (line ++ '\n' :: rest) =
      c :: stripCommentsFrom scan' (line' ++ '\n' :: rest))
    (hafter : scanAfter scan (line ++ ['\n']) = scanAfter scan' (line' ++ ['\n'])) :
    Leaves scan line (c :: own) where
  single := by
    rw [List.mem_cons, not_or]
    exact ⟨hc.symm, h.single⟩
  alone := by
    rw [hline]
    exact h.alone.imp (congrArg (c :: ·)) (congrArg (c :: ·))
  continued rest := by rw [hnext, h.continued, hafter, List.cons_append]

end Leaves

theorem exists_leaves (scan : CommentScan) {line : List Char} (hline : '\n' ∉ line) :
    ∃ own, Leaves scan line own := by
  fun_induction stripCommentsFrom scan line with
  | case1 rest ih =>
      obtain ⟨own, h⟩ := ih fun hmem =>
        hline (List.mem_cons_of_mem _ (List.mem_cons_of_mem _ hmem))
      exact ⟨own, h.skip rfl (fun _ => rfl) rfl⟩
  | case2 rest ih =>
      obtain ⟨own, h⟩ := ih fun hmem =>
        hline (List.mem_cons_of_mem _ (List.mem_cons_of_mem _ hmem))
      exact ⟨own, h.skip rfl (fun _ => rfl) rfl⟩
  | case3 c rest hslash hstar ih =>
      rw [List.mem_cons, not_or] at hline
      obtain ⟨own, h⟩ := ih hline.2
      -- A line feed behind the line begins no comment either.
      have hmark {d : Char} (hd : d ≠ '\n') (hno : ∀ more, c = '/' → rest = d :: more → False)
          (next more : List Char) (hc : c = '/') (heq : rest ++ '\n' :: next = d :: more) :
          False := by
        cases rest with
        | nil => exact hd (List.head_eq_of_cons_eq heq).symm
        | cons e rest => exact hno rest hc (by rw [List.head_eq_of_cons_eq heq])
      refine ⟨c :: own, h.cons (Ne.symm hline.1) (stripCommentsFrom.eq_3 c rest hslash hstar)
        (fun next => ?_) ?_⟩
      · exact stripCommentsFrom.eq_3 c _ (hmark (by decide) hslash next)
          (hmark (by decide) hstar next)
      · exact scanAfter.eq_3 c _ (hmark (by decide) hslash []) (hmark (by decide) hstar [])
  | case4 rest ih => exact absurd List.mem_cons_self hline
  | case5 c rest hc ih =>
      obtain ⟨own, h⟩ := ih (List.not_mem_of_not_mem_cons hline)
      refine ⟨own, h.skip ?_ (fun next => ?_) ?_⟩
      · rw [stripCommentsFrom, if_neg hc]
      · rw [List.cons_append, stripCommentsFrom, if_neg hc]
      · rw [List.cons_append, scanAfter, if_neg hc]
  | case6 star c rest hclose ih =>
      obtain ⟨own, h⟩ := ih (List.not_mem_of_not_mem_cons hline)
      refine ⟨' ' :: own, h.cons (by decide) ?_ (fun next => ?_) ?_⟩
      · rw [stripCommentsFrom, if_pos hclose]
      · rw [List.cons_append, stripCommentsFrom, if_pos hclose]
      · rw [List.cons_append, scanAfter, if_pos hclose]
  | case7 star rest hclose ih => exact absurd List.mem_cons_self hline
  | case8 star c rest hclose hc ih =>
      obtain ⟨own, h⟩ := ih (List.not_mem_of_not_mem_cons hline)
      refine ⟨own, h.skip ?_ (fun next => ?_) ?_⟩
      · rw [stripCommentsFrom, if_neg hclose, if_neg hc]
      · rw [List.cons_append, stripCommentsFrom, if_neg hclose, if_neg hc]
      · rw [List.cons_append, scanAfter, if_neg hclose]
  | case9 star =>
      refine ⟨[], List.not_mem_nil, .inr rfl, fun next => ?_⟩
      simp [stripCommentsFrom, scanAfter]
  | case10 => exact ⟨[], List.not_mem_nil, .inl rfl, fun _ => rfl⟩
  | case11 => exact ⟨[], List.not_mem_nil, .inl rfl, fun _ => rfl⟩

end Comments

section Lines

/-- What comments leave of each line. The scan for comments goes on from one line to the next. -/
def bareLinesFrom (scan : CommentScan) : List (List Char) → List (List Char)
  | [] => []
  | line :: rest =>
      stripCommentsFrom scan line :: bareLinesFrom (scanAfter scan (line ++ ['\n'])) rest

/-- The lines of a source without comments. -/
def bareLines (source : List Char) : List (List Char) :=
  bareLinesFrom .code (splitWhere (· == '\n') source)

/-- The lines in which directives are looked for lack blanks at the end of the bare lines, and also
the last one if nothing is left of it. -/
inductive Kept : List (List Char) → List (List Char) → Prop
  | nil : Kept [] []
  | last : Kept [] [[]]
  | cons {text gap : List Char} {texts bares : List (List Char)} (htext : '\n' ∉ text)
      (hgap : ∀ c ∈ gap, isBlank c = true) (hrest : Kept texts bares) :
      Kept (text :: texts) ((text ++ gap) :: bares)

theorem kept_line (scan : CommentScan) {line : List Char} (hline : '\n' ∉ line) :
    Kept (lines (stripCommentsFrom scan line)) [stripCommentsFrom scan line] := by
  obtain ⟨own, h⟩ := exists_leaves scan hline
  have hsingle : '\n' ∉ stripCommentsFrom scan line := by
    rcases h.alone with halone | halone <;> rw [halone]
    · exact h.single
    · simpa using h.single
  rw [lines_line hsingle]
  split
  · next hnil =>
      rw [hnil]
      exact .last
  · have hkept := Kept.cons hsingle (List.forall_mem_nil _) .nil
    rwa [List.append_nil] at hkept

theorem kept_lines (scan : CommentScan) (source : List Char) :
    Kept (lines (stripCommentsFrom scan source))
      (bareLinesFrom scan (splitWhere (· == '\n') source)) := by
  -- The recursion takes off the first line, behind which the scan may be inside a comment.
  by_cases hnewline : '\n' ∈ source
  · obtain ⟨line, rest, hsource, hline⟩ := List.eq_append_cons_of_mem hnewline
    have hrest := kept_lines (scanAfter scan (line ++ ['\n'])) rest
    obtain ⟨own, h⟩ := exists_leaves scan hline
    obtain ⟨gap, hgap, hown⟩ := exists_dropCarriageReturn own
    have htext : '\n' ∉ dropCarriageReturn own := fun hmem =>
      h.single (hown ▸ List.mem_append_left gap hmem)
    rw [hsource, h.continued, lines_newline, fullLines_line h.single, splitWhere_newline,
      splitWhere_line hline, List.singleton_append, List.singleton_append, bareLinesFrom]
    rcases h.alone with halone | halone
    · rw [halone]
      conv => arg 2; rw [hown]
      exact .cons htext hgap hrest
    · rw [halone]
      conv => arg 2; rw [hown, List.append_assoc]
      exact .cons htext (List.forall_mem_append.mpr ⟨hgap, List.forall_mem_singleton.mpr rfl⟩) hrest
  · rw [splitWhere_line hnewline]
    exact kept_line scan hnewline
termination_by source.length
decreasing_by
  rw [hsource, List.length_append, List.length_cons]
  omega

end Lines

section Marks

variable {texts bares : List (List Char)}

/-- The brackets of the lines, the first of which has the number `line`. Lines that begin with a
number sign, behind blanks, are for the preprocessor. -/
def bracketsFrom (line : Nat) : List (List Char) → List (Char × Nat)
  | [] => []
  | bare :: rest =>
      (if bare.find? (!isBlank ·) = some '#' then [] else (bare.filter (!isPlain ·)).map (·, line))
        ++ bracketsFrom (line + 1) rest

/-- The brackets of a source outside comments and preprocessor lines, with their lines. -/
def brackets (source : List Char) : List (Char × Nat) :=
  bracketsFrom 1 (bareLines source)

theorem marksFrom_line {text : List Char} (htext : '\n' ∉ text) (line : Nat) (rest : List Char) :
    marksFrom line (text ++ '\n' :: rest) =
      (text.filter (!isPlain ·)).map (·, line) ++ marksFrom (line + 1) rest := by
  induction text with
  | nil => exact if_pos rfl
  | cons c text ih =>
      rw [List.mem_cons, not_or] at htext
      rw [List.cons_append, marksFrom, if_neg (Ne.symm htext.1), ih htext.2]
      cases hc : isPlain c with
      | true => rw [if_pos rfl, List.filter_cons_of_neg (by rw [hc]; decide)]
      | false =>
          rw [if_neg Bool.false_ne_true, List.filter_cons_of_pos (by rw [hc]; rfl), List.map_cons,
            List.cons_append]

/-- Taking out directives moves no bracket to another line. -/
theorem Kept.marksFrom_blankLines (h : Kept texts bares) (line : Nat) :
    marksFrom line (blankLines texts) = bracketsFrom line bares := by
  induction h generalizing line with
  | nil => rfl
  | last => rfl
  | @cons text gap _ _ htext hgap _ ih =>
      have hfind : gap.find? (!isBlank ·) = none := by
        rw [List.find?_eq_none]
        exact fun c hc => by rw [hgap c hc]; decide
      have hfilter : gap.filter (!isPlain ·) = [] := by
        rw [List.filter_eq_nil_iff]
        exact fun c hc => by rw [isPlain_of_isBlank (hgap c hc)]; decide
      have hcode : '\n' ∉ lineCode text := by
        rw [lineCode]
        split
        · exact List.not_mem_nil
        · exact htext
      rw [blankLines_cons, marksFrom_line hcode, ih, bracketsFrom, List.find?_append, hfind,
        Option.or_none, List.filter_append, hfilter, List.append_nil]
      split
      · next hmark =>
          have hdirective : directive? text ≠ none := by
            rw [ne_eq, directive?_eq_none_iff, not_not]
            exact hmark
          rw [lineCode, if_pos (Option.isSome_iff_ne_none.mpr hdirective)]
          rfl
      · next hmark => rw [lineCode_of_none (directive?_eq_none_iff.mpr hmark)]

/-- These are the brackets of the code. -/
theorem marksFrom_codeOf (source : List Char) : marksFrom 1 (codeOf source) = brackets source :=
  (kept_lines .code source).marksFrom_blankLines 1

end Marks

section Errors

/-- The line has a directive that begins with `error`. -/
def IsError (text : List Char) : Prop :=
  ∃ lead gap reason, text = lead ++ '#' :: (gap ++ ("error".toList ++ reason)) ∧
    (∀ c ∈ lead, isBlank c = true) ∧ ∀ c ∈ gap, isBlank c = true

theorem errorReason?_isSome_iff {text : List Char} :
    (errorReason? text).isSome = true ↔ IsError text := by
  rw [Option.isSome_iff_exists]
  constructor
  · rintro ⟨reason, h⟩
    obtain ⟨body, hbody, herror⟩ := Option.bind_eq_some_iff.mp h
    obtain ⟨behind, hbehind, rfl⟩ := Option.map_eq_some_iff.mp hbody
    obtain ⟨lead, hlead, htext⟩ := exists_trimStart text
    obtain ⟨gap, hgap, hsplit⟩ := exists_trimStart behind
    rw [eq_of_afterMark? hbehind, hsplit, eq_of_afterMark? herror] at htext
    exact ⟨lead, gap, reason, htext, hlead, hgap⟩
  · rintro ⟨lead, gap, reason, rfl, hlead, hgap⟩
    refine ⟨reason, ?_⟩
    have hbody : directive? (lead ++ '#' :: (gap ++ ("error".toList ++ reason))) =
        some ("error".toList ++ reason) := by
      rw [directive?, trimStart_append hlead, trimStart_cons (by decide)]
      exact congrArg some (trimStart_append hgap _)
    rw [errorReason?, hbody]
    rfl

instance : DecidablePred IsError := fun _ => decidable_of_iff _ errorReason?_isSome_iff

theorem isError_append_iff {text gap : List Char} (hgap : ∀ c ∈ gap, isBlank c = true) :
    IsError (text ++ gap) ↔ IsError text := by
  constructor
  · rintro ⟨lead, between, reason, h, hlead, hbetween⟩
    have hword : "error".toList = "erro".toList ++ ['r'] := by decide
    have hblank {more : List Char} : ¬∃ before, gap = before ++ 'r' :: more := by
      rintro ⟨before, rfl⟩
      have hr := hgap 'r' (by simp)
      cases hr
    have hcut : text ++ gap =
        (lead ++ '#' :: (between ++ "erro".toList)) ++ 'r' :: reason := by
      rw [h, hword]
      simp only [List.append_assoc, List.cons_append, List.nil_append]
    rcases List.append_eq_append_iff.mp hcut with ⟨own, -, hgap'⟩ | ⟨own, htext, hreason⟩
    · exact absurd ⟨own, hgap'⟩ hblank
    · cases own with
      | nil => exact absurd ⟨[], hreason.symm⟩ hblank
      | cons d own =>
          obtain ⟨rfl, -⟩ := List.cons.inj hreason
          refine ⟨lead, between, own, ?_, hlead, hbetween⟩
          rw [htext, hword]
          simp only [List.append_assoc, List.cons_append, List.nil_append]
  · rintro ⟨lead, between, reason, rfl, hlead, hbetween⟩
    exact ⟨lead, between, reason ++ gap, by simp only [List.append_assoc, List.cons_append],
      hlead, hbetween⟩

/-- The error names the first error line of these, the first of which has the number `line`. -/
def FirstError (line : Nat) (bares : List (List Char)) (e : CompileError) : Prop :=
  ∃ before bare after reason, bares = before ++ bare :: after ∧ (∀ b ∈ before, ¬IsError b) ∧
    IsError bare ∧ e = .errorDirective (line + before.length) reason

theorem FirstError.cons {line : Nat} {bares : List (List Char)} {e : CompileError}
    {bare : List Char} (hbare : ¬IsError bare) (h : FirstError (line + 1) bares e) :
    FirstError line (bare :: bares) e := by
  obtain ⟨before, found, after, reason, rfl, hbefore, hfound, rfl⟩ := h
  refine ⟨bare :: before, found, after, reason, rfl, List.forall_mem_cons.mpr ⟨hbare, hbefore⟩,
    hfound, ?_⟩
  rw [List.length_cons, Nat.add_assoc, Nat.add_comm 1]

theorem Kept.blankDirectives_yields {texts bares : List (List Char)} (h : Kept texts bares)
    (line : Nat) :
    Yields (fun code => (∀ bare ∈ bares, ¬IsError bare) ∧ code = blankLines texts)
      (FirstError line bares) (blankDirectivesFrom line texts) := by
  induction h generalizing line with
  | nil => exact ⟨List.forall_mem_nil _, rfl⟩
  | last => exact ⟨List.forall_mem_singleton.mpr (by decide), rfl⟩
  | @cons text gap _ bares _ hgap _ ih =>
      rw [blankDirectivesFrom_cons]
      cases hreason : errorReason? text with
      | some reason =>
          have herror : IsError (text ++ gap) :=
            (isError_append_iff hgap).mpr (errorReason?_isSome_iff.mp (by rw [hreason]; rfl))
          exact ⟨[], text ++ gap, bares, _, rfl, List.forall_mem_nil _, herror, rfl⟩
      | none =>
          have herror : ¬IsError (text ++ gap) := by
            rw [isError_append_iff hgap, ← errorReason?_isSome_iff, hreason]
            exact Bool.false_ne_true
          refine ((ih (line + 1)).imp (fun _ => id) fun _ he => he.cons herror).bind
            fun code hcode => ?_
          obtain ⟨hbares, rfl⟩ := hcode
          exact ⟨List.forall_mem_cons.mpr ⟨herror, hbares⟩, (blankLines_cons text _).symm⟩

end Errors

section Reflection

/-- The error is about a bracket. A declaration may also stop making sense at a word that happens to
be a bracket, which is no such error. -/
def IsBracketError : CompileError → Prop
  | .unmatched _ _ | .unclosed _ _ => True
  | _ => False

theorem Blames.isBracketError {marks : List (Char × Nat)} {e : CompileError} (h : Blames marks e) :
    IsBracketError e := by
  cases e with
  | unmatched | unclosed => trivial
  | errorDirective | noMain | unexpected => exact h

/-- The error is about a bracket exactly if the brackets do not nest, and then about the right
one. -/
def Judges (marks : List (Char × Nat)) (e : CompileError) : Prop :=
  (IsBracketError e ↔ ¬Nests (symbols marks)) ∧ (IsBracketError e → Blames marks e)

theorem Blames.judges {marks : List (Char × Nat)} {e : CompileError} (h : Blames marks e)
    (hmarks : ¬Nests (symbols marks)) : Judges marks e :=
  ⟨iff_of_true h.isBracketError hmarks, fun _ => h⟩

theorem judges_of_nests {marks : List (Char × Nat)} {e : CompileError}
    (hmarks : Nests (symbols marks)) (he : ¬IsBracketError e) : Judges marks e :=
  ⟨iff_of_false he (not_not_intro hmarks), fun h => absurd h he⟩

theorem Item.declarations_other (stage : Stage) (i : Item) :
    Yields (fun _ => True) (¬IsBracketError ·) (i.declarations stage) :=
  i.declarations_fails.imp (fun _ => id) fun _ ⟨_, he⟩ => he ▸ id

/-- Errors about brackets come from the check of brackets alone. -/
theorem declarationsIn_judges (stage : Stage) (code : List Char) :
    Yields (fun _ => Nests (symbols (marksFrom 1 code))) (Judges (marksFrom 1 code))
      (declarationsIn stage code) := by
  refine Yields.bind ((checkBrackets_blames code).imp (fun _ => id) fun _ he => he.1.judges he.2)
    fun _ hnests => ?_
  cases definesMain code with
  | false => exact judges_of_nests hnests id
  | true =>
      exact ((Yields.mapM (Item.declarations_other stage) (items code)).imp (fun _ _ => trivial)
        fun _ he => judges_of_nests hnests he).bind fun _ _ => hnests

theorem reflect_judges (stage : Stage) (source : String) :
    Yields (fun _ => (∀ bare ∈ bareLines source.toList, ¬IsError bare) ∧
        Nests (symbols (brackets source.toList)))
      (fun e => FirstError 1 (bareLines source.toList) e ∨
        (∀ bare ∈ bareLines source.toList, ¬IsError bare) ∧ Judges (brackets source.toList) e)
      (reflect stage source) := by
  have hblank := (kept_lines .code source.toList).blankDirectives_yields 1
  refine Yields.map ((hblank.imp (fun _ => id) fun _ => .inl).bind ?_) fun _ => id
  rintro _ ⟨hnone, rfl⟩
  have hcode := declarationsIn_judges stage (codeOf source.toList)
  rw [marksFrom_codeOf] at hcode
  exact hcode.imp (fun _ hnests => ⟨hnone, hnests⟩) fun _ he => .inr ⟨hnone, he⟩

/-- Without an error line, reflection reports a bracket exactly if the brackets of the source do not
nest, and the right one with its line. Otherwise it reports the first error line. -/
theorem reflect_blames (stage : Stage) (source : String) :
    ((∀ bare ∈ bareLines source.toList, ¬IsError bare) →
      ((∃ e, IsBracketError e ∧ reflect stage source = .error e) ↔
        ¬Nests (symbols (brackets source.toList))) ∧
      ∀ e, IsBracketError e → reflect stage source = .error e →
        Blames (brackets source.toList) e) ∧
    ((∃ bare ∈ bareLines source.toList, IsError bare) →
      ∃ e, FirstError 1 (bareLines source.toList) e ∧ reflect stage source = .error e) := by
  have hreflect := reflect_judges stage source
  cases hresult : reflect stage source with
  | ok interface =>
      obtain ⟨hnone, hnests⟩ := hreflect.value hresult
      refine ⟨fun _ => ⟨iff_of_false nofun (not_not_intro hnests), nofun⟩, ?_⟩
      rintro ⟨bare, hbare, herror⟩
      exact absurd herror (hnone bare hbare)
  | error e =>
      rcases hreflect.failure hresult with hfirst | ⟨hnone, hiff, hblames⟩
      · refine ⟨fun hnone => ?_, fun _ => ⟨e, hfirst, rfl⟩⟩
        obtain ⟨before, bare, after, _, hsplit, -, herror, -⟩ := hfirst
        exact absurd herror (hnone bare (hsplit ▸ List.mem_append_cons_self))
      · refine ⟨fun _ => ⟨⟨?_, fun hnot => ⟨e, hiff.mpr hnot, rfl⟩⟩, ?_⟩, ?_⟩
        · rintro ⟨_, hbracket, ⟨⟩⟩
          exact hiff.mp hbracket
        · rintro _ hbracket ⟨⟩
          exact hblames hbracket
        · rintro ⟨bare, hbare, herror⟩
          exact absurd herror (hnone bare hbare)

/-- Neither the brackets of a comment over two lines nor that of a preprocessor line count, and the
carriage returns move nothing. In the other source, the second line is an error line. -/
theorem reflect_blames_comment :
    brackets "void main() /* [\n( */ \x7b\r\n#if (\r\n]".toList =
      [('(', 1), (')', 1), ('\x7b', 2), (']', 4)] ∧
    (∀ bare ∈ bareLines "void main() /* [\n( */ \x7b\r\n#if (\r\n]".toList, ¬IsError bare) ∧
    Blames (brackets "void main() /* [\n( */ \x7b\r\n#if (\r\n]".toList) (.unmatched 4 .square) ∧
    ∃ e, FirstError 1 (bareLines "] /*\n*/ # error none".toList) e ∧
      reflect .vertex "] /*\n*/ # error none" = .error e :=
  ⟨by decide, by decide, ((reflect_blames .vertex _).1 (by decide)).2 _ trivial (by decide),
    (reflect_blames .vertex _).2 (by decide)⟩

end Reflection

end GlPlayback.Shader
