import GlPlayback.Proofs.Outcome
import GlPlayback.Proofs.Shader.Scanning
import Mathlib.Data.List.Induction
import Mathlib.Data.List.TakeWhile

/-!
Source that is put together from two parts. Where the first part ends outside comments and
preprocessor lines, comments and such lines are taken out of each part by itself.
-/
namespace GlPlayback.Shader

open Text

variable {s t : List Char}

section Comments

/-- Where the scan for comments stands behind the text. -/
def scanAfter : CommentScan → List Char → CommentScan
  | .code, '/' :: '/' :: rest => scanAfter .line rest
  | .code, '/' :: '*' :: rest => scanAfter (.block false) rest
  | .code, _ :: rest => scanAfter .code rest
  | .line, c :: rest => scanAfter (if c = '\n' then .code else .line) rest
  | .block star, c :: rest =>
      scanAfter (if star && c == '/' then .code else .block (c == '*')) rest
  | scan, [] => scan

/-- No comment of the text goes on behind the end of its last line. -/
def ClosesComments (s : List Char) : Prop :=
  scanAfter .code s = .code ∨ scanAfter .code s = .line

instance : DecidablePred ClosesComments := fun _ => inferInstanceAs (Decidable (_ ∨ _))

/-- The two parts can be scanned one after the other, unless a comment begins with the last
character of the first one. -/
theorem stripCommentsFrom_append {scan : CommentScan}
    (hscan : scanAfter scan s = .code ∨ scanAfter scan s = .line)
    (hjoin : (stripCommentsFrom scan s).getLast? = some '/' →
      ∀ rest, t ≠ '/' :: rest ∧ t ≠ '*' :: rest) :
    stripCommentsFrom scan (s ++ t) =
      stripCommentsFrom scan s ++ stripCommentsFrom (scanAfter scan s) t := by
  have hlater {c : Char} {rest : List Char}
      (h : (c :: rest).getLast? = some '/' → ∀ rest, t ≠ '/' :: rest ∧ t ≠ '*' :: rest)
      (hlast : rest.getLast? = some '/') : ∀ rest, t ≠ '/' :: rest ∧ t ≠ '*' :: rest :=
    h (by rw [List.getLast?_cons, hlast]; rfl)
  fun_induction scanAfter scan s with
  | case1 rest ih => exact ih hscan hjoin
  | case2 rest ih => exact ih hscan hjoin
  | case3 c rest hline hblock ih =>
      rw [stripCommentsFrom.eq_3 c rest hline hblock] at hjoin ⊢
      have hline' (more : List Char) (hc : c = '/') (hrest : rest ++ t = '/' :: more) : False := by
        cases rest with
        | nil => exact (hjoin (by rw [hc]; rfl) more).1 hrest
        | cons d rest =>
            cases hrest
            exact hline _ hc rfl
      have hblock' (more : List Char) (hc : c = '/') (hrest : rest ++ t = '*' :: more) :
          False := by
        cases rest with
        | nil => exact (hjoin (by rw [hc]; rfl) more).2 hrest
        | cons d rest =>
            cases hrest
            exact hblock _ hc rfl
      rw [List.cons_append, stripCommentsFrom.eq_3 c (rest ++ t) hline' hblock',
        ih hscan (hlater hjoin), List.cons_append]
  | case4 c rest ih =>
      simp only [List.cons_append, stripCommentsFrom] at hjoin ⊢
      by_cases hc : c = '\n'
      · simp only [if_pos hc] at ih hscan hjoin ⊢
        rw [ih hscan (hlater hjoin), List.cons_append]
      · simp only [if_neg hc] at ih hscan hjoin ⊢
        exact ih hscan hjoin
  | case5 star c rest ih =>
      simp only [List.cons_append, stripCommentsFrom] at hjoin ⊢
      by_cases hclose : (star && c == '/') = true
      · simp only [if_pos hclose] at ih hscan hjoin ⊢
        rw [ih hscan (hlater hjoin), List.cons_append]
      · simp only [if_neg hclose] at ih hscan hjoin ⊢
        by_cases hc : c = '\n'
        · subst hc
          exact congrArg ('\n' :: ·) (ih hscan (hlater hjoin))
        · simp only [if_neg hc] at hjoin ⊢
          exact ih hscan hjoin
  | case6 scan =>
      rcases hscan with rfl | rfl <;> rfl

theorem stripComments_append (hs : scanAfter .code s = .code)
    (hlast : (stripComments s).getLast? ≠ some '/') (t : List Char) :
    stripComments (s ++ t) = stripComments s ++ stripComments t := by
  rw [stripComments, stripCommentsFrom_append (.inl hs) fun h => absurd h hlast, hs]
  rfl

/-- A line feed ends the comment of a line. -/
theorem stripComments_newline (hs : ClosesComments s) (t : List Char) :
    stripComments (s ++ '\n' :: t) = stripComments s ++ '\n' :: stripComments t := by
  have hjoin (rest : List Char) : '\n' :: t ≠ '/' :: rest ∧ '\n' :: t ≠ '*' :: rest :=
    ⟨nofun, nofun⟩
  rw [stripComments, stripCommentsFrom_append hs fun _ => hjoin]
  rcases hs with h | h <;> rw [h] <;> rfl

end Comments

section Lines

/-- The lines of a text that is to go on in a new line. -/
def fullLines (s : List Char) : List (List Char) :=
  (splitWhere (· == '\n') s).map dropCarriageReturn

def lastLine (s : List Char) : List Char :=
  (splitWhere (· == '\n') s).getLastD []

theorem splitWhere_newline (s t : List Char) : splitWhere (· == '\n') (s ++ '\n' :: t) =
    splitWhere (· == '\n') s ++ splitWhere (· == '\n') t :=
  splitWhere_append_cons rfl s t

theorem splitWhere_line (hs : '\n' ∉ s) : splitWhere (· == '\n') s = [s] :=
  splitWhere_of_forall fun _ hc => beq_eq_false_iff_ne.mpr fun h => hs (h ▸ hc)

theorem fullLines_newline (s t : List Char) :
    fullLines (s ++ '\n' :: t) = fullLines s ++ fullLines t := by
  rw [fullLines, splitWhere_newline, List.map_append]
  rfl

theorem lines_newline (s t : List Char) : lines (s ++ '\n' :: t) = fullLines s ++ lines t := by
  obtain ⟨piece, pieces, hpieces⟩ := List.exists_cons_of_ne_nil
    (splitWhere_ne_nil (· == '\n') t)
  have hlast : (splitWhere (· == '\n') s ++ piece :: pieces).getLastD [] =
      (piece :: pieces).getLastD [] := by
    rw [List.getLastD_eq_getLast?, List.getLastD_eq_getLast?,
      List.getLast?_append_of_ne_nil _ (List.cons_ne_nil piece pieces)]
  simp only [lines, splitWhere_newline, hpieces, hlast, fullLines, List.map_append,
    List.append_assoc, List.dropLast_append_of_ne_nil (List.cons_ne_nil piece pieces)]

theorem fullLines_line (hs : '\n' ∉ s) : fullLines s = [dropCarriageReturn s] := by
  rw [fullLines, splitWhere_line hs]
  rfl

theorem lines_line (hs : '\n' ∉ s) : lines s = if s = [] then [] else [s] := by
  rw [lines, splitWhere_line hs]
  cases s <;> rfl

/-- The text is empty or ends with a line feed. -/
def EndsLine (s : List Char) : Prop :=
  s = [] ∨ ∃ whole, s = whole ++ ['\n']

theorem EndsLine.lines_append (hs : EndsLine s) (t : List Char) :
    lines (s ++ t) = lines s ++ lines t := by
  rcases hs with rfl | ⟨whole, rfl⟩
  · rfl
  · rw [List.append_assoc, List.singleton_append, lines_newline, lines_newline, List.append_assoc]
    rfl

theorem EndsLine.fullLines_append (hs : EndsLine s) (t : List Char) :
    fullLines (s ++ t) = lines s ++ fullLines t := by
  rcases hs with rfl | ⟨whole, rfl⟩
  · rfl
  · rw [List.append_assoc, List.singleton_append, fullLines_newline, lines_newline,
      List.append_assoc]
    rfl

theorem exists_lastLine (s : List Char) :
    ∃ whole, EndsLine whole ∧ '\n' ∉ lastLine s ∧ s = whole ++ lastLine s := by
  induction s using List.reverseRecOn with
  | nil => exact ⟨[], .inl rfl, List.not_mem_nil, rfl⟩
  | append_singleton s c ih =>
      by_cases hc : c = '\n'
      · subst hc
        have hlast : lastLine (s ++ ['\n']) = [] := by
          rw [lastLine, splitWhere_newline]
          exact List.getLastD_concat
        rw [hlast]
        exact ⟨s ++ ['\n'], .inr ⟨s, rfl⟩, List.not_mem_nil, (List.append_nil _).symm⟩
      · obtain ⟨whole, hends, hmem, hs⟩ := ih
        have hmem' : '\n' ∉ lastLine s ++ [c] := by
          simpa only [List.mem_append, List.mem_singleton, not_or] using ⟨hmem, Ne.symm hc⟩
        have hlast : lastLine (s ++ [c]) = lastLine s ++ [c] := by
          conv_lhs => rw [hs, List.append_assoc]
          rcases hends with rfl | ⟨before, rfl⟩
          · rw [List.nil_append, lastLine, splitWhere_line hmem']
            rfl
          · rw [List.append_assoc, lastLine, List.singleton_append, splitWhere_newline,
              splitWhere_line hmem']
            exact List.getLastD_concat
        rw [hlast]
        exact ⟨whole, hends, hmem', by rw [← List.append_assoc, ← hs]⟩

theorem dropCarriageReturn_concat (s : List Char) (c : Char) :
    dropCarriageReturn (s ++ [c]) = if c = '\r' then s else s ++ [c] := by
  rw [dropCarriageReturn, List.reverse_append]
  split
  · next heq =>
      cases heq
      exact (List.reverse_reverse s).trans (if_pos rfl).symm
  · next hne =>
      rw [if_neg]
      rintro rfl
      exact hne _ rfl

theorem dropCarriageReturn_append (s : List Char) (ht : t ≠ []) :
    dropCarriageReturn (s ++ t) = s ++ dropCarriageReturn t := by
  obtain ⟨rest, c, rfl⟩ := (List.eq_nil_or_concat' t).resolve_left ht
  rw [← List.append_assoc, dropCarriageReturn_concat, dropCarriageReturn_concat, List.append_assoc,
    apply_ite (s ++ ·)]

theorem exists_dropCarriageReturn (s : List Char) :
    ∃ rest, (∀ c ∈ rest, isBlank c = true) ∧ s = dropCarriageReturn s ++ rest := by
  rcases List.eq_nil_or_concat' s with rfl | ⟨before, c, rfl⟩
  · exact ⟨[], List.forall_mem_nil _, rfl⟩
  · rw [dropCarriageReturn_concat]
    split
    · next hc => exact ⟨[c], List.forall_mem_singleton.mpr (hc ▸ rfl), rfl⟩
    · exact ⟨[], List.forall_mem_nil _, (List.append_nil _).symm⟩

/-- Behind other characters of a line, a text has the same lines, but for the first one. A carriage
return before the text is lost if the text begins with a line feed. -/
theorem lines_continued {line : List Char} (hline : '\n' ∉ line) (hne : line ≠ [])
    (t : List Char) : (t = [] ∧ lines (line ++ t) = [line]) ∨
      ∃ own rest, lines t = own :: rest ∧ (lines (line ++ t) = (line ++ own) :: rest ∨
        own = [] ∧ lines (line ++ t) = dropCarriageReturn line :: rest) := by
  have hwhole {first : List Char} (hfirst : '\n' ∉ first) : '\n' ∉ line ++ first := by
    rw [List.mem_append, not_or]
    exact ⟨hline, hfirst⟩
  have hfilled (first : List Char) : line ++ first ≠ [] := List.append_ne_nil_of_left_ne_nil hne _
  by_cases ht : '\n' ∈ t
  · obtain ⟨first, rest, rfl, hfirst⟩ := List.eq_append_cons_of_mem ht
    have hlines : lines (line ++ (first ++ '\n' :: rest)) =
        dropCarriageReturn (line ++ first) :: lines rest := by
      rw [← List.append_assoc, lines_newline, fullLines_line (hwhole hfirst)]
      rfl
    refine .inr ⟨dropCarriageReturn first, lines rest, ?_, ?_⟩
    · rw [lines_newline, fullLines_line hfirst]
      rfl
    · rw [hlines]
      rcases eq_or_ne first [] with rfl | hfirst'
      · exact .inr ⟨rfl, by rw [List.append_nil]⟩
      · exact .inl (by rw [dropCarriageReturn_append line hfirst'])
  · rcases eq_or_ne t [] with rfl | hne'
    · exact .inl ⟨rfl, by rw [List.append_nil, lines_line hline, if_neg hne]⟩
    · refine .inr ⟨t, [], by rw [lines_line ht, if_neg hne'], .inl ?_⟩
      rw [lines_line (hwhole ht), if_neg (hfilled t)]

/-- A line that does not end with a carriage return stays whole. -/
theorem lines_continued_eq {line : List Char} (hline : '\n' ∉ line) (hne : line ≠ [])
    (hreturn : dropCarriageReturn line = line) (t : List Char) :
    lines (line ++ t) = (line ++ (lines t).headD []) :: (lines t).tail := by
  rcases lines_continued hline hne t with ⟨rfl, hlines⟩ | ⟨own, rest, ht, hlines | ⟨rfl, hlines⟩⟩
  · rw [hlines]
    exact congrArg (· :: []) (List.append_nil line).symm
  · rw [hlines, ht]
    rfl
  · rw [hlines, ht, hreturn]
    exact congrArg (· :: rest) (List.append_nil line).symm

end Lines

section Directives

/-- What an `#error` line says. -/
def errorReason? (line : List Char) : Option (List Char) :=
  (directive? line).bind (afterMark? "error".toList)

/-- A line without what is for the preprocessor. -/
def lineCode (line : List Char) : List Char :=
  if (directive? line).isSome then [] else line

def blankLines (texts : List (List Char)) : List Char :=
  texts.flatMap fun text => lineCode text ++ ['\n']

/-- The code of a source, whatever its `#error` lines. -/
def codeOf (source : List Char) : List Char :=
  blankLines (lines (stripComments source))

theorem blankLines_cons (text : List Char) (rest : List (List Char)) :
    blankLines (text :: rest) = lineCode text ++ '\n' :: blankLines rest :=
  List.append_assoc _ _ _

theorem blankLines_append (texts rest : List (List Char)) :
    blankLines (texts ++ rest) = blankLines texts ++ blankLines rest :=
  List.flatMap_append

theorem blankDirectivesFrom_cons (line : Nat) (text : List Char) (rest : List (List Char)) :
    blankDirectivesFrom line (text :: rest) = match errorReason? text with
      | some reason => .error (.errorDirective line (String.ofList (trim reason)))
      | none => do
          let code ← blankDirectivesFrom (line + 1) rest
          return lineCode text ++ '\n' :: code := by
  simp only [blankDirectivesFrom, errorReason?, lineCode]
  cases directive? text with
  | none => rfl
  | some body =>
      simp only [Option.bind_some]
      cases afterMark? "error".toList body <;> rfl

theorem blankDirectivesFrom_eq_ok_iff {line : Nat} {texts : List (List Char)} {code : List Char} :
    blankDirectivesFrom line texts = .ok code ↔
      (∀ text ∈ texts, errorReason? text = none) ∧ code = blankLines texts := by
  induction texts generalizing line code with
  | nil =>
      rw [and_iff_right (List.forall_mem_nil _)]
      exact ⟨fun h => (Except.ok.inj h).symm, fun h => congrArg Except.ok h.symm⟩
  | cons text rest ih =>
      rw [blankDirectivesFrom_cons, List.forall_mem_cons]
      cases errorReason? text with
      | some reason => exact iff_of_false nofun fun h => nomatch h.1.1
      | none =>
          simp only [bind_eq_ok_iff, ih, true_and]
          constructor
          · rintro ⟨later, ⟨hrest, rfl⟩, hcode⟩
            cases hcode
            exact ⟨hrest, (blankLines_cons text rest).symm⟩
          · rintro ⟨hrest, rfl⟩
            exact ⟨_, ⟨hrest, rfl⟩, congrArg Except.ok (blankLines_cons text rest).symm⟩

theorem blankDirectivesFrom_append (line : Nat) (texts rest : List (List Char)) :
    blankDirectivesFrom line (texts ++ rest) = do
      let code ← blankDirectivesFrom line texts
      let more ← blankDirectivesFrom (line + texts.length) rest
      return code ++ more := by
  induction texts generalizing line with
  | nil => exact (bind_pure _).symm
  | cons text later ih =>
      have hline : line + 1 + later.length = line + (text :: later).length := by
        rw [List.length_cons, Nat.add_right_comm, Nat.add_assoc]
      rw [List.cons_append, blankDirectivesFrom_cons, blankDirectivesFrom_cons, ih (line + 1),
        hline]
      cases errorReason? text with
      | some reason => rfl
      | none =>
          cases blankDirectivesFrom (line + 1) later with
          | error e => rfl
          | ok code =>
              cases blankDirectivesFrom (line + (text :: later).length) rest with
              | error e => rfl
              | ok more => exact congrArg Except.ok (List.append_assoc _ ('\n' :: code) more).symm

/-- The first visible character of a line decides whether it is for the preprocessor. -/
theorem directive?_eq_none_iff {line : List Char} :
    directive? line = none ↔ line.find? (!isBlank ·) ≠ some '#' := by
  rw [directive?, Option.map_eq_none_iff, List.find?_not_eq_head?_dropWhile, ← trimStart]
  cases trimStart line with
  | nil => simp [afterMark?]
  | cons c rest =>
      rw [afterMark?, List.head?_cons, ne_eq, Option.some.injEq]
      by_cases hc : '#' = c
      · rw [if_pos hc]
        exact iff_of_false (Option.some_ne_none rest) fun h => h hc.symm
      · rw [if_neg hc]
        exact iff_of_true rfl (Ne.symm hc)

theorem directive?_append {line rest : List Char} (hline : directive? line = none)
    (hrest : directive? rest = none) : directive? (line ++ rest) = none := by
  rw [directive?_eq_none_iff] at hline hrest ⊢
  rw [List.find?_append]
  cases hfound : line.find? (!isBlank ·) with
  | none => exact hrest
  | some c => rwa [hfound] at hline

theorem directive?_append_left {line : List Char} (hline : directive? line = none)
    (hvisible : ∃ c ∈ line, isBlank c = false) (rest : List Char) :
    directive? (line ++ rest) = none := by
  rw [directive?_eq_none_iff] at hline ⊢
  obtain ⟨c, hc, hblank⟩ := hvisible
  have hfound : (line.find? (!isBlank ·)).isSome := by
    rw [List.find?_isSome]
    exact ⟨c, hc, by rw [hblank]; rfl⟩
  obtain ⟨d, hd⟩ := Option.isSome_iff_exists.mp hfound
  rw [List.find?_append, hd]
  rwa [hd] at hline

theorem directive?_dropCarriageReturn {line : List Char} (hline : directive? line = none) :
    directive? (dropCarriageReturn line) = none := by
  obtain ⟨rest, hblank, heq⟩ := exists_dropCarriageReturn line
  rw [directive?_eq_none_iff] at hline ⊢
  rw [heq, List.find?_append] at hline
  intro h
  rw [h] at hline
  exact hline rfl

theorem lineCode_of_none {line : List Char} (hline : directive? line = none) :
    lineCode line = line := by
  rw [lineCode, hline]
  rfl

theorem errorReason?_of_none {line : List Char} (hline : directive? line = none) :
    errorReason? line = none := by
  rw [errorReason?, hline]
  rfl

end Directives

theorem blankLines_lines {whole line : List Char} (hends : EndsLine whole) (hline : '\n' ∉ line)
    (hne : line ≠ []) (hdirective : directive? line = none) :
    blankLines (lines (whole ++ line)) = blankLines (lines whole) ++ line ++ ['\n'] := by
  rw [hends.lines_append, lines_line hline, if_neg hne, blankLines_append, blankLines_cons,
    lineCode_of_none hdirective, List.append_assoc]
  rfl

theorem exists_blankLines (s : List Char) : ∃ lead, blankLines (fullLines s) = lead ++ ['\n'] := by
  obtain ⟨texts, last, htexts⟩ : ∃ texts last, fullLines s = texts ++ [last] := by
    have hne : fullLines s ≠ [] := by simp [fullLines, splitWhere_ne_nil]
    exact (List.eq_nil_or_concat' _).resolve_left hne
  refine ⟨blankLines texts ++ lineCode last, ?_⟩
  rw [htexts, blankLines_append, blankLines_cons, List.append_assoc]
  rfl

theorem codeOf_newline (hs : ClosesComments s) :
    codeOf (s ++ ['\n']) = blankLines (fullLines (stripComments s)) := by
  rw [codeOf, stripComments_newline hs, lines_newline]
  exact congrArg blankLines (List.append_nil _)

/-- What stands before a place of a source and behind it, without comments: the place is at the
start of a line, or neither side of it looks like a preprocessor line. -/
def OutsideDirectives (before after : List Char) : Prop :=
  lastLine before = [] ∨
    directive? (lastLine before) = none ∧ directive? ((lines after).headD []) = none

theorem blankLines_continued {line : List Char} (hline : '\n' ∉ line)
    (h : line = [] ∨ directive? line = none ∧ directive? ((lines t).headD []) = none) :
    ∃ between, (∀ c ∈ between, isBlank c = true) ∧ blankLines (lines (line ++ t)) =
        dropCarriageReturn line ++ between ++ blankLines (lines t) ∧
      ((∀ text ∈ lines (line ++ t), errorReason? text = none) →
        ∀ text ∈ lines t, errorReason? text = none) := by
  rcases eq_or_ne line [] with rfl | hne
  · exact ⟨[], List.forall_mem_nil _, rfl, id⟩
  obtain ⟨hdirective, hhead⟩ := h.resolve_left hne
  obtain ⟨ending, hending, heq⟩ := exists_dropCarriageReturn line
  rcases lines_continued hline hne t with ⟨rfl, hlines⟩ | ⟨own, rest, ht, hlines | ⟨rfl, hlines⟩⟩
  · refine ⟨ending ++ ['\n'], List.forall_mem_append.mpr
      ⟨hending, List.forall_mem_singleton.mpr rfl⟩, ?_, fun _ => List.forall_mem_nil _⟩
    rw [hlines, blankLines_cons, lineCode_of_none hdirective]
    conv_lhs => rw [heq]
    rw [List.append_assoc, List.append_assoc, List.append_assoc]
    rfl
  · rw [ht] at hhead
    have hown : directive? own = none := hhead
    refine ⟨ending, hending, ?_, fun herrors => ?_⟩
    · rw [hlines, ht, blankLines_cons, blankLines_cons, lineCode_of_none hown,
        lineCode_of_none (directive?_append hdirective hown), ← heq, List.append_assoc]
    · rw [hlines, List.forall_mem_cons] at herrors
      rw [ht, List.forall_mem_cons]
      exact ⟨errorReason?_of_none hown, herrors.2⟩
  · refine ⟨[], List.forall_mem_nil _, ?_, fun herrors => ?_⟩
    · rw [hlines, ht, blankLines_cons, blankLines_cons, List.append_nil,
        lineCode_of_none (directive?_dropCarriageReturn hdirective)]
      rfl
    · rw [hlines, List.forall_mem_cons] at herrors
      rw [ht, List.forall_mem_cons]
      exact ⟨rfl, herrors.2⟩

/-- Code goes on behind such a place as it does in a new line. -/
theorem OutsideDirectives.exists_code (h : OutsideDirectives s t) :
    ∃ code between, (∀ c ∈ between, isBlank c = true) ∧
      blankLines (lines (s ++ t)) = code ++ between ++ blankLines (lines t) ∧
      blankLines (fullLines s) = code ++ ['\n'] ∧
      ((∀ text ∈ lines (s ++ t), errorReason? text = none) →
        ∀ text ∈ fullLines s ++ lines t, errorReason? text = none) := by
  obtain ⟨whole, hends, hline, hs⟩ := exists_lastLine s
  have hsplit : lines (s ++ t) = lines whole ++ lines (lastLine s ++ t) := by
    rw [← hends.lines_append, ← List.append_assoc, ← hs]
  have hfull : fullLines s = lines whole ++ [dropCarriageReturn (lastLine s)] := by
    rw [← fullLines_line hline, ← hends.fullLines_append, ← hs]
  have hlast : directive? (dropCarriageReturn (lastLine s)) = none := by
    rcases h with h | h
    · rw [h]
      rfl
    · exact directive?_dropCarriageReturn h.1
  obtain ⟨between, hbetween, hcode, herrors⟩ := blankLines_continued hline h
  refine ⟨blankLines (lines whole) ++ dropCarriageReturn (lastLine s), between, hbetween, ?_, ?_,
    fun hnone => ?_⟩
  · rw [hsplit, blankLines_append, hcode, List.append_assoc, List.append_assoc, List.append_assoc]
  · rw [hfull, blankLines_append, blankLines_cons, lineCode_of_none hlast, List.append_assoc]
    rfl
  · rw [hsplit, List.forall_mem_append] at hnone
    rw [hfull, List.append_assoc, List.forall_mem_append, List.singleton_append,
      List.forall_mem_cons]
    exact ⟨hnone.1, errorReason?_of_none hlast, herrors hnone.2⟩

end GlPlayback.Shader
