import GlPlayback.Proofs.Shader.Scanning
import GlPlayback.Shader.Reflection

/-!
Comments as the language has them, apart from any scan. A source falls in one way into characters
of code, comments that end with their line, and comments between marks; stripping keeps the first,
and of the last the line feeds with a space behind them. Nothing that is left begins a comment.
-/
namespace GlPlayback.Shader

variable {c : Char} {behind text s : List Char}

/-- A character of code, a comment behind `//`, or one behind `/*` that `*/` may or may not close. -/
inductive SourcePiece where
  | code (c : Char)
  | line (text : List Char)
  | block (text : List Char) (closed : Bool)
  deriving DecidableEq, Repr

namespace SourcePiece

def source : SourcePiece → List Char
  | code c => [c]
  | line text => '/' :: '/' :: text
  | block text true => '/' :: '*' :: (text ++ ['*', '/'])
  | block text false => '/' :: '*' :: text

def kept : SourcePiece → List Char
  | code c => [c]
  | line _ => []
  | block text _ => text.filter (· == '\n') ++ [' ']

/-- The piece is what stands at the front of its source with the rest of the text behind it: no
comment begins at a character of code, and a comment goes on for as long as it may. -/
def FitsBefore (behind : List Char) : SourcePiece → Prop
  | code c => c = '/' → behind.head? ≠ some '/' ∧ behind.head? ≠ some '*'
  | line text => '\n' ∉ text ∧ (behind = [] ∨ behind.head? = some '\n')
  | block text true => ¬['*', '/'] <:+: text
  | block text false => ¬['*', '/'] <:+: text ∧ behind = []

/-- Each piece fits before those behind it. -/
inductive Fit : List SourcePiece → Prop
  | nil : Fit []
  | cons {piece : SourcePiece} {rest : List SourcePiece}
      (hpiece : piece.FitsBefore (rest.flatMap source)) (hrest : Fit rest) : Fit (piece :: rest)

theorem source_ne_nil (piece : SourcePiece) : piece.source ≠ [] := by
  match piece with
  | code _ | line _ | block _ true | block _ false => exact List.cons_ne_nil _ _

end SourcePiece

open SourcePiece

variable {piece : SourcePiece} {pieces : List SourcePiece}

section Scan

theorem stripComments_line (h : (line text).FitsBefore behind) :
    stripComments ('/' :: '/' :: (text ++ behind)) = stripComments behind := by
  obtain ⟨htext, hbehind⟩ := h
  change stripCommentsFrom .line (text ++ behind) = stripCommentsFrom .code behind
  induction text with
  | nil =>
    cases behind with
    | nil => rfl
    | cons c behind =>
      obtain rfl : c = '\n' := by simpa using hbehind
      rfl
  | cons c text ih =>
    rw [List.mem_cons, not_or] at htext
    rw [List.cons_append, stripCommentsFrom, if_neg (Ne.symm htext.1)]
    exact ih htext.2

/-- Within a comment. The scan knows whether an asterisk came last. -/
theorem stripCommentsFrom_block {star : Bool} (behind : List Char)
    (hstar : star = true → text.head? ≠ some '/') (htext : ¬['*', '/'] <:+: text) :
    stripCommentsFrom (.block star) (text ++ '*' :: '/' :: behind) =
        text.filter (· == '\n') ++ ' ' :: stripComments behind ∧
      stripCommentsFrom (.block star) text = text.filter (· == '\n') ++ [' '] := by
  induction text generalizing star with
  | nil => cases star <;> exact ⟨rfl, rfl⟩
  | cons c text ih =>
    rw [pair_infix_cons, not_or, not_and] at htext
    have hopen : ¬(star && c == '/') = true := by
      simpa using fun h => hstar h ∘ congrArg some
    have hnext : (c == '*') = true → text.head? ≠ some '/' :=
      fun hc => htext.1 (beq_iff_eq.mp hc).symm
    rw [List.cons_append, stripCommentsFrom, stripCommentsFrom, if_neg hopen, if_neg hopen]
    by_cases hc : c = '\n'
    · subst hc
      obtain ⟨hclosed, hunclosed⟩ := ih hnext htext.2
      exact ⟨congrArg ('\n' :: ·) hclosed, congrArg ('\n' :: ·) hunclosed⟩
    · rw [if_neg hc, if_neg hc, List.filter_cons_of_neg (by simpa using hc)]
      exact ih hnext htext.2

theorem SourcePiece.FitsBefore.stripComments_append (h : piece.FitsBefore behind) :
    stripComments (piece.source ++ behind) = piece.kept ++ stripComments behind := by
  match piece, h with
  | code _, h => exact stripComments_cons h
  | line _, h => exact stripComments_line h
  | block text true, h =>
    have hblock := (stripCommentsFrom_block behind (absurd · Bool.false_ne_true) h).1
    have hsource : (block text true).source ++ behind =
        '/' :: '*' :: (text ++ '*' :: '/' :: behind) := by simp [source]
    rw [hsource]
    exact hblock.trans (by simp [kept])
  | block text false, h =>
    obtain ⟨htext, rfl⟩ := h
    have hblock := (stripCommentsFrom_block [] (absurd · Bool.false_ne_true) htext).2
    rw [List.append_nil]
    exact hblock.trans (List.append_nil _).symm

theorem SourcePiece.Fit.stripComments_source (h : Fit pieces) :
    stripComments (pieces.flatMap source) = pieces.flatMap kept := by
  induction h with
  | nil => rfl
  | cons hpiece _ ih =>
    rw [List.flatMap_cons, List.flatMap_cons, hpiece.stripComments_append, ih]

end Scan

section Parse

/-- A mark of two characters closes a text, or is not found in it. -/
theorem exists_closed_or_not_infix (a b : Char) (text : List Char) :
    (∃ before after, text = before ++ a :: b :: after ∧ ¬[a, b] <:+: before) ∨
      ¬[a, b] <:+: text := by
  induction text with
  | nil => exact .inr (by simp)
  | cons c text ih =>
    by_cases hmark : a = c ∧ text.head? = some b
    · obtain ⟨rfl, hhead⟩ := hmark
      obtain ⟨after, rfl⟩ := List.head?_eq_some_iff.mp hhead
      exact .inl ⟨[], after, rfl, by simp⟩
    · obtain ⟨before, after, rfl, hbefore⟩ | htext := ih
      · refine .inl ⟨c :: before, after, rfl, ?_⟩
        rw [pair_infix_cons, not_or]
        refine ⟨fun h => hmark ⟨h.1, ?_⟩, hbefore⟩
        rw [List.head?_append, h.2]
        rfl
      · exact .inr (by rw [pair_infix_cons, not_or]; exact ⟨hmark, htext⟩)

theorem exists_line (text : List Char) :
    ∃ comment behind, text = comment ++ behind ∧ (line comment).FitsBefore behind := by
  induction text with
  | nil => exact ⟨[], [], rfl, List.not_mem_nil, .inl rfl⟩
  | cons c text ih =>
    by_cases hc : c = '\n'
    · exact ⟨[], c :: text, rfl, List.not_mem_nil, .inr (congrArg some hc)⟩
    · obtain ⟨comment, behind, rfl, hcomment, hbehind⟩ := ih
      refine ⟨c :: comment, behind, rfl, ?_, hbehind⟩
      rw [List.mem_cons, not_or]
      exact ⟨Ne.symm hc, hcomment⟩

theorem exists_piece (c : Char) (text : List Char) :
    ∃ (piece : SourcePiece) (behind : List Char),
      c :: text = piece.source ++ behind ∧ piece.FitsBefore behind := by
  by_cases hline : c = '/' ∧ text.head? = some '/'
  · obtain ⟨rfl, hhead⟩ := hline
    obtain ⟨rest, rfl⟩ := List.head?_eq_some_iff.mp hhead
    obtain ⟨comment, behind, rfl, hfits⟩ := exists_line rest
    exact ⟨line comment, behind, rfl, hfits⟩
  by_cases hblock : c = '/' ∧ text.head? = some '*'
  · obtain ⟨rfl, hhead⟩ := hblock
    obtain ⟨rest, rfl⟩ := List.head?_eq_some_iff.mp hhead
    obtain ⟨comment, behind, rfl, hcomment⟩ | hopen := exists_closed_or_not_infix '*' '/' rest
    · exact ⟨block comment true, behind, by simp [source], hcomment⟩
    · exact ⟨block rest false, [], by simp [source], hopen, rfl⟩
  exact ⟨code c, text, rfl, fun hc => ⟨fun h => hline ⟨hc, h⟩, fun h => hblock ⟨hc, h⟩⟩⟩

theorem exists_fit (s : List Char) : ∃ pieces, Fit pieces ∧ pieces.flatMap source = s := by
  -- on the length, for one piece may take many characters
  induction hlength : s.length using Nat.strongRecOn generalizing s with
  | ind length ih =>
    cases s with
    | nil => exact ⟨[], .nil, rfl⟩
    | cons c text =>
      obtain ⟨piece, behind, hsource, hfits⟩ := exists_piece c text
      have hless : behind.length < length := by
        rw [← hlength, hsource, List.length_append]
        exact Nat.lt_add_of_pos_left (List.length_pos_iff.mpr piece.source_ne_nil)
      obtain ⟨rest, hrest, rfl⟩ := ih behind.length hless behind rfl
      exact ⟨piece :: rest, .cons hfits hrest, hsource.symm⟩

theorem takeWhile_line (h : (line text).FitsBefore behind) :
    (text ++ behind).takeWhile (· != '\n') = text := by
  have htext : ∀ c ∈ text, (c != '\n') = true :=
    fun c hc => bne_iff_ne.mpr fun hnewline => h.1 (hnewline ▸ hc)
  have hbehind : behind.takeWhile (· != '\n') = [] := by
    obtain rfl | hhead := h.2
    · rfl
    · obtain ⟨rest, rfl⟩ := List.head?_eq_some_iff.mp hhead
      rfl
  rw [List.takeWhile_append_of_pos htext, hbehind, List.append_nil]

/-- What stands before the first closing mark cannot go on to a later one. -/
theorem eq_nil_of_closes {a b : Char} {more behind' : List Char} (hne : a ≠ b)
    (h : ¬[a, b] <:+: text ++ more) (heq : a :: b :: behind = more ++ a :: b :: behind') :
    more = [] := by
  match more, heq with
  | [], _ => rfl
  | [_], heq =>
    injection heq with _ hbehind
    injection hbehind with hb _
    exact absurd hb.symm hne
  | _ :: _ :: more, heq =>
    injection heq with ha hmore
    injection hmore with hb _
    subst ha hb
    exact absurd ⟨text, more, by simp⟩ h

theorem SourcePiece.FitsBefore.code_ne {d : Char} (h : (code c).FitsBefore behind)
    (hd : d = '/' ∨ d = '*') (rest : List Char) : c :: behind ≠ '/' :: d :: rest := by
  intro heq
  injection heq with hc hbehind
  subst hbehind
  obtain rfl | rfl := hd
  · exact (h hc).1 rfl
  · exact (h hc).2 rfl

theorem SourcePiece.FitsBefore.unique {piece' : SourcePiece} {behind' : List Char}
    (h : piece.FitsBefore behind) (h' : piece'.FitsBefore behind')
    (heq : piece.source ++ behind = piece'.source ++ behind') : piece = piece' := by
  match piece, piece', h, h', heq with
  | code _, code _, _, _, heq => exact congrArg code (List.cons.inj heq).1
  | code _, line _, h, _, heq => exact absurd heq (h.code_ne (.inl rfl) _)
  | code _, block _ true, h, _, heq | code _, block _ false, h, _, heq =>
    exact absurd heq (h.code_ne (.inr rfl) _)
  | line _, code _, _, h', heq => exact absurd heq.symm (h'.code_ne (.inl rfl) _)
  | block _ true, code _, _, h', heq | block _ false, code _, _, h', heq =>
    exact absurd heq.symm (h'.code_ne (.inr rfl) _)
  | line text, line text', h, h', heq =>
    injection heq with _ heq
    injection heq with _ heq
    rw [← takeWhile_line h, ← takeWhile_line h']
    exact congrArg (fun text => line (text.takeWhile (· != '\n'))) heq
  | line _, block _ true, _, _, heq | line _, block _ false, _, _, heq =>
    simp [source] at heq
  | block _ true, line _, _, _, heq | block _ false, line _, _, _, heq =>
    simp [source] at heq
  | block text true, block text' true, h, h', heq =>
    have hbodies : text ++ '*' :: '/' :: behind = text' ++ '*' :: '/' :: behind' := by
      simpa [source] using heq
    obtain ⟨more, rfl, hmore⟩ | ⟨more, rfl, hmore⟩ := List.append_eq_append_iff.mp hbodies
    · rw [eq_nil_of_closes (by decide) h' hmore, List.append_nil]
    · rw [eq_nil_of_closes (by decide) h hmore, List.append_nil]
  | block text true, block text' false, _, ⟨h', hbehind⟩, heq =>
    have hbodies : text ++ '*' :: '/' :: behind = text' := by
      simpa [source, hbehind] using heq
    exact absurd ⟨text, behind, by simp [← hbodies]⟩ h'
  | block text false, block text' true, ⟨h, hbehind⟩, _, heq =>
    have hbodies : text = text' ++ '*' :: '/' :: behind' := by
      simpa [source, hbehind] using heq
    exact absurd ⟨text', behind', by simp [hbodies]⟩ h
  | block text false, block text' false, ⟨_, hbehind⟩, ⟨_, hbehind'⟩, heq =>
    have hbodies : text = text' := by
      simpa [source, hbehind, hbehind'] using heq
    rw [hbodies]

theorem SourcePiece.Fit.unique {pieces' : List SourcePiece} (h : Fit pieces) (h' : Fit pieces')
    (heq : pieces.flatMap source = pieces'.flatMap source) : pieces = pieces' := by
  induction h generalizing pieces' with
  | nil =>
    cases h' with
    | nil => rfl
    | @cons piece' =>
      exact absurd (List.append_eq_nil_iff.mp heq.symm).1 piece'.source_ne_nil
  | @cons piece rest hpiece hrest ih =>
    cases h' with
    | nil => exact absurd (List.append_eq_nil_iff.mp heq).1 piece.source_ne_nil
    | cons hpiece' hrest' =>
      rw [List.flatMap_cons, List.flatMap_cons] at heq
      obtain rfl := hpiece.unique hpiece' heq
      rw [ih hrest' (List.append_cancel_left heq)]

end Parse

section Kept

theorem SourcePiece.FitsBefore.count_kept (h : piece.FitsBefore behind) :
    piece.kept.count '\n' = piece.source.count '\n' := by
  match piece, h with
  | code _, _ => rfl
  | line text, h =>
    have htext : text.count '\n' = 0 := List.count_eq_zero.mpr h.1
    simp [kept, source, htext]
  | block text true, _ | block text false, _ =>
    have hnewlines : (text.filter (· == '\n')).count '\n' = text.count '\n' :=
      List.count_filter rfl
    simp [kept, source, hnewlines]

/-- Up to every piece, as many line feeds are kept as there are, so each keeps its line. -/
theorem SourcePiece.Fit.count_take (h : Fit pieces) (k : Nat) :
    ((pieces.take k).flatMap kept).count '\n' = ((pieces.take k).flatMap source).count '\n' := by
  induction h generalizing k with
  | nil => simp
  | cons hpiece _ ih =>
    cases k with
    | zero => rfl
    | succ k =>
      rw [List.take_succ_cons, List.flatMap_cons, List.flatMap_cons, List.count_append,
        List.count_append, hpiece.count_kept, ih k]

theorem SourcePiece.Fit.head?_kept (h : Fit pieces)
    (hslash : (pieces.flatMap source).head? ≠ some '/') :
    (pieces.flatMap kept).head? = (pieces.flatMap source).head? := by
  cases h with
  | nil => rfl
  | @cons piece =>
    match piece with
    | code _ => rfl
    | line _ | block _ true | block _ false => exact absurd rfl hslash

theorem not_infix_append {d : Char} (hs : '/' ∉ s) (htext : ¬['/', d] <:+: text) :
    ¬['/', d] <:+: s ++ text := by
  induction s with
  | nil => exact htext
  | cons c s ih =>
    rw [List.mem_cons, not_or] at hs
    rw [List.cons_append, pair_infix_cons, not_or]
    exact ⟨fun h => hs.1 h.1, ih hs.2⟩

/-- A slash of code is followed by what followed it before, so what is kept opens no comment. -/
theorem SourcePiece.Fit.not_infix_kept {d : Char} (hd : d = '/' ∨ d = '*') (h : Fit pieces) :
    ¬['/', d] <:+: pieces.flatMap kept := by
  induction h with
  | nil => simp
  | @cons piece rest hpiece hrest ih =>
    match piece, hpiece with
    | code c, hpiece =>
      change ¬['/', d] <:+: c :: rest.flatMap kept
      rw [pair_infix_cons, not_or]
      refine ⟨fun ⟨hc, hhead⟩ => ?_, ih⟩
      obtain ⟨hslash, hstar⟩ := hpiece hc.symm
      rw [hrest.head?_kept hslash] at hhead
      obtain rfl | rfl := hd
      · exact hslash hhead
      · exact hstar hhead
    | line _, _ => exact ih
    | block text _, _ =>
      have hnewlines : '/' ∉ text.filter (· == '\n') ++ [' '] := by simp
      exact not_infix_append hnewlines ih

end Kept

/-- Every source falls in one way into pieces, and stripping it keeps what each piece keeps, on the
line where it was. Nothing that is left begins a comment, so stripping and reflection find nothing
more to take away. -/
theorem stripComments_correct (s : List Char) :
    (∃ pieces, (∀ other, Fit other ∧ other.flatMap source = s ↔ other = pieces) ∧
      stripComments s = pieces.flatMap kept ∧
      ∀ k, ((pieces.take k).flatMap kept).count '\n' =
        ((pieces.take k).flatMap source).count '\n') ∧
    (stripComments s).count '\n' = s.count '\n' ∧
    ¬['/', '/'] <:+: stripComments s ∧ ¬['/', '*'] <:+: stripComments s ∧
    stripComments (stripComments s) = stripComments s ∧
    ∀ stage, reflect stage (String.ofList (stripComments s)) = reflect stage (String.ofList s) := by
  obtain ⟨pieces, hfit, rfl⟩ := exists_fit s
  have hstrip := hfit.stripComments_source
  have hline : ¬['/', '/'] <:+: stripComments (pieces.flatMap source) :=
    hstrip ▸ hfit.not_infix_kept (.inl rfl)
  have hblock : ¬['/', '*'] <:+: stripComments (pieces.flatMap source) :=
    hstrip ▸ hfit.not_infix_kept (.inr rfl)
  have hagain := stripComments_eq_self hline hblock
  refine ⟨⟨pieces, fun other => ⟨fun h => h.1.unique hfit h.2, ?_⟩, hstrip, hfit.count_take⟩, ?_,
    hline, hblock, hagain, fun stage => ?_⟩
  · rintro rfl
    exact ⟨hfit, rfl⟩
  · have hcount := hfit.count_take pieces.length
    rw [List.take_length] at hcount
    rw [hstrip, hcount]
  · rw [reflect, reflect, declarationsOf, declarationsOf, String.toList_ofList,
      String.toList_ofList, hagain]

example : stripComments "a/*/\n*/*b//*\n/ c/**/".toList = "a\n *b\n/ c ".toList := by decide

end GlPlayback.Shader
