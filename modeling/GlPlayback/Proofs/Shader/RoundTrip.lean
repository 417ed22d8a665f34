import GlPlayback.Proofs.Shader.Reading

/-!
The text of a printed shader goes unchanged through the passes that prepare it, and is cut into
the statements it was put together from. So reflection gives back what was printed.
-/
namespace GlPlayback.Shader

open Text

theorem isPlain_of_isNameChar {c : Char} (hc : isNameChar c = true) : isPlain c = true :=
  isPlain_of_forall (fun b => by cases b <;> decide) hc

theorem nests_of_isNameChar {s : List Char} (hs : ∀ c ∈ s, isNameChar c = true) : Nests s :=
  Nests.of_plain fun c hc => isPlain_of_isNameChar (hs c hc)

theorem Variable.nests_text (v : Variable) : Nests v.text := by
  have hsuffix : Nests (v.length.elim [] fun n => '[' :: (decimal n ++ [']'])) := by
    cases v.length with
    | none => exact .nil
    | some n =>
        exact .enclosed .square (nests_of_isNameChar fun _ => isNameChar_of_mem_decimal) .nil
  have hname := (nests_of_isNameChar v.name.isNameChar_of_mem).append hsuffix
  exact (nests_of_isNameChar v.typeName.isNameChar_of_mem).append (.plain (by decide) hname)

section Layout

variable {qualifiers : Option (List Char)} {text : List Char}
  (hqualifiers : ∀ q ∈ qualifiers, ∀ c ∈ q, Statement.isQualifierChar c = true)
include hqualifiers

theorem nests_withLayout (htext : Nests text) : Nests (withLayout qualifiers text) := by
  cases qualifiers with
  | none => exact htext
  | some q =>
      have hinside : Nests q := by
        refine Nests.of_plain fun c hc => ?_
        have hchar := hqualifiers q rfl c hc
        rw [Statement.isQualifierChar, Bool.or_eq_true, Bool.or_eq_true, beq_iff_eq,
          beq_iff_eq] at hchar
        rcases hchar with (hchar | rfl) | rfl
        · exact isPlain_of_isNameChar hchar
        · decide
        · decide
      have hlayout : Nests "layout".toList := Nests.of_plain (List.all_eq_true.mp (by decide))
      exact hlayout.append (.enclosed .paren hinside (.plain (by decide) htext))

theorem not_mem_withLayout {c : Char} (hc : Statement.isQualifierChar c = false)
    (hopen : c ≠ '(') (hclose : c ≠ ')') (htext : c ∉ text) : c ∉ withLayout qualifiers text := by
  cases qualifiers with
  | none => exact htext
  | some q =>
      have hlayout : ∀ c ∈ "layout".toList, Statement.isQualifierChar c = true :=
        List.all_eq_true.mp (by decide)
      have hspace : c ≠ ' ' := by
        rintro rfl
        exact absurd hc (by decide)
      simp only [withLayout, Option.elim_some, List.mem_append, List.mem_cons, not_or]
      exact ⟨not_mem_of_forall hlayout hc, hopen, not_mem_of_forall (hqualifiers q rfl) hc, hclose,
        hspace, htext⟩

end Layout

theorem withLayout_append (qualifiers : Option (List Char)) (s t : List Char) :
    withLayout qualifiers (s ++ t) = withLayout qualifiers s ++ t := by
  cases qualifiers with
  | none => rfl
  | some q => simp [withLayout]

namespace Statement

theorem nests_blockBody (members : List Variable) : Nests (blockBody members) := by
  refine Nests.append (Nests.flatMap members fun v _ => ?_) (.plain (by decide) .nil)
  exact (Nests.plain (by decide) v.nests_text).append (.plain (by decide) .nil)

theorem nests_blockTail (instanceName : Option Identifier) : Nests (blockTail instanceName) := by
  cases instanceName with
  | none => exact .nil
  | some i => exact .plain (by decide) (nests_of_isNameChar i.isNameChar_of_mem)

theorem nests_text (s : Statement) : Nests s.text := by
  refine nests_withLayout s.isQualifierChar_of_mem ?_
  cases s with
  | plain storage location v =>
      exact (nests_of_isNameChar storage.isNameChar_of_mem).append (.plain (by decide) v.nests_text)
  | block std140 name instanceName members =>
      have hspace : isPlain ' ' = true := by decide
      have hbraces := Nests.enclosed .brace (nests_blockBody members) (nests_blockTail instanceName)
      have hname := (nests_of_isNameChar name.isNameChar_of_mem).append (.plain hspace hbraces)
      exact (nests_of_isNameChar Storage.uniform.isNameChar_of_mem).append (.plain hspace hname)

/-- A block is scanned in three parts. Its braces open no function, as the text up to the closing
one is that of a block without an instance. -/
theorem scans_text (s : Statement) {blanks : List Char} (hblanks : ∀ c ∈ blanks, isBlank c = true) :
    Scans 0 blanks.reverse s.text 0 := by
  cases s with
  | plain storage location v =>
      refine (nests_text _).scans_surface ?_ ?_ _
      · exact not_mem_withLayout (isQualifierChar_of_mem _) (by decide) (by decide) (by decide)
          (not_mem_plain storage location v (by decide))
      · exact not_mem_withLayout (isQualifierChar_of_mem _) (by decide) (by decide) (by decide)
          (not_mem_plain storage location v (by decide))
  | block std140 name instanceName members =>
      let front := withLayout (block std140 name none members).qualifiers (blockHead [] name)
      have hqualifiers := (block std140 name none members).isQualifierChar_of_mem
      have hnests : Nests front := by
        have hspace : Nests [' '] := .plain (by decide) .nil
        have hname := (nests_of_isNameChar name.isNameChar_of_mem).append hspace
        exact nests_withLayout hqualifiers
          ((nests_of_isNameChar Storage.uniform.isNameChar_of_mem).append
            (.plain (by decide) hname))
      have hother {c : Char} (hc : isQualifierChar c = false) (hname : isNameChar c = false)
          (hblank : isBlank c = false) (hopen : c ≠ '(') (hclose : c ≠ ')') : c ∉ front :=
        not_mem_withLayout hqualifiers hc hopen hclose
          (not_mem_blockHead (by simp) name hname hblank)
      have hfront : Scans 0 blanks.reverse front 0 := hnests.scans_surface
        (hother (by decide) (by decide) (by decide) (by decide) (by decide))
        (hother (by decide) (by decide) (by decide) (by decide) (by decide)) _
      have htext (i : Option Identifier) : (block std140 name i members).text =
          front ++ '\x7b' :: (blockBody members ++ ['\x7d']) ++ blockTail i := by
        have hcontent : (block std140 name i members).content =
            blockHead [] name ++ ('\x7b' :: (blockBody members ++ ['\x7d']) ++ blockTail i) := by
          simp only [content, blockHead, List.nil_append, List.append_assoc, List.cons_append]
        rw [text, hcontent, withLayout_append, ← List.append_assoc]
        rfl
      have hbraces : Scans 0 (front.reverse ++ blanks.reverse)
          ('\x7b' :: (blockBody members ++ ['\x7d'])) 0 := by
        refine Scans.enclosed .brace (nests_blockBody members) fun _ => ?_
        have hfunction := isFunction_text (block std140 name none members) hblanks
        rw [htext none] at hfunction
        rw [← hfunction]
        simp [blockTail, Bracket.opening, Bracket.closing]
      rw [htext instanceName]
      refine (hfront.append hbraces).append ?_
      exact (nests_blockTail instanceName).scans_surface
        (not_mem_blockTail instanceName (by decide) (by decide))
        (not_mem_blockTail instanceName (by decide) (by decide)) _

/-- Characters that statements may hold. -/
def isLineChar (c : Char) : Bool :=
  Variable.isTextChar c || ['(', ')', '\x7b', '\x7d', '=', ';'].contains c

theorem not_mem_line (s : Statement) {c : Char} (hc : isLineChar c = false) : c ∉ s.line := by
  simp only [isLineChar, List.contains_eq_mem, Bool.or_eq_false_iff, decide_eq_false_iff_not,
    List.mem_cons, List.not_mem_nil, or_false, not_or] at hc
  obtain ⟨htext, hopen, hclose, hbrace, hunbrace, hequals, hmark⟩ := hc
  have hname : isNameChar c = false := by
    cases h : isNameChar c with
    | false => rfl
    | true => exact absurd ((Variable.isTextChar_of_isNameChar h).symm.trans htext) (by decide)
  have hspace : c ≠ ' ' := by
    rintro rfl
    exact absurd htext (by decide)
  have hqualifier : isQualifierChar c = false := by
    rw [isQualifierChar, hname, beq_eq_false_iff_ne.mpr hspace, beq_eq_false_iff_ne.mpr hequals]
    rfl
  have hcontent : c ∉ s.content := by
    cases s with
    | plain storage location v => exact not_mem_plain storage location v htext
    | block std140 name instanceName members =>
        have hbody : c ∉ blockBody members := by
          rw [blockBody, List.mem_append, List.mem_flatMap, List.mem_singleton, not_or]
          refine ⟨?_, hspace⟩
          rintro ⟨v, -, hv⟩
          rw [List.mem_append, List.mem_cons, List.mem_singleton] at hv
          rcases hv with (hv | hv) | hv
          · exact hspace hv
          · exact not_mem_of_forall v.isTextChar_of_mem htext hv
          · exact hmark hv
        simp only [content, List.mem_append, List.mem_cons, not_or]
        exact ⟨not_mem_of_forall Storage.uniform.isNameChar_of_mem hname, hspace,
          not_mem_of_forall name.isNameChar_of_mem hname, hspace, hbrace, hbody, hunbrace,
          not_mem_blockTail instanceName hname hspace⟩
  rw [line, List.mem_append, List.mem_singleton, not_or]
  exact ⟨not_mem_withLayout s.isQualifierChar_of_mem hqualifier hopen hclose hcontent, hmark⟩

end Statement

/-- The source as it is after its comments and preprocessor lines are taken out. -/
def code (statements : List Statement) : List Char :=
  statements.flatMap (fun s => s.line ++ ['\n']) ++ (mainText ++ ['\n'])

theorem code_cons (s : Statement) (rest : List Statement) :
    code (s :: rest) = s.text ++ ';' :: '\n' :: code rest := by
  simp only [code, Statement.line, List.flatMap_cons, List.append_assoc, List.cons_append,
    List.nil_append]

theorem blankDirectives_print (statements : List Statement) :
    blankDirectives (stripComments (print statements).toList) = .ok (code statements) := by
  have hsource : (print statements).toList =
      (statements.map Statement.line).flatMap (· ++ ['\n']) ++ mainText := by
    rw [print, String.toList_ofList, List.flatMap_map]
  have hslash : '/' ∉ (print statements).toList := by
    rw [hsource, List.mem_append, List.mem_flatMap, not_or]
    refine ⟨?_, by decide⟩
    rintro ⟨line, hline, hmem⟩
    obtain ⟨s, -, rfl⟩ := List.mem_map.mp hline
    rw [List.mem_append, List.mem_singleton] at hmem
    exact hmem.elim (s.not_mem_line (by decide)) (by decide)
  have hlines : lines (print statements).toList = statements.map Statement.line ++ [mainText] := by
    rw [hsource]
    refine lines_flatMap (fun line hline => ?_) (by decide) (by decide)
    obtain ⟨s, -, rfl⟩ := List.mem_map.mp hline
    exact ⟨s.not_mem_line (by decide), s.not_mem_line (by decide)⟩
  have hmarks : ∀ line ∈ statements.map Statement.line ++ [mainText], '#' ∉ line := by
    intro line hline
    rw [List.mem_append, List.mem_singleton] at hline
    rcases hline with hline | rfl
    · obtain ⟨s, -, rfl⟩ := List.mem_map.mp hline
      exact s.not_mem_line (by decide)
    · decide
  rw [stripComments_eq hslash, blankDirectives, hlines, blankDirectivesFrom_eq hmarks]
  rw [List.flatMap_append, List.flatMap_map, code, List.flatMap_singleton]

theorem nests_code (statements : List Statement) : Nests (code statements) := by
  induction statements with
  | nil =>
      have hend : Nests ['\n'] := .plain (by decide) .nil
      have hbody : Nests (Bracket.brace.opening :: ([] ++ Bracket.brace.closing :: ['\n'])) :=
        .enclosed .brace .nil hend
      have hhead : Nests (Bracket.paren.opening :: ([] ++ Bracket.paren.closing :: ' ' ::
          Bracket.brace.opening :: ([] ++ Bracket.brace.closing :: ['\n']))) :=
        .enclosed .paren .nil (.plain (by decide) hbody)
      have hwords : Nests "void main".toList := Nests.of_plain (List.all_eq_true.mp (by decide))
      exact hwords.append hhead
  | cons s rest ih =>
      rw [code_cons]
      exact s.nests_text.append (.plain (by decide) (.plain (by decide) ih))

theorem definesMain_code (statements : List Statement) : definesMain (code statements) = true := by
  induction statements with
  | nil => decide
  | cons s rest ih =>
      let spaced (c : Char) : List Char := if c = '(' then [' ', '(', ' '] else [c]
      have hspaced : (code (s :: rest)).flatMap spaced =
          (s.text.flatMap spaced ++ [';']) ++ '\n' :: (code rest).flatMap spaced := by
        rw [code_cons, List.flatMap_append, List.append_assoc]
        rfl
      have hwords : words ((code (s :: rest)).flatMap spaced) =
          words (s.text.flatMap spaced ++ [';']) ++ words ((code rest).flatMap spaced) := by
        rw [hspaced, words_append_cons (by decide)]
      exact (congrArg _ hwords).trans (hasRun_append ih _)

theorem isFunction_main {blanks : List Char} (hblanks : ∀ c ∈ blanks, isBlank c = true) :
    isFunction (blanks ++ mainText) = true := by
  have hbare : Bare mainText := ⟨_, _, rfl, by decide, by decide⟩
  rw [isFunction, takeLayout_of_bare hbare hblanks]
  decide

/-- Blanks, as the newline behind the statement before, may stand in front. -/
theorem declarations_code (statements : List Statement) {blanks : List Char}
    (hblanks : ∀ c ∈ blanks, isBlank c = true) (line : Nat) (started : Option Nat) :
    (itemsFrom 0 line started blanks.reverse (code statements)).1.mapM
        (Item.declarations .vertex) =
      .ok (statements.map (fun s => [s.declaration]) ++ [[]]) := by
  induction statements generalizing blanks line started with
  | nil =>
      have hparens : Nests (Bracket.paren.opening :: ([] ++ Bracket.paren.closing :: [' '])) :=
        .enclosed .paren .nil (.plain (by decide) .nil)
      have hhead : Nests "void main() ".toList :=
        (Nests.of_plain (List.all_eq_true.mp (by decide)) : Nests "void main".toList).append hparens
      have hscans := (hhead.scans_surface (by decide) (by decide) blanks.reverse).append
        (Scans.opening .brace 0 _)
      have hfunction := isFunction_main hblanks
      obtain ⟨first, line', hitems⟩ :=
        hscans.function (by rw [List.reverse_reverse]; exact hfunction) line started ['\n']
      have hnothing : Item.declarations .vertex ⟨first, blanks ++ mainText, false⟩ = .ok [] :=
        if_pos hfunction
      have hcode : code [] = "void main() ".toList ++ [Bracket.brace.opening] ++ '\x7d' :: ['\n'] :=
        rfl
      have htext : "void main() ".toList ++ [Bracket.brace.opening] ++ ['\x7d'] = mainText := rfl
      rw [hcode, hitems, List.reverse_reverse, htext, List.mapM_cons, hnothing]
      rfl
  | cons s rest ih =>
      obtain ⟨first, line', hitems⟩ :=
        (s.scans_text hblanks).semicolon line started ('\n' :: code rest)
      have hnewline : itemsFrom 0 line' none [] ('\n' :: code rest) =
          itemsFrom 0 (line' + 1) none ['\n'].reverse (code rest) := rfl
      have hrest := ih (List.forall_mem_singleton.mpr rfl : ∀ c ∈ ['\n'], isBlank c = true)
        (line' + 1) none
      rw [code_cons, hitems, hnewline, List.reverse_reverse, List.mapM_cons,
        s.declarations_text hblanks, hrest]
      rfl

theorem interfaceOf_declarations (statements : List Statement) :
    interfaceOf (statements.map Statement.declaration) = declared statements := by
  have hinput : Declaration.input? ∘ Statement.declaration = Statement.attribute? := by
    funext s
    rcases s with ⟨_ | _ | _⟩ | _ <;> rfl
  have huniform : Declaration.uniform? ∘ Statement.declaration = Statement.uniform? := by
    funext s
    rcases s with ⟨_ | _ | _⟩ | _ <;> rfl
  have hblock : Declaration.block? ∘ Statement.declaration = Statement.block? := by
    funext s
    rcases s with ⟨_ | _ | _⟩ | _ <;> rfl
  simp only [interfaceOf, List.filterMap_map, hinput, huniform, hblock, declared]

/-- A vertex shader that declares any attributes, uniforms and blocks, in any order, is reflected
as exactly these. -/
theorem reflect_print (statements : List Statement) :
    reflect .vertex (print statements) = .ok (declared statements) := by
  have hitems : (items (code statements)).mapM (Item.declarations .vertex) =
      .ok (statements.map (fun s => [s.declaration]) ++ [[]]) :=
    declarations_code statements (List.forall_mem_nil _) 1 none
  have hflat : (statements.map (fun s : Statement => [s.declaration]) ++ [[]]).flatten =
      statements.map Statement.declaration := by
    rw [List.flatten_append, ← List.flatMap_def, ← List.map_eq_flatMap]
    exact List.append_nil _
  have hdeclarations : declarationsOf .vertex (print statements).toList =
      .ok (statements.map Statement.declaration) := by
    rw [← hflat, declarationsOf, blankDirectives_print]
    simp only [bind, Except.bind, (nests_code statements).checkBrackets_eq,
      definesMain_code statements, hitems]
    rfl
  rw [reflect, hdeclarations, ← interfaceOf_declarations]
  rfl

example : reflect .vertex
    "layout(location = 3) in vec3 position;\nuniform Scene \x7b mat4 world[2]; \x7d;
void main() \x7b\x7d" =
      .ok { attributes := [⟨"position", .vector .float .three, 1, some 3⟩],
            blocks := [⟨"Scene", none, [⟨⟨"world", .matrix .four .four, 2, true⟩, 0⟩], 128⟩] } := by
  rfl

end GlPlayback.Shader
