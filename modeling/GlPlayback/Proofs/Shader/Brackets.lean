import GlPlayback.Proofs.Outcome
import GlPlayback.Proofs.Shader.Scanning

/-!
The check of brackets accepts exactly the text in which they nest, and otherwise reports the first
closing bracket that does not match, or else the innermost bracket still open at the end.
-/
namespace GlPlayback

namespace Bracket

theorem eq_of_ofOpening? {c : Char} {b : Bracket} (h : ofOpening? c = some b) : c = b.opening := by
  simp only [ofOpening?] at h
  split_ifs at h with hbrace hparen hsquare
  all_goals cases h; assumption

theorem eq_of_ofClosing? {c : Char} {b : Bracket} (h : ofClosing? c = some b) : c = b.closing := by
  simp only [ofClosing?] at h
  split_ifs at h with hbrace hparen hsquare
  all_goals cases h; assumption

end Bracket

namespace Shader

/-- A character of a text is its last one or one of those before. -/
theorem last_or_earlier {text before after : List Char} {c d : Char}
    (h : text ++ [c] = before ++ d :: after) :
    text = before ∧ c = d ∨ ∃ more, text = before ++ d :: more := by
  rcases List.eq_nil_or_concat' after with rfl | ⟨more, e, rfl⟩
  · obtain ⟨htext, hlast⟩ := List.append_inj' h rfl
    exact .inl ⟨htext, List.head_eq_of_cons_eq hlast⟩
  · rw [← List.cons_append, ← List.append_assoc] at h
    exact .inr ⟨more, (List.append_inj' h rfl).1⟩

/-- Behind the text, a closing bracket of the kind matches an opening one. -/
def Closes (text : List Char) (b : Bracket) : Prop :=
  ∃ outer inside, text = outer ++ b.opening :: inside ∧ Nests inside

/-- Every closing bracket of the text matches. -/
def AllClose (text : List Char) : Prop :=
  ∀ before b after, text = before ++ b.closing :: after → Closes before b

theorem AllClose.nil : AllClose [] :=
  fun before _ _ h => absurd h.symm (List.append_ne_nil_of_right_ne_nil before nofun)

theorem AllClose.concat {text : List Char} {c : Char} (htext : AllClose text)
    (hc : ∀ b : Bracket, c = b.closing → Closes text b) : AllClose (text ++ [c]) := by
  intro before b after h
  rcases last_or_earlier h with ⟨rfl, hlast⟩ | ⟨more, hmore⟩
  · exact hc b hlast
  · exact htext before b more hmore

section Stack

/-- What a character does to the brackets that are open, the innermost first. There is no result for
a closing bracket that does not match. -/
def stackAfter (stack : List Bracket) (c : Char) : Option (List Bracket) :=
  match Bracket.ofOpening? c with
  | some b => some (b :: stack)
  | none =>
      match Bracket.ofClosing? c with
      | none => some stack
      | some b => if stack.head? = some b then some stack.tail else none

/-- The brackets that are open behind a text. -/
def openAfter (stack : List Bracket) (text : List Char) : Option (List Bracket) :=
  text.foldlM stackAfter stack

variable {stack : List Bracket} {text s : List Char} {b : Bracket}

theorem openAfter_append (stack : List Bracket) (s t : List Char) :
    openAfter stack (s ++ t) = (openAfter stack s).bind (openAfter · t) :=
  List.foldlM_append

theorem openAfter_opening (stack : List Bracket) (b : Bracket) (text : List Char) :
    openAfter stack (b.opening :: text) = openAfter (b :: stack) text := by
  rw [openAfter, List.foldlM_cons, stackAfter, Bracket.ofOpening?_opening]
  rfl

theorem openAfter_closing (stack : List Bracket) (b : Bracket) (text : List Char) :
    openAfter stack (b.closing :: text) =
      if stack.head? = some b then openAfter stack.tail text else none := by
  rw [openAfter, List.foldlM_cons, stackAfter, Bracket.ofOpening?_closing,
    Bracket.ofClosing?_closing]
  simp only
  split <;> rfl

theorem openAfter_plain {c : Char} (hc : isPlain c = true) (stack : List Bracket)
    (text : List Char) : openAfter stack (c :: text) = openAfter stack text := by
  obtain ⟨hopening, hclosing⟩ := isPlain_iff.mp hc
  rw [openAfter, List.foldlM_cons, stackAfter, hopening, hclosing]
  rfl

theorem Nests.openAfter_eq (hs : Nests s) (stack : List Bracket) :
    openAfter stack s = some stack := by
  induction hs generalizing stack with
  | nil => rfl
  | plain hc _ ih => rw [openAfter_plain hc, ih]
  | @enclosed b _ _ _ _ ihInside ihRest =>
      rw [openAfter_opening, openAfter_append, ihInside, Option.bind_some, openAfter_closing,
        List.head?_cons, if_pos rfl, List.tail_cons, ihRest]

/-- Only the innermost open bracket can be closed. -/
theorem Closes.head?_eq (h : Closes text b) (hopen : openAfter [] text = some stack) :
    stack.head? = some b := by
  obtain ⟨outer, inside, rfl, hinside⟩ := h
  rw [openAfter_append] at hopen
  obtain ⟨below, -, hbelow⟩ := Option.bind_eq_some_iff.mp hopen
  rw [openAfter_opening, hinside.openAfter_eq] at hbelow
  cases hbelow
  rfl

/-- The text closes these brackets, the innermost first, and all its other brackets match. -/
inductive Unwinds : List Bracket → List Char → Prop
  | none {text : List Char} (htext : Nests text) : Unwinds [] text
  | one {stack : List Bracket} {inside rest : List Char} (b : Bracket) (hinside : Nests inside)
      (hrest : Unwinds stack rest) : Unwinds (b :: stack) (inside ++ b.closing :: rest)

theorem Unwinds.append (hs : Nests s) (h : Unwinds stack text) : Unwinds stack (s ++ text) := by
  cases h with
  | none htext => exact .none (hs.append htext)
  | one b hinside hrest =>
      rw [← List.append_assoc]
      exact .one b (hs.append hinside) hrest

theorem unwinds_of_openAfter (h : openAfter stack text = some []) : Unwinds stack text := by
  induction text generalizing stack with
  | nil =>
      cases h
      exact .none .nil
  | cons c rest ih =>
      cases hopening : Bracket.ofOpening? c with
      | some b =>
          rw [Bracket.eq_of_ofOpening? hopening] at h ⊢
          rw [openAfter_opening] at h
          cases ih h with
          | one _ hinside hrest =>
              have hpair := hrest.append (Nests.enclosed b hinside .nil)
              rwa [List.cons_append, List.append_assoc] at hpair
      | none =>
          cases hclosing : Bracket.ofClosing? c with
          | none =>
              have hplain := isPlain_iff.mpr ⟨hopening, hclosing⟩
              rw [openAfter_plain hplain] at h
              exact (ih h).append (.plain hplain .nil)
          | some b =>
              rw [Bracket.eq_of_ofClosing? hclosing] at h ⊢
              rw [openAfter_closing] at h
              split at h
              · next hhead =>
                  obtain ⟨below, rfl⟩ := List.head?_eq_some_iff.mp hhead
                  exact .one b .nil (ih h)
              · cases h

/-- Brackets match exactly if none is open in the end. -/
theorem nests_iff_openAfter : Nests s ↔ openAfter [] s = some [] := by
  refine ⟨fun hs => hs.openAfter_eq [], fun h => ?_⟩
  cases unwinds_of_openAfter h with
  | none hs => exact hs

end Stack

/-- The characters of a list that pairs each of them with its line. -/
abbrev symbols (marks : List (Char × Nat)) : List Char :=
  marks.map Prod.fst

/-- Behind the marks these brackets are open, the innermost first, and with the lines at which they
were opened. -/
inductive Opens : List (Bracket × Nat) → List (Char × Nat) → Prop
  | none {marks : List (Char × Nat)} (hmarks : Nests (symbols marks)) : Opens [] marks
  | one {stack : List (Bracket × Nat)} {before inside : List (Char × Nat)} (b : Bracket)
      (line : Nat) (hbefore : Opens stack before) (hinside : Nests (symbols inside)) :
      Opens ((b, line) :: stack) (before ++ (b.opening, line) :: inside)

namespace Opens

variable {stack : List (Bracket × Nat)} {marks : List (Char × Nat)} {b : Bracket} {line : Nat}

theorem append {more : List (Char × Nat)} (h : Opens stack marks) (hmore : Nests (symbols more)) :
    Opens stack (marks ++ more) := by
  cases h with
  | none hmarks => exact none (by rw [symbols, List.map_append]; exact hmarks.append hmore)
  | one b line hbefore hinside =>
      rw [List.append_assoc, List.cons_append]
      exact one b line hbefore (by rw [symbols, List.map_append]; exact hinside.append hmore)

theorem push (h : Opens stack marks) (b : Bracket) (line : Nat) :
    Opens ((b, line) :: stack) (marks ++ [(b.opening, line)]) :=
  one b line h .nil

theorem pop (h : Opens ((b, line) :: stack) marks) (closedAt : Nat) :
    Opens stack (marks ++ [(b.closing, closedAt)]) := by
  cases h with
  | @one _ before inside _ _ hbefore hinside =>
      rw [List.append_assoc]
      refine hbefore.append ?_
      have hpair := Nests.enclosed b hinside .nil
      rwa [symbols, List.cons_append, List.map_cons, List.map_append]

theorem closes (h : Opens ((b, line) :: stack) marks) : Closes (symbols marks) b := by
  cases h with
  | @one _ before inside _ _ _ hinside =>
      exact ⟨symbols before, symbols inside, by rw [symbols, List.map_append, List.map_cons],
        hinside⟩

theorem openAfter_eq (h : Opens stack marks) :
    openAfter [] (symbols marks) = some (stack.map Prod.fst) := by
  induction h with
  | none hmarks => exact hmarks.openAfter_eq []
  | one b line _ hinside ih =>
      rw [symbols, List.map_append, openAfter_append, ih, Option.bind_some, List.map_cons,
        openAfter_opening, hinside.openAfter_eq, List.map_cons]

end Opens

/-- The brackets of a text, the first line of which has the number `line`. -/
def marksFrom (line : Nat) : List Char → List (Char × Nat)
  | [] => []
  | c :: rest =>
      if c = '\n' then marksFrom (line + 1) rest
      else if isPlain c then marksFrom line rest
      else (c, line) :: marksFrom line rest

/-- An error about brackets names the first closing one that does not match, or an opening one, if
all closing ones match and no later bracket is open at the end. -/
def Blames (marks : List (Char × Nat)) : CompileError → Prop
  | .unmatched line b => ∃ before after, marks = before ++ (b.closing, line) :: after ∧
      AllClose (symbols before) ∧ ¬Closes (symbols before) b
  | .unclosed line b => ∃ before after, marks = before ++ (b.opening, line) :: after ∧
      AllClose (symbols marks) ∧ Nests (symbols after)
  | _ => False

section Check

variable {stack : List (Bracket × Nat)} {marks : List (Char × Nat)}

theorem marksFrom_opening (line : Nat) (b : Bracket) (rest : List Char) :
    marksFrom line (b.opening :: rest) = [(b.opening, line)] ++ marksFrom line rest := by
  have hplain : isPlain b.opening = false := by cases b <;> rfl
  rw [marksFrom, if_neg b.opening_ne_newline, hplain]
  rfl

theorem marksFrom_closing (line : Nat) (b : Bracket) (rest : List Char) :
    marksFrom line (b.closing :: rest) = [(b.closing, line)] ++ marksFrom line rest := by
  have hplain : isPlain b.closing = false := by cases b <;> rfl
  rw [marksFrom, if_neg b.closing_ne_newline, hplain]
  rfl

theorem AllClose.concat_opening {b : Bracket} (h : AllClose (symbols marks)) (line : Nat) :
    AllClose (symbols (marks ++ [(b.opening, line)])) := by
  rw [symbols, List.map_append]
  refine h.concat fun c hc => ?_
  have hnone := Bracket.ofClosing?_closing c
  rw [← hc] at hnone
  cases b <;> cases hnone

theorem AllClose.concat_closing {b : Bracket} (h : AllClose (symbols marks))
    (hb : Closes (symbols marks) b) (line : Nat) :
    AllClose (symbols (marks ++ [(b.closing, line)])) := by
  rw [symbols, List.map_append]
  refine h.concat fun c hc => ?_
  have hsome := Bracket.ofClosing?_closing c
  rw [← hc, Bracket.ofClosing?_closing] at hsome
  cases hsome
  exact hb

/-- A closing bracket that does not match is the first such bracket. -/
theorem Opens.unmatched (h : Opens stack marks) (hclose : AllClose (symbols marks)) {b : Bracket}
    (hb : (stack.map Prod.fst).head? ≠ some b) (line : Nat) (later : List (Char × Nat)) :
    Blames (marks ++ (b.closing, line) :: later) (.unmatched line b) ∧
      openAfter [] (symbols (marks ++ (b.closing, line) :: later)) ≠ some [] := by
  refine ⟨⟨marks, later, rfl, hclose, fun hcloses => hb (hcloses.head?_eq h.openAfter_eq)⟩, ?_⟩
  rw [symbols, List.map_append, openAfter_append, h.openAfter_eq, Option.bind_some, List.map_cons,
    openAfter_closing, if_neg hb]
  exact nofun

/-- The check goes on behind marks that were checked before: the stack holds what they leave open,
and all closing brackets among them match. -/
theorem checkBracketsFrom_blames (h : Opens stack marks) (hclose : AllClose (symbols marks))
    (line : Nat) (code : List Char) :
    Yields (fun _ => Nests (symbols (marks ++ marksFrom line code)))
      (fun e => Blames (marks ++ marksFrom line code) e ∧
        openAfter [] (symbols (marks ++ marksFrom line code)) ≠ some [])
      (checkBracketsFrom line stack code) := by
  induction code generalizing line stack marks with
  | nil =>
      rw [marksFrom, List.append_nil]
      cases h with
      | none hmarks => exact hmarks
      | one b openedAt hbefore hinside =>
          refine ⟨⟨_, _, rfl, hclose, hinside⟩, ?_⟩
          rw [(Opens.one b openedAt hbefore hinside).openAfter_eq, List.map_cons]
          exact fun heq => List.cons_ne_nil _ _ (Option.some.inj heq)
  | cons c rest ih =>
      rw [checkBracketsFrom.eq_3]
      by_cases hc : c = '\n'
      · rw [if_pos hc, marksFrom, if_pos hc]
        exact ih h hclose (line + 1)
      rw [if_neg hc]
      cases hopening : Bracket.ofOpening? c with
      | some b =>
          rw [Bracket.eq_of_ofOpening? hopening, marksFrom_opening, ← List.append_assoc]
          exact ih (h.push b line) (hclose.concat_opening line) line
      | none =>
          cases hclosing : Bracket.ofClosing? c with
          | none =>
              rw [marksFrom, if_neg hc, if_pos (isPlain_iff.mpr ⟨hopening, hclosing⟩)]
              exact ih h hclose line
          | some b =>
              rw [Bracket.eq_of_ofClosing? hclosing, marksFrom_closing]
              cases h with
              | none hmarks =>
                  exact (Opens.none hmarks).unmatched hclose (Option.some_ne_none b).symm line _
              | one innermost openedAt hbefore hinside =>
                  have hopen := Opens.one innermost openedAt hbefore hinside
                  by_cases heq : innermost = b
                  · subst heq
                    simp only [if_true]
                    rw [← List.append_assoc]
                    exact ih (hopen.pop line) (hclose.concat_closing hopen.closes line) line
                  · simp only [if_neg heq]
                    exact hopen.unmatched hclose (fun hsome => heq (Option.some.inj hsome)) line _

/-- Other characters than brackets open none. -/
theorem openAfter_symbols (stack : List Bracket) (line : Nat) (code : List Char) :
    openAfter stack (symbols (marksFrom line code)) = openAfter stack code := by
  induction code generalizing stack line with
  | nil => rfl
  | cons c rest ih =>
      rw [marksFrom]
      split
      · next hc => rw [openAfter_plain (hc ▸ rfl), ih]
      · split
        · next hplain => rw [openAfter_plain hplain, ih]
        · rw [symbols, List.map_cons, openAfter, openAfter, List.foldlM_cons, List.foldlM_cons]
          exact congrArg _ (funext fun stack' => ih stack' line)

theorem checkBrackets_blames (code : List Char) :
    Yields (fun _ => Nests (symbols (marksFrom 1 code)))
      (fun e => Blames (marksFrom 1 code) e ∧ ¬Nests (symbols (marksFrom 1 code)))
      (checkBrackets code) := by
  have hempty : Opens [] [] := .none .nil
  have hchecked := checkBracketsFrom_blames hempty .nil 1 code
  refine hchecked.imp (fun _ => id) fun e he => ⟨he.1, fun hnests => he.2 ?_⟩
  exact hnests.openAfter_eq []

/-- The check accepts exactly the text in which brackets match. -/
theorem checkBrackets_eq_ok_iff (code : List Char) : checkBrackets code = .ok () ↔ Nests code := by
  refine ⟨fun h => ?_, Nests.checkBrackets_eq⟩
  have hmarks := (checkBrackets_blames code).value h
  rwa [nests_iff_openAfter, openAfter_symbols, ← nests_iff_openAfter] at hmarks

end Check

end Shader

end GlPlayback
