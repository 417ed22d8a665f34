import GlPlayback.Proofs.Shader.Lines
import GlPlayback.Shader.Reflection

/-!
Code that is put together from two parts, the first of which ends between two items. What the passes
over the code find in the second part does not depend on the first one, but for line numbers.
-/
namespace GlPlayback.Shader

open Text

/-- Reflection of a source whose comments and preprocessor lines are gone. -/
def declarationsIn (stage : Stage) (code : List Char) : Except CompileError (List Declaration) := do
  checkBrackets code
  if !definesMain code then throw .noMain
  let found ← (items code).mapM (Item.declarations stage)
  return found.flatten

theorem declarationsOf_eq (stage : Stage) (source : List Char) : declarationsOf stage source =
    blankDirectives (stripComments source) >>= declarationsIn stage :=
  rfl

theorem isPlain_of_isBlank {c : Char} (hc : isBlank c = true) : isPlain c = true :=
  isPlain_of_forall (fun b => by cases b <;> decide) hc

theorem isBlank_of_opening {c : Char} (hc : (Bracket.ofOpening? c).isSome = true) :
    isBlank c = false := by
  rw [Bool.eq_false_iff]
  intro hblank
  rw [(isPlain_iff.mp (isPlain_of_isBlank hblank)).1] at hc
  cases hc

theorem isBlank_of_closing {c : Char} (hc : (Bracket.ofClosing? c).isSome = true) :
    isBlank c = false := by
  rw [Bool.eq_false_iff]
  intro hblank
  rw [(isPlain_iff.mp (isPlain_of_isBlank hblank)).2] at hc
  cases hc

/-- If only blanks were taken for the current item, it has not started, and no bracket is open. -/
def Fresh (depth : Nat) (started : Option Nat) (taken : List Char) : Prop :=
  (∀ c ∈ taken, isBlank c = true) → depth = 0 ∧ started = none

theorem Fresh.of_visible {c : Char} (hc : isBlank c = false) (depth : Nat) (started : Option Nat)
    (taken : List Char) : Fresh depth started (c :: taken) :=
  fun h => nomatch hc.symm.trans (h c List.mem_cons_self)

/-- What the scan for items makes of the count of open brackets at a character. -/
def countOpen (depth : Nat) (c : Char) : Nat :=
  if (Bracket.ofOpening? c).isSome then depth + 1
  else if (Bracket.ofClosing? c).isSome then depth - 1
  else depth

/-- The count of open brackets behind more text. -/
def depthAfter (depth : Nat) (text : List Char) : Nat :=
  text.foldl countOpen depth

section Depth

variable {c : Char}

theorem countOpen_opening (hopening : (Bracket.ofOpening? c).isSome = true) (depth : Nat) :
    countOpen depth c = depth + 1 :=
  if_pos hopening

theorem countOpen_closing (hopening : ¬(Bracket.ofOpening? c).isSome = true)
    (hclosing : (Bracket.ofClosing? c).isSome = true) (depth : Nat) :
    countOpen depth c = depth - 1 :=
  (if_neg hopening).trans (if_pos hclosing)

theorem countOpen_plain (hopening : ¬(Bracket.ofOpening? c).isSome = true)
    (hclosing : ¬(Bracket.ofClosing? c).isSome = true) (depth : Nat) : countOpen depth c = depth :=
  (if_neg hopening).trans (if_neg hclosing)

theorem depthAfter_cons (depth : Nat) (c : Char) (text : List Char) :
    depthAfter depth (c :: text) = depthAfter (countOpen depth c) text :=
  rfl

theorem depthAfter_concat (depth : Nat) (text : List Char) (c : Char) :
    depthAfter depth (text ++ [c]) = countOpen (depthAfter depth text) c :=
  List.foldl_concat _ _ _ _

end Depth

theorem itemsFrom_append {depth : Nat} {started : Option Nat} {taken : List Char}
    (hfresh : Fresh depth started taken) (line : Nat) (s : List Char) :
    let scanned := itemsFrom depth line started taken s
    ∃ line' started', Fresh (depthAfter depth s) started' scanned.2.reverse ∧
      ∀ t, let more := itemsFrom (depthAfter depth s) line' started' scanned.2.reverse t
        itemsFrom depth line started taken (s ++ t) = (scanned.1 ++ more.1, more.2) := by
  intro scanned
  simp only [scanned]
  clear scanned
  fun_induction itemsFrom depth line started taken s with
  | case1 depth line started taken =>
      rw [List.reverse_reverse]
      exact ⟨line, started, hfresh, fun _ => rfl⟩
  | case2 depth line₀ started₀ taken c rest line started hopening ih =>
      rw [depthAfter_cons, countOpen_opening hopening]
      obtain ⟨line', started', hfresh', h⟩ :=
        ih (Fresh.of_visible (isBlank_of_opening hopening) _ _ _)
      refine ⟨line', started', hfresh', fun t => ?_⟩
      rw [← h, List.cons_append, itemsFrom, if_pos hopening]
  | case3 depth line₀ started₀ taken c rest line started hopening hclosing text hends more ih =>
      rw [depthAfter_cons, countOpen_closing hopening hclosing]
      obtain ⟨line', started', hfresh', h⟩ := ih fun _ => ⟨hends.2.1, rfl⟩
      refine ⟨line', started', hfresh', fun t => ?_⟩
      rw [List.cons_append, itemsFrom, if_neg hopening, if_pos hclosing, if_pos hends]
      exact congrArg (fun found : List Item × List Char =>
        (⟨started.getD line, text, false⟩ :: found.1, found.2)) (h t)
  | case4 depth line₀ started₀ taken c rest line started hopening hclosing text hgoes ih =>
      rw [depthAfter_cons, countOpen_closing hopening hclosing]
      obtain ⟨line', started', hfresh', h⟩ :=
        ih (Fresh.of_visible (isBlank_of_closing hclosing) _ _ _)
      refine ⟨line', started', hfresh', fun t => ?_⟩
      rw [← h, List.cons_append, itemsFrom, if_neg hopening, if_pos hclosing, if_neg hgoes]
  | case5 depth line₀ started₀ taken c rest line started hopening hclosing hends more ih =>
      rw [depthAfter_cons, countOpen_plain hopening hclosing]
      obtain ⟨line', started', hfresh', h⟩ := ih fun _ => ⟨hends.2, rfl⟩
      refine ⟨line', started', hfresh', fun t => ?_⟩
      rw [List.cons_append, itemsFrom, if_neg hopening, if_neg hclosing, if_pos hends]
      exact congrArg (fun found : List Item × List Char =>
        (⟨started.getD line, taken.reverse, true⟩ :: found.1, found.2)) (h t)
  | case6 depth line₀ started₀ taken c rest line started hopening hclosing hgoes ih =>
      rw [depthAfter_cons, countOpen_plain hopening hclosing]
      have hstarted : Fresh depth started (c :: taken) := by
        intro hblank
        obtain ⟨hc, htaken⟩ := List.forall_mem_cons.mp hblank
        exact ⟨(hfresh htaken).1, (if_pos hc).trans (hfresh htaken).2⟩
      obtain ⟨line', started', hfresh', h⟩ := ih hstarted
      refine ⟨line', started', hfresh', fun t => ?_⟩
      rw [← h, List.cons_append, itemsFrom, if_neg hopening, if_neg hclosing, if_neg hgoes]

theorem itemsFrom_blanks {between : List Char} (hbetween : ∀ c ∈ between, isBlank c = true)
    (depth line : Nat) (started : Option Nat) (taken : List Char) :
    ∃ line', ∀ t, itemsFrom depth line started taken (between ++ t) =
      itemsFrom depth line' started (between.reverse ++ taken) t := by
  induction between generalizing line taken with
  | nil => exact ⟨line, fun _ => rfl⟩
  | cons c rest ih =>
      obtain ⟨hc, hrest⟩ := List.forall_mem_cons.mp hbetween
      obtain ⟨hopening, hclosing⟩ := isPlain_iff.mp (isPlain_of_isBlank hc)
      have hgoes : ¬(c = ';' ∧ depth = 0) := by
        rintro ⟨rfl, -⟩
        cases hc
      obtain ⟨line', h⟩ := ih hrest (if c = '\n' then line + 1 else line) (c :: taken)
      refine ⟨line', fun t => ?_⟩
      rw [List.cons_append, itemsFrom]
      simp only [hopening, hclosing, Option.isSome_none, Bool.false_eq_true, if_false,
        if_neg hgoes, if_pos hc, h, List.reverse_cons, List.append_assoc, List.singleton_append]

/-- Items that differ at most in their lines and in the blanks in front of them. -/
structure Item.Alike (R : Nat → Nat → Prop) (i j : Item) : Prop where
  line : R i.line j.line
  text : trimStart i.text = trimStart j.text

theorem takeLayout_congr {s t : List Char} (h : trimStart s = trimStart t) :
    takeLayout s = takeLayout t := by
  simp only [takeLayout, h]

theorem isFunction_congr {s t : List Char} (h : trimStart s = trimStart t) :
    isFunction s = isFunction t := by
  rw [isFunction, isFunction, takeLayout_congr h]

theorem blank_reverse {s : List Char} (hs : ∀ c ∈ s, isBlank c = true) :
    ∀ c ∈ s.reverse, isBlank c = true :=
  fun c hc => hs c (List.mem_reverse.mp hc)

theorem trimStart_of_blank {s : List Char} (hs : ∀ c ∈ s, isBlank c = true) : trimStart s = [] :=
  List.dropWhile_eq_nil_iff.mpr hs

theorem trimStart_append_congr {s t : List Char} (h : trimStart s = trimStart t)
    (rest : List Char) : trimStart (s ++ rest) = trimStart (t ++ rest) := by
  simp only [trimStart] at h ⊢
  rw [List.dropWhile_append, List.dropWhile_append, h]

/-- The items of a text do not depend on the blanks in front of it, and on the lines before it only
as far as their numbers show. -/
theorem itemsFrom_alike {R : Nat → Nat → Prop} (hR : ∀ n m, R n m → R (n + 1) (m + 1))
    {depth line line' : Nat} {started started' : Option Nat} {taken taken' : List Char}
    (hline : R line line') (hstarted : Option.Rel R started started')
    (htaken : trimStart taken.reverse = trimStart taken'.reverse) (s : List Char) :
    List.Forall₂ (Item.Alike R) (itemsFrom depth line started taken s).1
      (itemsFrom depth line' started' taken' s).1 := by
  induction s generalizing depth line line' started started' taken taken' with
  | nil => exact .nil
  | cons c rest ih =>
      have hline₁ : R (if c = '\n' then line + 1 else line)
          (if c = '\n' then line' + 1 else line') := by
        split
        · exact hR _ _ hline
        · exact hline
      rw [itemsFrom, itemsFrom]
      generalize (if c = '\n' then line + 1 else line) = line₁ at hline₁ ⊢
      generalize (if c = '\n' then line' + 1 else line') = line₁' at hline₁ ⊢
      have hfirst {s s' : Option Nat} (h : Option.Rel R s s') :
          R (s.getD line₁) (s'.getD line₁') := by
        cases h with
        | none => exact hline₁
        | some h => exact h
      have hstarted₁ : Option.Rel R
          (if isBlank c = true then started else some (started.getD line₁))
          (if isBlank c = true then started' else some (started'.getD line₁')) := by
        split
        · exact hstarted
        · exact .some (hfirst hstarted)
      generalize (if isBlank c = true then started else some (started.getD line₁)) = started₁
        at hstarted₁ ⊢
      generalize (if isBlank c = true then started' else some (started'.getD line₁')) = started₁'
        at hstarted₁ ⊢
      have htaken₁ : trimStart (c :: taken).reverse = trimStart (c :: taken').reverse := by
        rw [List.reverse_cons, List.reverse_cons]
        exact trimStart_append_congr htaken [c]
      simp only [isFunction_congr htaken₁]
      split
      · exact ih hline₁ hstarted₁ htaken₁
      · split
        · split
          · exact .cons ⟨hfirst hstarted₁, htaken₁⟩ (ih hline₁ .none rfl)
          · exact ih hline₁ hstarted₁ htaken₁
        · split
          · exact .cons ⟨hfirst hstarted₁, htaken⟩ (ih hline₁ .none rfl)
          · exact ih hline₁ hstarted₁ htaken₁

section Declarations

variable {stage : Stage} {i j : Item}

theorem Item.Alike.declarations_eq (h : i.Alike Eq j) :
    i.declarations stage = j.declarations stage := by
  simp only [Item.declarations, isFunction_congr h.text, takeLayout_congr h.text, h.line]

theorem declarators_keepsUp (line line' : Nat) (type : List Char) (rest : List (List Char)) :
    KeepsUp Eq (declarators line type rest) (declarators line' type rest) := by
  refine .mapM (List.forall₂_same.mpr fun text _ => ?_)
  cases declarator? text with
  | none => exact .failure _
  | some declarator => exact .value rfl

theorem memberDecls_keepsUp (line line' : Nat) (statement : List Char) :
    KeepsUp Eq (memberDecls line statement) (memberDecls line' statement) := by
  simp only [memberDecls]
  split
  · exact .value rfl
  · split
    · exact .failure _
    · exact (declarators_keepsUp _ _ _ _).bind fun _ _ h => h ▸ .value rfl

theorem blockOf_keepsUp (line line' : Nat) (name body behind : List Char) :
    KeepsUp Eq (blockOf line name body behind) (blockOf line' name body behind) :=
  (KeepsUp.mapM (List.forall₂_same.mpr fun _ _ => memberDecls_keepsUp _ _ _)).bind
    fun _ _ h => h ▸ .value rfl

theorem plainDeclarations_keepsUp (line line' : Nat) (location : Option UInt32)
    (text : List Char) : KeepsUp Eq (plainDeclarations stage line location text)
      (plainDeclarations stage line' location text) := by
  simp only [plainDeclarations]
  split
  · exact .value rfl
  · split
    · exact .value rfl
    · exact .failure _
    · split
      · exact .value rfl
      · exact (declarators_keepsUp _ _ _ _).bind fun _ _ h => h ▸ .value rfl

/-- The line of an item shows in errors only. -/
theorem Item.Alike.declarations_keepsUp {R : Nat → Nat → Prop} (h : i.Alike R j) :
    KeepsUp Eq (i.declarations stage) (j.declarations stage) := by
  simp only [Item.declarations, isFunction_congr h.text, takeLayout_congr h.text]
  split
  · exact .value rfl
  · split
    · exact plainDeclarations_keepsUp _ _ _ _
    · split
      · exact .value rfl
      · split
        · exact .value rfl
        · split
          · exact (blockOf_keepsUp _ _ _ _ _).bind fun _ _ h => h ▸ .value rfl
          · exact .failure _

end Declarations

section Brackets

theorem checkBracketsFrom_space (line : Nat) (stack : List (Bracket × Nat)) (s t : List Char) :
    checkBracketsFrom line stack (s ++ ' ' :: t) = checkBracketsFrom line stack (s ++ t) := by
  induction s generalizing line stack with
  | nil =>
      have hopening : Bracket.ofOpening? ' ' = none := rfl
      have hclosing : Bracket.ofClosing? ' ' = none := rfl
      have hspace : ' ' ≠ '\n' := by decide
      simp only [List.nil_append, checkBracketsFrom, hopening, hclosing, if_neg hspace]
  | cons c rest ih => simp only [List.cons_append, checkBracketsFrom, ih]

/-- The brackets of two stacks are the same. -/
abbrev SameBrackets (stack stack' : List (Bracket × Nat)) : Prop :=
  stack.map Prod.fst = stack'.map Prod.fst

/-- Text in front does not matter for what keeps brackets in order, and neither do the lines. -/
theorem checkBracketsFrom_append_ok {s t t' : List Char}
    (h : ∀ {line line' : Nat} {stack stack' : List (Bracket × Nat)}, SameBrackets stack stack' →
      checkBracketsFrom line stack t = .ok () → checkBracketsFrom line' stack' t' = .ok ())
    {line line' : Nat} {stack stack' : List (Bracket × Nat)} (hstack : SameBrackets stack stack')
    (hok : checkBracketsFrom line stack (s ++ t) = .ok ()) :
    checkBracketsFrom line' stack' (s ++ t') = .ok () := by
  induction s generalizing line line' stack stack' with
  | nil => exact h hstack hok
  | cons c rest ih =>
      simp only [List.cons_append, checkBracketsFrom] at hok ⊢
      split at hok
      · next hc =>
          rw [if_pos hc]
          exact ih hstack hok
      · next hc =>
          rw [if_neg hc]
          cases hopening : Bracket.ofOpening? c with
          | some bracket =>
              have hstack' : SameBrackets ((bracket, line) :: stack) ((bracket, line') :: stack') :=
                congrArg (bracket :: ·) hstack
              simp only [hopening] at hok ⊢
              exact ih hstack' hok
          | none =>
              simp only [hopening] at hok ⊢
              cases hclosing : Bracket.ofClosing? c with
              | none =>
                  simp only [hclosing] at hok ⊢
                  exact ih hstack hok
              | some bracket =>
                  simp only [hclosing] at hok ⊢
                  cases stack with
                  | nil => cases hok
                  | cons top below =>
                      cases stack' with
                      | nil => cases hstack
                      | cons top' below' =>
                          obtain ⟨htop, hbelow⟩ := List.cons.inj hstack
                          simp only [← htop] at hok ⊢
                          split at hok
                          · next hmatch =>
                              rw [if_pos hmatch]
                              exact ih hbelow hok
                          · cases hok

theorem checkBracketsFrom_ok {line line' : Nat} {stack stack' : List (Bracket × Nat)}
    {s : List Char} (hstack : SameBrackets stack stack')
    (hok : checkBracketsFrom line stack s = .ok ()) :
    checkBracketsFrom line' stack' s = .ok () := by
  rw [← List.append_nil s] at hok ⊢
  refine checkBracketsFrom_append_ok (fun {_ _ stack stack'} hstack hok => ?_) hstack hok
  cases stack with
  | cons _ _ => cases hok
  | nil =>
      cases stack' with
      | cons _ _ => cases hstack
      | nil => rfl

/-- What nests can be taken out of a text and put into it. -/
theorem checkBrackets_insert {s between inserted t : List Char} (hbetween : Nests between)
    (hinserted : Nests inserted) (hok : checkBrackets (s ++ (between ++ t)) = .ok ()) :
    checkBrackets (s ++ (inserted ++ t)) = .ok () := by
  refine checkBracketsFrom_append_ok (fun {line line' stack stack'} hstack h => ?_) rfl hok
  obtain ⟨line₁, hline₁⟩ := hbetween.checkBracketsFrom_append line stack t
  obtain ⟨line₂, hline₂⟩ := hinserted.checkBracketsFrom_append line' stack' t
  rw [hline₂]
  exact checkBracketsFrom_ok hstack (hline₁ ▸ h)

end Brackets

section Words

/-- The text in which the entry point is looked for. -/
def spaceParens (code : List Char) : List Char :=
  code.flatMap fun c => if c = '(' then [' ', '(', ' '] else [c]

theorem spaceParens_append (s t : List Char) :
    spaceParens (s ++ t) = spaceParens s ++ spaceParens t :=
  List.flatMap_append

theorem spaceParens_cons {c : Char} (hc : c ≠ '(') (s : List Char) :
    spaceParens (c :: s) = c :: spaceParens s := by
  rw [spaceParens, List.flatMap_cons, if_neg hc]
  rfl

theorem spaceParens_of_blank {s : List Char} (hs : ∀ c ∈ s, isBlank c = true) :
    spaceParens s = s := by
  induction s with
  | nil => rfl
  | cons c rest ih =>
      obtain ⟨hc, hrest⟩ := List.forall_mem_cons.mp hs
      have hparen : c ≠ '(' := by
        rintro rfl
        cases hc
      rw [spaceParens_cons hparen, ih hrest]

/-- The words with which the entry point begins. -/
def mainHead : List (List Char) :=
  ["void".toList, "main".toList, ['(']]

def hasMain (ws : List (List Char)) : Bool :=
  hasRun "void".toList "main".toList ['('] ws

theorem definesMain_eq (code : List Char) :
    definesMain code = hasMain (words (spaceParens code)) :=
  rfl

variable {a b d : List Char}

theorem hasRun_cons (w : List Char) (ws : List (List Char)) :
    hasRun a b d (w :: ws) = ((w :: ws).take 3 == [a, b, d] || hasRun a b d ws) := by
  cases ws with
  | nil => simp [hasRun]
  | cons x rest => cases rest <;> simp [hasRun, Bool.and_assoc]

/-- A word that does not belong to the run separates the words before it from those behind it. -/
theorem hasRun_append_cons {w : List Char} (hw : w ∉ [a, b, d]) (ws later : List (List Char)) :
    hasRun a b d (ws ++ w :: later) = (hasRun a b d ws || hasRun a b d later) := by
  simp only [List.mem_cons, List.not_mem_nil, or_false, not_or] at hw
  induction ws with
  | nil =>
      rw [List.nil_append, hasRun_cons]
      simp [hasRun, hw.1]
  | cons x rest ih =>
      have htake : ((x :: (rest ++ w :: later)).take 3 == [a, b, d]) =
          ((x :: rest).take 3 == [a, b, d]) := by
        cases rest with
        | nil => simp [hw.2.1]
        | cons y more =>
            cases more with
            | nil => simp [hw.2.2]
            | cons z last => simp
      rw [List.cons_append, hasRun_cons, hasRun_cons, ih, htake, Bool.or_assoc]

theorem words_visible {c : Char} (hc : isBlank c = false) (t : List Char) :
    words (c :: t) = (c :: t.takeWhile (!isBlank ·)) :: words (t.dropWhile (!isBlank ·)) := by
  have hword : IsWord (c :: t.takeWhile (!isBlank ·)) := by
    refine ⟨List.cons_ne_nil _ _, List.forall_mem_cons.mpr ⟨hc, fun d hd => ?_⟩⟩
    simpa using List.mem_takeWhile_imp hd
  conv_lhs =>
    rw [← List.takeWhile_append_dropWhile (p := (!isBlank ·)) (l := t), ← List.cons_append]
  cases hrest : t.dropWhile (!isBlank ·) with
  | nil => rw [List.append_nil, hword.words_eq, show words [] = [] from rfl]
  | cons b rest =>
      have hb : isBlank b = true := by
        have hhead := List.head?_dropWhile_not (!isBlank ·) t
        rw [hrest] at hhead
        simpa using hhead
      rw [hword.words_append hb, words_cons hb]

/-- A visible character joins what stands on its sides to one word. -/
theorem exists_words_join {c : Char} (hc : isBlank c = false) (s : List Char) :
    ∃ before lead, ∀ t, words (s ++ c :: t) =
      before ++ (lead ++ c :: t.takeWhile (!isBlank ·)) :: words (t.dropWhile (!isBlank ·)) := by
  induction s using List.reverseRecOn generalizing c with
  | nil => exact ⟨[], [], fun t => words_visible hc t⟩
  | append_singleton s d ih =>
      cases hd : isBlank d with
      | true =>
          refine ⟨words s, [], fun t => ?_⟩
          rw [List.append_assoc, List.singleton_append, words_append_cons hd, words_visible hc]
          rfl
      | false =>
          obtain ⟨before, lead, h⟩ := ih hd
          refine ⟨before, lead ++ [d], fun t => ?_⟩
          have htake : (c :: t).takeWhile (!isBlank ·) = c :: t.takeWhile (!isBlank ·) :=
            List.takeWhile_cons_of_pos (by rw [hc]; rfl)
          have hdrop : (c :: t).dropWhile (!isBlank ·) = t.dropWhile (!isBlank ·) :=
            List.dropWhile_cons_of_pos (by rw [hc]; rfl)
          rw [List.append_assoc, List.singleton_append, h, htake, hdrop, List.append_assoc,
            List.singleton_append]

/-- The head of the entry point stands in front, and so do no blanks. -/
def beginsMain (text : List Char) : Bool :=
  text.head?.any (!isBlank ·) && (words text).take 3 == mainHead

theorem hasMain_words (t : List Char) : hasMain (words t) =
    (beginsMain t || hasMain (words (t.dropWhile (!isBlank ·)))) := by
  cases t with
  | nil => rfl
  | cons c rest =>
      cases hc : isBlank c with
      | true => simp [beginsMain, hc]
      | false =>
          rw [beginsMain, words_visible hc, hasMain, hasRun_cons,
            List.dropWhile_cons_of_pos (by simp [hc]), List.head?_cons, Option.any_some, hc]
          rfl

/-- Behind a mark that ends an item, the entry point is not found if it follows at once. -/
theorem definesMain_join {c : Char} (hc : c = ';' ∨ c = '\x7d') (s : List Char) :
    ∃ own, ∀ t, definesMain (s ++ c :: t) =
      (own || hasMain (words ((spaceParens t).dropWhile (!isBlank ·)))) := by
  have hblank : isBlank c = false := by
    rcases hc with rfl | rfl <;> rfl
  have hparen : c ≠ '(' := by
    rcases hc with rfl | rfl <;> decide
  have hmark : ∀ w ∈ mainHead, c ∉ w := by
    rcases hc with rfl | rfl <;> decide
  obtain ⟨before, lead, h⟩ := exists_words_join hblank (spaceParens s)
  refine ⟨hasMain before, fun t => ?_⟩
  rw [definesMain_eq, spaceParens_append, spaceParens_cons hparen, h]
  exact hasRun_append_cons (fun hw => hmark _ hw (by simp)) _ _

theorem definesMain_suffix {code : List Char} (h : definesMain code = true) (s : List Char) :
    definesMain (s ++ '\n' :: code) = true := by
  rw [definesMain_eq] at h ⊢
  rw [spaceParens_append, spaceParens_cons (by decide), words_append_cons rfl]
  exact hasRun_append h _

theorem definesMain_blanks {between : List Char} (hbetween : ∀ c ∈ between, isBlank c = true)
    (code : List Char) : definesMain (between ++ code) = definesMain code := by
  rw [definesMain_eq, definesMain_eq, spaceParens_append, spaceParens_of_blank hbetween,
    words_append_of_blank hbetween]

end Words

/-- No visible character stands behind the last item of a code. -/
def Apart (code : List Char) : Prop :=
  ∀ c ∈ (itemsFrom 0 1 none [] code).2, isBlank c = true

instance : DecidablePred Apart := fun _ => List.decidableBAll _ _

theorem fresh_initial : Fresh 0 none [] :=
  fun _ => ⟨rfl, rfl⟩

section Apart

variable {s between : List Char}

theorem apart_append_blanks (hbetween : ∀ c ∈ between, isBlank c = true) :
    Apart (s ++ between) ↔ Apart s := by
  obtain ⟨line, started, -, h⟩ := itemsFrom_append fresh_initial 1 s
  obtain ⟨line', hblanks⟩ := itemsFrom_blanks hbetween (depthAfter 0 s) line started
    (itemsFrom 0 1 none [] s).2.reverse
  have hrest : (itemsFrom 0 1 none [] (s ++ between)).2 =
      (itemsFrom 0 1 none [] s).2 ++ between := by
    rw [h, ← List.append_nil between, hblanks, itemsFrom]
    simp
  rw [Apart, hrest, List.forall_mem_append, and_iff_left hbetween]
  rfl

/-- A visible character at the end of such a code ends an item. -/
theorem Apart.mark_of_visible {c : Char} (h : Apart (s ++ [c])) (hc : isBlank c = false) :
    c = ';' ∨ c = '\x7d' := by
  by_contra hmark
  rw [not_or] at hmark
  obtain ⟨line, started, -, happend⟩ := itemsFrom_append fresh_initial 1 s
  have hkept (taken : List Char) :
      (itemsFrom (depthAfter 0 s) line started taken [c]).2 = (c :: taken).reverse := by
    simp only [itemsFrom, hmark.1, hmark.2, false_and, if_false, ite_self]
  have hrest := h c
  rw [happend, hkept] at hrest
  exact absurd (hc.symm.trans (hrest (by simp))) (by decide)

theorem Apart.exists_mark (h : Apart s) : (∀ c ∈ s, isBlank c = true) ∨
    ∃ before c between, s = before ++ c :: between ∧ (c = ';' ∨ c = '\x7d') ∧
      ∀ d ∈ between, isBlank d = true := by
  induction s using List.reverseRecOn with
  | nil => exact .inl (List.forall_mem_nil _)
  | append_singleton s c ih =>
      cases hc : isBlank c with
      | true =>
          have hsingle : ∀ d ∈ [c], isBlank d = true := List.forall_mem_singleton.mpr hc
          rcases ih ((apart_append_blanks hsingle).mp h) with hblank |
            ⟨before, d, between, rfl, hd, hbetween⟩
          · exact .inl (List.forall_mem_append.mpr ⟨hblank, hsingle⟩)
          · refine .inr ⟨before, d, between ++ [c], ?_, hd, ?_⟩
            · rw [List.append_assoc, List.cons_append]
            · exact List.forall_mem_append.mpr ⟨hbetween, hsingle⟩
      | false => exact .inr ⟨s, c, [], rfl, h.mark_of_visible hc, List.forall_mem_nil _⟩

end Apart

end GlPlayback.Shader
