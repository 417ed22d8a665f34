import Mathlib.Data.Bool.AllAny
import GlPlayback.Proofs.Shader.Places

/-!
How a statement begins: perhaps with a layout qualifier, then with qualifiers and the word that
decides what the statement declares.
-/
namespace GlPlayback.Shader

open Text

section Words

variable {s t : List Char}

theorem exists_trimStart (s : List Char) :
    ∃ blanks, (∀ d ∈ blanks, isBlank d = true) ∧ s = blanks ++ trimStart s :=
  ⟨s.takeWhile isBlank, fun _ => List.mem_takeWhile_imp, List.takeWhile_append_dropWhile.symm⟩

theorem words_trimStart (s : List Char) : words (trimStart s) = words s := by
  obtain ⟨blanks, hblanks, hs⟩ := exists_trimStart s
  conv_rhs => rw [hs, words_append_of_blank hblanks]

theorem exists_visible (h : words s ≠ []) : ∃ blanks c rest, (∀ d ∈ blanks, isBlank d = true) ∧
    isBlank c = false ∧ s = blanks ++ c :: rest := by
  obtain ⟨blanks, hblanks, hs⟩ := exists_trimStart s
  rw [← words_trimStart] at h
  have hvisible := List.head?_dropWhile_not isBlank s
  rw [← trimStart] at hvisible
  cases hrest : trimStart s with
  | nil =>
      rw [hrest] at h
      exact absurd rfl h
  | cons c rest =>
      rw [hrest] at hvisible hs
      exact ⟨blanks, c, rest, hblanks, hvisible, hs⟩

/-- The first of several words is the same whatever follows the text. -/
theorem exists_words_rest {w v : List Char} {ws : List (List Char)} (h : words s = w :: v :: ws) :
    ∃ rest, words rest = v :: ws ∧ ∀ t, words (s ++ t) = w :: words (rest ++ t) := by
  obtain ⟨blanks, c, rest, hblanks, hc, rfl⟩ := exists_visible (h ▸ List.cons_ne_nil _ _)
  rw [words_append_of_blank hblanks, words_visible hc] at h
  obtain ⟨rfl, hrest⟩ := List.cons.inj h
  refine ⟨rest.dropWhile (!isBlank ·), hrest, fun t => ?_⟩
  have hne : (rest.dropWhile (!isBlank ·)).isEmpty = false := by
    rw [List.isEmpty_eq_false_iff]
    intro hnil
    rw [hnil] at hrest
    cases hrest
  have hdrop : (rest ++ t).dropWhile (!isBlank ·) = rest.dropWhile (!isBlank ·) ++ t := by
    rw [List.dropWhile_append, hne]
    rfl
  have htake : (rest ++ t).takeWhile (!isBlank ·) = rest.takeWhile (!isBlank ·) := by
    have hall := List.takeWhile_append_dropWhile (p := (!isBlank ·)) (l := rest ++ t)
    rw [hdrop, ← List.append_assoc] at hall
    conv_rhs at hall => rw [← List.takeWhile_append_dropWhile (p := (!isBlank ·)) (l := rest)]
    exact List.append_cancel_right (List.append_cancel_right hall)
  rw [List.append_assoc, words_append_of_blank hblanks, List.cons_append, words_visible hc, htake,
    hdrop]

theorem words_append_first {v : List Char} {ws : List (List Char)} (h : words s = v :: ws)
    (t : List Char) : ∃ v' ws', words (s ++ t) = (v ++ v') :: ws' := by
  obtain ⟨blanks, c, rest, hblanks, hc, rfl⟩ := exists_visible (h ▸ List.cons_ne_nil _ _)
  rw [words_append_of_blank hblanks, words_visible hc] at h
  obtain ⟨rfl, -⟩ := List.cons.inj h
  obtain ⟨v', hv'⟩ : rest.takeWhile (!isBlank ·) <+: (rest ++ t).takeWhile (!isBlank ·) := by
    rw [List.takeWhile_append]
    split
    · exact (List.takeWhile_prefix _).trans (List.prefix_append _ _)
    · exact List.prefix_rfl
  refine ⟨v', words ((rest ++ t).dropWhile (!isBlank ·)), ?_⟩
  rw [List.append_assoc, words_append_of_blank hblanks, List.cons_append, words_visible hc, ← hv',
    List.cons_append]

/-- Text that follows can change the last word of a text only. -/
theorem words_append {ws : List (List Char)} {v : List Char} {more : List (List Char)}
    (h : words s = ws ++ v :: more) (t : List Char) :
    ∃ v' more', words (s ++ t) = ws ++ (v ++ v') :: more' := by
  induction ws generalizing s with
  | nil => exact words_append_first h t
  | cons w ws ih =>
      obtain ⟨x, rest, hrest⟩ := List.exists_cons_of_ne_nil
        (List.append_ne_nil_of_right_ne_nil ws (List.cons_ne_nil v more))
      rw [List.cons_append, hrest] at h
      obtain ⟨later, hlater, happend⟩ := exists_words_rest h
      obtain ⟨v', more', h'⟩ := ih (hlater.trans hrest.symm)
      exact ⟨v', more', by rw [happend, h', List.cons_append]⟩

theorem mem_of_mem_splitWhere {p : Char → Bool} {piece : List Char} (h : piece ∈ splitWhere p s) :
    ∀ c ∈ piece, c ∈ s := by
  induction s generalizing piece with
  | nil =>
      rw [splitWhere, List.mem_singleton] at h
      exact fun c hc => h ▸ hc
  | cons d rest ih =>
      obtain ⟨first, others, hpieces⟩ := List.exists_cons_of_ne_nil (splitWhere_ne_nil p rest)
      rw [hpieces] at ih
      simp only [splitWhere, hpieces] at h
      intro c hc
      split at h
      · rcases List.mem_cons.mp h with rfl | h
        · cases hc
        · exact List.mem_cons_of_mem _ (ih h c hc)
      · rcases List.mem_cons.mp h with rfl | h
        · rcases List.mem_cons.mp hc with rfl | hc
          · exact List.mem_cons_self
          · exact List.mem_cons_of_mem _ (ih List.mem_cons_self c hc)
        · exact List.mem_cons_of_mem _ (ih (List.mem_cons_of_mem _ h) c hc)

theorem mem_of_mem_words {w : List Char} (h : w ∈ words s) : w ≠ [] ∧ ∀ c ∈ w, c ∈ s := by
  rw [words, List.mem_filter] at h
  exact ⟨by simpa using h.2, mem_of_mem_splitWhere h.1⟩

end Words

section Layout

variable {text blanks : List Char}

theorem eq_of_afterMark? {mark rest : List Char} (h : afterMark? mark text = some rest) :
    text = mark ++ rest := by
  induction mark generalizing text with
  | nil => exact Option.some.inj h
  | cons m ms ih =>
      cases text with
      | nil => cases h
      | cons c cs =>
          rw [afterMark?] at h
          split at h
          · next hm => rw [ih h, hm, List.cons_append]
          · cases h

/-- A layout qualifier is told by the parenthesis behind its word. -/
theorem takeLayout_of_words {w : List Char} {ws : List (List Char)} (h : words text = w :: ws)
    (hparen : ¬ "layout(".toList <+: w)
    (hnext : w = "layout".toList → ∀ v ∈ ws.head?, v.head? ≠ some '(') :
    takeLayout text = (none, trimStart text) := by
  rw [← words_trimStart] at h
  simp only [takeLayout]
  generalize trimStart text = trimmed at h ⊢
  cases hmark : afterMark? "layout".toList trimmed with
  | none => rfl
  | some rest =>
      obtain rfl := eq_of_afterMark? hmark
      simp only [Option.map_some]
      split
      · next inside heq =>
          obtain ⟨blanks, hblanks, hrest⟩ := exists_trimStart rest
          rw [Option.some.inj heq] at hrest
          subst hrest
          exfalso
          cases blanks with
          | nil =>
              have hword : words ("layout".toList ++ ([] ++ '(' :: inside)) =
                  ("layout(".toList ++ inside.takeWhile (!isBlank ·)) ::
                    words (inside.dropWhile (!isBlank ·)) := words_visible rfl _
              rw [hword] at h
              exact hparen ((List.cons.inj h).1 ▸ List.prefix_append _ _)
          | cons b blanks =>
              obtain ⟨hb, hblanks⟩ := List.forall_mem_cons.mp hblanks
              have hlayout : IsWord "layout".toList := by decide
              rw [List.cons_append, hlayout.words_append hb, words_append_of_blank hblanks,
                words_visible rfl] at h
              obtain ⟨rfl, rfl⟩ := List.cons.inj h
              exact hnext rfl _ rfl rfl
      · rfl

/-- A layout qualifier with its parentheses. -/
def IsLayout (text : List Char) : Prop :=
  ∃ blanks qualifiers, (∀ c ∈ blanks, isBlank c = true) ∧
    (∀ c ∈ qualifiers, isPlain c = true ∧ c ≠ ';') ∧
    text = "layout".toList ++ (blanks ++ '(' :: (qualifiers ++ [')']))

theorem IsLayout.takeLayout_eq (h : IsLayout text) (hblanks : ∀ c ∈ blanks, isBlank c = true)
    (rest : List Char) : ∃ location, takeLayout (blanks ++ (text ++ rest)) = (location, rest) := by
  obtain ⟨between, qualifiers, hbetween, hqualifiers, rfl⟩ := h
  have hclose : ')' ∉ qualifiers := fun hmem => absurd (hqualifiers _ hmem).1 (by decide)
  have hmark (more : List Char) :
      afterMark? "layout".toList ("layout".toList ++ more) = some more := rfl
  have hstart (more : List Char) :
      trimStart ("layout".toList ++ more) = "layout".toList ++ more := rfl
  have hopen (more : List Char) : trimStart ('(' :: more) = '(' :: more := rfl
  refine ⟨locationIn? qualifiers, ?_⟩
  simp only [takeLayout, List.append_assoc, List.cons_append, List.nil_append,
    trimStart_append hblanks, hstart, hmark, Option.map_some, trimStart_append hbetween, hopen,
    splitFirst?_append_cons hclose]

end Layout

/-- What may stand between layout qualifier and braces of a statement: matched brackets, none of
which are braces, and no semicolon. -/
structure IsPhrase (text : List Char) : Prop where
  nests : Nests text
  mark : ';' ∉ text
  brace : '\x7b' ∉ text

theorem IsPhrase.append {s t : List Char} (hs : IsPhrase s) (ht : IsPhrase t) :
    IsPhrase (s ++ t) where
  nests := hs.nests.append ht.nests
  mark := by
    rw [List.mem_append, not_or]
    exact ⟨hs.mark, ht.mark⟩
  brace := by
    rw [List.mem_append, not_or]
    exact ⟨hs.brace, ht.brace⟩

theorem IsPhrase.scans {text : List Char} (h : IsPhrase text) (taken : List Char) :
    Scans 0 taken text 0 :=
  h.nests.scans_surface h.mark h.brace taken

theorem IsPhrase.of_plain {text : List Char}
    (h : ∀ c ∈ text, isPlain c = true ∧ c ≠ ';') : IsPhrase text where
  nests := .of_plain fun c hc => (h c hc).1
  mark hmem := (h _ hmem).2 rfl
  brace hmem := absurd (h _ hmem).1 (by decide)

theorem IsPhrase.of_blank {text : List Char} (h : ∀ c ∈ text, isBlank c = true) :
    IsPhrase text := by
  refine .of_plain fun c hc => ⟨isPlain_of_isBlank (h c hc), ?_⟩
  rintro rfl
  exact absurd (h _ hc) (by decide)

theorem IsLayout.isPhrase {text : List Char} (h : IsLayout text) : IsPhrase text := by
  obtain ⟨blanks, qualifiers, hblanks, hqualifiers, rfl⟩ := h
  have hword : IsPhrase "layout".toList :=
    .of_plain (List.all_iff_forall_prop.mp (by decide))
  have hparens : IsPhrase ('(' :: (qualifiers ++ [')'])) := by
    have hinside := IsPhrase.of_plain hqualifiers
    refine ⟨.enclosed .paren hinside.nests .nil, ?_, ?_⟩
    · simpa using hinside.mark
    · simpa using hinside.brace
  exact hword.append ((IsPhrase.of_blank hblanks).append hparens)

/-- A word that neither qualifies a declaration nor says where its values come from. -/
def IsIdleWord (word : List Char) : Prop :=
  String.ofList word ∉ qualifiers ∧ Storage.ofWord? word = none

instance : DecidablePred IsIdleWord := fun _ => inferInstanceAs (Decidable (_ ∧ _))

/-- The text begins with qualifiers and then this word. -/
def LeadsTo (text : List Char) (lead : List (List Char)) (word : List Char) : Prop :=
  (∀ q ∈ lead, String.ofList q ∈ qualifiers) ∧ ∃ more, words text = lead ++ word :: more

/-- The head of a statement is what stands before its first brace. -/
def HasHead (head text : List Char) : Prop :=
  '\x7b' ∉ head ∧ (text = head ∨ '(' ∉ head ∧ ∃ tail, text = head ++ '\x7b' :: tail)

section Idle

variable {head text : List Char} {item : Item} {location : Option UInt32}

theorem HasHead.isFunction_eq {whole : List Char} (h : HasHead head text)
    (htake : takeLayout whole = (location, text)) : isFunction whole = false := by
  obtain ⟨hbrace, rfl | ⟨hparen, tail, rfl⟩⟩ := h
  · simp only [isFunction, htake, splitFirst?_eq_none hbrace]
  · simp only [isFunction, htake, splitFirst?_append_cons hbrace]
    simpa using hparen

/-- Statements that lead to a word of no importance declare nothing. -/
theorem HasHead.declarations_eq (h : HasHead head text) (stage : Stage)
    (htake : takeLayout item.text = (location, text)) {lead : List (List Char)} {word : List Char}
    (hlead : LeadsTo head lead word) (hword : IsIdleWord word) :
    item.declarations stage = .ok [] := by
  have hfunction := h.isFunction_eq htake
  obtain ⟨hqualifiers, more, hwords⟩ := hlead
  rw [Item.declarations, hfunction, htake]
  obtain ⟨hbrace, rfl | ⟨hparen, tail, rfl⟩⟩ := h
  · have hfilter : wordsWithout qualifiers text =
        word :: more.filter fun w => !qualifiers.contains (String.ofList w) := by
      rw [wordsWithout, hwords, List.filter_append, List.filter_eq_nil_iff.mpr,
        List.nil_append, List.filter_cons_of_pos]
      · simpa using hword.1
      · intro q hq
        simpa using hqualifiers q hq
    simp only [Bool.false_eq_true, if_false, splitFirst?_eq_none hbrace, plainDeclarations, hfilter,
      hword.2]
  · have hfirst : ∀ w ∈ (words head).head?, w ≠ "uniform".toList := by
      rw [hwords]
      rintro w hw rfl
      cases lead with
      | nil =>
          cases hw
          exact absurd hword.2 (by decide)
      | cons q lead =>
          cases hw
          exact absurd (hqualifiers _ List.mem_cons_self) (by decide)
    simp only [Bool.false_eq_true, if_false, splitFirst?_append_cons hbrace]
    cases hhead : words head with
    | nil => rfl
    | cons first rest =>
        rw [hhead] at hfirst
        simp only [if_pos (hfirst first rfl)]

theorem HasHead.trimStart_eq (h : HasHead head text) (hwords : words head ≠ []) :
    HasHead (trimStart head) (trimStart text) := by
  have hsubset : trimStart head ⊆ head := (List.dropWhile_suffix isBlank).subset
  obtain ⟨hbrace, rfl | ⟨hparen, tail, rfl⟩⟩ := h
  · exact ⟨fun hmem => hbrace (hsubset hmem), .inl rfl⟩
  · refine ⟨fun hmem => hbrace (hsubset hmem), .inr ⟨fun hmem => hparen (hsubset hmem), tail, ?_⟩⟩
    obtain ⟨blanks, c, rest, hblanks, hc, rfl⟩ := exists_visible hwords
    rw [List.append_assoc, trimStart_append hblanks, trimStart_append hblanks, List.cons_append,
      trimStart_cons hc, trimStart_cons hc, List.cons_append]

theorem LeadsTo.trimStart {lead : List (List Char)} {word : List Char}
    (h : LeadsTo head lead word) : LeadsTo (Text.trimStart head) lead word := by
  rwa [LeadsTo, words_trimStart]

end Idle

section Front

variable {lay head text blanks : List Char}

/-- No layout qualifier is read off a text with this beginning. -/
def LeavesLayout (head : List Char) : Prop :=
  ∀ rest, takeLayout (head ++ rest) = (none, trimStart (head ++ rest))

theorem LeavesLayout.append (h : LeavesLayout head) (more : List Char) :
    LeavesLayout (head ++ more) := by
  intro rest
  rw [List.append_assoc]
  exact h (more ++ rest)

/-- Words with which a statement may begin that has no layout qualifier in front. -/
def openingWords : List String :=
  "precision" :: "struct" :: "out" :: "varying" :: qualifiers

theorem LeavesLayout.of_openingWord {w : List Char} {ws : List (List Char)}
    (h : words head = w :: ws) (hw : String.ofList w ∈ openingWords) : LeavesLayout head := by
  have hletters : 2 ≤ w.length ∧ w.take 2 ≠ ['l', 'a'] := by
    have hall : ∀ k ∈ openingWords, 2 ≤ k.toList.length ∧ k.toList.take 2 ≠ ['l', 'a'] := by decide
    simpa using hall _ hw
  intro rest
  obtain ⟨v, ws', hwords⟩ := words_append_first h rest
  have htake : (w ++ v).take 2 ≠ ['l', 'a'] := by
    rw [List.take_append_of_le_length hletters.1]
    exact hletters.2
  refine takeLayout_of_words hwords ?_ fun heq => ?_
  · rintro ⟨more, hmore⟩
    rw [← hmore] at htake
    exact htake rfl
  · rw [heq] at htake
    exact absurd rfl htake

theorem LeadsTo.leavesLayout {word : List Char} {lead : List (List Char)}
    (h : LeadsTo head lead word) (hword : lead = [] → String.ofList word ∈ openingWords) :
    LeavesLayout head := by
  obtain ⟨hlead, more, hwords⟩ := h
  have hqualifiers : qualifiers ⊆ openingWords := by decide
  cases lead with
  | nil => exact .of_openingWord hwords (hword rfl)
  | cons q lead =>
      exact .of_openingWord hwords (hqualifiers (hlead q List.mem_cons_self))

theorem LeavesLayout.of_paren {w v : List Char} {ws : List (List Char)}
    (h : words head = w :: v :: ws) (hparen : '(' ∉ head) : LeavesLayout head := by
  intro rest
  have hmem {u : List Char} (hu : u ∈ words head) : '(' ∉ u :=
    fun hopen => hparen ((mem_of_mem_words hu).2 _ hopen)
  have hw : w ∈ words head := h ▸ List.mem_cons_self
  have hv : v ∈ words head := h ▸ List.mem_cons_of_mem _ List.mem_cons_self
  obtain ⟨v', ws', hwords⟩ := words_append (show words head = [w] ++ v :: ws from h) rest
  refine takeLayout_of_words hwords ?_ fun _ u hu hopen => ?_
  · rintro ⟨more, rfl⟩
    exact hmem hw (List.mem_append_left _ (by decide))
  · cases hu
    obtain ⟨c, v, rfl⟩ := List.exists_cons_of_ne_nil (mem_of_mem_words hv).1
    cases hopen
    exact hmem hv List.mem_cons_self

/-- Either a layout qualifier stands in front of the head, or the head itself has none. -/
def Front (lay head : List Char) : Prop :=
  (lay = [] ∧ LeavesLayout head) ∨ IsLayout lay

theorem Front.isPhrase (h : Front lay head) : IsPhrase lay := by
  rcases h with ⟨rfl, -⟩ | h
  · exact .of_blank (List.forall_mem_nil _)
  · exact h.isPhrase

theorem Front.takeLayout_eq (h : Front lay head) (hblanks : ∀ c ∈ blanks, isBlank c = true)
    (rest : List Char) : ∃ location text,
      takeLayout (blanks ++ (lay ++ (head ++ rest))) = (location, text) ∧
        (text = head ++ rest ∨ text = trimStart (head ++ rest)) := by
  rcases h with ⟨rfl, h⟩ | h
  · refine ⟨none, _, ?_, .inr rfl⟩
    rw [List.nil_append, takeLayout_congr (trimStart_append hblanks (head ++ rest)), h]
  · obtain ⟨location, htake⟩ := h.takeLayout_eq hblanks (head ++ rest)
    exact ⟨location, _, htake, .inl rfl⟩

/-- The statement is its head, or braces follow the head, which has no parenthesis then. -/
def HasShape (head text : List Char) : Prop :=
  text = head ∨ '(' ∉ head ∧ ∃ body tail, Nests body ∧ IsPhrase tail ∧
    text = head ++ '\x7b' :: (body ++ '\x7d' :: tail)

theorem HasShape.nests (hphrase : IsPhrase head) (h : HasShape head text) : Nests text := by
  rcases h with rfl | ⟨-, body, tail, hbody, htail, rfl⟩
  · exact hphrase.nests
  · exact hphrase.nests.append (.enclosed .brace hbody htail.nests)

/-- A statement, but for its semicolon, that leads to a word of no importance. There may be a
layout qualifier in front of its head, and braces behind it. -/
structure IsIdle (lay head text : List Char) : Prop where
  front : Front lay head
  phrase : IsPhrase head
  shape : HasShape head text
  leads : ∃ lead word, LeadsTo head lead word ∧ IsIdleWord word

namespace IsIdle

theorem words_ne_nil (h : IsIdle lay head text) : words head ≠ [] := by
  obtain ⟨lead, word, ⟨-, more, hwords⟩, -⟩ := h.leads
  rw [hwords]
  simp

/-- A layout qualifier may have been taken off the text, or blanks. -/
theorem exists_head (h : IsIdle lay head text) (hblanks : ∀ c ∈ blanks, isBlank c = true)
    {rest : List Char} (hhead : HasHead head (head ++ rest)) : ∃ head' location text',
      takeLayout (blanks ++ (lay ++ (head ++ rest))) = (location, text') ∧ HasHead head' text' ∧
        ∃ lead word, LeadsTo head' lead word ∧ IsIdleWord word := by
  obtain ⟨location, text', htake, rfl | rfl⟩ := h.front.takeLayout_eq hblanks rest
  · exact ⟨head, location, _, htake, hhead, h.leads⟩
  · obtain ⟨lead, word, hlead, hword⟩ := h.leads
    exact ⟨trimStart head, location, _, htake, hhead.trimStart_eq h.words_ne_nil, lead, word,
      hlead.trimStart, hword⟩

theorem declarations_eq (h : IsIdle lay head text) (hblanks : ∀ c ∈ blanks, isBlank c = true)
    (stage : Stage) (line : Nat) (semicolon : Bool) :
    Item.declarations stage ⟨line, blanks ++ (lay ++ text), semicolon⟩ = .ok [] := by
  have hhead : ∃ rest, text = head ++ rest ∧ HasHead head (head ++ rest) := by
    rcases h.shape with rfl | ⟨hparen, body, tail, -, -, rfl⟩
    · exact ⟨[], (List.append_nil _).symm, h.phrase.brace, .inl (List.append_nil _)⟩
    · exact ⟨_, rfl, h.phrase.brace, .inr ⟨hparen, _, rfl⟩⟩
  obtain ⟨rest, rfl, hhead⟩ := hhead
  obtain ⟨head', location, text', htake, hhead', lead, word, hlead, hword⟩ :=
    h.exists_head hblanks hhead
  exact hhead'.declarations_eq stage htake hlead hword

theorem scans (h : IsIdle lay head text) {taken : List Char}
    (htaken : ∀ c ∈ taken, isBlank c = true) : Scans 0 taken (lay ++ text) 0 := by
  refine (h.front.isPhrase.scans taken).append ?_
  rcases h.shape with rfl | ⟨hparen, body, tail, hbody, htail, rfl⟩
  · exact h.phrase.scans _
  · have hbraced : head ++ '\x7b' :: (body ++ '\x7d' :: tail) =
        head ++ ('\x7b' :: (body ++ ['\x7d'])) ++ tail := by simp
    rw [hbraced]
    refine ((h.phrase.scans _).append (Scans.enclosed .brace hbody fun _ => ?_)).append
      (htail.scans _)
    have hhead : HasHead head (head ++ '\x7b' :: (body ++ ['\x7d'])) :=
      ⟨h.phrase.brace, .inr ⟨hparen, _, rfl⟩⟩
    obtain ⟨head', location, text', htake, hhead', -⟩ :=
      h.exists_head (blank_reverse htaken) hhead
    have hfunction := hhead'.isFunction_eq htake
    simpa [List.reverse_append, Bracket.opening, Bracket.closing] using hfunction

end IsIdle

end Front

end GlPlayback.Shader
