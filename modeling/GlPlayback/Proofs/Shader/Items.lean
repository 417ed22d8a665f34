import GlPlayback.Proofs.Shader.Brackets
import GlPlayback.Proofs.Shader.Heads

/-!
Code cut into its top-level items. Where brackets match, the scan counts the open ones exactly, so
it cuts at every place where an item ends and at no other, and nothing is lost. The brackets of each
item match again, so a brace that is open behind a layout qualifier is closed in the same item.
-/
namespace GlPlayback.Shader

open Text

variable {before text rest : List Char} {c : Char} {depth line : Nat} {started : Option Nat}

section Lines

/-- The number of the line that goes on behind the text. -/
def lineBehind (text : List Char) : Nat :=
  text.count '\n' + 1

theorem lineBehind_concat (text : List Char) (c : Char) :
    lineBehind (text ++ [c]) = if c = '\n' then lineBehind text + 1 else lineBehind text := by
  rw [lineBehind, List.count_append, List.count_singleton]
  by_cases hc : c = '\n' <;> simp [hc, lineBehind]

/-- The first visible character of the text, which stands behind `before`, is on the line. -/
def StartsOn (before text : List Char) (line : Nat) : Prop :=
  ∃ blanks c rest, text = blanks ++ c :: rest ∧ (∀ d ∈ blanks, isBlank d = true) ∧
    isBlank c = false ∧ line = lineBehind (before ++ blanks)

/-- What the scan keeps of the line on which an item starts, nothing as long as all is blank. -/
def Remembers (before text : List Char) : Option Nat → Prop
  | none => ∀ c ∈ text, isBlank c = true
  | some line => StartsOn before text line

theorem StartsOn.append (h : StartsOn before text line) (more : List Char) :
    StartsOn before (text ++ more) line := by
  obtain ⟨blanks, c, rest, rfl, hblanks, hc, hline⟩ := h
  exact ⟨blanks, c, rest ++ more, by simp, hblanks, hc, hline⟩

theorem Remembers.startsOn (h : Remembers before text started) (hc : isBlank c = false) :
    StartsOn before (text ++ [c]) (started.getD (lineBehind (before ++ (text ++ [c])))) := by
  have hline : lineBehind (before ++ (text ++ [c])) = lineBehind (before ++ text) := by
    rw [← List.append_assoc, lineBehind_concat, if_neg]
    rintro rfl
    cases hc
  cases started with
  | none => exact ⟨text, c, [], rfl, h, hc, hline⟩
  | some line => exact StartsOn.append h [c]

theorem Remembers.read (h : Remembers before text started) (c : Char) :
    Remembers before (text ++ [c]) (if isBlank c = true then started
      else some (started.getD (lineBehind (before ++ (text ++ [c]))))) := by
  split
  · next hc =>
      cases started with
      | none => exact List.forall_mem_append.mpr ⟨h, List.forall_mem_singleton.mpr hc⟩
      | some line => exact StartsOn.append h [c]
  · next hc => exact h.startsOn (Bool.eq_false_iff.mpr hc)

end Lines

section Depth

variable {stack stack' : List Bracket}

/-- The count is the number of open brackets, as long as every closing one matches. -/
theorem depthAfter_eq (h : openAfter stack text = some stack') :
    depthAfter stack.length text = stack'.length := by
  induction text generalizing stack with
  | nil =>
      cases h
      rfl
  | cons c text ih =>
      rw [depthAfter_cons]
      cases hopening : Bracket.ofOpening? c with
      | some b =>
          rw [Bracket.eq_of_ofOpening? hopening, openAfter_opening] at h
          rw [countOpen_opening (Option.isSome_iff_exists.mpr ⟨b, hopening⟩)]
          exact ih h
      | none =>
          have hnot : ¬(Bracket.ofOpening? c).isSome = true := by rw [hopening]; exact nofun
          cases hclosing : Bracket.ofClosing? c with
          | some b =>
              rw [Bracket.eq_of_ofClosing? hclosing, openAfter_closing] at h
              rw [countOpen_closing hnot (Option.isSome_iff_exists.mpr ⟨b, hclosing⟩)]
              split at h
              · rw [← List.length_tail]
                exact ih h
              · cases h
          | none =>
              rw [openAfter_plain (isPlain_iff.mpr ⟨hopening, hclosing⟩)] at h
              rw [countOpen_plain hnot (by rw [hclosing]; exact nofun)]
              exact ih h

/-- In front of any rest of the code, the count is zero exactly outside all brackets. -/
theorem nests_iff_depthAfter (h : Nests (text ++ rest)) : Nests text ↔ depthAfter 0 text = 0 := by
  rw [nests_iff_openAfter, openAfter_append] at h
  obtain ⟨stack, hstack, -⟩ := Option.bind_eq_some_iff.mp h
  rw [nests_iff_openAfter, hstack, Option.some_inj, ← List.length_eq_zero_iff,
    ← depthAfter_eq hstack]
  rfl

/-- In front of a closing bracket the count is not zero. -/
theorem Nests.depthAfter_pos {b : Bracket} (h : Nests (text ++ b.closing :: rest)) :
    0 < depthAfter 0 text := by
  rw [nests_iff_openAfter, openAfter_append] at h
  obtain ⟨stack, hstack, h⟩ := Option.bind_eq_some_iff.mp h
  rw [openAfter_closing] at h
  split at h
  · next hhead =>
      obtain ⟨below, rfl⟩ := List.head?_eq_some_iff.mp hhead
      have hdepth := depthAfter_eq hstack
      rw [List.length_nil, List.length_cons] at hdepth
      exact hdepth ▸ Nat.succ_pos _
  · cases h

/-- A bracket that opens is closed behind it. -/
theorem Nests.closing_mem {b : Bracket} (h : Nests (text ++ b.opening :: rest)) :
    b.closing ∈ rest := by
  rw [nests_iff_openAfter, openAfter_append] at h
  obtain ⟨stack, -, h⟩ := Option.bind_eq_some_iff.mp h
  rw [openAfter_opening] at h
  cases unwinds_of_openAfter h with
  | one b _ _ => exact List.mem_append_cons_self

/-- Behind text in which brackets match, they go on matching as before. -/
theorem Nests.of_append (h : Nests (text ++ rest)) (htext : Nests text) : Nests rest := by
  rwa [nests_iff_openAfter, openAfter_append, htext.openAfter_eq, Option.bind_some,
    ← nests_iff_openAfter] at h

end Depth

section Ends

/-- The character ends the item whose text stands in front of it: it is a semicolon outside all
brackets, or the last brace of a function. -/
def EndsItem (text : List Char) (c : Char) : Prop :=
  c = ';' ∧ Nests text ∨ c = '\x7d' ∧ Nests (text ++ [c]) ∧ isFunction (text ++ [c]) = true

theorem EndsItem.nests (h : EndsItem text c) : Nests (text ++ [c]) := by
  rcases h with ⟨rfl, htext⟩ | ⟨-, htext, -⟩
  · exact htext.append (.plain (by decide) .nil)
  · exact htext

/-- No character of the text ends an item. -/
def Unended (text : List Char) : Prop :=
  ∀ s c t, text = s ++ c :: t → ¬EndsItem s c

theorem Unended.nil : Unended [] :=
  fun s _ _ h => absurd h.symm (List.append_ne_nil_of_right_ne_nil s (List.cons_ne_nil _ _))

theorem Unended.concat (h : Unended text) (hc : ¬EndsItem text c) : Unended (text ++ [c]) := by
  intro s d t heq
  rcases last_or_earlier heq with ⟨rfl, rfl⟩ | ⟨more, hmore⟩
  · exact hc
  · exact h s d more hmore

theorem Unended.surface (h : Unended text) : ∀ s t, text = s ++ ';' :: t → ¬Nests s :=
  fun s t heq hs => h s ';' t heq (.inl ⟨rfl, hs⟩)

theorem Unended.surface_concat (h : Unended text) (hc : c ≠ ';') :
    ∀ s t, text ++ [c] = s ++ ';' :: t → ¬Nests s := by
  intro s t heq
  rcases last_or_earlier heq with ⟨-, hlast⟩ | ⟨more, hmore⟩
  · exact absurd hlast hc
  · exact h.surface s more hmore

theorem not_endsItem_of_opening (hopening : (Bracket.ofOpening? c).isSome = true) :
    ¬EndsItem text c := by
  rintro (⟨rfl, -⟩ | ⟨rfl, -⟩) <;> cases hopening

theorem endsItem_iff_of_closing (hclosing : (Bracket.ofClosing? c).isSome = true)
    (hopening : ¬(Bracket.ofOpening? c).isSome = true) (h : Nests (text ++ c :: rest)) :
    EndsItem text c ↔
      c = '\x7d' ∧ depthAfter 0 text - 1 = 0 ∧ isFunction (text ++ [c]) = true := by
  have hsemicolon : c ≠ ';' := by
    rintro rfl
    cases hclosing
  have hall : Nests ((text ++ [c]) ++ rest) := by rwa [List.append_assoc]
  rw [EndsItem, or_iff_right (fun h => hsemicolon h.1), nests_iff_depthAfter hall,
    depthAfter_concat, countOpen_closing hopening hclosing]

theorem endsItem_iff_of_plain (hclosing : ¬(Bracket.ofClosing? c).isSome = true)
    (h : Nests (text ++ c :: rest)) : EndsItem text c ↔ c = ';' ∧ depthAfter 0 text = 0 := by
  have hbrace : c ≠ '\x7d' := by
    rintro rfl
    exact hclosing rfl
  rw [EndsItem, nests_iff_depthAfter h, or_iff_left (fun h => hbrace h.1)]

end Ends

/-- The code of an item, with the semicolon that ended it. -/
def Item.code (item : Item) : List Char :=
  item.text ++ if item.semicolon then [';'] else []

/-- The item is cut out of the code behind `before`: brackets match in it, each of its semicolons is
inside brackets, its line is that of its first visible character, which may be the semicolon that
ended it, and it goes on up to the first character that ends one. -/
structure Item.IsCut (before : List Char) (item : Item) : Prop where
  nests : Nests item.text
  surface : ∀ s t, item.text = s ++ ';' :: t → ¬Nests s
  startsOn : StartsOn before item.code item.line
  ends : ∃ text c, item.code = text ++ [c] ∧ Unended text ∧ EndsItem text c

/-- Behind `before`, the text consists of the items and a rest in which none ends. -/
inductive Splits : (before text : List Char) → List Item → List Char → Prop
  | rest {before rest : List Char} (hrest : Unended rest) : Splits before rest [] rest
  | item {before text rest : List Char} {item : Item} {items : List Item}
      (hitem : item.IsCut before) (hmore : Splits (before ++ item.code) text items rest) :
      Splits before (item.code ++ text) (item :: items) rest

namespace Splits

variable {items : List Item}

theorem cons {item : Item} (hitem : item.IsCut before) (hcode : item.code = text ++ [c])
    {s : List Char} (hmore : Splits (before ++ (text ++ [c])) s items rest) :
    Splits before (text ++ c :: s) (item :: items) rest := by
  have hsplits := Splits.item hitem (hcode ▸ hmore)
  rwa [hcode, List.append_assoc, List.singleton_append] at hsplits

theorem code_eq (h : Splits before text items rest) : items.flatMap Item.code ++ rest = text := by
  induction h with
  | rest => rfl
  | item _ _ ih => rw [List.flatMap_cons, List.append_assoc, ih]

theorem unended (h : Splits before text items rest) : Unended rest := by
  induction h with
  | rest hrest => exact hrest
  | item _ _ ih => exact ih

theorem isCut (h : Splits before text items rest) {earlier later : List Item} {item : Item}
    (hitems : items = earlier ++ item :: later) :
    item.IsCut (before ++ earlier.flatMap Item.code) := by
  induction h generalizing earlier with
  | rest => exact absurd hitems.symm (by simp)
  | item hitem _ ih =>
      cases earlier with
      | nil =>
          cases hitems
          rwa [List.flatMap_nil, List.append_nil]
      | cons first earlier =>
          obtain ⟨rfl, hlater⟩ := List.cons.inj hitems
          rw [List.flatMap_cons, ← List.append_assoc]
          exact ih hlater

end Splits

/-- The scan has read the text of an item that begins behind `before` and has not ended. -/
structure InItem (before text : List Char) (depth line : Nat) (started : Option Nat) : Prop where
  depth_eq : depth = depthAfter 0 text
  line_eq : line = lineBehind (before ++ text)
  remembers : Remembers before text started
  unended : Unended text

namespace InItem

theorem start (hline : line = lineBehind before) : InItem before [] 0 line none where
  depth_eq := rfl
  line_eq := by rw [List.append_nil, hline]
  remembers := List.forall_mem_nil _
  unended := .nil

variable (h : InItem before text depth line started)
include h

theorem line_read (c : Char) :
    (if c = '\n' then line + 1 else line) = lineBehind (before ++ (text ++ [c])) := by
  rw [← List.append_assoc, lineBehind_concat, h.line_eq]

/-- A character that ends no item belongs to the text. -/
theorem read (hc : ¬EndsItem text c) :
    InItem before (text ++ [c]) (countOpen depth c) (if c = '\n' then line + 1 else line)
      (if isBlank c = true then started
        else some (started.getD (if c = '\n' then line + 1 else line))) where
  depth_eq := by rw [depthAfter_concat, h.depth_eq]
  line_eq := h.line_read c
  remembers := h.line_read c ▸ h.remembers.read c
  unended := h.unended.concat hc

theorem startsOn (hc : isBlank c = false) :
    StartsOn before (text ++ [c]) ((if isBlank c = true then started
      else some (started.getD (if c = '\n' then line + 1 else line))).getD
        (if c = '\n' then line + 1 else line)) := by
  rw [hc, h.line_read c]
  exact h.remembers.startsOn hc

theorem isCut_semicolon (hends : EndsItem text ';') {first : Nat}
    (hfirst : StartsOn before (text ++ [';']) first) :
    Item.IsCut before ⟨first, text, true⟩ where
  nests := hends.elim And.right fun hbrace => absurd hbrace.1 (by decide)
  surface := h.unended.surface
  startsOn := hfirst
  ends := ⟨text, ';', rfl, h.unended, hends⟩

theorem isCut_function (hends : EndsItem text '\x7d') {first : Nat}
    (hfirst : StartsOn before (text ++ ['\x7d']) first) :
    Item.IsCut before ⟨first, text ++ ['\x7d'], false⟩ where
  nests := hends.elim (fun hsemicolon => absurd hsemicolon.1 (by decide)) fun hbrace => hbrace.2.1
  surface := h.unended.surface_concat (by decide)
  startsOn := by
    rw [Item.code]
    exact (List.append_nil (text ++ ['\x7d'])).symm ▸ hfirst
  ends := ⟨text, '\x7d', List.append_nil _, h.unended, hends⟩

end InItem

/-- From within an item on, the scan cuts the text as it should. -/
theorem itemsFrom_splits (before : List Char) {taken s : List Char}
    (h : InItem before taken.reverse depth line started) (hnests : Nests (taken.reverse ++ s)) :
    Splits before (taken.reverse ++ s) (itemsFrom depth line started taken s).1
      (itemsFrom depth line started taken s).2 := by
  have hshift (taken rest : List Char) (c : Char) :
      taken.reverse ++ c :: rest = (c :: taken).reverse ++ rest := by simp
  have hbehind {text rest : List Char} {c : Char} (hall : Nests (text ++ c :: rest))
      (hcut : EndsItem text c) : Nests rest := by
    rw [← List.singleton_append, ← List.append_assoc] at hall
    exact hall.of_append hcut.nests
  -- The invariant is kept by what belongs to the item and starts anew behind each cut. There the
  -- rest of the code nests on its own, so the count is zero again.
  fun_induction itemsFrom depth line started taken s generalizing before with
  | case1 depth line started taken =>
      rw [List.append_nil]
      exact .rest h.unended
  | case2 depth line₀ started₀ taken c rest line started hopening ih =>
      have hnext := h.read (not_endsItem_of_opening hopening)
      rw [countOpen_opening hopening, ← List.reverse_cons] at hnext
      rw [hshift] at hnests ⊢
      exact ih before hnext hnests
  | case3 depth line₀ started₀ taken c rest line started hopening hclosing text hends more ih =>
      have hcut : EndsItem taken.reverse c :=
        (endsItem_iff_of_closing hclosing hopening hnests).mpr
          ⟨hends.1, h.depth_eq ▸ hends.2.1, List.reverse_cons ▸ hends.2.2⟩
      have hfirst := h.startsOn (isBlank_of_closing hclosing)
      have hline := h.line_read c
      obtain ⟨rfl, hdepth, -⟩ := hends
      have hitem := h.isCut_function hcut hfirst
      rw [← List.reverse_cons] at hitem
      rw [hdepth] at ih
      have hmore := ih _ (.start hline) (hbehind hnests hcut)
      simp only [more, hdepth]
      exact .cons hitem (by simp [Item.code]) hmore
  | case4 depth line₀ started₀ taken c rest line started hopening hclosing text hgoes ih =>
      have hnot : ¬EndsItem taken.reverse c := by
        rwa [endsItem_iff_of_closing hclosing hopening hnests, ← h.depth_eq, ← List.reverse_cons]
      have hnext := h.read hnot
      rw [countOpen_closing hopening hclosing, ← List.reverse_cons] at hnext
      rw [hshift] at hnests ⊢
      exact ih before hnext hnests
  | case5 depth line₀ started₀ taken c rest line started hopening hclosing hends more ih =>
      have hcut : EndsItem taken.reverse c :=
        (endsItem_iff_of_plain hclosing hnests).mpr ⟨hends.1, h.depth_eq ▸ hends.2⟩
      have hline := h.line_read c
      obtain ⟨rfl, rfl⟩ := hends
      have hitem := h.isCut_semicolon hcut (h.startsOn (by decide))
      exact .cons hitem rfl (ih _ (.start hline) (hbehind hnests hcut))
  | case6 depth line₀ started₀ taken c rest line started hopening hclosing hgoes ih =>
      have hnot : ¬EndsItem taken.reverse c := by
        rwa [endsItem_iff_of_plain hclosing hnests, ← h.depth_eq]
      have hnext := h.read hnot
      rw [countOpen_plain hopening hclosing, ← List.reverse_cons] at hnext
      rw [hshift] at hnests ⊢
      exact ih before hnext hnests

section Parts

/-- If the text has an opening brace, then its last closing brace comes behind the first opening
one, also where only what is behind that is searched for it. -/
def BodyInRange (text : List Char) : Prop :=
  ∀ head tail, splitFirst? '\x7b' text = some (head, tail) →
    ∃ body behind, splitLast? '\x7d' text = some (head ++ '\x7b' :: body, behind) ∧
      splitLast? '\x7d' tail = some (body, behind)

/-- Behind the word `layout` and an opening parenthesis, the first closing one comes later, and what
stands between them is searched for a location. -/
def LayoutInRange (text : List Char) : Prop :=
  ∀ inside lead behind,
    (afterMark? "layout".toList (trimStart text)).map trimStart = some ('(' :: inside) →
    splitFirst? ')' ('(' :: inside) = some (lead, behind) →
    ∃ qualifiers, lead = '(' :: qualifiers ∧ takeLayout text = (locationIn? qualifiers, behind)

theorem takeLayout_suffix (text : List Char) : (takeLayout text).2 <:+ text := by
  have htrim (s : List Char) : trimStart s <:+ s := List.dropWhile_suffix isBlank
  simp only [takeLayout]
  split
  · next inside heq =>
      split
      · next qualifiers rest hcut =>
          obtain ⟨behind, hmark, hopen⟩ := Option.map_eq_some_iff.mp heq
          have hrest : rest <:+ '(' :: inside :=
            ⟨'(' :: (qualifiers ++ [')']), by simp [eq_of_splitFirst?_eq_some hcut]⟩
          have hbehind : behind <:+ trimStart text := ⟨_, (eq_of_afterMark? hmark).symm⟩
          exact ((hopen ▸ hrest).trans (htrim behind)).trans (hbehind.trans (htrim text))
      · exact htrim text
  · exact htrim text

theorem Nests.bodyInRange (h : Nests text) : BodyInRange (takeLayout text).2 := by
  intro head tail hcut
  have hrest := eq_of_splitFirst?_eq_some hcut
  obtain ⟨front, hfront⟩ := takeLayout_suffix text
  rw [← hfront, hrest, ← List.append_assoc] at h
  have hclosed : '\x7d' ∈ tail := Nests.closing_mem (b := .brace) h
  obtain ⟨body, behind, rfl, hbehind⟩ := exists_splitLast? hclosed
  refine ⟨body, behind, ?_, splitLast?_append_cons hbehind body⟩
  rw [hrest, ← List.cons_append, ← List.append_assoc]
  exact splitLast?_append_cons hbehind _

theorem layoutInRange (text : List Char) : LayoutInRange text := by
  intro inside lead behind hlayout hcut
  obtain ⟨⟨qualifiers, _⟩, hinside, heq⟩ := Option.map_eq_some_iff.mp hcut
  cases heq
  refine ⟨qualifiers, rfl, ?_⟩
  simp only [takeLayout, hlayout, hinside]

end Parts

/-- The scan for items goes on behind the text with this count of open brackets. -/
def ResumesAt (text : List Char) (depth : Nat) : Prop :=
  let read := itemsFrom 0 1 none [] text
  ∃ line started, ∀ rest, let more := itemsFrom depth line started read.2.reverse rest
    itemsFrom 0 1 none [] (text ++ rest) = (read.1 ++ more.1, more.2)

theorem resumesAt_depthAfter (text : List Char) : ResumesAt text (depthAfter 0 text) := by
  obtain ⟨line, started, -, h⟩ := itemsFrom_append fresh_initial 1 text
  exact ⟨line, started, h⟩

/-- In code whose brackets match, the scan never counts below zero. The items with the semicolons
that ended them and the rest behind the last one are the code again, and each item is cut out of it
where it ends first, with matching brackets, no semicolon outside them and the right line. So both
the parentheses of a layout and the braces behind it are found in this order. -/
theorem items_lossless {code : List Char} (h : checkBrackets code = .ok ()) :
    (∀ before b after, code = before ++ Bracket.closing b :: after →
      0 < depthAfter 0 before ∧ ResumesAt before (depthAfter 0 before)) ∧
    (items code).flatMap Item.code ++ (itemsFrom 0 1 none [] code).2 = code ∧
    Unended (itemsFrom 0 1 none [] code).2 ∧
    (∀ earlier item later, items code = earlier ++ item :: later →
      item.IsCut (earlier.flatMap Item.code)) ∧
    ∀ item ∈ items code, BodyInRange (takeLayout item.text).2 ∧ LayoutInRange item.text := by
  have hnests : Nests code := (checkBrackets_eq_ok_iff code).mp h
  have hstart : InItem [] ([] : List Char).reverse 0 1 none := .start rfl
  have hsplits : Splits [] code (items code) (itemsFrom 0 1 none [] code).2 :=
    itemsFrom_splits [] hstart hnests
  refine ⟨?_, hsplits.code_eq, hsplits.unended, fun _ _ _ => hsplits.isCut, fun item hitem => ?_⟩
  · rintro before b after rfl
    exact ⟨hnests.depthAfter_pos, resumesAt_depthAfter before⟩
  · obtain ⟨earlier, later, hitems⟩ := List.append_of_mem hitem
    exact ⟨(hsplits.isCut hitems).nests.bodyInRange, layoutInRange item.text⟩

/-- A blank item is on the line of its semicolon, and one of the semicolons is in a block. -/
theorem items_lossless_blank :
    let code := "in vec4 p;\n\n ;layout(std140) uniform B \x7b vec4 a; \x7d b;".toList
    let block := "layout(std140) uniform B \x7b vec4 a; \x7d b".toList
    checkBrackets code = .ok () ∧
      Item.IsCut "in vec4 p;".toList ⟨3, "\n\n ".toList, true⟩ ∧
      BodyInRange (takeLayout block).2 ∧ LayoutInRange block := by
  intro code block
  have hcode : checkBrackets code = .ok () := by decide
  have hitems : items code =
      [⟨1, "in vec4 p".toList, true⟩, ⟨3, "\n\n ".toList, true⟩, ⟨3, block, true⟩] := by decide
  obtain ⟨-, -, -, hcut, hparts⟩ := items_lossless hcode
  refine ⟨hcode, hcut [⟨1, "in vec4 p".toList, true⟩] _ _ hitems, hparts ⟨3, block, true⟩ ?_⟩
  rw [hitems]
  decide

end GlPlayback.Shader
