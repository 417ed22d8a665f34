import GlPlayback.Proofs.Shader.Heads

/-!
Statements that have nothing to do with the interface of a shader. Put between two items on a line
of its own, each of them leaves the result as it is, except a default layout, which is an error.
-/
namespace GlPlayback.Shader

open Text

def signature (head params tail : List Char) : List Char :=
  head ++ '(' :: (params ++ ')' :: tail)

/-- A function up to its body: a type and a name, perhaps behind qualifiers, and parameters. -/
structure IsSignature (head params tail : List Char) : Prop where
  phrase : IsPhrase head
  paren : '(' ∉ head
  inside : IsPhrase params
  blank : ∀ c ∈ tail, isBlank c = true
  leads : ∃ lead type name more, words head = lead ++ type :: name :: more ∧
    (∀ q ∈ lead, String.ofList q ∈ qualifiers) ∧ IsIdleWord type

namespace IsSignature

variable {head params tail : List Char}

theorem isIdle (h : IsSignature head params tail) :
    IsIdle [] (signature head params tail) (signature head params tail) := by
  obtain ⟨lead, type, name, more, hwords, hlead, htype⟩ := h.leads
  have hleaves : LeavesLayout head := by
    cases lead with
    | nil => exact .of_paren hwords h.paren
    | cons q lead =>
        obtain ⟨v, ws, hrest⟩ := List.exists_cons_of_ne_nil
          (List.append_ne_nil_of_right_ne_nil lead (List.cons_ne_nil type (name :: more)))
        rw [List.cons_append, hrest] at hwords
        exact .of_paren hwords h.paren
  have hparens : IsPhrase ('(' :: (params ++ ')' :: tail)) := by
    have htail := IsPhrase.of_blank h.blank
    refine ⟨.enclosed .paren h.inside.nests htail.nests, ?_, ?_⟩
    · simpa using ⟨h.inside.mark, htail.mark⟩
    · simpa using ⟨h.inside.brace, htail.brace⟩
  have hsplit : words head = (lead ++ [type]) ++ name :: more := by
    rw [hwords, List.append_assoc, List.singleton_append]
  obtain ⟨name', more', hall⟩ := words_append hsplit ('(' :: (params ++ ')' :: tail))
  refine ⟨.inl ⟨rfl, hleaves.append _⟩, h.phrase.append hparens, .inl rfl, lead, type, ⟨hlead, ?_⟩,
    htype⟩
  exact ⟨_, hall.trans (by rw [List.append_assoc, List.singleton_append])⟩

theorem isFunction_eq (h : IsSignature head params tail) {blanks : List Char}
    (hblanks : ∀ c ∈ blanks, isBlank c = true) (rest : List Char) :
    isFunction (blanks ++ (signature head params tail ++ '\x7b' :: rest)) = true := by
  have hidle := h.isIdle
  obtain ⟨location, text, htake, htext⟩ := hidle.front.takeLayout_eq hblanks ('\x7b' :: rest)
  have hmem : '(' ∈ signature head params tail := by simp [signature]
  have hbrace := hidle.phrase.brace
  rw [List.nil_append] at htake
  rw [isFunction, htake]
  rcases htext with rfl | rfl
  · simp only [splitFirst?_append_cons hbrace]
    simpa using hmem
  · obtain ⟨before, c, visible, hbefore, hc, hsignature⟩ := exists_visible hidle.words_ne_nil
    rw [hsignature] at hmem hbrace ⊢
    rw [List.mem_append, not_or] at hbrace
    have hopen : '(' ∈ c :: visible := by
      refine (List.mem_append.mp hmem).resolve_left fun hblank => ?_
      exact absurd (hbefore _ hblank) (by decide)
    rw [List.append_assoc, trimStart_append hbefore, List.cons_append, trimStart_cons hc,
      ← List.cons_append]
    simp only [splitFirst?_append_cons hbrace.2]
    simpa using hopen

end IsSignature

/-- Kinds of statements that declare no uniform, no block and no vertex input. -/
inductive Filler where
  | precision
  | structDef
  | constant
  | output
  | prototype
  | function
  | defaultLayout
  deriving DecidableEq, Repr

/-- What statements of each kind look like. -/
inductive Filler.Form : Filler → List Char → Prop
  | precision {text : List Char} {more : List (List Char)} (hphrase : IsPhrase text)
      (hwords : words text = "precision".toList :: more) : Form .precision (text ++ [';'])
  | structDef {head body tail : List Char} {more : List (List Char)} (hphrase : IsPhrase head)
      (hwords : words head = "struct".toList :: more) (hparen : '(' ∉ head) (hbody : Nests body)
      (htail : IsPhrase tail) :
      Form .structDef (head ++ '\x7b' :: (body ++ '\x7d' :: tail) ++ [';'])
  | constant {head text type : List Char} {lead : List (List Char)} (hphrase : IsPhrase head)
      (hshape : HasShape head text) (hleads : LeadsTo head lead type) (htype : IsIdleWord type)
      (hconst : "const".toList ∈ lead) (hvalue : '=' ∈ text) : Form .constant (text ++ [';'])
  | output {lay head text word : List Char} {lead : List (List Char)}
      (hlay : lay = [] ∨ IsLayout lay) (hphrase : IsPhrase head) (hshape : HasShape head text)
      (hleads : LeadsTo head lead word) (hword : word = "out".toList ∨ word = "varying".toList) :
      Form .output (lay ++ text ++ [';'])
  | prototype {head params tail : List Char} (hsignature : IsSignature head params tail) :
      Form .prototype (signature head params tail ++ [';'])
  | function {head params tail body : List Char} (hsignature : IsSignature head params tail)
      (hbody : Nests body) :
      Form .function (signature head params tail ++ '\x7b' :: (body ++ ['\x7d']))
  | defaultLayout {lay before behind : List Char} (hlay : IsLayout lay)
      (hbefore : ∀ c ∈ before, isBlank c = true) (hbehind : ∀ c ∈ behind, isBlank c = true) :
      Form .defaultLayout (lay ++ (before ++ "uniform".toList ++ behind) ++ [';'])

section Items

/-- Between two items, the scan for items makes a good one of the code, and at most blanks are left
of it. -/
def AddsItem (good : Item → Prop) (code : List Char) : Prop :=
  ∀ line taken rest, (∀ c ∈ taken, isBlank c = true) →
    ∃ item line' taken', good item ∧ (∀ c ∈ taken', isBlank c = true) ∧
      itemsFrom 0 line none taken (code ++ rest) =
        (item :: (itemsFrom 0 line' none taken' rest).1, (itemsFrom 0 line' none taken' rest).2)

variable {good : Item → Prop} {code : List Char}

theorem AddsItem.surround (h : AddsItem good code) {before behind : List Char}
    (hbefore : ∀ c ∈ before, isBlank c = true) (hbehind : ∀ c ∈ behind, isBlank c = true) :
    AddsItem good (before ++ (code ++ behind)) := by
  intro line taken rest htaken
  obtain ⟨line₁, hline₁⟩ := itemsFrom_blanks hbefore 0 line none taken
  have htaken₁ : ∀ c ∈ before.reverse ++ taken, isBlank c = true :=
    List.forall_mem_append.mpr ⟨blank_reverse hbefore, htaken⟩
  obtain ⟨item, line₂, taken₂, hgood, htaken₂, hitem⟩ :=
    h line₁ (before.reverse ++ taken) (behind ++ rest) htaken₁
  obtain ⟨line₃, hline₃⟩ := itemsFrom_blanks hbehind 0 line₂ none taken₂
  refine ⟨item, line₃, behind.reverse ++ taken₂, hgood, ?_, ?_⟩
  · exact List.forall_mem_append.mpr ⟨blank_reverse hbehind, htaken₂⟩
  · rw [List.append_assoc, hline₁, List.append_assoc, hitem, hline₃]

theorem AddsItem.of_scans {text : List Char}
    (hscans : ∀ taken, (∀ c ∈ taken, isBlank c = true) → Scans 0 taken text 0)
    (hgood : ∀ line blanks, (∀ c ∈ blanks, isBlank c = true) →
      good ⟨line, blanks ++ text, true⟩) : AddsItem good (text ++ [';']) := by
  intro line taken rest htaken
  obtain ⟨first, line', h⟩ := (hscans taken htaken).semicolon line none rest
  refine ⟨_, line', [], hgood first taken.reverse (blank_reverse htaken),
    List.forall_mem_nil _, ?_⟩
  rwa [List.append_assoc]

theorem IsIdle.addsItem {lay head text : List Char} (h : IsIdle lay head text) (stage : Stage) :
    AddsItem (fun i => i.declarations stage = .ok []) (lay ++ text ++ [';']) :=
  .of_scans (fun _ htaken => h.scans htaken) fun line _ hblanks =>
    h.declarations_eq hblanks stage line true

theorem IsSignature.addsItem {head params tail body : List Char}
    (h : IsSignature head params tail) (hbody : Nests body) (stage : Stage) :
    AddsItem (fun i => i.declarations stage = .ok [])
      (signature head params tail ++ '\x7b' :: (body ++ ['\x7d'])) := by
  intro line taken rest htaken
  have hscans : Scans 0 taken (signature head params tail ++ '\x7b' :: body) 1 := by
    have hopened := (h.isIdle.phrase.scans taken).append (Scans.opening .brace 0 _)
    have hall := hopened.append (hbody.scans 0 _)
    rwa [List.append_assoc] at hall
  have hfunction := h.isFunction_eq (blank_reverse htaken) (body ++ ['\x7d'])
  have hsplit : signature head params tail ++ '\x7b' :: (body ++ ['\x7d']) =
      signature head params tail ++ '\x7b' :: body ++ ['\x7d'] := by simp
  rw [hsplit] at hfunction ⊢
  obtain ⟨first, line', hitem⟩ := hscans.function hfunction line none rest
  let text := taken.reverse ++ (signature head params tail ++ '\x7b' :: body ++ ['\x7d'])
  refine ⟨⟨first, text, false⟩, line', [], ?_, List.forall_mem_nil _, ?_⟩
  · exact if_pos hfunction
  · rw [List.append_assoc]
    exact hitem

/-- What becomes of such a statement. All are skipped, except a default layout. -/
def Filler.result (line : Nat) : Filler → Except CompileError (List Declaration)
  | defaultLayout => .error (.unexpected line "uniform")
  | _ => .ok []

theorem addsItem_defaultLayout {lay before behind : List Char} (hlay : IsLayout lay)
    (hbefore : ∀ c ∈ before, isBlank c = true) (hbehind : ∀ c ∈ behind, isBlank c = true)
    (stage : Stage) :
    AddsItem (fun i => i.declarations stage = .error (.unexpected i.line "uniform"))
      (lay ++ (before ++ "uniform".toList ++ behind) ++ [';']) := by
  have hphrase : IsPhrase (before ++ "uniform".toList ++ behind) :=
    ((IsPhrase.of_blank hbefore).append
      (.of_plain (List.all_iff_forall_prop.mp (by decide)))).append (.of_blank hbehind)
  have hwords : words (before ++ "uniform".toList ++ behind) = ["uniform".toList] := by
    have huniform : IsWord "uniform".toList := by decide
    rw [List.append_assoc, words_append_of_blank hbefore]
    cases behind with
    | nil => rw [List.append_nil, huniform.words_eq]
    | cons c behind =>
        obtain ⟨hc, hbehind⟩ := List.forall_mem_cons.mp hbehind
        rw [huniform.words_append hc, ← List.append_nil behind, words_append_of_blank hbehind]
        rfl
  refine .of_scans (fun taken _ => (hlay.isPhrase.append hphrase).scans taken)
    fun line blanks hblanks => ?_
  obtain ⟨location, htake⟩ := hlay.takeLayout_eq hblanks (before ++ "uniform".toList ++ behind)
  have hhead : HasHead (before ++ "uniform".toList ++ behind)
      (before ++ "uniform".toList ++ behind) := ⟨hphrase.brace, .inl rfl⟩
  have hwithout : wordsWithout qualifiers (before ++ "uniform".toList ++ behind) =
      ["uniform".toList] := by
    rw [wordsWithout, hwords]
    decide
  simp only [Item.declarations, hhead.isFunction_eq htake, htake, Bool.false_eq_true, if_false,
    splitFirst?_eq_none hphrase.brace, plainDeclarations, hwithout]
  rfl

theorem Filler.Form.addsItem {kind : Filler} {code : List Char} (h : kind.Form code)
    (stage : Stage) : AddsItem (fun i => i.declarations stage = kind.result i.line) code := by
  cases h with
  | @precision text more hphrase hwords =>
      have hleads : LeadsTo text [] "precision".toList := ⟨List.forall_mem_nil _, more, hwords⟩
      have hidle : IsIdle [] text text :=
        ⟨.inl ⟨rfl, hleads.leavesLayout (by decide)⟩, hphrase, .inl rfl, [], _, hleads, by decide⟩
      exact hidle.addsItem stage
  | @structDef head body tail more hphrase hwords hparen hbody htail =>
      have hleads : LeadsTo head [] "struct".toList := ⟨List.forall_mem_nil _, more, hwords⟩
      have hidle : IsIdle [] head (head ++ '\x7b' :: (body ++ '\x7d' :: tail)) :=
        ⟨.inl ⟨rfl, hleads.leavesLayout (by decide)⟩, hphrase,
          .inr ⟨hparen, body, tail, hbody, htail, rfl⟩, [], _, hleads, by decide⟩
      exact hidle.addsItem stage
  | @constant head text type lead hphrase hshape hleads htype hconst hvalue =>
      have hne : lead = [] → String.ofList type ∈ openingWords := by
        rintro rfl
        cases hconst
      have hidle : IsIdle [] head text :=
        ⟨.inl ⟨rfl, hleads.leavesLayout hne⟩, hphrase, hshape, lead, type, hleads, htype⟩
      exact hidle.addsItem stage
  | @output lay head text word lead hlay hphrase hshape hleads hword =>
      have hopening : String.ofList word ∈ openingWords := by
        rcases hword with rfl | rfl <;> decide
      have hidleWord : IsIdleWord word := by
        rcases hword with rfl | rfl <;> decide
      have hfront : Front lay head :=
        hlay.imp_left fun h => ⟨h, hleads.leavesLayout fun _ => hopening⟩
      have hidle : IsIdle lay head text := ⟨hfront, hphrase, hshape, lead, word, hleads, hidleWord⟩
      exact hidle.addsItem stage
  | prototype hsignature => exact hsignature.isIdle.addsItem stage
  | function hsignature hbody => exact hsignature.addsItem hbody stage
  | defaultLayout hlay hbefore hbehind => exact addsItem_defaultLayout hlay hbefore hbehind stage

theorem Filler.Form.nests {kind : Filler} {code : List Char} (h : kind.Form code) :
    Nests code := by
  have hmark : Nests [';'] := .plain (by decide) .nil
  cases h with
  | precision hphrase _ => exact hphrase.nests.append hmark
  | structDef hphrase _ hparen hbody htail =>
      exact (hphrase.nests.append (.enclosed .brace hbody htail.nests)).append hmark
  | constant hphrase hshape _ _ _ _ => exact (hshape.nests hphrase).append hmark
  | output hlay hphrase hshape _ _ =>
      have hlayout : Nests _ := hlay.elim (fun h => h ▸ .nil) fun h => h.isPhrase.nests
      exact (hlayout.append (hshape.nests hphrase)).append hmark
  | prototype hsignature => exact hsignature.isIdle.phrase.nests.append hmark
  | function hsignature hbody =>
      exact hsignature.isIdle.phrase.nests.append (.enclosed .brace hbody .nil)
  | defaultLayout hlay hbefore hbehind =>
      have hword : Nests "uniform".toList := .of_plain (List.all_eq_true.mp (by decide))
      have hrest := ((IsPhrase.of_blank hbefore).nests.append hword).append
        (IsPhrase.of_blank hbehind).nests
      exact (hlay.isPhrase.nests.append hrest).append hmark

end Items

section Insertion

variable {stage : Stage} {code between inserted rest : List Char}

theorem declarationsIn_eq_ok_iff {found : List Declaration} :
    declarationsIn stage code = .ok found ↔ checkBrackets code = .ok () ∧
      definesMain code = true ∧
        ∃ parts, (items code).mapM (Item.declarations stage) = .ok parts ∧
          parts.flatten = found := by
  rw [declarationsIn]
  cases checkBrackets code with
  | error e => exact iff_of_false nofun nofun
  | ok _ =>
      cases definesMain code with
      | false => exact iff_of_false nofun nofun
      | true =>
          let run := (items code).mapM (Item.declarations stage)
          have hrun : run >>= (fun parts => .ok parts.flatten) = .ok found ↔
              ∃ parts, run = .ok parts ∧ parts.flatten = found := by
            simp only [bind_eq_ok_iff, Except.ok.injEq]
          rw [and_iff_right rfl, and_iff_right rfl]
          exact hrun

theorem definesMain_insert (hcode : Apart code) (hbetween : ∀ c ∈ between, isBlank c = true)
    (hmain : definesMain (code ++ (between ++ rest)) = true) (lead : List Char) :
    definesMain (code ++ lead ++ '\n' :: rest) = true := by
  rcases hcode.exists_mark with hblank | ⟨before, c, behind, rfl, hc, hbehind⟩
  · rw [definesMain_blanks hblank, definesMain_blanks hbetween] at hmain
    exact definesMain_suffix hmain _
  · obtain ⟨own, hjoin⟩ := definesMain_join hc before
    rw [List.append_assoc, List.cons_append, hjoin, Bool.or_eq_true] at hmain
    rcases hmain with hown | hmain
    · rw [List.append_assoc, List.append_assoc, List.cons_append, hjoin, hown, Bool.true_or]
    · have hrest : definesMain (behind ++ (between ++ rest)) = true := by
        rw [definesMain_eq, hasMain_words, hmain, Bool.or_true]
      rw [definesMain_blanks hbehind, definesMain_blanks hbetween] at hrest
      exact definesMain_suffix hrest _

/-- Around an inserted item, the items stay the same, but for their lines and for blanks. -/
theorem items_insert {good : Item → Prop} (hcode : Apart code)
    (hbetween : ∀ c ∈ between, isBlank c = true) (hitem : AddsItem good inserted)
    (rest : List Char) : ∃ before behind item behind', good item ∧
      items (code ++ (between ++ rest)) = before ++ behind ∧
      items (code ++ '\n' :: (inserted ++ rest)) = before ++ item :: behind' ∧
      List.Forall₂ (Item.Alike fun _ _ => True) behind behind' := by
  obtain ⟨line, started, hfresh, h⟩ := itemsFrom_append fresh_initial 1 code
  obtain ⟨hdepth, rfl⟩ := hfresh (blank_reverse hcode)
  rw [hdepth] at h
  have htaken : ∀ c ∈ (itemsFrom 0 1 none [] code).2.reverse, isBlank c = true :=
    blank_reverse hcode
  generalize (itemsFrom 0 1 none [] code).2.reverse = taken at h htaken
  have htrim {s : List Char} (hs : ∀ c ∈ s, isBlank c = true) : trimStart s.reverse = [] :=
    trimStart_of_blank (blank_reverse hs)
  have htaken₁ : ∀ c ∈ between.reverse ++ taken, isBlank c = true :=
    List.forall_mem_append.mpr ⟨blank_reverse hbetween, htaken⟩
  have hnewline : ∀ c ∈ ['\n'], isBlank c = true := List.forall_mem_singleton.mpr rfl
  obtain ⟨line₁, h₁⟩ := itemsFrom_blanks hbetween 0 line none taken
  obtain ⟨line₂, h₂⟩ := itemsFrom_blanks hnewline 0 line none taken
  obtain ⟨item, line₃, taken₃, hgood, htaken₃, h₃⟩ :=
    hitem line₂ ('\n' :: taken) rest (List.forall_mem_cons.mpr ⟨rfl, htaken⟩)
  have hnew : itemsFrom 0 line none taken ('\n' :: (inserted ++ rest)) =
      (item :: (itemsFrom 0 line₃ none taken₃ rest).1, (itemsFrom 0 line₃ none taken₃ rest).2) :=
    (h₂ _).trans h₃
  refine ⟨(itemsFrom 0 1 none [] code).1, (itemsFrom 0 line none taken (between ++ rest)).1, item,
    (itemsFrom 0 line₃ none taken₃ rest).1, hgood, ?_, ?_, ?_⟩
  · rw [items, h]
  · rw [items, h, hnew]
  · rw [h₁]
    exact itemsFrom_alike (fun _ _ _ => trivial) trivial .none
      ((htrim htaken₁).trans (htrim htaken₃).symm) rest

/-- An inserted item that declares nothing changes nothing, and one that is wrong is the only thing
that is. -/
theorem declarationsIn_insert {good : Item → Prop} {found : List Declaration} (hcode : Apart code)
    (hbetween : ∀ c ∈ between, isBlank c = true) {lead : List Char}
    (hnests : Nests (lead ++ ['\n'])) (hitem : AddsItem good (lead ++ ['\n']))
    (hok : declarationsIn stage (code ++ (between ++ rest)) = .ok found) :
    ∃ item, good item ∧
      (item.declarations stage = .ok [] →
        declarationsIn stage (code ++ '\n' :: (lead ++ ['\n'] ++ rest)) = .ok found) ∧
      ∀ e, item.declarations stage = .error e →
        declarationsIn stage (code ++ '\n' :: (lead ++ ['\n'] ++ rest)) = .error e := by
  obtain ⟨hbrackets, hmain, parts, hparts, rfl⟩ := declarationsIn_eq_ok_iff.mp hok
  obtain ⟨before, behind, item, behind', hgood, hold, hnew, halike⟩ :=
    items_insert hcode hbetween hitem rest
  rw [hold, List.mapM_append] at hparts
  obtain ⟨first, hfirst, hparts⟩ := bind_eq_ok_iff.mp hparts
  obtain ⟨later, hlater, ⟨⟩⟩ := bind_eq_ok_iff.mp hparts
  obtain ⟨_, hlater', rfl⟩ :=
    KeepsUp.mapM (halike.imp fun _ _ h => h.declarations_keepsUp) later hlater
  have hnewline : Nests ('\n' :: (lead ++ ['\n'])) := .plain (by decide) hnests
  have hbrackets' : checkBrackets (code ++ '\n' :: (lead ++ ['\n'] ++ rest)) = .ok () :=
    checkBrackets_insert (IsPhrase.of_blank hbetween).nests hnewline hbrackets
  have hmain' : definesMain (code ++ '\n' :: (lead ++ ['\n'] ++ rest)) = true := by
    have hinsert := definesMain_insert hcode hbetween hmain ('\n' :: lead)
    simpa only [List.append_assoc, List.cons_append, List.nil_append] using hinsert
  have hmapM : (items (code ++ '\n' :: (lead ++ ['\n'] ++ rest))).mapM (Item.declarations stage) =
      (item.declarations stage).map fun own => first ++ own :: later := by
    rw [hnew, List.mapM_append, List.mapM_cons, hfirst, hlater']
    cases item.declarations stage <;> rfl
  refine ⟨item, hgood, fun hnone => ?_, fun e he => ?_⟩
  · refine declarationsIn_eq_ok_iff.mpr ⟨hbrackets', hmain', first ++ [] :: later, ?_, ?_⟩
    · rw [hmapM, hnone]
      rfl
    · rw [List.flatten_append, List.flatten_append, List.flatten_cons, List.nil_append]
  · rw [declarationsIn, hbrackets', hmain', hmapM, he]
    rfl

end Insertion

/-- A place between two top-level items, outside comments and preprocessor lines. -/
structure Gap (before after : List Char) : Prop where
  outside : scanAfter .code before = .code
  apart : Apart (codeOf before)
  directives : OutsideDirectives (stripComments before) (stripComments after)

/-- A source text that is a statement of this kind, in its own lines. -/
structure Filler.IsStatement (kind : Filler) (statement : List Char) : Prop where
  closed : ClosesComments statement
  quiet : ∀ line ∈ fullLines (stripComments statement), errorReason? line = none
  form : ∃ lead text trail, (∀ c ∈ lead, isBlank c = true) ∧ (∀ c ∈ trail, isBlank c = true) ∧
    kind.Form text ∧ codeOf (statement ++ ['\n']) = lead ++ (text ++ trail)

namespace Gap

variable {before after : List Char}

theorem stripComments_append (h : Gap before after) :
    stripComments (before ++ after) = stripComments before ++ stripComments after := by
  refine Shader.stripComments_append h.outside (fun hslash => ?_) after
  obtain ⟨whole, hends, hline, hsplit⟩ := exists_lastLine (stripComments before)
  have hdirective := h.directives.imp_right And.left
  have hapart := h.apart
  rw [codeOf, hsplit] at hapart
  rw [hsplit] at hslash
  generalize lastLine (stripComments before) = line at hline hslash hapart hdirective
  rcases List.eq_nil_or_concat' line with rfl | ⟨line, c, rfl⟩
  · rcases hends with rfl | ⟨rest, rfl⟩
    · cases hslash
    · simp at hslash
  · have hc : c = '/' := by simpa [← List.append_assoc] using hslash
    subst hc
    have hdirective' := hdirective.resolve_left (by simp)
    rw [blankLines_lines hends hline (by simp) hdirective',
      apart_append_blanks (List.forall_mem_singleton.mpr rfl), ← List.append_assoc] at hapart
    exact absurd (hapart.mark_of_visible rfl) (by decide)

/-- Code before the place and behind it, and what the code becomes with more lines between them. -/
theorem exists_code (h : Gap before after) : ∃ code between, Apart code ∧
    (∀ c ∈ between, isBlank c = true) ∧
    ∀ source, blankDirectives (stripComments (before ++ after)) = .ok source →
      source = code ++ (between ++ blankLines (lines (stripComments after))) ∧
      ∀ statement, ClosesComments statement →
        (∀ line ∈ fullLines (stripComments statement), errorReason? line = none) →
          blankDirectives (stripComments (before ++ '\n' :: (statement ++ '\n' :: after))) =
            .ok (code ++ '\n' :: (codeOf (statement ++ ['\n']) ++
              blankLines (lines (stripComments after)))) := by
  obtain ⟨code, between, hbetween, hcode, hfull, herrors⟩ := h.directives.exists_code
  have hend : OutsideDirectives (stripComments before) [] :=
    h.directives.imp_right fun hdirectives => ⟨hdirectives.1, rfl⟩
  obtain ⟨code', ending, hending, hcode', hfull', -⟩ := hend.exists_code
  obtain rfl : code = code' := List.append_cancel_right (hfull.symm.trans hfull')
  have hapart := h.apart
  have hown : codeOf before = code ++ ending := by
    rw [List.append_nil] at hcode'
    exact hcode'.trans (List.append_nil _)
  rw [hown, apart_append_blanks hending] at hapart
  refine ⟨code, between, hapart, hbetween, fun source hsource => ?_⟩
  rw [h.stripComments_append, blankDirectives, blankDirectivesFrom_eq_ok_iff] at hsource
  obtain ⟨hnone, rfl⟩ := hsource
  refine ⟨by rw [hcode, List.append_assoc], fun statement hclosed hquiet => ?_⟩
  rw [stripComments_newline (.inl h.outside), stripComments_newline hclosed, blankDirectives,
    lines_newline, lines_newline, blankDirectivesFrom_eq_ok_iff]
  obtain ⟨hbefore, hafter⟩ := List.forall_mem_append.mp (herrors hnone)
  refine ⟨List.forall_mem_append.mpr ⟨hbefore, List.forall_mem_append.mpr ⟨hquiet, hafter⟩⟩, ?_⟩
  rw [blankLines_append, blankLines_append, hfull, codeOf_newline hclosed, List.append_assoc]
  rfl

end Gap

theorem Filler.IsStatement.addsItem {kind : Filler} {statement : List Char}
    (h : kind.IsStatement statement) (stage : Stage) : ∃ lead,
      codeOf (statement ++ ['\n']) = lead ++ ['\n'] ∧ Nests (lead ++ ['\n']) ∧
        AddsItem (fun i => i.declarations stage = kind.result i.line) (lead ++ ['\n']) := by
  obtain ⟨before, text, behind, hbefore, hbehind, hform, hcode⟩ := h.form
  obtain ⟨lead, hlead⟩ := exists_blankLines (stripComments statement)
  have hline : codeOf (statement ++ ['\n']) = lead ++ ['\n'] :=
    (codeOf_newline h.closed).trans hlead
  refine ⟨lead, hline, ?_, ?_⟩
  · rw [← hline, hcode]
    exact (IsPhrase.of_blank hbefore).nests.append
      (hform.nests.append (IsPhrase.of_blank hbehind).nests)
  · rw [← hline, hcode]
    exact (hform.addsItem stage).surround hbefore hbehind

/-- A statement of these kinds in a line between two items leaves an interface as it is, unless it
is a default layout, which counts as an error. -/
theorem filler_skipped {before after statement : String} {kind : Filler}
    (hgap : Gap before.toList after.toList) (hstatement : kind.IsStatement statement.toList)
    {stage : Stage} {interface : ShaderInterface}
    (hok : reflect stage (before ++ after) = .ok interface) :
    (kind ≠ .defaultLayout →
      reflect stage (before ++ "\n" ++ statement ++ "\n" ++ after) = .ok interface) ∧
    (kind = .defaultLayout → ∃ line,
      reflect stage (before ++ "\n" ++ statement ++ "\n" ++ after) =
        .error (.unexpected line "uniform")) := by
  obtain ⟨code, between, hapart, hbetween, hinsert⟩ := hgap.exists_code
  obtain ⟨lead, hlead, hnests, hitem⟩ := hstatement.addsItem stage
  rw [reflect, String.toList_append, declarationsOf_eq] at hok
  obtain ⟨found, hfound, rfl⟩ := map_eq_ok_iff.mp hok
  obtain ⟨source, hsource, hfound⟩ := bind_eq_ok_iff.mp hfound
  obtain ⟨rfl, hblank⟩ := hinsert source hsource
  have hnew := hblank statement.toList hstatement.closed hstatement.quiet
  rw [hlead] at hnew
  have hreflect : reflect stage (before ++ "\n" ++ statement ++ "\n" ++ after) =
      (declarationsIn stage (code ++ '\n' :: (lead ++ ['\n'] ++
        blankLines (lines (stripComments after.toList))))).map interfaceOf := by
    have htext : (before ++ "\n" ++ statement ++ "\n" ++ after).toList =
        before.toList ++ '\n' :: (statement.toList ++ '\n' :: after.toList) := by
      simp [String.toList_append]
    rw [reflect, htext, declarationsOf_eq, hnew]
    rfl
  obtain ⟨item, hresult, hskipped, herror⟩ :=
    declarationsIn_insert hapart hbetween hnests hitem hfound
  rw [hreflect]
  constructor
  · intro hkind
    have hnone : kind.result item.line = .ok [] := by
      cases kind with
      | defaultLayout => exact absurd rfl hkind
      | _ => rfl
    rw [hskipped (hresult.trans hnone)]
    rfl
  · rintro rfl
    exact ⟨item.line, by rw [herror _ hresult]; rfl⟩

/-- A precision statement in front of the entry point. -/
theorem filler_skipped_precision :
    reflect .vertex ("uniform float x;" ++ "\n" ++ "precision highp float;" ++ "\n" ++
      " void main() \x7b\x7d") = .ok ⟨[], [⟨"x", .scalar .float, 1, false⟩], []⟩ := by
  have hgap : Gap "uniform float x;".toList " void main() \x7b\x7d".toList :=
    ⟨by decide, by decide, .inr ⟨by decide, by decide⟩⟩
  have hphrase : IsPhrase "precision highp float".toList :=
    .of_plain (List.all_iff_forall_prop.mp (by decide))
  have hstatement : Filler.IsStatement .precision "precision highp float;".toList :=
    ⟨by decide, by decide, [], _, ['\n'], List.forall_mem_nil _, List.all_eq_true.mp (by decide),
      .precision hphrase rfl, by decide⟩
  exact (filler_skipped hgap hstatement (by decide)).1 (by decide)

/-- A default layout makes a shader wrong that was in order. -/
theorem defaultLayout_rejected :
    Gap "uniform float x;".toList " void main() \x7b\x7d".toList ∧
    Filler.IsStatement .defaultLayout "layout(std140) uniform;".toList ∧
    reflect .vertex ("uniform float x;" ++ " void main() \x7b\x7d") =
      .ok ⟨[], [⟨"x", .scalar .float, 1, false⟩], []⟩ ∧
    reflect .vertex ("uniform float x;" ++ "\n" ++ "layout(std140) uniform;" ++ "\n" ++
      " void main() \x7b\x7d") = .error (.unexpected 2 "uniform") := by
  have hlayout : IsLayout "layout(std140)".toList :=
    ⟨[], "std140".toList, List.forall_mem_nil _, List.all_iff_forall_prop.mp (by decide), rfl⟩
  have hform : Filler.Form .defaultLayout "layout(std140) uniform;".toList :=
    .defaultLayout hlayout (List.all_eq_true.mp (by decide) : ∀ c ∈ [' '], isBlank c = true)
      (List.forall_mem_nil _)
  have hstatement : Filler.IsStatement .defaultLayout "layout(std140) uniform;".toList :=
    ⟨by decide, by decide, [], _, ['\n'], List.forall_mem_nil _, List.all_eq_true.mp (by decide),
      hform, by decide⟩
  exact ⟨⟨by decide, by decide, .inr ⟨by decide, by decide⟩⟩, hstatement, by decide, by decide⟩

end GlPlayback.Shader
