import GlPlayback.Text.Blank

/-!
How text that was put together from pieces is cut into those pieces again.
-/
namespace GlPlayback.Text

variable {p : Char → Bool} {s t : List Char} {c : Char}

theorem splitWhere_ne_nil (p : Char → Bool) (s : List Char) : splitWhere p s ≠ [] := by
  cases s with
  | nil => exact List.cons_ne_nil _ _
  | cons c rest =>
      simp only [splitWhere]
      split
      · exact List.cons_ne_nil _ _
      · split <;> exact List.cons_ne_nil _ _

theorem splitWhere_append_cons (hc : p c = true) (s t : List Char) :
    splitWhere p (s ++ c :: t) = splitWhere p s ++ splitWhere p t := by
  induction s with
  | nil =>
      obtain ⟨piece, pieces, hpieces⟩ := List.exists_cons_of_ne_nil (splitWhere_ne_nil p t)
      simp only [List.nil_append, splitWhere, hpieces, hc, if_true, List.cons_append]
  | cons d rest ih =>
      obtain ⟨piece, pieces, hpieces⟩ := List.exists_cons_of_ne_nil (splitWhere_ne_nil p rest)
      simp only [List.cons_append, splitWhere, ih, hpieces]
      split <;> rfl

theorem splitWhere_of_forall (hs : ∀ c ∈ s, p c = false) : splitWhere p s = [s] := by
  induction s with
  | nil => rfl
  | cons c rest ih =>
      obtain ⟨hc, hrest⟩ := List.forall_mem_cons.mp hs
      simp only [splitWhere, ih hrest, hc]
      rfl

/-- Pieces that each end in a mark, and text behind the last mark. -/
theorem splitWhere_flatMap {α : Type} {f : α → List Char} (hc : p c = true) (xs : List α)
    (hf : ∀ x ∈ xs, ∀ d ∈ f x, p d = false) (t : List Char) :
    splitWhere p (xs.flatMap (fun x => f x ++ [c]) ++ t) = xs.map f ++ splitWhere p t := by
  induction xs with
  | nil => rfl
  | cons x rest ih =>
      obtain ⟨hx, hrest⟩ := List.forall_mem_cons.mp hf
      have hcut := splitWhere_append_cons hc (f x) (rest.flatMap (fun x => f x ++ [c]) ++ t)
      simp only [List.flatMap_cons, List.append_assoc, List.cons_append, List.nil_append,
        List.map_cons] at hcut ⊢
      rw [hcut, splitWhere_of_forall hx, ih hrest]
      rfl

theorem splitFirst?_eq_none (hs : c ∉ s) : splitFirst? c s = none := by
  induction s with
  | nil => rfl
  | cons d rest ih =>
      rw [List.mem_cons, not_or] at hs
      rw [splitFirst?, if_neg (Ne.symm hs.1), ih hs.2]
      rfl

theorem splitFirst?_append_cons (hs : c ∉ s) (t : List Char) :
    splitFirst? c (s ++ c :: t) = some (s, t) := by
  induction s with
  | nil => exact if_pos rfl
  | cons d rest ih =>
      rw [List.mem_cons, not_or] at hs
      rw [List.cons_append, splitFirst?, if_neg (Ne.symm hs.1), ih hs.2]
      rfl

theorem not_mem_of_splitFirst?_eq_none (h : splitFirst? c s = none) : c ∉ s := by
  induction s with
  | nil => exact List.not_mem_nil
  | cons d rest ih =>
      simp only [splitFirst?] at h
      split at h
      · cases h
      · next hd =>
          rw [List.mem_cons, not_or]
          exact ⟨Ne.symm hd, ih (Option.map_eq_none_iff.mp h)⟩

theorem not_mem_of_splitFirst?_eq_some {before after : List Char}
    (h : splitFirst? c s = some (before, after)) : c ∉ before := by
  induction s generalizing before with
  | nil => cases h
  | cons d rest ih =>
      simp only [splitFirst?] at h
      split at h
      · cases h
        exact List.not_mem_nil
      · next hd =>
          obtain ⟨⟨first, _⟩, hrest, heq⟩ := Option.map_eq_some_iff.mp h
          cases heq
          rw [List.mem_cons, not_or]
          exact ⟨Ne.symm hd, ih hrest⟩

theorem eq_of_splitFirst?_eq_some {before after : List Char}
    (h : splitFirst? c s = some (before, after)) : s = before ++ c :: after := by
  induction s generalizing before with
  | nil => cases h
  | cons d rest ih =>
      simp only [splitFirst?] at h
      split at h
      · next hd =>
          cases h
          rw [hd, List.nil_append]
      · obtain ⟨⟨first, _⟩, hrest, heq⟩ := Option.map_eq_some_iff.mp h
        cases heq
        rw [ih hrest, List.cons_append]

theorem splitLast?_eq_none (ht : c ∉ t) : splitLast? c t = none := by
  induction t with
  | nil => rfl
  | cons d rest ih =>
      rw [List.mem_cons, not_or] at ht
      rw [splitLast?, ih ht.2]
      exact if_neg (Ne.symm ht.1)

theorem splitLast?_append_cons (ht : c ∉ t) (s : List Char) :
    splitLast? c (s ++ c :: t) = some (s, t) := by
  induction s with
  | nil =>
      rw [List.nil_append, splitLast?, splitLast?_eq_none ht]
      exact if_pos rfl
  | cons d rest ih => rw [List.cons_append, splitLast?, ih]

theorem exists_splitLast? (hc : c ∈ t) : ∃ before after, t = before ++ c :: after ∧ c ∉ after := by
  obtain ⟨after, before, ht, hafter⟩ := List.eq_append_cons_of_mem (List.mem_reverse.mpr hc)
  refine ⟨before.reverse, after.reverse, ?_, fun hmem => hafter (List.mem_reverse.mp hmem)⟩
  rw [← List.reverse_reverse t, ht, List.reverse_append, List.reverse_cons, List.append_assoc,
    List.singleton_append]

/-- Text that `words` takes for one word. -/
structure IsWord (s : List Char) : Prop where
  nonempty : s ≠ []
  visible : ∀ c ∈ s, isBlank c = false

instance : DecidablePred IsWord := fun s =>
  decidable_of_iff (s ≠ [] ∧ s.all (fun c => !isBlank c) = true)
    ⟨fun h => ⟨h.1, by simpa using h.2⟩, fun h => ⟨h.nonempty, by simpa using h.visible⟩⟩

theorem words_append_cons (hc : isBlank c = true) (s t : List Char) :
    words (s ++ c :: t) = words s ++ words t := by
  rw [words, splitWhere_append_cons hc, List.filter_append]
  rfl

theorem words_cons (hc : isBlank c = true) (t : List Char) : words (c :: t) = words t :=
  words_append_cons hc [] t

theorem IsWord.words_eq (hs : IsWord s) : words s = [s] := by
  rw [words, splitWhere_of_forall hs.visible]
  exact List.filter_cons_of_pos (by simpa using hs.nonempty)

theorem IsWord.words_append (hs : IsWord s) (hc : isBlank c = true) (t : List Char) :
    words (s ++ c :: t) = s :: words t := by
  rw [words_append_cons hc, hs.words_eq]
  rfl

theorem words_append_of_blank (hs : ∀ c ∈ s, isBlank c = true) (t : List Char) :
    words (s ++ t) = words t := by
  induction s with
  | nil => rfl
  | cons c rest ih =>
      obtain ⟨hc, hrest⟩ := List.forall_mem_cons.mp hs
      rw [List.cons_append, words_cons hc, ih hrest]

theorem trimStart_append (hs : ∀ c ∈ s, isBlank c = true) (t : List Char) :
    trimStart (s ++ t) = trimStart t :=
  List.dropWhile_append_of_pos hs

theorem trimStart_cons (hc : isBlank c = false) (t : List Char) : trimStart (c :: t) = c :: t :=
  List.dropWhile_cons_of_neg (by simp [hc])

theorem mem_of_mem_trim (h : c ∈ trim s) : c ∈ s := by
  have hend : c ∈ ((trimStart s).reverse.dropWhile isBlank) := List.mem_reverse.mp h
  have hstart : c ∈ trimStart s :=
    List.mem_reverse.mp ((List.dropWhile_suffix isBlank).subset hend)
  exact (List.dropWhile_suffix isBlank).subset hstart

theorem dropWhile_of_forall (hs : ∀ c ∈ s, p c = false) : s.dropWhile p = s := by
  cases s with
  | nil => rfl
  | cons c rest => exact List.dropWhile_cons_of_neg (by simp [hs c List.mem_cons_self])

/-- Marks at the end come off, whatever their number. -/
theorem dropEnd_of_forall (hs : ∀ c ∈ s, p c = false) (ht : ∀ c ∈ t, p c = true) :
    ((s ++ t).reverse.dropWhile p).reverse = s := by
  rw [List.reverse_append, List.dropWhile_append_of_pos fun c hc => ht c (List.mem_reverse.mp hc),
    dropWhile_of_forall fun c hc => hs c (List.mem_reverse.mp hc), List.reverse_reverse]

theorem trim_of_visible (hs : ∀ c ∈ s, isBlank c = false) : trim s = s := by
  have hend := dropEnd_of_forall hs (t := []) (by simp)
  rw [List.append_nil] at hend
  rw [trim, trimStart, dropWhile_of_forall hs]
  exact hend

theorem trim_cons (hc : isBlank c = true) (hs : ∀ c ∈ s, isBlank c = false) :
    trim (c :: s) = s := by
  rw [trim, trimStart, List.dropWhile_cons_of_pos hc]
  exact trim_of_visible hs

end GlPlayback.Text
