import ShapeSchema.Text.Split

/-!
# Laws of cutting text

What splitting at a mark does to texts that are put together.

## Main definitions

* `ShapeSchema.Text.Separated` — a text in which marks stand one by one between other characters.
* `ShapeSchema.Text.wordsBy` — the words between the characters that separate them.

## Main results

* `ShapeSchema.Text.splitAfterLast?_append` — a text behind the last mark.
* `ShapeSchema.Text.of_mem_splitOnP` — the pieces of a text.
* `ShapeSchema.Text.separated_intercalate` — pieces with marks between them.
* `ShapeSchema.Text.wordsBy_intercalate` — words are found again.
-/

namespace ShapeSchema.Text

/-! ## The last mark -/

/-- A text is cut unless there is no mark. -/
theorem splitAfterLast?_eq_none_iff {mark : Char} {text : List Char} :
    splitAfterLast? mark text = none ↔ mark ∉ text := by
  induction text with
  | nil => exact iff_of_true rfl List.not_mem_nil
  | cons c text ih =>
    rw [splitAfterLast?, List.mem_cons, not_or, ← ih]
    cases splitAfterLast? mark text with
    | some parts => simp
    | none => simp [eq_comm]

/-- There are no marks behind the last one, and what ends with the mark is cut there. -/
theorem of_splitAfterLast? {mark : Char} {text : List Char} {parts : List Char × List Char}
    (h : splitAfterLast? mark text = some parts) :
    mark ∉ parts.2 ∧ splitAfterLast? mark parts.1 = some (parts.1, []) := by
  induction text generalizing parts with
  | nil => cases h
  | cons c text ih =>
    rw [splitAfterLast?] at h
    cases hparts : splitAfterLast? mark text with
    | some parts =>
      rw [hparts] at h
      cases h
      obtain ⟨hafter, hbefore⟩ := ih hparts
      exact ⟨hafter, by rw [splitAfterLast?, hbefore]⟩
    | none =>
      rw [hparts] at h
      by_cases hc : c = mark
      · rw [if_pos hc] at h
        cases h
        exact ⟨splitAfterLast?_eq_none_iff.1 hparts, by simp [splitAfterLast?, hc]⟩
      · simp [hc] at h

/-- A text without the mark goes to what stands behind the last mark. -/
theorem splitAfterLast?_append {mark : Char} {text rest : List Char} (h : mark ∉ rest) :
    splitAfterLast? mark (text ++ rest) =
      (splitAfterLast? mark text).map fun parts => (parts.1, parts.2 ++ rest) := by
  induction text with
  | nil => exact splitAfterLast?_eq_none_iff.2 h
  | cons c text ih =>
    rw [List.cons_append, splitAfterLast?, splitAfterLast?, ih]
    cases splitAfterLast? mark text with
    | some parts => rfl
    | none => by_cases hc : c = mark <;> simp [hc]

/-! ## All marks -/

/-- The pieces of a text consist of its other characters. -/
theorem of_mem_splitOnP {separates : Char → Bool} {c : Char} {text piece : List Char}
    (hpiece : piece ∈ text.splitOnP separates) (hc : c ∈ piece) :
    c ∈ text ∧ separates c = false := by
  induction text generalizing piece with
  | nil =>
    rw [List.splitOnP_nil, List.mem_singleton] at hpiece
    simp [hpiece] at hc
  | cons d text ih =>
    have htext : ∀ piece ∈ text.splitOnP separates, c ∈ piece →
        c ∈ d :: text ∧ separates c = false := fun piece hpiece hc =>
      (ih hpiece hc).imp_left (List.mem_cons_of_mem d)
    obtain ⟨first, rest, hsplit⟩ := List.exists_cons_of_ne_nil (List.splitOnP_ne_nil separates text)
    rw [List.splitOnP_cons_eq_if_modifyHead, hsplit] at hpiece
    rw [hsplit] at htext
    split at hpiece
    · rcases List.mem_cons.1 hpiece with rfl | hpiece
      · cases hc
      · exact htext piece hpiece hc
    · next hd =>
      rcases List.mem_cons.1 hpiece with rfl | hpiece
      · rcases List.mem_cons.1 hc with rfl | hc
        · exact ⟨List.mem_cons_self, Bool.eq_false_iff.2 hd⟩
        · exact htext first List.mem_cons_self hc
      · exact htext piece (List.mem_cons_of_mem _ hpiece) hc

/-- The pieces between marks have no marks. -/
theorem of_mem_splitOn {mark c : Char} {text piece : List Char} (hpiece : piece ∈ text.splitOn mark)
    (hc : c ∈ piece) : c ∈ text ∧ c ≠ mark := by
  rw [List.splitOn_eq_splitOnP] at hpiece
  exact (of_mem_splitOnP hpiece hc).imp_right (beq_eq_false_iff_ne).1

/-! ## Pieces that are put together -/

section Pieces
variable {separator : List Char} {mark : Char} {pieces : List (List Char)}

/-- All pieces but the first have the separator in front of them. -/
theorem intercalate_cons (separator piece : List Char) (pieces : List (List Char)) :
    separator.intercalate (piece :: pieces) = piece ++ pieces.flatMap (separator ++ ·) := by
  induction pieces generalizing piece with
  | nil => simp
  | cons next pieces ih =>
    rw [List.intercalate_cons_cons, ih, List.flatMap_cons, List.append_assoc, List.append_assoc]

/-- There is one separator between two groups of pieces. -/
private theorem intercalate_append {front rest : List (List Char)} (hfront : front ≠ [])
    (hrest : rest ≠ []) : separator.intercalate (front ++ rest) =
      separator.intercalate front ++ separator ++ separator.intercalate rest := by
  obtain ⟨piece, front, rfl⟩ := List.exists_cons_of_ne_nil hfront
  obtain ⟨next, rest, rfl⟩ := List.exists_cons_of_ne_nil hrest
  simp [intercalate_cons]

/-- Groups of pieces are put together like all the pieces at once. -/
theorem intercalate_flatten {groups : List (List (List Char))} (h : [] ∉ groups) :
    separator.intercalate (groups.map separator.intercalate) =
      separator.intercalate groups.flatten := by
  induction groups with
  | nil => rfl
  | cons group groups ih =>
    rw [List.mem_cons, not_or] at h
    cases groups with
    | nil => simp
    | cons next groups =>
      have hrest : (next :: groups).flatten ≠ [] := List.flatten_ne_nil_iff.2
        ⟨next, List.mem_cons_self, fun hnext => h.2 (hnext ▸ List.mem_cons_self)⟩
      rw [List.flatten_cons, intercalate_append (Ne.symm h.1) hrest, ← ih h.2]
      exact List.intercalate_cons_cons

/-- Nothing but the pieces and marks is there. -/
theorem mem_intercalate {c : Char} (h : c ∈ [mark].intercalate pieces) :
    c = mark ∨ ∃ piece ∈ pieces, c ∈ piece := by
  cases pieces with
  | nil => cases h
  | cons piece pieces =>
    rw [intercalate_cons, List.mem_append, List.mem_flatMap] at h
    rcases h with h | ⟨next, hnext, h⟩
    · exact .inr ⟨piece, List.mem_cons_self, h⟩
    · rcases List.mem_cons.1 h with h | h
      · exact .inl h
      · exact .inr ⟨next, List.mem_cons_of_mem _ hnext, h⟩

/-- Nothing but marks is put between the pieces. -/
theorem filter_intercalate (h : ∀ piece ∈ pieces, mark ∉ piece) :
    ([mark].intercalate pieces).filter (· ≠ mark) = pieces.flatten := by
  have heach : ∀ piece ∈ pieces, piece.filter (· ≠ mark) = piece := fun piece hpiece =>
    List.filter_eq_self.2 fun c hc => decide_eq_true fun heq => h piece hpiece (heq ▸ hc)
  induction pieces with
  | nil => rfl
  | cons piece pieces ih =>
    rw [List.forall_mem_cons] at h heach
    cases pieces with
    | nil => simpa using heach.1
    | cons next pieces =>
      rw [List.intercalate_cons_cons, List.filter_append, List.filter_append, heach.1,
        ih h.2 heach.2]
      simp

/-- A text in which no mark comes first or last or behind another one. -/
structure Separated (mark : Char) (text : List Char) : Prop where
  /-- No mark comes first. -/
  head : mark ∉ text.head?
  /-- No mark comes last. -/
  last : mark ∉ text.getLast?
  /-- No mark follows another one. -/
  double : ¬ [mark, mark] <:+: text

/-- **Marks** between pieces that are not empty stand one by one.

**Proof sketch.** Splitting gives the pieces back, and it would give an empty piece beside any other
mark. -/
theorem separated_intercalate (h : ∀ piece ∈ pieces, piece ≠ [] ∧ mark ∉ piece) :
    Separated mark ([mark].intercalate pieces) := by
  by_cases hne : pieces = []
  · subst hne
    exact ⟨nofun, nofun, fun hdouble => by simp at hdouble⟩
  have hmark : ∀ front rest, [mark].intercalate pieces = front ++ mark :: rest →
      front ≠ [] ∧ rest ≠ [] ∧ mark ∉ rest.head? := by
    intro front rest htext
    have hpieces : front.splitOn mark ++ rest.splitOn mark = pieces := by
      rw [← List.splitOn_append_cons_self, ← htext]
      exact List.splitOn_intercalate mark (fun piece hpiece => (h piece hpiece).2) hne
    have hfront : [] ∉ front.splitOn mark := fun hmem =>
      (h [] (hpieces ▸ List.mem_append_left _ hmem)).1 rfl
    have hrest : [] ∉ rest.splitOn mark := fun hmem =>
      (h [] (hpieces ▸ List.mem_append_right _ hmem)).1 rfl
    refine ⟨?_, ?_, ?_⟩
    · rintro rfl
      exact hfront List.mem_cons_self
    · rintro rfl
      exact hrest List.mem_cons_self
    · intro hhead
      obtain ⟨rest, rfl⟩ := List.head?_eq_some_iff.1 hhead
      simp [List.splitOn_cons_eq_if_modifyHead] at hrest
  refine ⟨fun hhead => ?_, fun hlast => ?_, fun hdouble => ?_⟩
  · obtain ⟨rest, hrest⟩ := List.head?_eq_some_iff.1 hhead
    exact (hmark [] rest hrest).1 rfl
  · obtain ⟨front, hfront⟩ := List.getLast?_eq_some_iff.1 hlast
    exact (hmark front [] hfront).2.1 rfl
  · obtain ⟨front, rest, htext⟩ := hdouble
    rw [List.append_assoc] at htext
    exact (hmark front (mark :: rest) htext.symm).2.2 rfl

end Pieces

/-! ## Words -/

/-- The words of a text: the pieces between the characters that separate, without the empty ones. -/
def wordsBy (separates : Char → Bool) (text : List Char) : List (List Char) :=
  (text.splitOnP separates).filter (· ≠ [])

section Words
variable {separates : Char → Bool}

/-- A character that separates is between two words. -/
theorem wordsBy_append_cons {c : Char} (hc : separates c = true) (front rest : List Char) :
    wordsBy separates (front ++ c :: rest) = wordsBy separates front ++ wordsBy separates rest := by
  rw [wordsBy, List.splitOnP_append_cons front rest hc, List.filter_append]
  rfl

/-- A text in which nothing separates is one word. -/
theorem wordsBy_eq_singleton {word : List Char} (hne : word ≠ [])
    (h : ∀ c ∈ word, separates c = false) : wordsBy separates word = [word] := by
  rw [wordsBy, List.splitOnP_eq_singleton h]
  simp [hne]

/-- Words have characters, and none of them separates. -/
theorem of_mem_wordsBy {text word : List Char} (h : word ∈ wordsBy separates text) :
    word ≠ [] ∧ ∀ c ∈ word, separates c = false := by
  obtain ⟨hword, hne⟩ := List.mem_filter.1 h
  exact ⟨of_decide_eq_true hne, fun c hc => (of_mem_splitOnP hword hc).2⟩

/-- **Words** are found again when a mark that separates was put between them. -/
theorem wordsBy_intercalate {mark : Char} (hmark : separates mark = true) {words : List (List Char)}
    (h : ∀ word ∈ words, word ≠ [] ∧ ∀ c ∈ word, separates c = false) :
    wordsBy separates ([mark].intercalate words) = words := by
  induction words with
  | nil => rfl
  | cons word words ih =>
    rw [List.forall_mem_cons] at h
    cases words with
    | nil =>
      rw [List.intercalate_singleton]
      exact wordsBy_eq_singleton h.1.1 h.1.2
    | cons next words =>
      rw [List.intercalate_cons_cons, List.append_assoc, List.singleton_append,
        wordsBy_append_cons hmark, wordsBy_eq_singleton h.1.1 h.1.2, ih h.2]
      rfl

end Words

end ShapeSchema.Text
