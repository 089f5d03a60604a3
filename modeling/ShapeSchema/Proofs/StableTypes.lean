import ShapeSchema.Proofs.Words

/-!
# Types of names that were read back

The name that is read back from a type has the words of the type in camel case. It is cut again in
front of each capital letter behind a lower-case letter or a digit. So a word that begins with a
digit is not cut from the one in front of it, and neither is a word behind a single capital letter,
unless that is the first word, which is in lower case. All other words are cut where they were put
together, and then the type of the name is the type that it was read back from.

## Main definitions

* `ShapeSchema.Naming.capitalized` — the words of a type in camel case.
* `ShapeSchema.Naming.EndsLow`, `ShapeSchema.Naming.BeginsCapital` — the two sides of a cut.

## Main results

* `ShapeSchema.Naming.lowerCamelCase_intercalate` — the name that is read back from a type.
* `ShapeSchema.Naming.typeOf_flatten_capitalized_iff` — its type is the old one just if it is cut
  into the same words.
* `ShapeSchema.Naming.splitBy_flatten_capitalized_iff` — when it is.
* `ShapeSchema.Naming.upperSnakeCase_lowerCamelCase_eq_self_iff` — types that are made again.
-/

namespace ShapeSchema.Naming

variable {words : List (List Char)}

/-! ## Characters of types in lower case -/

/-- There are no capital letters in lower case. -/
theorem isUpper_toLower (c : Char) : c.toLower.isUpper = false := by
  cases hupper : c.isUpper with
  | false => rwa [toLower_eq_self hupper]
  | true => exact forall_of_isUpper (p := fun c => c.toLower.isUpper = false) (by decide) hupper

/-- Capital letters and digits are lower-case letters and digits in lower case. -/
theorem isLower_or_isDigit_toLower {c : Char} (h : c.isUpper || c.isDigit) :
    c.toLower.isLower || c.toLower.isDigit := by
  cases hupper : c.isUpper with
  | false =>
    have hdigit : c.isDigit = true := by simpa [hupper] using h
    rw [toLower_eq_self hupper, hdigit, Bool.or_true]
  | true =>
    exact forall_of_isUpper (p := fun c => c.toLower.isLower || c.toLower.isDigit) (by decide)
      hupper

/-- In upper case again, they are what they were. -/
theorem toUpper_toLower_of_typeChar {c : Char} (h : c.isUpper || c.isDigit) :
    c.toLower.toUpper = c := by
  cases hupper : c.isUpper with
  | true => exact toUpper_toLower hupper
  | false => rw [toLower_eq_self hupper, toUpper_eq_self (isLower_eq_false h)]

/-! ## Words in camel case -/

/-- The words of a type in camel case. -/
def capitalized : List (List Char) → List (List Char)
  | [] => []
  | word :: words => word.map Char.toLower :: words.map fun w => capitalize (w.map Char.toLower)

/-- Put together, the words are a name in camel case. -/
private theorem flatten_capitalized (words : List (List Char)) :
    (capitalized words).flatten = camelWords words := by
  cases words <;> rfl

/-- A capitalized word of a type keeps its first character. -/
private theorem capitalize_map_toLower {c : Char} {rest : List Char} (h : IsTypeWord (c :: rest)) :
    capitalize ((c :: rest).map Char.toLower) = c :: rest.map Char.toLower := by
  rw [List.map_cons, capitalize, toUpper_toLower_of_typeChar (h.chars c List.mem_cons_self)]

/-- In upper case again, a word of a type is what it was. -/
private theorem map_toUpper_map_toLower {word : List Char}
    (h : ∀ c ∈ word, c.isUpper || c.isDigit) :
    (word.map Char.toLower).map Char.toUpper = word := by
  rw [List.map_map]
  exact (List.map_congr_left fun c hc => toUpper_toLower_of_typeChar (h c hc)).trans
    (List.map_id word)

/-- There are no capital letters behind the beginning of a word in camel case. -/
private theorem of_mem_capitalized (h : ∀ word ∈ words, IsTypeWord word) :
    ∀ text ∈ capitalized words, text ≠ [] ∧ ∀ c ∈ text.tail, c.isUpper = false := by
  have hlower : ∀ word : List Char, ∀ c ∈ word.map Char.toLower, c.isUpper = false := fun word =>
    List.forall_mem_map.2 fun c _ => isUpper_toLower c
  cases words with
  | nil => exact List.forall_mem_nil _
  | cons word words =>
    rw [List.forall_mem_cons] at h
    refine List.forall_mem_cons.2 ⟨⟨?_, fun c hc => ?_⟩, List.forall_mem_map.2 fun w hw => ?_⟩
    · exact List.map_eq_nil_iff.not.2 h.1.ne_nil
    · exact hlower word c (List.mem_of_mem_tail hc)
    · obtain ⟨c, rest, rfl⟩ := List.exists_cons_of_ne_nil (h.2 w hw).ne_nil
      rw [capitalize_map_toLower (h.2 _ hw)]
      exact ⟨List.cons_ne_nil _ _, hlower rest⟩

/-- In upper case again, the words are what they were. -/
private theorem map_upper_capitalized (h : ∀ word ∈ words, IsTypeWord word) :
    (capitalized words).map (·.map Char.toUpper) = words := by
  cases words with
  | nil => rfl
  | cons word words =>
    rw [List.forall_mem_cons] at h
    have hrest : ∀ w ∈ words, (capitalize (w.map Char.toLower)).map Char.toUpper = w := by
      intro w hw
      obtain ⟨c, rest, rfl⟩ := List.exists_cons_of_ne_nil (h.2 w hw).ne_nil
      have hchars := (h.2 _ hw).upper_eq.2
      rw [capitalize_map_toLower (h.2 _ hw), List.map_cons,
        map_toUpper_map_toLower (List.forall_mem_cons.1 (h.2 _ hw).chars).2]
      rw [List.map_cons, List.cons_eq_cons] at hchars
      rw [hchars.1]
    rw [capitalized, List.map_cons, map_toUpper_map_toLower h.1.chars, List.map_map]
    exact congrArg (word :: ·) ((List.map_congr_left hrest).trans (List.map_id words))

/-- **Camel case.** The name that is read back from a type. -/
theorem lowerCamelCase_intercalate (h : ∀ word ∈ words, IsTypeWord word) :
    lowerCamelCase (String.ofList (List.intercalate ['_'] words)) =
      String.ofList (capitalized words).flatten := by
  have hfilter : words.filter (· ≠ []) = words :=
    List.filter_eq_self.2 fun word hword => decide_eq_true (h word hword).ne_nil
  rw [lowerCamelCase, String.toList_ofList, flatten_capitalized]
  cases words with
  | nil => rfl
  | cons word words =>
    rw [List.splitOn_intercalate '_' (fun w hw => (h w hw).mark_notMem)
        (List.cons_ne_nil word words),
      hfilter]

/-! ## The type of a name in camel case -/

/-- A name of letters and digits is one word. -/
private theorem flatMap_pieces_runs {name : List Char} (h : ∀ c ∈ name, c.isAlphanum) :
    (runs name).flatMap (pieces true) = name.splitBy staysWith := by
  cases name with
  | nil => rfl
  | cons c name =>
    have hruns : runs (c :: name) = [c :: name] :=
      Text.wordsBy_eq_singleton (List.cons_ne_nil c name) fun d hd => by simp [h d hd]
    rw [hruns, List.flatMap_singleton]
    rfl

/-- The type of the name that was read back is the old type just if the name is cut into the words
that it was put together from.

**Proof sketch.** Equal types have equal words. These are as long as the pieces that the name is cut
into and as those that it was put together from, so it is cut in the same places. -/
theorem typeOf_flatten_capitalized_iff (h : ∀ word ∈ words, IsTypeWord word) :
    typeOf true (capitalized words).flatten = List.intercalate ['_'] words ↔
      (capitalized words).flatten.splitBy staysWith = capitalized words := by
  have hchars : ∀ c ∈ (capitalized words).flatten, c.isAlphanum := by
    rw [flatten_capitalized]
    exact alphanum_camelWords fun word hword => (h word hword).upper_eq.1
  have hpieces := flatMap_pieces_runs hchars
  rw [typeOf_eq_typeOfWords, hpieces, typeOfWords]
  constructor
  · intro heq
    have htype : ∀ word ∈ ((capitalized words).flatten.splitBy staysWith).map (·.map Char.toUpper),
        IsTypeWord word := by
      rw [← hpieces]
      exact fun _ => isTypeWord_of_mem
    have hwords := congrArg runs heq
    rw [runs_intercalate htype, runs_intercalate h] at hwords
    have hlengths : ∀ l : List (List Char),
        l.map List.length = (l.map (·.map Char.toUpper)).map List.length := fun l => by simp
    refine List.eq_iff_flatten_eq.2 ⟨List.flatten_splitBy staysWith _, ?_⟩
    rw [hlengths, hwords, hlengths (capitalized words), map_upper_capitalized h]
  · intro heq
    rw [heq, map_upper_capitalized h]

/-! ## Where a name in camel case is cut -/

/-- A text ends with a lower-case letter or a digit. -/
def EndsLow (text : List Char) : Prop := ∃ c ∈ text.getLast?, c.isLower || c.isDigit

/-- A text begins with a capital letter. -/
def BeginsCapital (text : List Char) : Prop := ∃ c ∈ text.head?, c.isUpper

/-- Between two texts there is a cut just if the first one ends with a lower-case letter or a digit
and the second one begins with a capital letter. -/
private theorem cut_iff {a b : List Char} :
    (∃ ha hb, staysWith (a.getLast ha) (b.head hb) = false) ↔ EndsLow a ∧ BeginsCapital b := by
  constructor
  · rintro ⟨ha, hb, hcut⟩
    rw [staysWith, Bool.not_eq_false', Bool.and_eq_true] at hcut
    exact ⟨⟨_, List.getLast_mem_getLast? ha, hcut.2⟩, ⟨_, List.head_mem_head? hb, hcut.1⟩⟩
  · rintro ⟨⟨c, hc, hlow⟩, d, hd, hcapital⟩
    obtain ⟨front, rfl⟩ := List.getLast?_eq_some_iff.1 hc
    obtain ⟨rest, rfl⟩ := List.head?_eq_some_iff.1 hd
    exact ⟨by simp, by simp, by simp [staysWith, hlow, hcapital]⟩

/-- A text is not cut if only its first character may be a capital letter. -/
private theorem isChain_staysWith {text : List Char} (h : ∀ c ∈ text.tail, c.isUpper = false) :
    text.IsChain fun a b => staysWith a b = true := by
  induction text with
  | nil => exact .nil
  | cons a text ih =>
    cases text with
    | nil => exact .singleton a
    | cons b text =>
      rw [List.tail_cons, List.forall_mem_cons] at h
      exact .cons_cons (by simp [staysWith, h.1]) (ih h.2)

/-- What is written in lower case ends low. -/
private theorem endsLow_append_map_toLower (front : List Char) {word : List Char}
    (h : IsTypeWord word) :
    EndsLow (front ++ word.map Char.toLower) := by
  have hlast := List.getLast_mem h.ne_nil
  refine ⟨(word.getLast h.ne_nil).toLower, ?_, isLower_or_isDigit_toLower (h.chars _ hlast)⟩
  rw [List.getLast?_append, List.getLast?_map, List.getLast?_eq_some_getLast h.ne_nil]
  rfl

/-- A capitalized word begins as the word of the type does. -/
private theorem beginsCapital_capitalize_iff {word : List Char} (h : IsTypeWord word) :
    BeginsCapital (capitalize (word.map Char.toLower)) ↔ BeginsCapital word := by
  obtain ⟨c, rest, rfl⟩ := List.exists_cons_of_ne_nil h.ne_nil
  rw [capitalize_map_toLower h]
  exact Iff.rfl

/-- A capitalized word that begins with a capital letter ends low just if this is not its only
character. -/
private theorem endsLow_capitalize_iff {word : List Char} (h : IsTypeWord word)
    (hcapital : BeginsCapital word) :
    EndsLow (capitalize (word.map Char.toLower)) ↔ 2 ≤ word.length := by
  obtain ⟨c, rest, rfl⟩ := List.exists_cons_of_ne_nil h.ne_nil
  rw [capitalize_map_toLower h]
  cases rest with
  | nil =>
    obtain ⟨_, ⟨⟩, hupper⟩ := hcapital
    have hlow := Bool.or_eq_false_iff.1 (other_of_isUpper hupper)
    simp [EndsLow, hlow]
  | cons d rest =>
    have hrest : IsTypeWord (d :: rest) :=
      ⟨List.cons_ne_nil d rest, (List.forall_mem_cons.1 h.chars).2⟩
    exact iff_of_true (endsLow_append_map_toLower [c] hrest) (Nat.le_add_left 2 rest.length)

/-- Behind a text that ends low, there is a cut in front of every capitalized word just if all words
begin with capital letters and all but the last one have two characters at least.

**Proof sketch.** Induction on the words. A word that ends low takes the place of the text, and
there is no cut behind any other word. -/
private theorem isChain_capitalize_iff {text : List Char} (htext : EndsLow text)
    {words : List (List Char)} (h : ∀ word ∈ words, IsTypeWord word) :
    ((text :: words.map fun w => capitalize (w.map Char.toLower)).IsChain fun a b =>
        EndsLow a ∧ BeginsCapital b) ↔
      (∀ word ∈ words, BeginsCapital word) ∧ ∀ word ∈ words.dropLast, 2 ≤ word.length := by
  induction words generalizing text with
  | nil => simp
  | cons word words ih =>
    rw [List.forall_mem_cons] at h
    rw [List.map_cons, List.isChain_cons_cons, beginsCapital_capitalize_iff h.1,
      List.forall_mem_cons]
    cases words with
    | nil => simp [htext]
    | cons next words =>
      rw [List.dropLast_cons_cons, List.forall_mem_cons (p := fun w : List Char => 2 ≤ w.length)]
      by_cases hcapital : BeginsCapital word
      · rw [← endsLow_capitalize_iff h.1 hcapital]
        by_cases hlow : EndsLow (capitalize (word.map Char.toLower))
        · rw [ih hlow h.2, and_iff_right ⟨htext, hcapital⟩, and_iff_right hcapital,
            and_iff_right hlow]
        · -- a single capital letter: the next word is not cut from it
          refine iff_of_false (fun hchain => hlow ?_) fun hwords => hlow hwords.2.1
          exact (List.isChain_cons_cons.1 hchain.2).1.1
      · exact iff_of_false (fun hchain => hcapital hchain.1.2) fun hwords => hcapital hwords.1.1

/-- **Cuts.** A name in camel case is cut into the words that it was put together from just if all
words but the first one begin with capital letters, and all but the first and the last one have two
characters at least. -/
theorem splitBy_flatten_capitalized_iff (h : ∀ word ∈ words, IsTypeWord word) :
    (capitalized words).flatten.splitBy staysWith = capitalized words ↔
      (∀ word ∈ words.tail, BeginsCapital word) ∧
        ∀ word ∈ words.tail.dropLast, 2 ≤ word.length := by
  cases words with
  | nil => simp [capitalized]
  | cons word words =>
    rw [List.forall_mem_cons] at h
    -- the first word is in lower case all over, so it may consist of one letter
    have hfirst : EndsLow (word.map Char.toLower) := endsLow_append_map_toLower [] h.1
    rw [List.splitBy_eq_iff]
    simp only [cut_iff]
    rw [List.tail_cons, ← isChain_capitalize_iff hfirst h.2]
    constructor
    · rintro ⟨-, -, -, hchain⟩
      exact hchain
    · intro hchain
      have htexts := of_mem_capitalized (List.forall_mem_cons.2 h)
      exact ⟨trivial, fun hmem => (htexts [] hmem).1 rfl, fun text htext =>
        isChain_staysWith (htexts text htext).2, hchain⟩

/-! ## Types that are made again -/

/-- **Stable types.** Every type is a sequence of words over capital letters and digits with single
underscores between them. Such a sequence is the type of the name that is read back from it just if
every word but the first begins with a letter, and every word but the first and the last has two
characters at least. -/
theorem upperSnakeCase_lowerCamelCase_eq_self_iff :
    (∀ name, ∀ type ∈ [upperSnakeCase name, flatUpperCase name],
      ∃ words, (∀ word ∈ words, IsTypeWord word) ∧
        type = String.ofList (List.intercalate ['_'] words)) ∧
    ∀ words, (∀ word ∈ words, IsTypeWord word) →
      let type := String.ofList (List.intercalate ['_'] words)
      upperSnakeCase (lowerCamelCase type) = type ↔
        (∀ word ∈ words.tail, ∃ c ∈ word.head?, c.isUpper) ∧
          ∀ word ∈ words.tail.dropLast, 2 ≤ word.length := by
  have htypes : ∀ cutsWords name, ∃ words, (∀ word ∈ words, IsTypeWord word) ∧
      String.ofList (typeOf cutsWords name) = String.ofList (List.intercalate ['_'] words) := by
    intro cutsWords name
    obtain ⟨words, hwords, htype⟩ := exists_words_typeOf cutsWords name
    exact ⟨words, hwords, congrArg String.ofList htype⟩
  constructor
  · intro name type htype
    rcases List.mem_cons.1 htype with rfl | htype
    · exact htypes true name.toList
    · rw [List.mem_singleton.1 htype]
      exact htypes false name.toList
  · intro words h type
    rw [lowerCamelCase_intercalate h, upperSnakeCase, String.toList_ofList, ← String.toList_inj,
      String.toList_ofList, String.toList_ofList, typeOf_flatten_capitalized_iff h,
      splitBy_flatten_capitalized_iff h]
    exact Iff.rfl

/-- A word of one letter in the middle runs into the next one: the name `hasAPart` is read back, and
its type is another one. -/
theorem upperSnakeCase_lowerCamelCase_hasAPart :
    (∀ word ∈ ["HAS".toList, "A".toList, "PART".toList], IsTypeWord word) ∧
      upperSnakeCase (lowerCamelCase "HAS_A_PART") ≠ "HAS_A_PART" := by
  have hwords : ∀ word ∈ ["HAS".toList, "A".toList, "PART".toList], IsTypeWord word := by
    decide
  refine ⟨hwords, fun htype => ?_⟩
  have hlength := ((upperSnakeCase_lowerCamelCase_eq_self_iff.2 _ hwords).1 htype).2
  exact absurd (hlength "A".toList List.mem_cons_self) (by decide)

end ShapeSchema.Naming
