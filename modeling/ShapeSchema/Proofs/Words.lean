import Mathlib.Data.List.SplitBy
import ShapeSchema.Proofs.CamelCase

/-!
# The words of a name

The words of a name are its longest runs of letters and digits. Its type is these words in upper
case with single underscores between them. Where camel case is cut apart, every run is first cut in
front of each capital letter behind a lower-case letter or a digit.

So the two types of a name differ in underscores only. Both of them are sequences of words over
capital letters and digits, and the words of such a sequence are not cut any further when its type
without cuts is made.

## Main definitions

* `ShapeSchema.Naming.runs`, `ShapeSchema.Naming.pieces` — the words of a name, and their parts.
* `ShapeSchema.Naming.typeOfWords` — words in upper case with underscores between them.
* `ShapeSchema.Naming.IsTypeWord` — the words of types.

## Main results

* `ShapeSchema.Naming.typeOf_eq_typeOfWords` — the type of a name is made of its words.
* `ShapeSchema.Naming.isTypeWord_of_mem` — what these words look like.
* `ShapeSchema.Naming.types_of_words` — the two types of a name.
-/

namespace ShapeSchema.Naming

variable {cutsWords : Bool}

/-! ## Words -/

/-- The words of a name: its longest runs of letters and digits. -/
def runs (name : List Char) : List (List Char) := Text.wordsBy (fun c => !c.isAlphanum) name

/-- Two neighbours in a run stay together unless the second one is a capital letter behind a
lower-case letter or a digit. -/
def staysWith (a b : Char) : Bool := !(b.isUpper && (a.isLower || a.isDigit))

/-- The pieces that a run is cut into. -/
def pieces (cutsWords : Bool) (run : List Char) : List (List Char) :=
  if cutsWords then run.splitBy staysWith else [run]

/-- Words in upper case with underscores between them. -/
def typeOfWords (words : List (List Char)) : List Char :=
  List.intercalate ['_'] (words.map (·.map Char.toUpper))

/-- Two characters stay together unless a word begins between them. -/
theorem staysWith_eq (a b : Char) : staysWith a b = !beginsWord (some a) b := rfl

/-- Runs are not empty and consist of letters and digits. -/
theorem of_mem_runs {name run : List Char} (h : run ∈ runs name) :
    run ≠ [] ∧ ∀ c ∈ run, c.isAlphanum := by
  obtain ⟨hne, hrun⟩ := Text.of_mem_wordsBy h
  exact ⟨hne, fun c hc => by simpa using hrun c hc⟩

/-- A run has a piece. -/
theorem pieces_ne_nil {run : List Char} (h : run ≠ []) : pieces cutsWords run ≠ [] := by
  unfold pieces
  split
  · exact List.splitBy_ne_nil.2 h
  · exact List.cons_ne_nil run []

/-- Cutting loses nothing. -/
theorem flatten_pieces (cutsWords : Bool) (run : List Char) :
    (pieces cutsWords run).flatten = run := by
  unfold pieces
  split
  · exact List.flatten_splitBy staysWith run
  · exact List.flatten_singleton

/-- The pieces of runs are not empty. -/
private theorem ne_nil_of_mem_pieces {run piece : List Char} (hrun : run ≠ [])
    (h : piece ∈ pieces cutsWords run) : piece ≠ [] := by
  unfold pieces at h
  split at h
  · exact List.ne_nil_of_mem_splitBy h
  · rwa [List.mem_singleton.1 h]

/-! ## Runs in upper case -/

/-- A member that stays with the next one goes to its piece. -/
private theorem splitBy_cons_cons {α : Type} {r : α → α → Bool} {a b : α} {rest piece : List α}
    {more : List (List α)} (hab : r a b = true) (h : (b :: rest).splitBy r = piece :: more) :
    (a :: b :: rest).splitBy r = (a :: piece) :: more := by
  obtain ⟨hflatten, hnil, hchain, hcut⟩ := List.splitBy_eq_iff.1 h
  rw [List.mem_cons, not_or] at hnil
  obtain ⟨d, piece, rfl⟩ := List.exists_cons_of_ne_nil (Ne.symm hnil.1)
  obtain ⟨rfl, -⟩ : b = d ∧ _ := List.cons_eq_cons.1 hflatten
  rw [List.forall_mem_cons] at hchain
  refine List.splitBy_eq_iff.2 ⟨?_, ?_, ?_, ?_⟩
  · rw [hflatten]
    rfl
  · exact List.not_mem_cons_of_ne_of_not_mem nofun hnil.2
  · exact List.forall_mem_cons.2 ⟨hchain.1.cons_cons hab, hchain.2⟩
  · rw [List.isChain_cons] at hcut ⊢
    refine ⟨fun next hnext => ?_, hcut.2⟩
    obtain ⟨_, hne, hlast⟩ := hcut.1 next hnext
    exact ⟨List.cons_ne_nil _ _, hne, hlast⟩

/-- One word has no underscore. -/
private theorem typeOfWords_singleton (word : List Char) :
    typeOfWords [word] = word.map Char.toUpper := by
  rw [typeOfWords, List.map_singleton, List.intercalate_singleton]

/-- All words but the first have an underscore in front of them. -/
private theorem typeOfWords_cons (word : List Char) (words : List (List Char)) :
    typeOfWords (word :: words) =
      word.map Char.toUpper ++ words.flatMap ('_' :: ·.map Char.toUpper) := by
  rw [typeOfWords, List.map_cons, Text.intercalate_cons, List.flatMap_map]
  rfl

/-- Behind its first character, a run is spelled as the pieces that it is cut into. -/
private theorem typeOfWords_splitBy (a : Char) (rest : List Char) :
    typeOfWords ((a :: rest).splitBy staysWith) = a.toUpper :: spelled true (some a) rest := by
  induction rest generalizing a with
  | nil => rfl
  | cons b rest ih =>
    obtain ⟨piece, more, hsplit⟩ := List.exists_cons_of_ne_nil
      (List.splitBy_ne_nil.2 (List.cons_ne_nil b rest) : (b :: rest).splitBy staysWith ≠ [])
    have hrest : typeOfWords (piece :: more) = b.toUpper :: spelled true (some b) rest :=
      hsplit ▸ ih b
    rw [spelled, Bool.true_and]
    cases hab : beginsWord (some a) b with
    | true =>
      -- `a` is a piece of its own, and an underscore stands behind it
      have hcut : (a :: b :: rest).splitBy staysWith = [a] :: (b :: rest).splitBy staysWith :=
        List.splitBy_append_cons (l := [a]) rest (by simp [staysWith_eq, hab])
      rw [hcut, hsplit]
      show a.toUpper :: '_' :: typeOfWords (piece :: more) = _
      rw [hrest]
      rfl
    | false =>
      rw [splitBy_cons_cons (by rw [staysWith_eq, hab]; rfl) hsplit]
      rw [typeOfWords_cons] at hrest ⊢
      rw [List.map_cons, List.cons_append, hrest]
      rfl

/-- **Runs** are spelled as their pieces. -/
private theorem spelled_eq_typeOfWords {run : List Char} (h : run ≠ []) :
    spelled cutsWords none run = typeOfWords (pieces cutsWords run) := by
  cases cutsWords with
  | false =>
    have hupper : ∀ previous, spelled false previous run = run.map Char.toUpper := by
      clear h
      induction run with
      | nil => exact fun _ => rfl
      | cons c run ih => exact fun previous => congrArg (c.toUpper :: ·) (ih (some c))
    exact (hupper none).trans (typeOfWords_singleton run).symm
  | true =>
    obtain ⟨a, rest, rfl⟩ := List.exists_cons_of_ne_nil h
    rw [spelled]
    simp [pieces, typeOfWords_splitBy, beginsWord]

/-! ## Runs and separators -/

/-- A type with an underscore behind it. There is none at the beginning, and one is enough. -/
def marked : List Char → List Char
  | [] => []
  | last :: before => if last = '_' then last :: before else '_' :: last :: before

/-- A type, in reverse, with a run behind it. -/
def addRun (cutsWords : Bool) (reversed run : List Char) : List Char :=
  (spelled cutsWords none run).reverse ++ marked reversed

/-- A separator puts an underscore behind a type. -/
private theorem typeStep_of_separator {previous : Option Char} {reversed : List Char} {c : Char}
    (h : c.isAlphanum = false) : typeStep cutsWords previous reversed c = marked reversed := by
  unfold typeStep
  rw [if_neg (Bool.eq_false_iff.1 h)]
  cases reversed <;> rfl

/-- Once is enough. -/
private theorem marked_marked (reversed : List Char) :
    marked (marked reversed) = marked reversed := by
  cases reversed with
  | nil => rfl
  | cons last before => by_cases h : last = '_' <;> simp [marked, h]

/-- It goes when the underscores at the end are dropped. -/
private theorem dropWhile_marked (reversed : List Char) :
    (marked reversed).dropWhile (· == '_') = reversed.dropWhile (· == '_') := by
  cases reversed with
  | nil => rfl
  | cons last before => by_cases h : last = '_' <;> simp [marked, h]

/-- A capital letter behind a separator begins no piece. -/
private theorem spelled_of_separator {c : Char} (h : c.isAlphanum = false) (run : List Char) :
    spelled cutsWords (some c) run = spelled cutsWords none run := by
  cases run with
  | nil => rfl
  | cons d run =>
    simp only [isAlphanum_eq, Bool.or_eq_false_iff] at h
    simp [spelled, beginsWord, h]

/-- An underscore behind a type makes no difference to the runs that follow, and is dropped in the
end. -/
private theorem dropWhile_foldl_marked (reversed : List Char) (words : List (List Char)) :
    (words.foldl (addRun cutsWords) (marked reversed)).dropWhile (· == '_') =
      (words.foldl (addRun cutsWords) reversed).dropWhile (· == '_') := by
  cases words with
  | nil => exact dropWhile_marked reversed
  | cons run words => rw [List.foldl_cons, List.foldl_cons, addRun, addRun, marked_marked]

/-- **Runs.** Behind what is there, a type has the runs of a name one after the other. The first one
may go on with the last word.

**Proof sketch.** Induction on the name. A letter or digit goes to the first run. A separator ends
it, and if no other run has begun before, the underscore is the one that is there already. -/
private theorem dropWhile_typeReversed {previous : Option Char} {reversed name run : List Char}
    {words : List (List Char)} (h : name.splitOnP (fun c => !c.isAlphanum) = run :: words) :
    (typeReversed cutsWords previous reversed name).dropWhile (· == '_') =
      ((words.filter (· ≠ [])).foldl (addRun cutsWords)
        ((spelled cutsWords previous run).reverse ++ reversed)).dropWhile (· == '_') := by
  induction name generalizing previous reversed run words with
  | nil =>
    cases h
    rfl
  | cons c name ih =>
    obtain ⟨next, rest, hsplit⟩ :=
      List.exists_cons_of_ne_nil (List.splitOnP_ne_nil (fun c => !c.isAlphanum) name)
    rw [List.splitOnP_cons_eq_if_modifyHead, hsplit] at h
    rw [typeReversed, ih hsplit]
    cases hc : c.isAlphanum with
    | true =>
      rw [hc] at h
      cases h
      have hrun : (spelled cutsWords previous (c :: next)).reverse ++ reversed =
          (spelled cutsWords (some c) next).reverse ++
            typeStep cutsWords previous reversed c := by
        unfold typeStep
        rw [spelled, if_pos hc]
        split <;> simp
      rw [hrun]
    | false =>
      rw [hc] at h
      cases h
      rw [typeStep_of_separator hc, spelled_of_separator hc]
      -- between two separators there is an empty piece, which is no word
      by_cases hnext : next = []
      · rw [hnext, List.filter_cons_of_neg (by simp)]
        exact dropWhile_foldl_marked reversed _
      · rw [List.filter_cons_of_pos (by simpa using hnext)]
        rfl

/-- A run does not end with an underscore, so that one is put behind it. -/
private theorem marked_spelled {run : List Char} (h : run ≠ [] ∧ ∀ c ∈ run, c.isAlphanum)
    (reversed : List Char) :
    marked ((spelled cutsWords none run).reverse ++ reversed) =
      '_' :: ((spelled cutsWords none run).reverse ++ reversed) := by
  have hlast : '_' ∉ (spelled cutsWords none run).getLast? := getLast?_spelled h.2
  have hne : spelled cutsWords none run ≠ [] := by
    obtain ⟨c, run, rfl⟩ := List.exists_cons_of_ne_nil h.1
    rw [spelled]
    split <;> exact List.cons_ne_nil _ _
  rw [← List.head?_reverse] at hlast
  obtain ⟨last, before, hreverse⟩ := List.exists_cons_of_ne_nil (List.reverse_ne_nil_iff.2 hne)
  rw [hreverse] at hlast ⊢
  exact if_neg fun heq : last = '_' => hlast (heq ▸ rfl)

/-- Runs that are added behind a word have underscores in front of them. -/
private theorem foldl_addRun {reversed : List Char} (hreversed : marked reversed = '_' :: reversed)
    {words : List (List Char)} (h : ∀ run ∈ words, run ≠ [] ∧ ∀ c ∈ run, c.isAlphanum) :
    words.foldl (addRun cutsWords) reversed =
      (words.flatMap ('_' :: spelled cutsWords none ·)).reverse ++ reversed := by
  induction words generalizing reversed with
  | nil => rfl
  | cons run words ih =>
    rw [List.forall_mem_cons] at h
    rw [List.foldl_cons, addRun, hreversed, ih (marked_spelled h.1 _) h.2]
    simp

/-- Runs behind nothing are spelled with underscores between them. -/
private theorem foldl_addRun_nil {words : List (List Char)}
    (h : ∀ run ∈ words, run ≠ [] ∧ ∀ c ∈ run, c.isAlphanum) :
    words.foldl (addRun cutsWords) [] =
      (List.intercalate ['_'] (words.map (spelled cutsWords none))).reverse := by
  cases words with
  | nil => rfl
  | cons run words =>
    rw [List.forall_mem_cons] at h
    rw [List.foldl_cons, addRun, marked, foldl_addRun (marked_spelled h.1 _) h.2, List.map_cons,
      Text.intercalate_cons, List.flatMap_map, List.reverse_append, List.append_nil]
    rfl

/-! ## Types -/

/-- The words of types: they have characters, all of them capital letters and digits. -/
structure IsTypeWord (word : List Char) : Prop where
  /-- There is a character. -/
  ne_nil : word ≠ []
  /-- All characters are capital letters and digits. -/
  chars : ∀ c ∈ word, c.isUpper || c.isDigit

instance : DecidablePred IsTypeWord := fun word =>
  decidable_of_iff (word ≠ [] ∧ word.all fun c => c.isUpper || c.isDigit)
    ⟨fun h => ⟨h.1, List.all_eq_true.1 h.2⟩, fun h => ⟨h.ne_nil, List.all_eq_true.2 h.chars⟩⟩

/-- In upper case, letters and digits are capital letters and digits. -/
theorem isUpper_or_isDigit_toUpper {c : Char} (h : c.isAlphanum) :
    c.toUpper.isUpper || c.toUpper.isDigit := by
  cases hlower : c.isLower with
  | false => simpa [toUpper_eq_self hlower, isAlphanum_eq, hlower] using h
  | true =>
    exact forall_of_isLower (p := fun c => c.toUpper.isUpper || c.toUpper.isDigit) (by decide)
      hlower

/-- There is no underscore in a word of a type. -/
theorem IsTypeWord.mark_notMem {word : List Char} (h : IsTypeWord word) : '_' ∉ word := fun hmem =>
  absurd (h.chars _ hmem) (by decide)

/-- **Words.** The pieces of words consist of capital letters and digits in upper case. -/
theorem isTypeWord_of_mem {name word : List Char}
    (h : word ∈ ((runs name).flatMap (pieces cutsWords)).map (·.map Char.toUpper)) :
    IsTypeWord word := by
  obtain ⟨piece, hpiece, rfl⟩ := List.mem_map.1 h
  obtain ⟨run, hrun, hpiece⟩ := List.mem_flatMap.1 hpiece
  obtain ⟨hne, hchars⟩ := of_mem_runs hrun
  refine ⟨fun hnil => ne_nil_of_mem_pieces hne hpiece (List.map_eq_nil_iff.1 hnil), ?_⟩
  refine List.forall_mem_map.2 fun c hc => isUpper_or_isDigit_toUpper (hchars c ?_)
  rw [← flatten_pieces cutsWords run]
  exact List.mem_flatten_of_mem hpiece hc

/-- Words that are spelled one by one are put together from all their pieces. -/
private theorem intercalate_spelled {words : List (List Char)} (h : ∀ run ∈ words, run ≠ []) :
    List.intercalate ['_'] (words.map (spelled cutsWords none)) =
      typeOfWords (words.flatMap (pieces cutsWords)) := by
  have hspelled : words.map (spelled cutsWords none) =
      (words.map fun run => (pieces cutsWords run).map (·.map Char.toUpper)).map
        (List.intercalate ['_']) := by
    rw [List.map_map]
    exact List.map_congr_left fun run hrun => spelled_eq_typeOfWords (h run hrun)
  rw [hspelled, Text.intercalate_flatten, typeOfWords, List.map_flatMap, List.flatMap_def]
  intro hmem
  obtain ⟨run, hrun, hnil⟩ := List.mem_map.1 hmem
  exact pieces_ne_nil (h run hrun) (List.map_eq_nil_iff.1 hnil)

/-- **Types.** The type of a name is made of the pieces of its words. -/
theorem typeOf_eq_typeOfWords (cutsWords : Bool) (name : List Char) :
    typeOf cutsWords name = typeOfWords ((runs name).flatMap (pieces cutsWords)) := by
  obtain ⟨run, words, hsplit⟩ :=
    List.exists_cons_of_ne_nil (List.splitOnP_ne_nil (fun c => !c.isAlphanum) name)
  have hruns : runs name = (run :: words).filter (· ≠ []) := by rw [runs, Text.wordsBy, hsplit]
  have hfold : (words.filter (· ≠ [])).foldl (addRun cutsWords)
      ((spelled cutsWords none run).reverse ++ []) = (runs name).foldl (addRun cutsWords) [] := by
    rw [hruns]
    cases run with
    | nil => rfl
    | cons c run => rfl
  have hlast : '_' ∉ (typeOfWords ((runs name).flatMap (pieces cutsWords))).getLast? :=
    (Text.separated_intercalate fun word hword =>
      ⟨(isTypeWord_of_mem hword).ne_nil, (isTypeWord_of_mem hword).mark_notMem⟩).last
  rw [typeOf, dropWhile_typeReversed hsplit, hfold, foldl_addRun_nil fun _ => of_mem_runs,
    intercalate_spelled fun _ hrun => (of_mem_runs hrun).1, reverse_dropWhile_reverse hlast]

/-! ## What types look like -/

/-- Neither capital letters nor digits are lower-case letters. -/
theorem isLower_eq_false {c : Char} (h : c.isUpper || c.isDigit) : c.isLower = false := by
  rcases Bool.or_eq_true_iff.1 h with hupper | hdigit
  · exact (Bool.or_eq_false_iff.1 (other_of_isUpper hupper)).1
  · exact forall_of_isDigit (p := fun c => c.isLower = false) (by decide) hdigit

/-- Words of types consist of characters of words, and are in upper case. -/
theorem IsTypeWord.upper_eq {word : List Char} (h : IsTypeWord word) :
    (∀ c ∈ word, c.isAlphanum) ∧ word.map Char.toUpper = word := by
  have hlower : ∀ c ∈ word, c.isLower = false := fun c hc => isLower_eq_false (h.chars c hc)
  refine ⟨fun c hc => ?_, ?_⟩
  · have hchar := h.chars c hc
    rwa [isAlphanum_eq, hlower c hc, Bool.or_false]
  · exact (List.map_congr_left fun c hc => toUpper_eq_self (hlower c hc)).trans (List.map_id word)

/-- The words of a type are the words that it was put together from. -/
theorem runs_intercalate {words : List (List Char)} (h : ∀ word ∈ words, IsTypeWord word) :
    runs (List.intercalate ['_'] words) = words :=
  Text.wordsBy_intercalate rfl fun word hword =>
    ⟨(h word hword).ne_nil, fun c hc => by simpa using (h word hword).upper_eq.1 c hc⟩

/-- Without cuts, a sequence of words of types is its own type. -/
theorem typeOf_intercalate {words : List (List Char)} (h : ∀ word ∈ words, IsTypeWord word) :
    typeOf false (List.intercalate ['_'] words) = List.intercalate ['_'] words := by
  have hupper : words.map (·.map Char.toUpper) = words :=
    (List.map_congr_left fun word hword => (h word hword).upper_eq.2).trans (List.map_id words)
  have hpieces : words.flatMap (pieces false) = words := List.flatMap_singleton' words
  rw [typeOf_eq_typeOfWords, runs_intercalate h, hpieces, typeOfWords, hupper]

/-- The words that the type of a name consists of. -/
theorem exists_words_typeOf (cutsWords : Bool) (name : List Char) :
    ∃ words, (∀ word ∈ words, IsTypeWord word) ∧
      typeOf cutsWords name = List.intercalate ['_'] words :=
  ⟨_, fun _ => isTypeWord_of_mem, typeOf_eq_typeOfWords cutsWords name⟩

/-- **Underscores** in types stand one by one and inside. -/
theorem separated_typeOf (cutsWords : Bool) (name : List Char) :
    Text.Separated '_' (typeOf cutsWords name) := by
  obtain ⟨words, hwords, htype⟩ := exists_words_typeOf cutsWords name
  rw [htype]
  exact Text.separated_intercalate fun word hword =>
    ⟨(hwords word hword).ne_nil, (hwords word hword).mark_notMem⟩

/-- Types consist of capital letters, digits and underscores. -/
theorem chars_typeOf (cutsWords : Bool) (name : List Char) :
    ∀ c ∈ typeOf cutsWords name, c.isUpper || c.isDigit || c == '_' := by
  obtain ⟨words, hwords, htype⟩ := exists_words_typeOf cutsWords name
  rw [htype]
  intro c hc
  rcases Text.mem_intercalate hc with rfl | ⟨word, hword, hc⟩
  · rfl
  · rw [(hwords word hword).chars c hc]
    rfl

/-- Without its underscores, a type is made of the letters and digits of the name. -/
theorem filter_typeOf (cutsWords : Bool) (name : List Char) :
    (typeOf cutsWords name).filter (· ≠ '_') = (runs name).flatten.map Char.toUpper := by
  rw [typeOf_eq_typeOfWords, typeOfWords,
    Text.filter_intercalate fun _ hword => (isTypeWord_of_mem hword).mark_notMem,
    ← List.map_flatten]
  have hflatten : ((runs name).flatMap (pieces cutsWords)).flatten = (runs name).flatten := by
    rw [List.flatMap_def, List.flatten_flatten, List.map_map]
    refine congrArg List.flatten ((List.map_congr_left fun run _ => ?_).trans (List.map_id _))
    exact flatten_pieces cutsWords run
  rw [hflatten]

/-- **Idempotence.** Without cuts, a type is its own type. -/
theorem typeOf_typeOf (cutsWords : Bool) (name : List Char) :
    typeOf false (typeOf cutsWords name) = typeOf cutsWords name := by
  obtain ⟨words, hwords, htype⟩ := exists_words_typeOf cutsWords name
  rw [htype, typeOf_intercalate hwords]

/-- **Words of a name.** The type without cuts is the longest runs of letters and digits in upper
case with underscores between them, and in the other type every run is cut in front of each capital
letter behind a lower-case letter or a digit. Both consist of capital letters, digits and single
underscores inside, they differ in underscores only, and the type without cuts is its own type. -/
theorem types_of_words (name : String) :
    let words := runs name.toList
    flatUpperCase name = String.ofList (typeOfWords words) ∧
      upperSnakeCase name =
        String.ofList (typeOfWords (words.flatMap fun run => run.splitBy staysWith)) ∧
      (∀ type ∈ [flatUpperCase name, upperSnakeCase name],
        Text.Separated '_' type.toList ∧
          ∀ c ∈ type.toList, c.isUpper || c.isDigit || c == '_') ∧
      (flatUpperCase name).toList.filter (· ≠ '_') =
        (upperSnakeCase name).toList.filter (· ≠ '_') ∧
      flatUpperCase (flatUpperCase name) = flatUpperCase name := by
  intro words
  refine ⟨?_, ?_, ?_, ?_, ?_⟩
  · rw [flatUpperCase, typeOf_eq_typeOfWords]
    exact congrArg (String.ofList <| typeOfWords ·) (List.flatMap_singleton' words)
  · rw [upperSnakeCase, typeOf_eq_typeOfWords]
    rfl
  · have heach : ∀ cutsWords type, type = String.ofList (typeOf cutsWords name.toList) →
        Text.Separated '_' type.toList ∧
          ∀ c ∈ type.toList, c.isUpper || c.isDigit || c == '_' := by
      rintro cutsWords _ rfl
      rw [String.toList_ofList]
      exact ⟨separated_typeOf cutsWords _, chars_typeOf cutsWords _⟩
    intro type htype
    rcases List.mem_cons.1 htype with hflat | htype
    · exact heach false type hflat
    · exact heach true type (List.mem_singleton.1 htype)
  · rw [flatUpperCase, upperSnakeCase, String.toList_ofList, String.toList_ofList, filter_typeOf,
      filter_typeOf]
  · show String.ofList (typeOf false (String.ofList (typeOf false name.toList)).toList) = _
    rw [String.toList_ofList, typeOf_typeOf]
    rfl

/-- A letter that is not ASCII separates words, and a digit ends a piece. -/
example : upperSnakeCase "caf\u00e9 address2Line" = "CAF_ADDRESS2_LINE" ∧
    flatUpperCase "caf\u00e9 address2Line" = "CAF_ADDRESS2LINE" := by
  decide +kernel

end ShapeSchema.Naming
