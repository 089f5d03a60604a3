import ShapeSchema.Naming
import ShapeSchema.Proofs.Splitting

/-!
# Names behind a namespace

A type consists of ASCII letters, digits and underscores, and the name that is read back from it of
letters and digits only. Neither a hash nor a slash is among them, so the identifier that such a
name gets in a namespace is cut inside the namespace, and distinct names have identifiers with
distinct local names. A type begins with the first letter or digit of its name, if there is one.

## Main definitions

* `ShapeSchema.Naming.Fits` — a name that belongs to the local name behind a text.

## Main results

* `ShapeSchema.Naming.head?_typeOf` — what a type begins with.
* `ShapeSchema.Naming.alphanum_lowerCamelCase` — the characters of a name in camel case.
* `ShapeSchema.Naming.localName_append` — the local name of an identifier in a namespace.
* `ShapeSchema.Naming.localName_append_inj` — distinct names stay distinct.
-/

namespace ShapeSchema.Naming

/-! ## Characters -/

/-- What holds for the character of every code in a range holds for every character in it. -/
private theorem forall_of_codes {p : Char → Prop} {low high : Nat}
    (h : ∀ n ≤ high, low ≤ n → p (Char.ofNat n)) {c : Char} (hlow : low ≤ c.toNat)
    (hhigh : c.toNat ≤ high) : p c := by
  have hc := h c.toNat hhigh hlow
  rwa [Char.ofNat_toNat] at hc

/-- The lower-case letters, by their codes. -/
private theorem isLower_iff_toNat {c : Char} :
    c.isLower = true ↔ 97 ≤ c.toNat ∧ c.toNat ≤ 122 := by
  have h : c.isLower = (decide (97 ≤ c.val) && decide (c.val ≤ 122)) := rfl
  rw [h, Bool.and_eq_true, decide_eq_true_iff, decide_eq_true_iff, UInt32.le_iff_toNat_le,
    UInt32.le_iff_toNat_le]
  exact Iff.rfl

/-- The capital letters, by their codes. -/
private theorem isUpper_iff_toNat {c : Char} :
    c.isUpper = true ↔ 65 ≤ c.toNat ∧ c.toNat ≤ 90 := by
  have h : c.isUpper = decide (65 ≤ c.val ∧ c.val ≤ 90) := rfl
  rw [h, decide_eq_true_iff, UInt32.le_iff_toNat_le, UInt32.le_iff_toNat_le]
  exact Iff.rfl

/-- Letters and digits are capital letters, lower-case letters and digits. -/
theorem isAlphanum_eq (c : Char) : c.isAlphanum = (c.isUpper || c.isLower || c.isDigit) := rfl

/-- What holds for the codes of the lower-case letters holds for every lower-case letter. -/
theorem forall_of_isLower {p : Char → Prop} (h : ∀ n ≤ 122, 97 ≤ n → p (Char.ofNat n)) {c : Char}
    (hc : c.isLower = true) : p c :=
  have hcode := isLower_iff_toNat.1 hc
  forall_of_codes h hcode.1 hcode.2

/-- What holds for the codes of the capital letters holds for every capital letter. -/
theorem forall_of_isUpper {p : Char → Prop} (h : ∀ n ≤ 90, 65 ≤ n → p (Char.ofNat n)) {c : Char}
    (hc : c.isUpper = true) : p c :=
  have hcode := isUpper_iff_toNat.1 hc
  forall_of_codes h hcode.1 hcode.2

/-- What holds for the codes of the digits holds for every digit. -/
theorem forall_of_isDigit {p : Char → Prop} (h : ∀ n ≤ 57, 48 ≤ n → p (Char.ofNat n)) {c : Char}
    (hc : c.isDigit = true) : p c :=
  have hcode := Char.isDigit_iff_toNat.1 hc
  forall_of_codes h hcode.1 hcode.2

/-- Only lower-case letters have another form in upper case. -/
theorem toUpper_eq_self {c : Char} (h : c.isLower = false) : c.toUpper = c := by
  rw [Bool.eq_false_iff, ne_eq, isLower_iff_toNat] at h
  exact dif_neg h

/-- Only capital letters have another form in lower case. -/
theorem toLower_eq_self {c : Char} (h : c.isUpper = false) : c.toLower = c := by
  rw [Bool.eq_false_iff, ne_eq, isUpper_iff_toNat] at h
  exact dif_neg h

/-- Letters and digits are letters and digits in upper case. -/
theorem isAlphanum_toUpper {c : Char} (h : c.isAlphanum) : c.toUpper.isAlphanum := by
  cases hlower : c.isLower with
  | false => rwa [toUpper_eq_self hlower]
  | true => exact forall_of_isLower (p := fun c => c.toUpper.isAlphanum) (by decide) hlower

/-- Letters and digits are letters and digits in lower case. -/
theorem isAlphanum_toLower {c : Char} (h : c.isAlphanum) : c.toLower.isAlphanum := by
  cases hupper : c.isUpper with
  | false => rwa [toLower_eq_self hupper]
  | true => exact forall_of_isUpper (p := fun c => c.toLower.isAlphanum) (by decide) hupper

/-- Upper case makes no digits. -/
theorem isDigit_toUpper (c : Char) : c.toUpper.isDigit = c.isDigit := by
  cases hlower : c.isLower with
  | false => rw [toUpper_eq_self hlower]
  | true => exact forall_of_isLower (p := fun c => c.toUpper.isDigit = c.isDigit) (by decide) hlower

/-! ## Types and names in camel case -/

/-- A step of a type keeps its characters letters, digits and underscores. -/
private theorem wordChars_typeStep {cutsWords : Bool} {previous : Option Char}
    {reversed : List Char} (h : ∀ d ∈ reversed, isWordChar d) (c : Char) :
    ∀ d ∈ typeStep cutsWords previous reversed c, isWordChar d := by
  have hmark : ∀ d ∈ '_' :: reversed, isWordChar d := List.forall_mem_cons.2 ⟨rfl, h⟩
  unfold typeStep
  split
  · next hword =>
    have hupper : isWordChar c.toUpper := by simp [isWordChar, isAlphanum_toUpper hword]
    refine List.forall_mem_cons.2 ⟨hupper, ?_⟩
    split
    · exact hmark
    · exact h
  · split
    · exact h
    · split
      · exact h
      · exact hmark

/-- So do all steps together. -/
private theorem wordChars_typeReversed {cutsWords : Bool} {previous : Option Char}
    {reversed : List Char} (h : ∀ d ∈ reversed, isWordChar d) (name : List Char) :
    ∀ d ∈ typeReversed cutsWords previous reversed name, isWordChar d := by
  induction name generalizing previous reversed with
  | nil => exact h
  | cons c name ih => exact ih (wordChars_typeStep h c)

/-- **Types** consist of letters, digits and underscores. -/
theorem wordChars_typeOf (cutsWords : Bool) (name : List Char) :
    ∀ c ∈ typeOf cutsWords name, isWordChar c := by
  intro c hc
  have hmem := (List.dropWhile_sublist _).subset (List.mem_reverse.1 hc)
  exact wordChars_typeReversed (List.forall_mem_nil _) name c hmem

/-- A step of a type writes behind what is there. -/
private theorem suffix_typeStep (cutsWords : Bool) (previous : Option Char) (reversed : List Char)
    (c : Char) : reversed <:+ typeStep cutsWords previous reversed c := by
  have hmark : reversed <:+ '_' :: reversed := List.suffix_cons '_' reversed
  unfold typeStep
  split
  · split
    · exact hmark.trans (List.suffix_cons _ _)
    · exact List.suffix_cons _ _
  · split
    · exact List.nil_suffix
    · split
      · exact List.suffix_rfl
      · exact hmark

/-- So do all steps together. -/
private theorem suffix_typeReversed (cutsWords : Bool) (previous : Option Char)
    (reversed name : List Char) : reversed <:+ typeReversed cutsWords previous reversed name := by
  induction name generalizing previous reversed with
  | nil => exact List.suffix_rfl
  | cons c name ih => exact (suffix_typeStep cutsWords previous reversed c).trans (ih _ _)

/-- Nothing is written before the first letter or digit, and no underscore is put in front of it. -/
private theorem getLast?_typeReversed {cutsWords : Bool} {previous : Option Char}
    (h : ∀ p ∈ previous, p.isAlphanum = false) (name : List Char) :
    (typeReversed cutsWords previous [] name).getLast? =
      (name.find? Char.isAlphanum).map Char.toUpper := by
  induction name generalizing previous with
  | nil => rfl
  | cons c name ih =>
    rw [typeReversed]
    cases hc : c.isAlphanum with
    | true =>
      have hbegins : beginsWord previous c = false := by
        cases previous with
        | none => exact Bool.and_false _
        | some p =>
          have hp := h p rfl
          simp only [isAlphanum_eq, Bool.or_eq_false_iff] at hp
          simp [beginsWord, hp]
      have hstep : typeStep cutsWords previous [] c = [c.toUpper] := by
        simp [typeStep, hc, hbegins]
      obtain ⟨front, hfront⟩ := suffix_typeReversed cutsWords (some c) [c.toUpper] name
      rw [hstep, ← hfront, List.getLast?_concat, List.find?_cons_of_pos hc]
      rfl
    | false =>
      have hstep : typeStep cutsWords previous [] c = [] := by simp [typeStep, hc]
      rw [hstep, ih (by simpa using hc), List.find?_cons_of_neg (by simp [hc])]

/-- What is dropped from the beginning of a list does not reach a member that would stay. -/
private theorem getLast?_dropWhile {α : Type} {p : α → Bool} {l : List α}
    (h : ∀ a ∈ l.getLast?, p a = false) : (l.dropWhile p).getLast? = l.getLast? := by
  rcases List.eq_nil_or_concat l with rfl | ⟨front, a, rfl⟩
  · rfl
  · rw [List.concat_eq_append] at h ⊢
    have ha : p a = false := h a List.getLast?_concat
    rw [List.dropWhile_append]
    split
    · simp [ha]
    · simp

/-- **First characters.** A type begins with the first letter or digit of its name, in upper
case. -/
theorem head?_typeOf (cutsWords : Bool) (name : List Char) :
    (typeOf cutsWords name).head? = (name.find? Char.isAlphanum).map Char.toUpper := by
  have hlast : (typeReversed cutsWords none [] name).getLast? = _ :=
    getLast?_typeReversed (by simp) name
  rw [typeOf, List.head?_reverse, getLast?_dropWhile, hlast]
  rw [hlast]
  intro c hc
  obtain ⟨d, hd, rfl⟩ := Option.map_eq_some_iff.1 hc
  have hword := isAlphanum_toUpper (List.find?_some hd)
  exact beq_eq_false_iff_ne.2 fun heq => absurd (heq ▸ hword) (by decide)

/-- The pieces of a type between its underscores are words. -/
private theorem alphanum_of_mem_splitOn {type word : List Char} (h : ∀ c ∈ type, isWordChar c)
    (hword : word ∈ List.splitOn '_' type) : ∀ c ∈ word, c.isAlphanum := by
  intro c hc
  obtain ⟨hmem, hne⟩ := Text.of_mem_splitOn hword hc
  simpa [isWordChar, hne] using h c hmem

/-- Words in lower case are words. -/
private theorem alphanum_map_toLower {word : List Char} (h : ∀ c ∈ word, c.isAlphanum) :
    ∀ c ∈ word.map Char.toLower, c.isAlphanum :=
  List.forall_mem_map.2 fun c hc => isAlphanum_toLower (h c hc)

/-- Words with a capital letter are words. -/
private theorem alphanum_capitalize {word : List Char} (h : ∀ c ∈ word, c.isAlphanum) :
    ∀ c ∈ capitalize word, c.isAlphanum := by
  cases word with
  | nil => exact h
  | cons c rest =>
    rw [List.forall_mem_cons] at h
    exact List.forall_mem_cons.2 ⟨isAlphanum_toUpper h.1, h.2⟩

/-- Words in camel case consist of the characters of words. -/
theorem alphanum_camelWords {words : List (List Char)} (h : ∀ w ∈ words, ∀ c ∈ w, c.isAlphanum) :
    ∀ c ∈ camelWords words, c.isAlphanum := by
  cases words with
  | nil => exact List.forall_mem_nil _
  | cons word words =>
    rw [List.forall_mem_cons] at h
    intro c hc
    rcases List.mem_append.1 hc with hc | hc
    · exact alphanum_map_toLower h.1 c hc
    · obtain ⟨piece, hpiece, hc⟩ := List.mem_flatten.1 hc
      obtain ⟨w, hw, rfl⟩ := List.mem_map.1 hpiece
      exact alphanum_capitalize (alphanum_map_toLower (h.2 w hw)) c hc

/-- **Camel case.** The name that is read back from a type consists of letters and digits. -/
theorem alphanum_lowerCamelCase {type : String} (h : ∀ c ∈ type.toList, isWordChar c) :
    ∀ c ∈ (lowerCamelCase type).toList, c.isAlphanum := by
  rw [lowerCamelCase, String.toList_ofList]
  exact alphanum_camelWords fun w hw =>
    alphanum_of_mem_splitOn h (List.mem_filter.1 hw).1

/-! ## Local names -/

/-- A name that belongs to the local name when it is put behind a text: it holds no hash, and no
slash unless there is a hash in the text. -/
def Fits (space name : List Char) : Prop := '#' ∉ name ∧ ('#' ∈ space ∨ '/' ∉ name)

/-- A name that fits goes to the local name. -/
theorem cut_append_of_fits {space name : List Char} (h : Fits space name) :
    cut (space ++ name) = ((cut space).1, (cut space).2 ++ name) := by
  rw [cut, cut, Text.splitAfterLast?_append h.1]
  cases hspace : Text.splitAfterLast? '#' space with
  | some parts => rfl
  | none =>
    have hslash := h.2.resolve_left (Text.splitAfterLast?_eq_none_iff.1 hspace)
    rw [Text.splitAfterLast?_append hslash]
    cases Text.splitAfterLast? '/' space with
    | some parts => rfl
    | none => rfl

/-- **Local names.** Letters and digits behind a namespace belong to the local name. -/
theorem localName_append {name : String} (h : ∀ c ∈ name.toList, c.isAlphanum) (space : String) :
    localName (space ++ name) = localName space ++ name := by
  have hhash : '#' ∉ name.toList := fun hc => absurd (h _ hc) (by decide)
  have hslash : '/' ∉ name.toList := fun hc => absurd (h _ hc) (by decide)
  rw [localName, String.toList_append, cut_append_of_fits ⟨hhash, .inr hslash⟩,
    String.ofList_append, String.ofList_toList]
  rfl

/-- Distinct names have distinct local names in a namespace. -/
theorem localName_append_inj {name name' : String} (h : ∀ c ∈ name.toList, c.isAlphanum)
    (h' : ∀ c ∈ name'.toList, c.isAlphanum) (space : String) :
    localName (space ++ name) = localName (space ++ name') ↔ name = name' := by
  rw [localName_append h, localName_append h', String.append_right_inj]

end ShapeSchema.Naming
