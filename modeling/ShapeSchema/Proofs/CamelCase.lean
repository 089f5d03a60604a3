import Mathlib.Data.List.Chain
import ShapeSchema.Proofs.Naming

/-!
# Names read back from their types

The type of a name in camel case has an underscore in front of each word but the first one, and the
name that is read back from it has a capital letter where each of these words begins. In a name of
letters and digits, a word begins at each capital letter behind a lower-case letter or a digit, and
there the capital letter is read back. Every other letter is read back in lower case, and what is
neither a letter nor a digit is lost.

## Main definitions

* `ShapeSchema.Naming.spelled` — the type of a name of letters and digits, letter by letter.
* `ShapeSchema.Naming.readBack` — the name that is read back from it, letter by letter.

## Main results

* `ShapeSchema.Naming.typeOf_eq_spelled` — the type of such a name.
* `ShapeSchema.Naming.lowerCamelCase_upperSnakeCase` — what is read back from it.
* `ShapeSchema.Naming.lowerCamelCase_upperSnakeCase_eq_self_iff` — the names that are read back as
  they were.
-/

namespace ShapeSchema.Naming

/-! ## Upper and lower case -/

/-- A capital letter is neither a lower-case letter nor a digit. -/
theorem other_of_isUpper {c : Char} (h : c.isUpper = true) : (c.isLower || c.isDigit) = false :=
  forall_of_isUpper (p := fun c => (c.isLower || c.isDigit) = false) (by decide) h

/-- Only capital letters have another form in lower case. -/
theorem toLower_eq_self_iff {c : Char} : c.toLower = c ↔ c.isUpper = false := by
  cases hc : c.isUpper with
  | false => simp [toLower_eq_self hc]
  | true =>
    have hother := forall_of_isUpper (p := fun c => c.toLower ≠ c) (by decide) hc
    simp [hother]

/-- A capital letter is itself again in upper case. -/
theorem toUpper_toLower {c : Char} (h : c.isUpper = true) : c.toLower.toUpper = c :=
  forall_of_isUpper (p := fun c => c.toLower.toUpper = c) (by decide) h

/-- What was in upper case before does not matter in lower case. -/
theorem toLower_toUpper (c : Char) : c.toUpper.toLower = c.toLower := by
  cases hlower : c.isLower with
  | false => rw [toUpper_eq_self hlower]
  | true =>
    exact forall_of_isLower (p := fun c => c.toUpper.toLower = c.toLower) (by decide) hlower

/-- No letter or digit becomes an underscore. -/
theorem toUpper_ne_underscore {c : Char} (h : c.isAlphanum) : c.toUpper ≠ '_' := fun heq =>
  absurd (heq ▸ isAlphanum_toUpper h) (by decide)

/-! ## Types of letters and digits -/

/-- The type of a name of letters and digits behind a character. -/
def spelled (cutsWords : Bool) : (previous : Option Char) → List Char → List Char
  | _, [] => []
  | previous, c :: rest =>
    (if cutsWords && beginsWord previous c then ['_', c.toUpper] else [c.toUpper]) ++
      spelled cutsWords (some c) rest

/-- Behind anything, a name of letters and digits is spelled out in reverse. -/
private theorem typeReversed_eq_spelled {cutsWords : Bool} {previous : Option Char}
    {reversed : List Char} {name : List Char} (h : ∀ c ∈ name, c.isAlphanum) :
    typeReversed cutsWords previous reversed name =
      (spelled cutsWords previous name).reverse ++ reversed := by
  induction name generalizing previous reversed with
  | nil => rfl
  | cons c name ih =>
    rw [List.forall_mem_cons] at h
    rw [typeReversed, ih h.2, spelled]
    unfold typeStep
    rw [if_pos h.1]
    split <;> simp

/-- A type of letters and digits ends with a letter or a digit. -/
theorem getLast?_spelled {cutsWords : Bool} {previous : Option Char} {name : List Char}
    (h : ∀ c ∈ name, c.isAlphanum) : '_' ∉ (spelled cutsWords previous name).getLast? := by
  induction name generalizing previous with
  | nil => exact Option.not_mem_none '_'
  | cons c name ih =>
    rw [List.forall_mem_cons] at h
    have hlast : '_' ∉ (if cutsWords && beginsWord previous c then ['_', c.toUpper]
        else [c.toUpper]).getLast? := by
      have hc := toUpper_ne_underscore h.1
      split <;> simpa using hc
    rw [spelled, List.getLast?_append]
    cases hrest : (spelled cutsWords (some c) name).getLast? with
    | none => exact hlast
    | some d =>
      have hd : '_' ∉ (spelled cutsWords (some c) name).getLast? := ih h.2
      rwa [hrest] at hd

/-- Nothing is dropped from a type that does not end with an underscore. -/
theorem reverse_dropWhile_reverse {type : List Char} (h : '_' ∉ type.getLast?) :
    (type.reverse.dropWhile (· == '_')).reverse = type := by
  rw [← List.head?_reverse] at h
  cases hreverse : type.reverse with
  | nil => exact (List.reverse_eq_nil_iff.1 hreverse).symm
  | cons d rest =>
    rw [hreverse] at h
    have hd : d ≠ '_' := fun heq => h (heq ▸ rfl)
    rw [List.dropWhile_cons_of_neg (by simpa using hd), ← hreverse, List.reverse_reverse]

/-- **Types.** In the type of a name of letters and digits, all letters are in upper case, and an
underscore stands where a word begins. -/
theorem typeOf_eq_spelled (cutsWords : Bool) {name : List Char} (h : ∀ c ∈ name, c.isAlphanum) :
    typeOf cutsWords name = spelled cutsWords none name := by
  rw [typeOf, typeReversed_eq_spelled h, List.append_nil,
    reverse_dropWhile_reverse (getLast?_spelled h)]

/-! ## Reading back -/

/-- The name that is read back from the type of a name of letters and digits: where a word begins,
the letter stays as it is, and everywhere else it is in lower case. -/
def readBack : (previous : Option Char) → List Char → List Char
  | _, [] => []
  | previous, c :: rest =>
    (if beginsWord previous c then c else c.toLower) :: readBack (some c) rest

/-- The words of a type of letters and digits make the name that is read back from it.

**Proof sketch.** Induction on the name. Where a word begins, the pieces have an empty one in front
of it, so that it is capitalized. -/
private theorem camelWords_splitOn_spelled {previous : Option Char} {name : List Char}
    (h : ∀ c ∈ name, c.isAlphanum) :
    camelWords (List.splitOn '_' (spelled true previous name)) = readBack previous name := by
  induction name generalizing previous with
  | nil => rfl
  | cons c name ih =>
    rw [List.forall_mem_cons] at h
    have hc := toUpper_ne_underscore h.1
    have hrest : camelWords (List.splitOn '_' (spelled true (some c) name)) =
        readBack (some c) name := ih h.2
    rw [readBack, ← hrest]
    obtain ⟨word, words, hsplit⟩ :=
      List.exists_cons_of_ne_nil (List.splitOn_ne_nil '_' (spelled true (some c) name))
    cases hbegins : beginsWord previous c with
    | true =>
      have hupper : c.isUpper = true := (Bool.and_eq_true_iff.1 hbegins).1
      simp only [spelled, hbegins, Bool.and_self, ↓reduceIte, List.cons_append, List.nil_append,
        List.splitOn_cons_eq_if_modifyHead, BEq.rfl, beq_iff_eq, hc, hsplit, List.modifyHead_cons,
        camelWords, List.map_nil, List.map_cons, capitalize, toLower_toUpper,
        toUpper_toLower hupper, List.flatten_cons]
    | false =>
      simp only [spelled, hbegins, Bool.and_false, Bool.false_eq_true, ↓reduceIte,
        List.cons_append, List.nil_append, List.splitOn_cons_eq_if_modifyHead, beq_iff_eq, hc,
        hsplit, List.modifyHead_cons, camelWords, List.map_cons, toLower_toUpper]

/-- Empty words behind the first one make no difference. -/
private theorem camelWords_filter {word : List Char} (hword : word ≠ [])
    (words : List (List Char)) :
    camelWords ((word :: words).filter (· ≠ [])) = camelWords (word :: words) := by
  have hrest : ((words.filter (· ≠ [])).map fun w => capitalize (w.map Char.toLower)).flatten =
      (words.map fun w => capitalize (w.map Char.toLower)).flatten := by
    induction words with
    | nil => rfl
    | cons w words ih =>
      rw [List.map_cons, List.flatten_cons, ← ih]
      cases w with
      | nil => rfl
      | cons d w => rfl
  rw [List.filter_cons_of_pos (by simpa using hword), camelWords, camelWords, hrest]

/-- **Reading back.** What is read back from the type of a name of letters and digits. -/
theorem lowerCamelCase_upperSnakeCase {name : String} (h : ∀ c ∈ name.toList, c.isAlphanum) :
    lowerCamelCase (upperSnakeCase name) = String.ofList (readBack none name.toList) := by
  rw [lowerCamelCase, upperSnakeCase, String.toList_ofList, typeOf_eq_spelled true h]
  cases hname : name.toList with
  | nil => rfl
  | cons c rest =>
    rw [hname, List.forall_mem_cons] at h
    have hc := toUpper_ne_underscore h.1
    obtain ⟨word, words, hsplit⟩ :=
      List.exists_cons_of_ne_nil (List.splitOn_ne_nil '_' (spelled true (some c) rest))
    have hpieces : List.splitOn '_' (spelled true none (c :: rest)) =
        (c.toUpper :: word) :: words := by
      simp [spelled, beginsWord, List.splitOn_cons_eq_if_modifyHead, hc, hsplit]
    rw [← camelWords_splitOn_spelled (List.forall_mem_cons.2 h), hpieces,
      camelWords_filter (List.cons_ne_nil _ _)]

/-! ## Names that are read back as they were -/

/-- A letter or digit is read back as it was unless it is a capital letter behind another one. -/
private theorem readBack_letter_eq_self_iff {previous c : Char} (h : previous.isAlphanum) :
    (if beginsWord (some previous) c then c else c.toLower) = c ↔
      ¬ (previous.isUpper ∧ c.isUpper) := by
  have hprevious : (previous.isLower || previous.isDigit) = true ↔ previous.isUpper = false := by
    cases hupper : previous.isUpper with
    | false => simpa [isAlphanum_eq, hupper] using h
    | true => simp [other_of_isUpper hupper]
  cases hc : c.isUpper with
  | false => simp [beginsWord, hc, toLower_eq_self_iff]
  | true =>
    rw [beginsWord, hc, Bool.true_and, Option.any_some]
    split
    · next hbegins => simp [hprevious.1 hbegins]
    · next hbegins => simpa [toLower_eq_self_iff, hc] using hprevious.not.1 hbegins

/-- Behind a letter or digit, a name is read back as it was if there are no two capital letters next
to each other. -/
private theorem readBack_some_eq_self_iff {previous : Char} {name : List Char}
    (hprevious : previous.isAlphanum) (h : ∀ c ∈ name, c.isAlphanum) :
    readBack (some previous) name = name ↔
      (previous :: name).IsChain fun a b => ¬ (a.isUpper ∧ b.isUpper) := by
  induction name generalizing previous with
  | nil => simp [readBack]
  | cons c name ih =>
    rw [List.forall_mem_cons] at h
    rw [readBack, List.cons_eq_cons, readBack_letter_eq_self_iff hprevious, ih h.1 h.2,
      List.isChain_cons_cons]

/-- The first letter is read back as it was unless it is a capital letter. -/
private theorem readBack_none_eq_self_iff {name : List Char} (h : ∀ c ∈ name, c.isAlphanum) :
    readBack none name = name ↔ (∀ c ∈ name.head?, ¬ c.isUpper) ∧
      name.IsChain fun a b => ¬ (a.isUpper ∧ b.isUpper) := by
  cases name with
  | nil => simp [readBack]
  | cons c name =>
    rw [List.forall_mem_cons] at h
    have hbegins : beginsWord none c = false := by simp [beginsWord]
    rw [readBack, hbegins, if_neg Bool.false_ne_true, List.cons_eq_cons, toLower_eq_self_iff,
      readBack_some_eq_self_iff h.1 h.2]
    simp

/-- **Names.** A name is read back from its type as it was just if it consists of letters and
digits, does not begin with a capital letter, and has no two capital letters next to each other. -/
theorem lowerCamelCase_upperSnakeCase_eq_self_iff (name : String) :
    lowerCamelCase (upperSnakeCase name) = name ↔
      (∀ c ∈ name.toList, c.isAlphanum) ∧ (∀ c ∈ name.toList.head?, ¬ c.isUpper) ∧
        name.toList.IsChain fun a b => ¬ (a.isUpper ∧ b.isUpper) := by
  have hself : (∀ c ∈ name.toList, c.isAlphanum) →
      (lowerCamelCase (upperSnakeCase name) = name ↔ readBack none name.toList = name.toList) := by
    intro h
    rw [lowerCamelCase_upperSnakeCase h, ← String.toList_inj, String.toList_ofList]
  constructor
  · intro h
    have hchars : ∀ c ∈ name.toList, c.isAlphanum := by
      rw [← h]
      refine alphanum_lowerCamelCase ?_
      rw [upperSnakeCase, String.toList_ofList]
      exact wordChars_typeOf true name.toList
    exact ⟨hchars, (readBack_none_eq_self_iff hchars).1 ((hself hchars).1 h)⟩
  · rintro ⟨hchars, hname⟩
    exact (hself hchars).2 ((readBack_none_eq_self_iff hchars).2 hname)

/-- A digit may begin a name, but an abbreviation is read back as a word. -/
example : lowerCamelCase (upperSnakeCase "3dModelOf") = "3dModelOf" ∧
    lowerCamelCase (upperSnakeCase "hasURL") = "hasUrl" := by
  decide +kernel

end ShapeSchema.Naming
