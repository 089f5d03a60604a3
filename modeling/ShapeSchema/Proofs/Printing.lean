import ShapeSchema.Json.Printer
import ShapeSchema.Proofs.Count
import ShapeSchema.Proofs.Tokens

/-!
# Tokens of printed values

The text of a value is cut into the tokens of the value. Every mark, word and quoted text ends where
it ends, whatever follows it. Only a number could go on, but behind the numbers in the text of a
value there are commas, line breaks or nothing.

## Main definitions

* `ShapeSchema.Json.Number.numeral` — how a number is written.
* `ShapeSchema.Json.tokensOf` — the tokens of a value.

## Main results

* `ShapeSchema.Json.tokens_numberText`, `ShapeSchema.Json.tokens_quoted` — numbers and strings.
* `ShapeSchema.Json.tokens_prettyAt` — the text of a value, whatever follows it.
-/

namespace ShapeSchema

/-! ## Digits -/

namespace Text

/-- Only zero begins with a zero. -/
private theorem eq_nil_of_toDigits_eq_zero_cons {n : Nat} {rest : List Char}
    (h : Nat.toDigits 10 n = '0' :: rest) : rest = [] := by
  induction n using Nat.strongRecOn generalizing rest with
  | ind n ih =>
    rw [Nat.toDigits_eq_if (by decide)] at h
    split at h
    · exact (List.cons.inj h).2.symm
    · next hn =>
      cases hfront : Nat.toDigits 10 (n / 10) with
      | nil => exact absurd hfront Nat.toDigits_ne_nil
      | cons c front =>
        rw [hfront] at h
        rw [(List.cons.inj h).1] at hfront
        -- a number of which nothing but a zero is left has one digit
        have hzero : Nat.ofDigitChars 10 (Nat.toDigits 10 (n / 10)) 0 = n / 10 :=
          Nat.ofDigitChars_ten_toDigits
        rw [hfront, ih (n / 10) (by omega) hfront] at hzero
        have hsmall : n / 10 = 0 := hzero.symm
        omega

end Text

namespace Json

/-! ## Numbers -/

/-- What can follow a number: neither a digit nor what begins a fraction or an exponent. -/
def EndsNumber (rest : List Char) : Prop :=
  ∀ c ∈ rest.head?, c.isDigit = false ∧ c ≠ '.' ∧ c ≠ 'e' ∧ c ≠ 'E'

/-- The end of a text ends a number. -/
theorem endsNumber_nil : EndsNumber [] := fun _ h => nomatch h

/-- A comma ends a number. -/
private theorem endsNumber_comma (rest : List Char) : EndsNumber (',' :: rest) := by
  rintro _ ⟨⟩
  decide

/-- The end of a line ends a number. -/
private theorem endsNumber_newLine (level : Nat) (rest : List Char) :
    EndsNumber (newLine level ++ rest) := by
  rintro _ ⟨⟩
  decide

/-- How a number is written. -/
def Number.numeral : Number → Numeral
  | .whole value => ⟨value < 0, Nat.toDigits 10 value.natAbs, none, none⟩
  | .double negative magnitude =>
    match magnitude.power with
    | .ofNat power =>
      ⟨negative, Nat.toDigits 10 (magnitude.significand * Nat.pow 2 power), some ['0'], none⟩
    | .negSucc power =>
      ⟨negative, Nat.toDigits 10 (magnitude.significand * Nat.pow 5 (power + 1)), none,
        some (true, Nat.toDigits 10 (power + 1))⟩

/-- A run of digits ends where no digit follows. -/
private theorem spanDigits_append {front rest : List Char}
    (hfront : ∀ c ∈ front, c.isDigit = true)
    (hrest : ∀ c ∈ rest.head?, c.isDigit = false) :
    spanDigits (front ++ rest) = (front, rest) := by
  have hstop : rest.takeWhile Char.isDigit = [] ∧
      rest.dropWhile Char.isDigit = rest := by
    cases rest with
    | nil => exact ⟨rfl, rfl⟩
    | cons c rest => simp [hrest c rfl]
  rw [spanDigits, List.takeWhile_append_of_pos hfront, List.dropWhile_append_of_pos hfront, hstop.1,
    hstop.2, List.append_nil]

/-- So the digits of a number are read up to their end. -/
private theorem spanDigits_toDigits (n : Nat) {rest : List Char}
    (h : ∀ c ∈ rest.head?, c.isDigit = false) :
    spanDigits (Nat.toDigits 10 n ++ rest) = (Nat.toDigits 10 n, rest) :=
  spanDigits_append (fun _ => Text.isDigit_of_mem_toDigits) h

/-- The digits of a number are all digits before the point. -/
private theorem cutNumber_toDigits (negative : Bool) (n : Nat) {rest : List Char}
    (h : ∀ c ∈ rest.head?, c.isDigit = false) :
    cutNumber negative (Nat.toDigits 10 n ++ rest) =
      cutFraction negative (Nat.toDigits 10 n) rest := by
  rw [cutNumber, spanDigits_toDigits n h]
  split
  · next heq => exact absurd (congrArg Prod.fst heq) (Nat.toDigits_ne_nil)
  · next heq =>
    have hnil := Text.eq_nil_of_toDigits_eq_zero_cons (congrArg Prod.fst heq)
    cases hnil
  · next heq =>
    cases heq
    rfl

/-- A number without an exponent ends here. -/
private theorem cutExponent_end (numeral : Numeral) {rest : List Char} (h : EndsNumber rest) :
    cutExponent numeral rest = (.number numeral, rest) := by
  unfold cutExponent
  split
  · exact absurd rfl (h 'e' rfl).2.2.1
  · exact absurd rfl (h 'E' rfl).2.2.2
  · rfl

/-- A number without a fraction and an exponent ends here. -/
private theorem cutFraction_end (negative : Bool) (whole : List Char) {rest : List Char}
    (h : EndsNumber rest) :
    cutFraction negative whole rest = (.number ⟨negative, whole, none, none⟩, rest) := by
  unfold cutFraction
  split
  · exact absurd rfl (h '.' rfl).2.1
  · exact cutExponent_end _ h

/-- A fraction of zero is read to its end. -/
private theorem cutFraction_pointZero (negative : Bool) (whole : List Char) {rest : List Char}
    (h : EndsNumber rest) :
    cutFraction negative whole ('.' :: '0' :: rest) =
      (.number ⟨negative, whole, some ['0'], none⟩, rest) := by
  have hspan : spanDigits (['0'] ++ rest) = (['0'], rest) :=
    spanDigits_append (List.all_eq_true.1 (by decide)) fun c hc => (h c hc).1
  rw [cutFraction, show '0' :: rest = ['0'] ++ rest from rfl, hspan]
  exact cutExponent_end _ h

/-- A negative exponent is read to its end. -/
private theorem cutFraction_power (negative : Bool) (whole : List Char) (n : Nat) {rest : List Char}
    (h : EndsNumber rest) :
    cutFraction negative whole ('e' :: '-' :: (Nat.toDigits 10 n ++ rest)) =
      (.number ⟨negative, whole, none, some (true, Nat.toDigits 10 n)⟩, rest) := by
  rw [cutFraction, cutExponent, cutPower]
  · simp only
    rw [spanDigits_toDigits n fun c hc => (h c hc).1]
    split
    · next heq => exact absurd (congrArg Prod.fst heq) (Nat.toDigits_ne_nil)
    · next heq =>
      cases heq
      rfl
  · simp

/-- A sign and digits are cut as a number. -/
private theorem tokens_signText (negative : Bool) (n : Nat) (rest : List Char) :
    tokens (signText negative ++ (Nat.toDigits 10 n ++ rest)) =
      (cutNumber negative (Nat.toDigits 10 n ++ rest)).1 ::
        tokens (cutNumber negative (Nat.toDigits 10 n ++ rest)).2 := by
  cases negative with
  | true => exact tokens_cons (by decide) _
  | false =>
    cases hdigits : Nat.toDigits 10 n with
    | nil => exact absurd hdigits (Nat.toDigits_ne_nil)
    | cons c front =>
      have hc : c.isDigit = true :=
        Text.isDigit_of_mem_toDigits (hdigits ▸ List.mem_cons_self)
      have hother : ∀ d : Char, d.isDigit = false → c ≠ d := by
        rintro d hd rfl
        rw [hd] at hc
        cases hc
      have hspace : isSpace c = false := by
        simp [isSpace, hother ' ' (by decide), hother '\n' (by decide), hother '\t' (by decide),
          hother '\r' (by decide)]
      have hcut : cutToken c (front ++ rest) = cutNumber false (c :: (front ++ rest)) := by
        simp [cutToken, hc, hother '[' (by decide), hother ']' (by decide),
          hother '\x7b' (by decide), hother '\x7d' (by decide), hother ',' (by decide),
          hother ':' (by decide), hother 'n' (by decide), hother 't' (by decide),
          hother 'f' (by decide), hother '-' (by decide)]
      rw [List.cons_append, ← hcut]
      exact tokens_cons hspace _

/-- **Numbers.** The text of a number is one token, unless what follows belongs to a number. -/
theorem tokens_numberText (n : Number) {rest : List Char} (h : EndsNumber rest) :
    tokens (numberText n ++ rest) = .number n.numeral :: tokens rest := by
  cases n with
  | whole value =>
    rw [numberText, List.append_assoc, tokens_signText,
      cutNumber_toDigits _ _ fun c hc => (h c hc).1,
      cutFraction_end _ _ h]
    rfl
  | double negative magnitude =>
    obtain ⟨significand, power⟩ := magnitude
    cases power with
    | ofNat power =>
      rw [numberText, magnitudeText]
      simp only [List.append_assoc, List.cons_append, List.nil_append]
      rw [tokens_signText, cutNumber_toDigits _ _ (by rintro _ ⟨⟩; decide),
        cutFraction_pointZero _ _ h]
      rfl
    | negSucc power =>
      rw [numberText, magnitudeText]
      simp only [List.append_assoc, List.cons_append]
      rw [tokens_signText, cutNumber_toDigits _ _ (by rintro _ ⟨⟩; decide),
        cutFraction_power _ _ _ h]
      rfl

/-! ## Strings -/

/-- A control character is read back from its code. -/
private theorem cutUnit_control {c : Char} (h : c.toNat < 0x20) (rest : List Char) :
    cutUnit ('0' :: '0' :: (c.toNat / 16).digitChar :: (c.toNat % 16).digitChar :: rest) =
      .ok (c.toNat, rest) := by
  have hcode : ∀ n < 0x20,
      Text.hexNumber? ['0', '0', (n / 16).digitChar, (n % 16).digitChar] = some n := by decide
  rw [cutUnit, hcode c.toNat h]

/-- A character is read back from its quotation. -/
private theorem cutPiece_quotedChar (c : Char) (rest : List Char) :
    cutPiece (quotedChar c ++ rest) = .ok (some (.char c), rest) := by
  unfold quotedChar
  split
  case h_8 hquote hbackslash _ _ _ _ _ =>
    split
    · next hcontrol =>
      have hpiece : Piece.ofUnit c.toNat = .char c := by
        rw [Piece.ofUnit, if_neg (by omega), if_neg (by omega), Char.ofNat_toNat]
      show (cutUnit _).bind _ = _
      rw [List.append_eq, List.cons_append, List.cons_append, List.cons_append, List.cons_append,
        cutUnit_control hcontrol, ← hpiece]
      rfl
    · next hcontrol =>
      show cutPiece (c :: rest) = _
      unfold cutPiece
      split <;> simp_all
  all_goals rfl

/-- Pieces that are characters are the text of these characters. -/
private theorem charsOf?_map_char (text : List Char) : charsOf? (text.map .char) = some text := by
  induction text with
  | nil => rfl
  | cons c text ih => rw [List.map_cons, charsOf?, ih, Option.map_some]

/-- A quoted text is read on behind the characters before it, which are kept in reverse. -/
private theorem cutString_quoted {fuel : Nat} (front : List Char) {text : List Char}
    (rest : List Char) (h : text.length < fuel) :
    cutString fuel (front.map .char) (text.flatMap quotedChar ++ '"' :: rest) =
      (.string (some (String.ofList (front.reverse ++ text))), rest) := by
  induction text generalizing fuel front with
  | nil =>
    cases fuel with
    | zero => exact absurd h (Nat.not_lt_zero _)
    | succ fuel =>
      show (Token.string ((charsOf? (front.map Piece.char).reverse).map String.ofList), rest) = _
      rw [← List.map_reverse, charsOf?_map_char, List.append_nil]
      rfl
  | cons c text ih =>
    cases fuel with
    | zero => exact absurd h (Nat.not_lt_zero _)
    | succ fuel =>
      rw [List.flatMap_cons, List.append_assoc, cutString, cutPiece_quotedChar]
      have hrest := ih (c :: front) (Nat.lt_of_succ_lt_succ h)
      rw [List.reverse_cons, List.append_assoc] at hrest
      exact hrest

/-- A text is no longer than what is written for it. -/
private theorem length_le_flatMap_quotedChar (text : List Char) :
    text.length ≤ (text.flatMap quotedChar).length := by
  induction text with
  | nil => exact le_rfl
  | cons c text ih =>
    have hc : 0 < (quotedChar c).length := by
      unfold quotedChar
      split <;> first | exact Nat.succ_pos _ | split <;> exact Nat.succ_pos _
    rw [List.flatMap_cons, List.length_append, List.length_cons]
    omega

/-- **Strings.** A quoted text is one token. -/
theorem tokens_quoted (text : String) (rest : List Char) :
    tokens (quoted text ++ rest) = .string (some text) :: tokens rest := by
  have hfuel : text.toList.length < (text.toList.flatMap quotedChar ++ '"' :: rest).length + 1 := by
    have hlength := length_le_flatMap_quotedChar text.toList
    rw [List.length_append]
    omega
  have hcut : cutToken '"' (text.toList.flatMap quotedChar ++ '"' :: rest) =
      (.string (some text), rest) := by
    have hstring := cutString_quoted [] rest hfuel
    rw [List.reverse_nil, List.nil_append, String.ofList_toList] at hstring
    exact hstring
  have htext : quoted text ++ rest = '"' :: (text.toList.flatMap quotedChar ++ '"' :: rest) := by
    simp [quoted]
  rw [htext, tokens_cons (by decide), hcut]

/-! ## Marks, words and spaces -/

/-- A mark is a token by itself. -/
theorem tokens_mark {c : Char} (h : c ∈ ['[', ']', '\x7b', '\x7d', ',', ':']) (rest : List Char) :
    tokens (c :: rest) = .mark c :: tokens rest := by
  have hspace : ['[', ']', '\x7b', '\x7d', ',', ':'].all (isSpace · == false) := by decide
  have hc : isSpace c = false := beq_iff_eq.1 (List.all_eq_true.1 hspace c h)
  rw [tokens_cons hc, cutToken, if_pos h]

/-- Line breaks and indentation are no tokens. -/
theorem tokens_newLine (level : Nat) (rest : List Char) :
    tokens (newLine level ++ rest) = tokens rest := by
  have hspaces : ∀ n, tokens (List.replicate n ' ' ++ rest) = tokens rest := by
    intro n
    induction n with
    | zero => rfl
    | succ n ih => rw [List.replicate_succ, List.cons_append, tokens_space (by decide), ih]
  rw [newLine, List.cons_append, tokens_space (by decide), hspaces]

/-! ## Values -/

mutual

/-- The tokens of a value. -/
def tokensOf : Json → List Token
  | .null => [.null]
  | .bool b => [.bool b]
  | .number n => [.number n.numeral]
  | .string text => [.string (some text)]
  | .array [] => [.mark '[', .mark ']']
  | .array (item :: items) =>
    .mark '[' :: tokensOf item ++ tokensOfItems items ++ [.mark ']']
  | .object [] => [.mark '\x7b', .mark '\x7d']
  | .object ((key, value) :: members) =>
    .mark '\x7b' :: .string (some key) :: .mark ':' :: tokensOf value ++ tokensOfMembers members ++
      [.mark '\x7d']

/-- The tokens of the further items of an array. -/
def tokensOfItems : List Json → List Token
  | [] => []
  | item :: items => .mark ',' :: tokensOf item ++ tokensOfItems items

/-- The tokens of the further members of an object. -/
def tokensOfMembers : List (String × Json) → List Token
  | [] => []
  | (key, value) :: members =>
    .mark ',' :: .string (some key) :: .mark ':' :: tokensOf value ++ tokensOfMembers members

end

/-- What follows an item ends a number: another item, or the end of the array. -/
private theorem endsNumber_prettyItems (level : Nat) (items : List Json) (outer : Nat)
    (rest : List Char) :
    EndsNumber (prettyItems level items ++ (newLine outer ++ rest)) := by
  cases items with
  | nil => exact endsNumber_newLine outer rest
  | cons item items => exact endsNumber_comma _

/-- What follows a member ends a number: another member, or the end of the object. -/
private theorem endsNumber_prettyMembers (level : Nat) (members : List (String × Json))
    (outer : Nat)
    (rest : List Char) : EndsNumber (prettyMembers level members ++ (newLine outer ++ rest)) := by
  cases members with
  | nil => exact endsNumber_newLine outer rest
  | cons member members => exact endsNumber_comma _

mutual

/-- **Values.** The text of a value is cut into its tokens, unless what follows belongs to a
number. -/
theorem tokens_prettyAt (level : Nat) (value : Json) {rest : List Char} (h : EndsNumber rest) :
    tokens (prettyAt level value ++ rest) = tokensOf value ++ tokens rest := by
  match value with
  | .null => exact tokens_cons (by decide) _
  | .bool true => exact tokens_cons (by decide) _
  | .bool false => exact tokens_cons (by decide) _
  | .number n => rw [prettyAt, tokens_numberText n h, tokensOf]; rfl
  | .string text => rw [prettyAt, tokens_quoted, tokensOf]; rfl
  | .array [] =>
    show tokens ('[' :: ']' :: rest) = _
    rw [tokens_mark (by decide), tokens_mark (by decide), tokensOf]
    rfl
  | .array (item :: items) =>
    -- behind an item stands a comma or a line break, so that a number may be an item
    simp only [prettyAt, tokensOf, List.append_assoc, List.cons_append, List.nil_append]
    rw [tokens_mark (by decide), tokens_newLine,
      tokens_prettyAt (level + 1) item (endsNumber_prettyItems _ _ _ _),
      tokens_prettyItems (level + 1) items, tokens_mark (by decide)]
  | .object [] =>
    show tokens ('\x7b' :: '\x7d' :: rest) = _
    rw [tokens_mark (by decide), tokens_mark (by decide), tokensOf]
    rfl
  | .object ((key, value) :: members) =>
    simp only [prettyAt, tokensOf, List.append_assoc, List.cons_append, List.nil_append]
    rw [tokens_mark (by decide), tokens_newLine, tokens_quoted, tokens_mark (by decide),
      tokens_space (by decide),
      tokens_prettyAt (level + 1) value (endsNumber_prettyMembers _ _ _ _),
      tokens_prettyMembers (level + 1) members, tokens_mark (by decide)]

/-- The text of further items, behind which the line ends. -/
theorem tokens_prettyItems (level : Nat) (items : List Json) (outer : Nat) (rest : List Char) :
    tokens (prettyItems level items ++ (newLine outer ++ rest)) =
      tokensOfItems items ++ tokens rest := by
  match items with
  | [] => exact tokens_newLine outer rest
  | item :: items =>
    simp only [prettyItems, tokensOfItems, List.append_assoc, List.cons_append]
    rw [tokens_mark (by decide), tokens_newLine,
      tokens_prettyAt level item (endsNumber_prettyItems _ _ _ _), tokens_prettyItems level items]

/-- The text of further members, behind which the line ends. -/
theorem tokens_prettyMembers (level : Nat) (members : List (String × Json)) (outer : Nat)
    (rest : List Char) :
    tokens (prettyMembers level members ++ (newLine outer ++ rest)) =
      tokensOfMembers members ++ tokens rest := by
  match members with
  | [] => exact tokens_newLine outer rest
  | (key, value) :: members =>
    simp only [prettyMembers, tokensOfMembers, List.append_assoc, List.cons_append,
      List.nil_append]
    rw [tokens_mark (by decide), tokens_newLine, tokens_quoted, tokens_mark (by decide),
      tokens_space (by decide),
      tokens_prettyAt level value (endsNumber_prettyMembers _ _ _ _),
      tokens_prettyMembers level members]

end

end Json

end ShapeSchema
