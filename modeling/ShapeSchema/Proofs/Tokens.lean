import Mathlib.Order.Nat
import Mathlib.Tactic.SplitIfs
import ShapeSchema.Json.Token

/-!
# Cutting a text into tokens

Every step of cutting takes a character, so that the length of a text is fuel enough: the tokens of
a text are its first token and the tokens of what follows it.

## Main results

* `ShapeSchema.Json.length_cutToken` — what follows a token is shorter than the text.
* `ShapeSchema.Json.tokensWithin_eq` — more fuel than enough makes no difference.
* `ShapeSchema.Json.tokens_cons`, `ShapeSchema.Json.tokens_space` — the tokens of a text, one after
  the other.
-/

namespace ShapeSchema.Json

/-! ## What follows a token -/

/-- Behind a word, the text is not longer. -/
private theorem length_cutWord (token : Token) (expected text : List Char) :
    (cutWord token expected text).2.length ≤ text.length := by
  induction expected generalizing text with
  | nil => exact le_rfl
  | cons e expected ih =>
    cases text with
    | nil => exact le_rfl
    | cons c text =>
      rw [cutWord]
      split
      · exact (ih text).trans (Nat.le_succ _)
      · exact Nat.zero_le _

/-- Behind digits, the text is not longer. -/
private theorem length_spanDigits (text : List Char) : (spanDigits text).2.length ≤ text.length :=
  (List.dropWhile_sublist _).length_le

/-- Where a digit is missing, the text is not longer. -/
private theorem length_lacksDigit (text : List Char) :
    (lacksDigit text).2.length ≤ text.length := by
  cases text <;> exact Nat.zero_le _

/-- Behind the digits of an exponent, the text is not longer. -/
private theorem length_cutPower (numeral : Numeral) (text : List Char) :
    (cutPower numeral text).2.length ≤ text.length := by
  unfold cutPower
  split
  next negative behind hsign =>
  have hbehind : behind.length ≤ text.length := by
    split at hsign <;> cases hsign
    · exact Nat.le_succ _
    · exact Nat.le_succ _
    · exact le_rfl
  have hrest := (length_spanDigits behind).trans hbehind
  split
  · next rest h =>
    rw [h] at hrest
    exact (length_lacksDigit rest).trans hrest
  · next digits rest _ h =>
    rw [h] at hrest
    exact hrest

/-- Behind an exponent, the text is not longer. -/
private theorem length_cutExponent (numeral : Numeral) (text : List Char) :
    (cutExponent numeral text).2.length ≤ text.length := by
  unfold cutExponent
  split
  · exact (length_cutPower _ _).trans (Nat.le_succ _)
  · exact (length_cutPower _ _).trans (Nat.le_succ _)
  · exact le_rfl

/-- Behind a fraction, the text is not longer. -/
private theorem length_cutFraction (negative : Bool) (whole text : List Char) :
    (cutFraction negative whole text).2.length ≤ text.length := by
  unfold cutFraction
  split
  · next text =>
    have hrest := length_spanDigits text
    rw [List.length_cons]
    split
    · next rest h =>
      rw [h] at hrest
      exact (length_lacksDigit rest).trans (Nat.le_succ_of_le hrest)
    · next digits rest _ h =>
      rw [h] at hrest
      exact (length_cutExponent _ rest).trans (Nat.le_succ_of_le hrest)
  · exact length_cutExponent _ _

/-- Behind a number, the text is no longer than behind its first digits. -/
private theorem length_cutNumber (negative : Bool) (text : List Char) :
    (cutNumber negative text).2.length ≤ (spanDigits text).2.length := by
  unfold cutNumber
  split
  · next rest h =>
    rw [h]
    exact length_lacksDigit rest
  · exact Nat.zero_le _
  · next digits rest _ _ h =>
    rw [h]
    exact length_cutFraction negative digits rest

/-- Behind a piece of a string, the text is shorter. -/
private theorem length_of_cutPiece {text rest : List Char} {piece : Option Piece}
    (h : cutPiece text = .ok (piece, rest)) : rest.length < text.length := by
  unfold cutPiece at h
  split at h
  · cases h
  · cases h
    exact Nat.lt_succ_self _
  · cases h
  · next text =>
    cases hunit : cutUnit text with
    | error problem =>
      rw [hunit] at h
      cases h
    | ok cut =>
      rw [hunit] at h
      cases h
      unfold cutUnit at hunit
      split at hunit
      · split at hunit
        · cases hunit
          simp only [List.length_cons]
          omega
        · cases hunit
      · cases hunit
  · split at h
    · cases h
      simp only [List.length_cons]
      omega
    · cases h
  · split at h
    · cases h
    · cases h
      exact Nat.lt_succ_self _

/-- Behind a string, the text is not longer. -/
private theorem length_cutString (fuel : Nat) (read : List Piece) (text : List Char) :
    (cutString fuel read text).2.length ≤ text.length := by
  induction fuel generalizing read text with
  | zero => exact Nat.zero_le _
  | succ fuel ih =>
    unfold cutString
    split
    · exact Nat.zero_le _
    · next h => exact (length_of_cutPiece h).le
    · next h => exact (ih _ _).trans (length_of_cutPiece h).le

/-- **Progress.** What follows a token is no longer than what follows its first character. -/
theorem length_cutToken (c : Char) (text : List Char) :
    (cutToken c text).2.length ≤ text.length := by
  unfold cutToken
  split_ifs with _ _ _ _ _ hdigit
  · exact le_rfl
  · exact length_cutWord _ _ _
  · exact length_cutWord _ _ _
  · exact length_cutWord _ _ _
  · exact (length_cutNumber true text).trans (length_spanDigits text)
  · have hspan : (spanDigits (c :: text)).2 = (spanDigits text).2 := by simp [spanDigits, hdigit]
    exact (length_cutNumber false (c :: text)).trans (hspan ▸ length_spanDigits text)
  · exact length_cutString _ _ _
  · exact Nat.zero_le _

/-! ## The tokens of a text -/

/-- Spaces are passed over, and anything else begins a token. -/
private theorem tokensWithin_cons (fuel : Nat) (c : Char) (rest : List Char) :
    tokensWithin (fuel + 1) (c :: rest) =
      if isSpace c then tokensWithin fuel rest
      else (cutToken c rest).1 :: tokensWithin fuel (cutToken c rest).2 := rfl

/-- **Fuel.** As much as the length of the text is enough. -/
theorem tokensWithin_eq {fuel : Nat} {text : List Char} (h : text.length ≤ fuel) :
    tokensWithin fuel text = tokens text := by
  have hsame : ∀ (m n : Nat) (text : List Char), text.length ≤ m → text.length ≤ n →
      tokensWithin m text = tokensWithin n text := by
    intro m
    induction m with
    | zero =>
      intro n text hm _
      rw [List.eq_nil_of_length_eq_zero (Nat.le_zero.1 hm)]
      cases n <;> rfl
    | succ m ih =>
      intro n text hm hn
      cases text with
      | nil => cases n <;> rfl
      | cons c rest =>
        cases n with
        | zero => exact absurd hn (Nat.not_succ_le_zero _)
        | succ n =>
          have hm' := Nat.le_of_succ_le_succ hm
          have hn' := Nat.le_of_succ_le_succ hn
          have hrest := length_cutToken c rest
          rw [tokensWithin_cons, tokensWithin_cons, ih n rest hm' hn',
            ih n (cutToken c rest).2 (hrest.trans hm') (hrest.trans hn')]
  exact hsame fuel text.length text h le_rfl

/-- There is no token in the empty text. -/
theorem tokens_nil : tokens [] = [] := rfl

/-- A space is no token. -/
theorem tokens_space {c : Char} (h : isSpace c) (rest : List Char) :
    tokens (c :: rest) = tokens rest := by
  rw [tokens, List.length_cons, tokensWithin_cons, if_pos h]
  rfl

/-- **Tokens.** The first token of a text, and the tokens of what follows it. -/
theorem tokens_cons {c : Char} (h : isSpace c = false) (rest : List Char) :
    tokens (c :: rest) = (cutToken c rest).1 :: tokens (cutToken c rest).2 := by
  rw [tokens, List.length_cons, tokensWithin_cons, h, if_neg Bool.false_ne_true,
    tokensWithin_eq (length_cutToken c rest)]

end ShapeSchema.Json
