/-!
# Cutting text at its last mark

Texts are lists of characters here, so that every function is a structural recursion and every
law an induction. An IRI is cut after the last occurrence of a character, where its local name
begins.

## Main definitions

* `ShapeSchema.Text.splitAfterLast?` — the text up to and including the last occurrence of a
  character, and the text behind it.

## Main results

* `ShapeSchema.Text.append_of_splitAfterLast?` — cutting loses nothing.
-/

namespace ShapeSchema.Text

/-- The text up to and including the last `mark`, and the text behind it; `none` without a
`mark`. -/
def splitAfterLast? (mark : Char) : List Char → Option (List Char × List Char)
  | [] => none
  | c :: rest =>
    match splitAfterLast? mark rest with
    | some (before, after) => some (c :: before, after)
    | none => if c = mark then some ([c], rest) else none

/-- **Cutting loses nothing.** The two parts put together are the text. -/
theorem append_of_splitAfterLast? {mark : Char} {text before after : List Char}
    (h : splitAfterLast? mark text = some (before, after)) : before ++ after = text := by
  induction text generalizing before with
  | nil => simp [splitAfterLast?] at h
  | cons c rest ih =>
    cases hr : splitAfterLast? mark rest with
    | some parts =>
      obtain ⟨b, a⟩ := parts
      simp only [splitAfterLast?, hr, Option.some.injEq, Prod.mk.injEq] at h
      obtain ⟨rfl, rfl⟩ := h
      simp [ih hr]
    | none =>
      by_cases hc : c = mark
      · simp only [splitAfterLast?, hr, hc, if_true, Option.some.injEq, Prod.mk.injEq] at h
        obtain ⟨rfl, rfl⟩ := h
        simp [hc]
      · simp [splitAfterLast?, hr, hc] at h

end ShapeSchema.Text
