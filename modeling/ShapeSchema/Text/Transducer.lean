/-!
# Transducers

A transducer reads a text once from its beginning to its end. It is in some state all the time, and
each character leads it to the next state and makes it put something out, unless it does not accept
the character. What it does with a text is known from what it does with the parts of the text.

## Main definitions

* `ShapeSchema.Text.transduce` — what a transducer puts out, and the state that it ends in.

## Main results

* `ShapeSchema.Text.transduce_append` — a text is read one part after the other.
* `ShapeSchema.Text.transduce_flatMap` — so are pieces that lead back to the state where they began.
* `ShapeSchema.Text.transduce_collect`, `ShapeSchema.Text.transduce_each` — so are pieces that only
  add to what the state holds.
-/

namespace ShapeSchema.Text

variable {σ α β : Type} {next : σ → α → Option (List β × σ)}

/-- What a transducer with the given steps puts out from a state on, and the state behind the
text. -/
def transduce (next : σ → α → Option (List β × σ)) : σ → List α → Option (List β × σ)
  | q, [] => some ([], q)
  | q, a :: text =>
    match next q a with
    | none => none
    | some (out, q') => (transduce next q' text).map fun (more, q'') => (out ++ more, q'')

/-- One character is read before the others. -/
theorem transduce_cons {q q' q'' : σ} {a : α} {text : List α} {out more : List β}
    (ha : next q a = some (out, q')) (htext : transduce next q' text = some (more, q'')) :
    transduce next q (a :: text) = some (out ++ more, q'') := by
  rw [transduce, ha]
  show (transduce next q' text).map _ = _
  rw [htext]
  rfl

/-- **Parts.** A text is read one part after the other. -/
theorem transduce_append {q q' q'' : σ} {front rest : List α} {out more : List β}
    (hfront : transduce next q front = some (out, q'))
    (hrest : transduce next q' rest = some (more, q'')) :
    transduce next q (front ++ rest) = some (out ++ more, q'') := by
  induction front generalizing q out with
  | nil =>
    cases hfront
    exact hrest
  | cons a front ih =>
    rw [transduce] at hfront
    split at hfront
    · cases hfront
    · next out₁ q₁ ha =>
      obtain ⟨⟨out₂, q₂⟩, hq₂, heq⟩ := Option.map_eq_some_iff.1 hfront
      cases heq
      rw [List.cons_append, List.append_assoc]
      exact transduce_cons ha (ih hq₂)

/-- **Pieces** that lead back to the state where they began are read one after the other. -/
theorem transduce_flatMap {γ : Type} {q : σ} {f : γ → List α} {g : γ → List β} {l : List γ}
    (h : ∀ x ∈ l, transduce next q (f x) = some (g x, q)) :
    transduce next q (l.flatMap f) = some (l.flatMap g, q) := by
  induction l with
  | nil => rfl
  | cons x l ih =>
    rw [List.flatMap_cons, List.flatMap_cons]
    exact transduce_append (h x List.mem_cons_self)
      (ih fun y hy => h y (List.mem_cons_of_mem x hy))

/-- **Collecting.** A state may hold what has been collected. Pieces that only add to it are read
one after the other. -/
theorem transduce_collect {γ δ : Type} {s : List δ → σ} {f : γ → List α} {g : γ → List δ}
    {l : List γ}
    (h : ∀ x ∈ l, ∀ held, transduce next (s held) (f x) = some ([], s (held ++ g x)))
    (held : List δ) :
    transduce next (s held) (l.flatMap f) = some ([], s (held ++ l.flatMap g)) := by
  induction l generalizing held with
  | nil =>
    rw [List.flatMap_nil, List.flatMap_nil, List.append_nil]
    rfl
  | cons x l ih =>
    rw [List.flatMap_cons, List.flatMap_cons, ← List.append_assoc]
    exact transduce_append (h x List.mem_cons_self held)
      (ih (fun y hy => h y (List.mem_cons_of_mem x hy)) _)

/-- So are characters of which each adds one thing. -/
theorem transduce_each {δ : Type} {s : List δ → σ} {g : α → δ} {text : List α}
    (h : ∀ a ∈ text, ∀ held, next (s held) a = some ([], s (held ++ [g a]))) (held : List δ) :
    transduce next (s held) text = some ([], s (held ++ text.map g)) := by
  have hcollect := transduce_collect (f := fun a => [a]) (g := fun a => [g a])
    (fun a ha held => transduce_cons (h a ha held) rfl) held
  rwa [List.flatMap_singleton', ← List.map_eq_flatMap] at hcollect

end ShapeSchema.Text
