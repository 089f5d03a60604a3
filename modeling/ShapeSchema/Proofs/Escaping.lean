import ShapeSchema.Proofs.Legality

/-!
# Escaped texts are told apart

Between single quotation marks, a backslash is put in front of backslashes and quotation marks. This
is the same as doubling all backslashes first and then putting one in front of every quotation mark;
the other way round, the new backslashes would be doubled as well, and the mark would end the text.

A string is read as the text that it was made of, whatever follows it, and so is a name if what
follows it can neither belong to a name nor be taken for the second of two grave accents. So
distinct texts have distinct strings and names, and none of these begins another one in a script.

## Main definitions

* `ShapeSchema.Text.replaced` — a text with something in the place of a character.

## Main results

* `ShapeSchema.Cypher.flatMap_escapedChar` — one replacement after the other.
* `ShapeSchema.Cypher.stringText_append_inj`, `ShapeSchema.Cypher.identifier_append_inj` — where
  strings and names end.
* `ShapeSchema.Cypher.escapes_are_read` — both are read, and are told apart.
-/

namespace ShapeSchema

/-- A text in which `substitute` takes the place of every `mark`. -/
def Text.replaced (mark : Char) (substitute text : List Char) : List Char :=
  text.flatMap fun c => if c = mark then substitute else [c]

namespace Cypher

/-- **Replacements.** Backslashes are doubled first, and then quotation marks get one in front. -/
theorem flatMap_escapedChar (text : List Char) :
    text.flatMap escapedChar =
      Text.replaced '\x27' ['\\', '\x27'] (Text.replaced '\\' ['\\', '\\'] text) := by
  rw [Text.replaced, Text.replaced, List.flatMap_assoc]
  refine congrArg (text.flatMap ·) (funext fun c => ?_)
  by_cases hbackslash : c = '\\'
  · subst hbackslash
    rfl
  · by_cases hquote : c = '\x27' <;> simp [escapedChar, hbackslash, hquote]

/-- The other way round, a quotation mark would end the string. -/
example : readString ('\x27' :: Text.replaced '\\' ['\\', '\\']
      (Text.replaced '\x27' ['\\', '\x27'] ['a', '\x27', 'b']) ++ ['\x27']) =
    some (['a', '\\'], ['b', '\x27']) := by
  decide

/-- **Strings** end where their texts end. -/
theorem stringText_append_inj {text text' rest rest' : List Char}
    (h : stringText text ++ rest = stringText text' ++ rest') : text = text' ∧ rest = rest' := by
  have hread := congrArg readString h
  rw [readString_stringText, readString_stringText, Option.some.injEq, Prod.mk.injEq] at hread
  exact hread

/-- **Names** end where their texts end. -/
theorem identifier_append_inj {text text' rest rest' : List Char} (hrest : EndsName rest)
    (hrest' : EndsName rest') (h : identifier text ++ rest = identifier text' ++ rest') :
    text = text' ∧ rest = rest' := by
  have hread := congrArg readName h
  rw [readName_identifier text hrest, readName_identifier text' hrest', Option.some.injEq,
    Prod.mk.injEq] at hread
  exact ⟨by rw [← Name.text_of text, hread.1, Name.text_of], hread.2⟩

theorem endsName_nil : EndsName [] := nofun

/-- **Escaping.** A text between single quotation marks has its backslashes doubled and then a
backslash in front of its quotation marks. It is read as it was, whatever follows the string. A text
that is written as a name is read as a legal name for it unless a character of names or a grave
accent follows. No two texts are escaped in one way, be it as a string or as a name. -/
theorem escapes_are_read :
    (∀ text, stringText text = '\x27' ::
      Text.replaced '\x27' ['\\', '\x27'] (Text.replaced '\\' ['\\', '\\'] text) ++ ['\x27']) ∧
    (∀ text rest, readString (stringText text ++ rest) = some (text, rest)) ∧
    (∀ text rest, (∀ c ∈ rest.head?, Naming.isWordChar c = false ∧ c ≠ '\x60') →
      ∃ name, readName (identifier text ++ rest) = some (name, rest) ∧ name.text = text ∧
        name.IsLegal) ∧
    Function.Injective (fun text : List Char => text.flatMap escapedChar) ∧
    Function.Injective identifier := by
  refine ⟨fun text => ?_, readString_stringText, fun text rest hrest => ?_, fun text text' h => ?_,
    fun text text' h => ?_⟩
  · rw [stringText, flatMap_escapedChar]
  · exact ⟨Name.of text, readName_identifier text hrest, Name.text_of text, isLegal_of text⟩
  · have hstring : stringText text = stringText text' :=
      congrArg ('\x27' :: · ++ ['\x27']) h
    exact (stringText_append_inj (congrArg (· ++ []) hstring)).1
  · exact (identifier_append_inj endsName_nil endsName_nil (congrArg (· ++ []) h)).1

/-- A name that ends with a grave accent, and a colon behind it. -/
theorem escapes_are_read_accent :
    (∀ c ∈ ":Person".toList.head?, Naming.isWordChar c = false ∧ c ≠ '\x60') ∧
      ∃ name, readName (identifier ['a', '\x60'] ++ ":Person".toList) =
        some (name, ":Person".toList) ∧ name.text = ['a', '\x60'] ∧ name.IsLegal := by
  have hrest : ∀ c ∈ ":Person".toList.head?, Naming.isWordChar c = false ∧ c ≠ '\x60' := by
    rintro _ ⟨⟩
    decide
  exact ⟨hrest, escapes_are_read.2.2.1 _ _ hrest⟩

end Cypher

end ShapeSchema
