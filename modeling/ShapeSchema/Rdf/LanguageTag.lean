import ShapeSchema.Iri.Basic
import ShapeSchema.Text.Split

/-!
# Language tags

The form of language tags by RFC 5646: subtags with hyphens between them, which come in a fixed
order and are told apart by their lengths and characters.

## Main definitions

* `ShapeSchema.Rdf.LanguageTag.Stage` — which subtags may still follow.
* `ShapeSchema.Rdf.LanguageTag.isWellFormed` — the texts that are language tags.
-/

namespace ShapeSchema.Rdf.LanguageTag

/-- Where the reading of a tag stands. -/
inductive Stage where
  /-- Before the language. -/
  | start
  /-- Behind a short language and so many extended languages. -/
  | language (extended : Nat)
  /-- Behind a longer language. -/
  | longLanguage
  /-- Behind the script. -/
  | script
  /-- Behind the region or a variant. -/
  | region
  /-- Inside an extension; `empty` as long as it has no subtag. -/
  | extension (empty : Bool)
  /-- Inside the private part; `empty` as long as it has no subtag. -/
  | privateUse (empty : Bool)

/-- Whether a script may follow. -/
def Stage.beforeScript : Stage → Bool
  | language _ | longLanguage => true
  | _ => false

/-- Whether a region may follow. -/
def Stage.beforeRegion : Stage → Bool
  | script => true
  | s => s.beforeScript

/-- Whether a variant may follow. -/
def Stage.beforeVariant : Stage → Bool
  | region => true
  | s => s.beforeRegion

/-- Whether a tag may end here. -/
def Stage.mayEnd : Stage → Bool
  | start | extension true | privateUse true => false
  | _ => true

/-- The stage behind a subtag that follows the language and is neither part of an extension nor
private. -/
def Stage.afterLanguage? (stage : Stage) (subtag : List Char) : Option Stage :=
  let n := subtag.length
  let letters := subtag.all Char.isAlpha
  let digits := subtag.all Char.isDigit
  match stage, n == 3 && letters with
  | .language extended, true => if extended < 3 then some (.language (extended + 1)) else none
  | _, _ =>
    if stage.beforeScript && n == 4 && letters then some .script
    else if stage.beforeRegion && ((n == 2 && letters) || (n == 3 && digits)) then some .region
    else if stage.beforeVariant && subtag.all Char.isAlphanum
        && ((5 ≤ n && (subtag.head?.any Char.isAlpha))
          || (4 ≤ n && (subtag.head?.any Char.isDigit))) then some .region
    else none

/-- The stage behind a further subtag. -/
def Stage.next? (stage : Stage) (subtag : List Char) : Option Stage :=
  let n := subtag.length
  if n == 0 || 8 < n then none
  else
    match stage with
    | .start =>
      if n < 2 || !subtag.all Char.isAlpha then none
      else if n < 4 then some (.language 0)
      else some .longLanguage
    | .privateUse _ => if subtag.all Char.isAlphanum then some (.privateUse false) else none
    | .extension true =>
      if n == 1 then none else if subtag.all Char.isAlphanum then some (.extension false) else none
    | stage =>
      if subtag == ['x'] || subtag == ['X'] then some (.privateUse true)
      else if n == 1 && subtag.all Char.isAlphanum then some (.extension true)
      else
        match stage with
        | .extension _ => if subtag.all Char.isAlphanum then some (.extension false) else none
        | stage => stage.afterLanguage? subtag

/-- Tags that were registered before the rules were made, in lower case. -/
def grandfathered : List String :=
  ["art-lojban", "cel-gaulish", "en-gb-oed", "i-ami", "i-bnn", "i-default", "i-enochian", "i-hak",
    "i-klingon", "i-lux", "i-mingo", "i-navajo", "i-pwn", "i-tao", "i-tay", "i-tsu", "no-bok",
    "no-nyn", "sgn-be-fr", "sgn-be-nl", "sgn-ch-de", "zh-guoyu", "zh-hakka", "zh-min",
    "zh-min-nan", "zh-xiang"]

/-- The subtags, read from a stage on, lead to one where a tag may end. -/
def Stage.accepts (stage : Stage) (subtags : List (List Char)) : Bool :=
  (subtags.foldl (fun s t => s.bind (·.next? t)) (some stage)).any mayEnd

/-- The texts that are language tags. -/
def isWellFormed (tag : List Char) : Bool :=
  if grandfathered.contains (String.ofList (tag.map Char.toLower)) then true
  else
    match List.splitOn '-' tag with
    | ['x'] :: subtags | ['X'] :: subtags => (Stage.privateUse true).accepts subtags
    | subtags => Stage.start.accepts subtags

end ShapeSchema.Rdf.LanguageTag
