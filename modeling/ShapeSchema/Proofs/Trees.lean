import ShapeSchema.Json.Tree
import ShapeSchema.Proofs.Printing

/-!
# Trees of printed values

A printed value has the tree of the value, without faults, and nothing follows it. So a reader sees
the tree, and whatever it makes of the tree is what it makes of the text.

## Main definitions

* `ShapeSchema.Json.treeOf` — the tree of a value.

## Main results

* `ShapeSchema.Json.valueOf_tokensOf` — the tokens of a value, whatever follows them.
* `ShapeSchema.Json.readText_pretty` — reading a printed value.
-/

namespace ShapeSchema.Json

mutual

/-- The tree of a value. -/
def treeOf : Json → Tree
  | .null => .null
  | .bool b => .bool b
  | .number n => .number n.numeral
  | .string text => .string (some text)
  | .array items => .array (treesOf items) .closed
  | .object members => .object (treesOfMembers members) .closed

/-- The trees of the items of an array. -/
def treesOf : List Json → List Tree
  | [] => []
  | item :: items => treeOf item :: treesOf items

/-- The trees of the members of an object. -/
def treesOfMembers : List (String × Json) → List (Option String × Tree)
  | [] => []
  | (key, value) :: members => (some key, treeOf value) :: treesOfMembers members

end

/-- The trees of items are those of each item. -/
theorem treesOf_eq_map (items : List Json) : treesOf items = items.map treeOf := by
  induction items with
  | nil => rfl
  | cons item items ih => rw [treesOf, ih, List.map_cons]

/-- The trees of members are those of each value under its name. -/
theorem treesOfMembers_eq_map (members : List (String × Json)) :
    treesOfMembers members = members.map fun member => (some member.1, treeOf member.2) := by
  induction members with
  | nil => rfl
  | cons member members ih => rw [treesOfMembers, ih, List.map_cons]

/-! ## From tokens to trees -/

/-- No value begins with the end of an array. -/
private theorem head?_tokensOf (value : Json) (rest : List Token) :
    (tokensOf value ++ rest).head? ≠ some (.mark ']') := by
  unfold tokensOf
  split <;> simp

/-- An array of which the end does not come at once has items. -/
private theorem valueOf_bracket {fuel : Nat} {tokens : List Token}
    (h : tokens.head? ≠ some (.mark ']')) :
    Tree.valueOf (fuel + 1) (.mark '[' :: tokens) =
      (.array (Tree.itemsOf fuel tokens).1 (Tree.itemsOf fuel tokens).2.1,
        (Tree.itemsOf fuel tokens).2.2) := by
  unfold Tree.valueOf
  simp only [if_true]
  split
  · exact absurd rfl h
  · rfl

/-- An object of which a name comes at once has members. -/
private theorem valueOf_brace (fuel : Nat) (key : Option String) (tokens : List Token) :
    Tree.valueOf (fuel + 1) (.mark '\x7b' :: .string key :: tokens) =
      (.object (Tree.membersOf fuel (.string key :: tokens)).1
        (Tree.membersOf fuel (.string key :: tokens)).2.1,
        (Tree.membersOf fuel (.string key :: tokens)).2.2) := by
  rw [Tree.valueOf, if_neg (by decide), if_pos rfl]
  all_goals exact nofun

mutual

/-- **Values.** The tokens of a value are those of its tree, whatever follows them. -/
theorem valueOf_tokensOf (value : Json) {fuel : Nat} (h : 2 * (tokensOf value).length ≤ fuel)
    (rest : List Token) : Tree.valueOf fuel (tokensOf value ++ rest) = (treeOf value, rest) := by
  cases fuel with
  | zero =>
    have hpos : 0 < (tokensOf value).length := by
      unfold tokensOf
      split <;> simp
    omega
  | succ fuel =>
    match value with
    | .null => rfl
    | .bool b => rfl
    | .number n => rfl
    | .string text => rfl
    | .array [] => rfl
    | .array (item :: items) =>
      -- the bracket takes one step and leaves fuel for two more than its items need
      simp only [tokensOf, List.length_append, List.length_cons, List.cons_append,
        List.append_assoc, List.nil_append] at h ⊢
      rw [valueOf_bracket (head?_tokensOf item _),
        itemsOf_tokensOfItems items (fun h rest => valueOf_tokensOf item h rest) (by omega) rest]
      rfl
    | .object [] => rfl
    | .object ((key, value) :: members) =>
      simp only [tokensOf, List.length_append, List.length_cons, List.cons_append,
        List.append_assoc, List.nil_append] at h ⊢
      rw [valueOf_brace, membersOf_tokensOfMembers members key
        (fun h rest => valueOf_tokensOf value h rest) (by omega) rest]
      rfl

/-- The tokens of an array behind its bracket: those of an item and of further ones. -/
theorem itemsOf_tokensOfItems (items : List Json) {item : Tree} {front : List Token}
    (hitem : ∀ {fuel : Nat}, 2 * front.length ≤ fuel → ∀ rest,
      Tree.valueOf fuel (front ++ rest) = (item, rest))
    {fuel : Nat} (h : 2 * (front.length + (tokensOfItems items).length) < fuel)
    (rest : List Token) :
    Tree.itemsOf fuel (front ++ (tokensOfItems items ++ .mark ']' :: rest)) =
      (item :: treesOf items, .closed, rest) := by
  cases fuel with
  | zero => exact absurd h (Nat.not_lt_zero _)
  | succ fuel =>
    rw [Tree.itemsOf, hitem (by omega)]
    match items with
    | [] => rfl
    | next :: items =>
      simp only [tokensOfItems, List.length_cons, List.length_append, List.cons_append,
        List.append_assoc] at h ⊢
      rw [itemsOf_tokensOfItems items (fun h rest => valueOf_tokensOf next h rest) (by omega) rest]
      rfl

/-- The tokens of an object behind its bracket: those of a member and of further ones. -/
theorem membersOf_tokensOfMembers (members : List (String × Json)) (key : String) {value : Tree}
    {front : List Token}
    (hvalue : ∀ {fuel : Nat}, 2 * front.length ≤ fuel → ∀ rest,
      Tree.valueOf fuel (front ++ rest) = (value, rest))
    {fuel : Nat} (h : 2 * (front.length + (tokensOfMembers members).length) < fuel)
    (rest : List Token) :
    Tree.membersOf fuel (.string (some key) :: .mark ':' ::
        (front ++ (tokensOfMembers members ++ .mark '\x7d' :: rest))) =
      ((some key, value) :: treesOfMembers members, .closed, rest) := by
  cases fuel with
  | zero => exact absurd h (Nat.not_lt_zero _)
  | succ fuel =>
    rw [Tree.membersOf, hvalue (by omega)]
    match members with
    | [] => rfl
    | (other, next) :: members =>
      simp only [tokensOfMembers, List.length_cons, List.length_append, List.cons_append,
        List.append_assoc] at h ⊢
      rw [membersOf_tokensOfMembers members other (fun h rest => valueOf_tokensOf next h rest)
        (by omega) rest]
      rfl

end

/-- **Reading a printed value.** It is read as its tree is. -/
theorem readText_pretty {α : Type} (decode : Tree → Except Problem α) (value : Json) :
    readText decode value.pretty = decode (treeOf value) := by
  have htokens : tokens value.pretty.toList = tokensOf value := by
    have htext := tokens_prettyAt 0 value endsNumber_nil
    rw [List.append_nil, tokens_nil, List.append_nil] at htext
    rw [pretty, String.toList_ofList, htext]
  have htree : Tree.ofTokens (tokensOf value) = (treeOf value, []) := by
    have hvalue := valueOf_tokensOf value (Nat.le_succ _) []
    rwa [List.append_nil] at hvalue
  simp only [readText, htokens, htree]
  cases decode (treeOf value) <;> rfl

end ShapeSchema.Json
