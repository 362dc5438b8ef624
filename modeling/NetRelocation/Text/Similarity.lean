/-!
# Similar words

Two words are alike when they have many characters in common at about the same places and in the
same order (`likeness`). `similar` finds the known words that a mistyped word may stand for.
-/

namespace NetRelocation.Text

/-- Mark the first character like `c` that is not marked yet, of those whose place is at least `low`
and below `high`, where places are counted from `i` on. -/
def markFirst (c : Char) (low high : Nat) : (i : Nat) → List (Char × Bool) →
    Option (List (Char × Bool))
  | _, [] => none
  | i, (d, marked) :: ds =>
    if low ≤ i ∧ i < high ∧ c = d ∧ !marked then some ((d, true) :: ds)
    else (markFirst c low high (i + 1) ds).map ((d, marked) :: ·)

/-- Pair the characters from the place `i` on, each with the first free one like it that is at most
`reach` places away. Gives the characters with a partner, and the partners, both in their order. -/
def partners (reach : Nat) : (i : Nat) → List Char → List (Char × Bool) → List Char × List Char
  | _, [], ds => ([], (ds.filter (·.2)).map (·.1))
  | i, c :: cs, ds =>
    match markFirst c (i - reach) (i + reach + 1) 0 ds with
    | some ds =>
      let (left, right) := partners reach (i + 1) cs ds
      (c :: left, right)
    | none => partners reach (i + 1) cs ds

/-- How alike two words are, from zero to one: the mean of the parts of both words that have
partners and of the part of the partners that are in order. -/
def likeness (a b : List Char) : Float :=
  let (left, right) := partners (max a.length b.length / 2 - 1) 0 a (b.map fun c => (c, false))
  let common := left.length
  let swapped := ((left.zip right).filter fun pair => pair.1 ≠ pair.2).length / 2
  let part (m n : Nat) := Float.ofNat m / Float.ofNat n
  if common = 0 then 0
  else (part common a.length + part common b.length + part (common - swapped) common) / 3

/-- The likeness that similar words exceed. -/
def similarityBound : Float := 0.7

/-- The known words that are similar to a word, the most similar one last. -/
def similar (word : String) (known : List String) : List String :=
  let rated := known.map fun k => (likeness word.toList k.toList, k)
  ((rated.filter (similarityBound < ·.1)).mergeSort fun x y => x.1 ≤ y.1).map (·.2)

end NetRelocation.Text
