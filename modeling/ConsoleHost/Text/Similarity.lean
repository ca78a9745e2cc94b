/-! How similar two words are: by their common characters, and by how many of those change places. -/
namespace ConsoleHost.Text

/-- How far the places of a common character may be apart: up to half of the longer word. -/
def reach (a b : List Char) : Nat := max a.length b.length / 2 - 1

/-- The first place in a word that holds the character at `i` of the other word, is not taken and is
within reach. -/
def partner? (reach : Nat) (b : List Char) (taken : List Nat) (i : Nat) (c : Char) : Option Nat :=
  (b.zipIdx.find? fun (d, j) =>
    i ≤ j + reach && j ≤ i + reach && c == d && !taken.contains j).map (·.2)

/-- The places in the second word of the common characters, as they follow in the first one. -/
def partners (reach : Nat) (b : List Char) : Nat → List Nat → List Char → List Nat
  | _, _, [] => []
  | i, taken, c :: cs =>
    match partner? reach b taken i c with
    | none => partners reach b (i + 1) taken cs
    | some j => j :: partners reach b (i + 1) (j :: taken) cs

/-- How many common characters differ when both words are read in order; two make one change. -/
def changes (b : List Char) (places : List Nat) : Nat :=
  let first := places.map (b[·]?)
  let second := places.mergeSort.map (b[·]?)
  (first.zip second).countP (fun (c, d) => c != d) / 2

/-- From `0` for nothing in common up to `1` for equal words: the mean of the shares of the common
characters in each word, and of those that keep their order among the common ones. -/
def similarity (a b : List Char) : Float :=
  if a.isEmpty && b.isEmpty then 1
  else
    let places := partners (reach a b) b 0 [] a
    let common := places.length
    if common == 0 then 0
    else
      let share (n of : Nat) : Float := Float.ofNat n / Float.ofNat of
      (share common a.length + share common b.length +
        share (common - changes b places) common) / 3

end ConsoleHost.Text
