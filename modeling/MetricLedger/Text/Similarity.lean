import MetricLedger.Number.Double

/-!
# Similarity of words

Two words are similar when many of their characters match in nearly the same places and order. The
similarity is the mean of three shares: of the characters of either word that match, and of the
matches that are in order.
-/

namespace MetricLedger.Text.Similarity

/-- How far apart two characters that match may stand. -/
def reach (a b : List Char) : Nat := max a.length b.length / 2 - 1

/-- The characters of `cs`, the first of which stands at `place`, that match one of `b`, with the
places of these. Each character takes the first match that is left. -/
def pairs (reach : Nat) (b : List Char) (place : Nat) (taken : List Nat) :
    List Char → List (Char × Nat)
  | [] => []
  | c :: cs =>
    let fits (j : Nat) : Bool :=
      place ≤ j + reach && j ≤ place + reach && !taken.contains j && b[j]? == some c
    match (List.range b.length).find? fits with
    | some j => (c, j) :: pairs reach b (place + 1) (j :: taken) cs
    | none => pairs reach b (place + 1) taken cs

/-- The number of pairs of matches that stand in the other order. -/
def swaps (b : List Char) (matched : List (Char × Nat)) : Nat :=
  let places := (List.range b.length).filter fun j => (matched.map Prod.snd).contains j
  let inOrder := places.filterMap (b[·]?)
  ((matched.map Prod.fst).zip inOrder).countP (fun (c, d) => c != d) / 2

def share (n total : Nat) : Double := (Double.ofNat n).div (.ofNat total)

def degree (a b : String) : Double :=
  let matched := pairs (reach a.toList b.toList) b.toList 0 [] a.toList
  let n := matched.length
  if a.toList.isEmpty && b.toList.isEmpty then .ofNat 1
  else if n = 0 then .ofNat 0
  else
    ((share n a.toList.length).add (share n b.toList.length)).add
      (share (n - swaps b.toList matched) n) |>.div (.ofNat 3)

/-- Words are similar above this degree. -/
def threshold : Double := .ofRatio false 7 10

/-- The words that are similar to a word, the most similar last. -/
def similar (word : String) (others : List String) : List String :=
  let rated := others.map fun other => (degree word other, other)
  let near := rated.filter fun (d, _) => threshold.magnitude < d.magnitude
  (near.mergeSort fun x y => x.1.magnitude ≤ y.1.magnitude).map Prod.snd

end MetricLedger.Text.Similarity
