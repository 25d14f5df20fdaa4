/-!
# Similarity of words

When a command line holds a word that names nothing, the nearest known names are offered
instead. Nearness is the Jaro similarity: with `m` characters of one word matched by equal
characters of the other no farther apart than half the longer length (less one), and `t`
half the number of matched pairs that stand in a different order, the similarity of words
of lengths `a` and `b` is `(m / a + m / b + (m - t) / m) / 3`, or 0 without matches. Two
empty words are equal. A name is offered when its similarity is above `0.7`.

Similarities are kept as exact fractions, so that comparing them never rounds.
-/

namespace JarDeploy.CommandLine

set_option autoImplicit false

/-- A fraction `num / den` with a positive denominator. -/
structure Ratio where
  num : Nat
  den : Nat
  deriving Repr, Inhabited

/-- Is one fraction at most another? -/
def Ratio.le (x y : Ratio) : Bool := decide (x.num * y.den ≤ y.num * x.den)

/-- Is one fraction above another? -/
def Ratio.gt (x y : Ratio) : Bool := !x.le y

/-- The first free position of `b` in `[lo, hi)` holding `c`. -/
def freeMatch (b : List Char) (taken : List Bool) (c : Char) (lo hi : Nat) : Option Nat :=
  (List.range hi).find? fun j => decide (lo ≤ j) && b.getD j ' ' == c && !taken.getD j true

/-- Mark the matched characters of `a` and of `b`, in order. -/
def matchFlags (a b : List Char) : List Bool × List Bool :=
  let window := max a.length b.length / 2 - 1
  a.zipIdx.foldl (fun (acc : List Bool × List Bool) (c, i) =>
    match freeMatch b acc.2 c (i - window) (min b.length (i + window + 1)) with
    | some j => (acc.1.set i true, acc.2.set j true)
    | none => acc) (List.replicate a.length false, List.replicate b.length false)

/-- The characters of a word at marked positions, in order. -/
def marked (w : List Char) (flags : List Bool) : List Char :=
  ((w.zip flags).filter (·.2)).map (·.1)

/-- The number of matches and of transpositions between two words. -/
def matchCounts (a b : List Char) : Nat × Nat :=
  let (fa, fb) := matchFlags a b
  let ma := marked a fa
  let mb := marked b fb
  (ma.length, ((ma.zip mb).filter fun (x, y) => x != y).length / 2)

/-- The Jaro similarity of two words. -/
def jaro (x y : String) : Ratio :=
  let a := x.toList
  let b := y.toList
  if a.isEmpty && b.isEmpty then ⟨1, 1⟩
  else if a.isEmpty || b.isEmpty then ⟨0, 1⟩
  else
    let (m, t) := matchCounts a b
    if m = 0 then ⟨0, 1⟩
    else ⟨m * m * b.length + m * m * a.length + (m - t) * a.length * b.length,
      3 * a.length * b.length * m⟩

/-- The least similarity at which a name is offered, exclusive. -/
def offerThreshold : Ratio := ⟨7, 10⟩

/-- The known names similar to a word, from the least to the most similar; names equally
similar keep their order. -/
def similarNames (word : String) (names : List String) : List String :=
  let scored := (names.map fun n => (jaro word n, n)).filter (·.1.gt offerThreshold)
  (scored.mergeSort fun p q => p.1.le q.1).map (·.2)

end JarDeploy.CommandLine
