/-!
# Shortest decimal text of a double

A finite double is `m * 2 ^ q`; every real strictly nearer to it than to its neighbours
rounds back to it, and so do the two midpoints when `m` is even. The shortest text is the
decimal `d * 10 ^ k` of that interval with the largest `k`; of several on that grid the
one nearest the double wins, a tie going to the even `d`. All comparisons are exact, in
natural numbers.

Two layouts of those digits are offered: `scientificLayout` (positional for decimal
exponents from -5 to 15, otherwise `d.ddde+x`) and `positionalLayout` (never an exponent,
always a point).
-/

namespace JarDeploy.Decimal

set_option autoImplicit false

/-- A positive rational `num / den`. -/
structure Ratio where
  num : Nat
  den : Nat

/-- Number of decimal digits of `n` (one for zero). -/
def digitCount (n : Nat) : Nat := (Nat.toDigits 10 n).length

/-- The unit `10 ^ k` as a ratio. -/
def gridUnit (k : Int) : Ratio :=
  if k ≥ 0 then ⟨Nat.pow 10 k.toNat, 1⟩ else ⟨1, Nat.pow 10 (-k).toNat⟩

/-- Smallest `d` with `d * g ≥ x` (or `> x` when `strict`). -/
def ceilSteps (x g : Ratio) (strict : Bool) : Nat :=
  let a := x.num * g.den
  let b := g.num * x.den
  let c := (a + b - 1) / b
  if strict && c * b == a then c + 1 else c

/-- Largest `d` with `d * g ≤ x` (or `< x` when `strict`). -/
def floorSteps (x g : Ratio) (strict : Bool) : Nat :=
  let a := x.num * g.den
  let b := g.num * x.den
  let c := a / b
  if strict && c * b == a then c - 1 else c

/-- The multiple of the grid unit nearest `x`, a tie going to the even one. -/
def nearestSteps (x g : Ratio) : Nat :=
  let a := x.num * g.den
  let b := g.num * x.den
  let c := a / b
  let r := a - c * b
  if 2 * r > b then c + 1 else if 2 * r < b then c else if c % 2 == 0 then c else c + 1

/-- Walks the grids downward from `10 ^ k`, at most `fuel` of them, and returns the first
digits and exponent found inside `[lo, hi]`. -/
def search (v lo hi : Ratio) (inclusive : Bool) : Nat → Int → Option (Nat × Int)
  | 0, _ => none
  | fuel + 1, k =>
    let g := gridUnit k
    let dLow := ceilSteps lo g (!inclusive)
    let dHigh := floorSteps hi g (!inclusive)
    if dLow ≤ dHigh ∧ 0 < dHigh then
      let d := nearestSteps v g
      some (max dLow (min d dHigh), k)
    else search v lo hi inclusive fuel (k - 1)

/-- Digits and exponent `(d, k)` of the shortest decimal that reads back as the finite
positive double with significand `m` and exponent `q`; `lowerHalf` marks the lower gap
that is half as wide (the significand is a power of two above the smallest exponent). -/
def shortestOf (m : Nat) (q : Int) (lowerHalf : Bool) : Nat × Int :=
  let scale : Nat := if q ≥ 2 then Nat.pow 2 (q - 2).toNat else 1
  let den : Nat := if q ≥ 2 then 1 else Nat.pow 2 (2 - q).toNat
  let v : Ratio := ⟨4 * m * scale, den⟩
  let lo : Ratio := ⟨(if lowerHalf then 4 * m - 1 else 4 * m - 2) * scale, den⟩
  let hi : Ratio := ⟨(4 * m + 2) * scale, den⟩
  let start : Int := (digitCount hi.num : Int) - digitCount hi.den + 1
  (search v lo hi (m % 2 == 0) 400 start).getD (m, 0)

/-- A double's sign and, when finite and non-zero, its shortest digits and exponent:
the value is `d * 10 ^ k`. -/
def ofFloat (x : Float) : Bool × Option (Nat × Int) :=
  let bits : Nat := x.toBits.toNat
  let negative := bits ≥ Nat.pow 2 63
  let e : Nat := bits / Nat.pow 2 52 % Nat.pow 2 11
  let f : Nat := bits % Nat.pow 2 52
  if e = 0 ∧ f = 0 then (negative, none)
  else if e = 0 then (negative, some (shortestOf f (-1074) false))
  else (negative, some (shortestOf (f + Nat.pow 2 52) ((e : Int) - 1075) (f = 0 ∧ e > 1)))

/-- `n` zeros. -/
def zeros (n : Nat) : String := String.ofList (List.replicate n '0')

/-- Digits `ds` of a value with decimal exponent `e` (first digit at `10 ^ e`), written
without an exponent and with at least one digit after the point. -/
def positionalText (ds : String) (e : Int) : String :=
  let n := ds.length
  if e < 0 then "0." ++ zeros ((-e).toNat - 1) ++ ds
  else if e.toNat + 1 ≥ n then ds ++ zeros (e.toNat + 1 - n) ++ ".0"
  else String.ofList (ds.toList.take (e.toNat + 1)) ++ "." ++ String.ofList (ds.toList.drop (e.toNat + 1))

/-- The layout with an exponent outside `1e-5 ≤ |x| < 1e16`: `1.5`, `1e+300`,
`1.8446744073709552e+19`. -/
def scientificLayout (x : Float) : String :=
  match ofFloat x with
  | (neg, none) => (if neg then "-" else "") ++ "0.0"
  | (neg, some (d, k)) =>
    let ds := toString d
    let e := k + ds.length - 1
    let body :=
      if -5 ≤ e ∧ e ≤ 15 then positionalText ds e
      else
        let head := String.ofList (ds.toList.take 1)
        let tail := String.ofList (ds.toList.drop 1)
        head ++ (if tail.isEmpty then "" else "." ++ tail) ++ "e" ++ (if e < 0 then "-" else "+") ++
          toString e.natAbs
    (if neg then "-" else "") ++ body

/-- The layout that never uses an exponent and always shows a point: `1.5`, `100.0`. -/
def positionalLayout (x : Float) : String :=
  match ofFloat x with
  | (neg, none) => (if neg then "-" else "") ++ "0.0"
  | (neg, some (d, k)) =>
    let ds := toString d
    (if neg then "-" else "") ++ positionalText ds (k + ds.length - 1)

end JarDeploy.Decimal
