/-!
# Numbers with 53 binary digits

The magnitude of a number that is not an integer is kept with 53 binary digits,
as `mantissa * 2 ^ exponent`.  All arithmetic is exact on natural numbers and
rounded once, to the nearest representable number and to the even one of two.

`shortest` finds the shortest decimal that is read back as the same number: among
the multiples of the largest power of ten that has one within the rounding
interval, the one nearest to the number.
-/

namespace Relocate.Json

/-- A finite magnitude.  The mantissa is below `2 ^ 53`, and at least `2 ^ 52`
unless the exponent is the smallest one. -/
structure Double where
  mantissa : Nat
  exponent : Int
deriving DecidableEq, Repr, Inhabited

namespace Double

/-- The smallest exponent. -/
def minExponent : Int := -1074

/-- The largest exponent. -/
def maxExponent : Int := 971

/-- Zero. -/
def zero : Double := ⟨0, minExponent⟩

/-- The quotient of two numbers rounded to the nearest integer, to the even one
of two. -/
def roundedQuotient (n d : Nat) : Nat :=
  let q := n / d
  let r := n % d
  if 2 * r < d then q
  else if d < 2 * r then q + 1
  else q + q % 2

/-- `n / d` divided by `2 ^ e`, as a fraction. -/
def scaled (n d : Nat) (e : Int) : Nat × Nat :=
  match e with
  | .ofNat e => (n, d <<< e)
  | .negSucc e => (n <<< (e + 1), d)

/-- The fraction `n / d` rounded; `none` when it is too large. -/
def ofRatio? (n d : Nat) : Option Double :=
  if n = 0 then some zero
  else
    let guess : Int := (n.log2 : Int) - (d.log2 : Int) - 52
    let (a, b) := scaled n d guess
    let guess := if a < b <<< 52 then guess - 1 else guess
    let e := max guess minExponent
    let (a, b) := scaled n d e
    let q := roundedQuotient a b
    let (q, e) := if q = 1 <<< 53 then (1 <<< 52, e + 1) else (q, e)
    if e ≤ maxExponent then some ⟨q, e⟩ else none

/-- The number as a fraction. -/
def ratio (x : Double) : Nat × Nat :=
  match x.exponent with
  | .ofNat e => (x.mantissa <<< e, 1)
  | .negSucc e => (x.mantissa, 1 <<< (e + 1))

/-- The number nearest to an integer. -/
def ofNat (n : Nat) : Double :=
  (ofRatio? n 1).getD zero

/-- The number nearest to a power of ten; the power is at most 308. -/
def powerOfTen (k : Nat) : Double :=
  ofNat (Nat.pow 10 k)

/-- The rounded product; `none` when it is too large. -/
def mul? (x y : Double) : Option Double :=
  let (a, b) := x.ratio
  let (c, d) := y.ratio
  ofRatio? (a * c) (b * d)

/-- The rounded quotient by a number other than zero. -/
def div (x y : Double) : Double :=
  let (a, b) := x.ratio
  let (c, d) := y.ratio
  (ofRatio? (a * d) (b * c)).getD zero

/-- The largest power of ten that is itself a number of this kind. -/
def maxPower : Nat := 308

/-- The number times a power of ten, in steps of at most `maxPower`; `none` when
it is too large.  After three divisions nothing is left of any number below
`2 ^ 64`, so a few steps are enough. -/
def scaleByTen? : Nat → Double → Int → Option Double
  | 0, _, _ => some zero
  | steps + 1, x, k =>
    if k.natAbs ≤ maxPower then
      if 0 ≤ k then x.mul? (powerOfTen k.natAbs) else some (x.div (powerOfTen k.natAbs))
    else if x.mantissa = 0 then some x
    else if 0 ≤ k then none
    else scaleByTen? steps (x.div (powerOfTen maxPower)) (k + maxPower)

/-- `digits * 10 ^ k`, rounded after every step; `none` when it is too large. -/
def ofDecimal? (digits : Nat) (k : Int) : Option Double :=
  scaleByTen? 4 (ofNat digits) k

/-- A fraction divided by a power of ten, as a fraction. -/
def perPower (n d : Nat) (k : Int) : Nat × Nat :=
  match k with
  | .ofNat k => (n, d * Nat.pow 10 k)
  | .negSucc k => (n * Nat.pow 10 (k + 1), d)

/-- The bounds of the interval that is rounded to the number, and the number
itself, as numerators over one denominator. -/
def interval (x : Double) : Nat × Nat × Nat × Nat :=
  let (n, d) := x.ratio
  let (n, d) := (4 * n, 4 * d)
  let unit := match x.exponent with
    | .ofNat e => 4 <<< e
    | .negSucc _ => 4
  let below := if x.mantissa = 1 <<< 52 ∧ minExponent < x.exponent then unit / 4 else unit / 2
  (n - below, n, n + unit / 2, d)

/-- A multiple of `10 ^ k` within the interval of the number, the nearest to it,
as its quotient by that power. -/
def multiple? (x : Double) (k : Int) : Option Nat :=
  let (low, n, high, d) := x.interval
  let (value, per) := perPower n d k
  let (low, _) := perPower low d k
  let (high, _) := perPower high d k
  let inside (q : Nat) : Bool :=
    if x.mantissa % 2 = 0 then low ≤ q * per && q * per ≤ high
    else low < q * per && q * per < high
  let nearest := roundedQuotient value per
  if nearest ≠ 0 && inside nearest then some nearest
  else
    let down := value / per
    if down ≠ 0 && inside down then some down
    else if inside (down + 1) then some (down + 1)
    else none

/-- The first power of ten, from `k` downwards, that has a multiple within the
interval, with that multiple. -/
def search (x : Double) : Nat → Int → Nat × Int
  | 0, k => (0, k)
  | steps + 1, k =>
    match x.multiple? k with
    | some q => (q, k)
    | none => search x steps (k - 1)

/-- The digits and the power of ten of the shortest decimal for a number other
than zero. -/
def shortest (x : Double) : Nat × Int :=
  let bits : Int := (x.mantissa.log2 : Int) + x.exponent
  search x 40 (bits * 3 / 10 + 3)

/-- The number in decimal: plain while the point is near the digits, with an
exponent otherwise. -/
def render (x : Double) : String :=
  if x.mantissa = 0 then "0.0"
  else
    let (q, k) := x.shortest
    let digits := toString q
    let length := digits.length
    let point : Int := length + k
    let pad (count : Int) : String := String.ofList (List.replicate count.toNat '0')
    let front (count : Nat) : String := String.ofList (digits.toList.take count)
    let back (count : Nat) : String := String.ofList (digits.toList.drop count)
    if 0 ≤ k ∧ point ≤ 16 then digits ++ pad k ++ ".0"
    else if 0 < point ∧ point ≤ 16 then front point.toNat ++ "." ++ back point.toNat
    else if -5 < point ∧ point ≤ 0 then "0." ++ pad (-point) ++ digits
    else
      let mark := if 0 < point then "e+" else "e-"
      front 1 ++ (if length = 1 then "" else "." ++ back 1) ++ mark ++
        toString (point - 1).natAbs

end Double

end Relocate.Json
