/-!
# Decimal/Floating — binary floating point, read from and written in decimals

A double-precision number is `m · 2 ^ q` with `m < 2 ^ 53` and `-1074 ≤ q ≤ 971`.  A decimal is read
as the nearest such number, an exact tie going to the even `m`.  A number is written with the fewest
decimal digits that read back as the number, and among these with the nearest.  Both directions use
exact integer arithmetic.
-/

namespace SequentCalculus

/-- A double-precision floating-point number. -/
inductive Floating where
  | finite (negative : Bool) (mantissa : Nat) (exponent : Int)
  | infinite (negative : Bool)
  | nan
  deriving DecidableEq, Repr

namespace Floating

/-- The integer nearest to `num / den`, the even one of two. -/
def roundDiv (num den : Nat) : Nat :=
  let q := num / den
  let r := num % den
  if 2 * r < den ∨ (2 * r = den ∧ q % 2 = 0) then q else q + 1

/-- `n * b ^ e`, or `n` if the exponent is negative. -/
def scaleUp (n b : Nat) (e : Int) : Nat := n * Nat.pow b e.toNat

/-- The exponent of the highest power of two that is at most `num / den`, for positive
arguments. -/
def floorLog2 (num den : Nat) : Int :=
  let estimate : Int := (num.log2 : Int) - den.log2
  if scaleUp den 2 estimate ≤ scaleUp num 2 (-estimate) then estimate else estimate - 1

/-- The least mantissa of full length, `2 ^ 52`. -/
def leastFull : Nat := Nat.pow 2 52

/-- The number nearest to the positive fraction `num / den`, `none` if it is too large. -/
def nearest (num den : Nat) : Option (Nat × Int) :=
  let q := max (floorLog2 num den - 52) (-1074)
  let m := roundDiv (scaleUp num 2 (-q)) (scaleUp den 2 q)
  let (m, q) := if m = 2 * leastFull then (leastFull, q + 1) else (m, q)
  if q ≤ 971 then some (m, q) else none

/-- The number nearest to `± digits · 10 ^ exponent`.  Exponents far out of range are settled without
computing the power. -/
def ofDecimal (negative : Bool) (digits : Nat) (exponent : Int) : Floating :=
  let size : Int := (toString digits).length + exponent
  if digits = 0 ∨ size < -330 then finite negative 0 0
  else if 320 < size then infinite negative
  else
    match nearest (scaleUp digits 10 exponent) (scaleUp 1 10 (-exponent)) with
    | some (m, q) => finite negative m q
    | none => infinite negative

/-- Twice two integers that compare as `c · 10 ^ p` and `x · 2 ^ e` do. -/
def comparable (c : Nat) (p : Int) (x : Nat) (e : Int) : Nat × Nat :=
  (scaleUp (scaleUp c 10 p) 2 (-e), scaleUp (scaleUp x 2 e) 10 (-p))

/-- The exponent of the highest power of ten that is at most `m · 2 ^ q`, for a positive `m`. -/
def floorLog10 (m : Nat) (q : Int) : Int :=
  let powers := (List.range 650).map fun (i : Nat) => (309 : Int) - i
  (powers.find? fun k => let (a, b) := comparable 1 k m q; a ≤ b).getD (-324)

/-- Whether `c · 10 ^ p` reads back as `m · 2 ^ q`: it lies between the midpoints to the two
neighbours, or on one of them if `m` is even.  Quarters of a unit are used because the neighbour
below a power of two is nearer. -/
def readsBack (m : Nat) (q : Int) (c : Nat) (p : Int) : Bool :=
  let below := if m = leastFull ∧ -1074 < q then 4 * m - 1 else 4 * m - 2
  let (a, low) := comparable c p below (q - 2)
  let (b, high) := comparable c p (4 * m + 2) (q - 2)
  if m % 2 = 0 then low ≤ a && b ≤ high else low < a && b < high

/-- The decimal with `n` digits that reads back as `m · 2 ^ q`, the nearer one of two. -/
def withDigits? (m : Nat) (q : Int) (n : Nat) : Option (Nat × Int) :=
  let p := floorLog10 m q - n + 1
  let (unit, value) := comparable 1 p m q
  let c := value / unit
  let up := readsBack m q (c + 1) p
  if readsBack m q c p then
    let r := value % unit
    if up && (unit < 2 * r || (unit = 2 * r && c % 2 = 1)) then some (c + 1, p) else some (c, p)
  else if up then some (c + 1, p) else none

/-- Moves trailing zeros of the digits into the exponent. -/
def dropZeros : Nat → Nat → Int → Nat × Int
  | 0, d, p => (d, p)
  | fuel + 1, d, p => if d ≠ 0 ∧ d % 10 = 0 then dropZeros fuel (d / 10) (p + 1) else (d, p)

/-- The fewest digits `d` and an exponent `p` such that `d · 10 ^ p` reads back as the positive
number `m · 2 ^ q`.  Seventeen digits always do. -/
def shortest (m : Nat) (q : Int) : Nat × Int :=
  match (List.range 17).findSome? fun n => withDigits? m q (n + 1) with
  | some (d, p) => dropZeros 20 d p
  | none => (m, q)

/-- How decimals are laid out. -/
structure Layout where
  /-- Decimals whose point stands at most this many places before the first digit, and fewer, are
  positional. -/
  smallest : Int
  /-- Decimals whose point stands at most this many places behind the first digit are positional. -/
  largest : Int

/-- Positional from `0.0001` on and below `10 ^ 16`. -/
def layout : Layout := ⟨-3, 16⟩

/-- The digits of an exponent, at least two. -/
def exponentDigits (e : Nat) : String := if e < 10 then s!"0{e}" else toString e

/-- The text of the positive decimal `d · 10 ^ p`. -/
def decimalText (d : Nat) (p : Int) : String :=
  let digits := (toString d).toList
  let point : Int := digits.length + p
  if layout.smallest ≤ point ∧ point ≤ layout.largest then
    if point ≤ 0 then
      String.ofList (['0', '.'] ++ List.replicate (-point).toNat '0' ++ digits)
    else
      let whole := digits.take point.toNat ++ List.replicate (point.toNat - digits.length) '0'
      let places := digits.drop point.toNat
      String.ofList (whole ++ ['.'] ++ (if places.isEmpty then ['0'] else places))
  else
    let exponent := point - 1
    let tail := digits.drop 1
    String.ofList (digits.take 1 ++ (if tail.isEmpty then [] else '.' :: tail))
      ++ "e" ++ (if exponent < 0 then "-" else "+") ++ exponentDigits exponent.natAbs

/-- The text of a number: the fewest digits that read back, positional in the middle range. -/
def text : Floating → String
  | nan => "nan"
  | infinite negative => if negative then "-inf" else "inf"
  | finite negative m q =>
    let sign := if negative then "-" else ""
    if m = 0 then sign ++ "0.0"
    else
      let (d, p) := shortest m q
      sign ++ decimalText d p

end Floating

end SequentCalculus
