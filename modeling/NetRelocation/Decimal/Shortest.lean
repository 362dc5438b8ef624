import NetRelocation.Text.Numeral

/-!
# Shortest decimal text of a binary fraction

A finite binary fraction is written with the fewest decimal digits that read back as the same
value, and of those with the nearest. The search works in exact natural-number arithmetic: for
each digit count the two neighbours of the value on that decimal grid are tried.
-/

namespace NetRelocation.Decimal

/-- A decimal number `d.ddd · 10 ^ exponent`, its digits given as one number. -/
structure Scientific where
  digits : List Char
  exponent : Int
  deriving DecidableEq, Repr

/-- A positive rational. -/
structure Ratio where
  num : Nat
  den : Nat

/-- `num / den · 2 ^ e`. -/
def Ratio.scale (r : Ratio) (base : Nat) (e : Int) : Ratio :=
  if 0 ≤ e then ⟨r.num * Nat.pow base e.toNat, r.den⟩ else ⟨r.num, r.den * Nat.pow base (-e).toNat⟩

/-- The numbers that read back as `significand · 2 ^ exponent`: half a unit to both sides, a
quarter below a power of two, the ends included when the significand is even. -/
structure Interval where
  low : Ratio
  value : Ratio
  high : Ratio
  closed : Bool

/-- The interval of a 53-bit significand. -/
def Interval.of (significand : Nat) (exponent : Int) : Interval where
  low :=
    (if significand = Nat.pow 2 52 ∧ -1074 < exponent then Ratio.mk (4 * significand - 1) 1
      else ⟨4 * significand - 2, 1⟩).scale 2 (exponent - 2)
  value := (Ratio.mk (4 * significand) 1).scale 2 (exponent - 2)
  high := (Ratio.mk (4 * significand + 2) 1).scale 2 (exponent - 2)
  closed := significand % 2 = 0

/-- Whether an integer multiple of a power of ten lies in the interval. -/
def Interval.holds (i : Interval) (n : Nat) (e : Int) : Bool :=
  let x := (Ratio.mk n 1).scale 10 e
  let below := i.low.num * x.den
  let above := i.high.num * x.den
  let here := x.num * i.low.den
  let here' := x.num * i.high.den
  if i.closed then below ≤ here && here' ≤ above else below < here && here' < above

/-- The least `j` with `den ≤ num · 10 ^ j`, searched within `fuel` steps. -/
def leastShift (den : Nat) : Nat → Nat → Nat
  | 0, _ => 0
  | fuel + 1, num => if den ≤ num then 0 else leastShift den fuel (num * 10) + 1

/-- The decimal exponent of a rational: the `k` with `10 ^ k ≤ num / den < 10 ^ (k + 1)`. -/
def Ratio.exponent (r : Ratio) : Int :=
  if r.den ≤ r.num then (Nat.toDigits 10 (r.num / r.den)).length - 1
  else -(leastShift r.den 400 r.num : Int)

/-- Search the grids of `n` digits and more. -/
def Interval.search (i : Interval) (k : Int) : Nat → Nat → Nat × Int
  | 0, n => (0, k - n)
  | fuel + 1, n =>
    let e := k - (n : Int) + 1
    let scaled := i.value.scale 10 (-e)
    let down := scaled.num / scaled.den
    let rest := scaled.num % scaled.den
    let up := down + 1
    match i.holds down e, i.holds up e with
    | true, true =>
      if rest * 2 < scaled.den ∨ (rest * 2 = scaled.den ∧ down % 2 = 0) then (down, e) else (up, e)
    | true, false => (down, e)
    | false, true => (up, e)
    | false, false => i.search k fuel (n + 1)

/-- The shortest decimal of `significand · 2 ^ exponent`. -/
def shortest (significand : Nat) (exponent : Int) : Scientific :=
  let i := Interval.of significand exponent
  let (n, e) := i.search i.value.exponent 17 1
  let digits := Nat.toDigits 10 n
  let kept := (digits.reverse.dropWhile (· = '0')).reverse
  ⟨kept, e + (digits.length : Int) - 1⟩

/-- Decimal exponents from -5 to 15 are written positionally, others with `e` and a sign; a
positional number has a digit on both sides of the point. -/
def Scientific.text (s : Scientific) : String :=
  let zeros (n : Nat) := List.replicate n '0'
  let chars :=
    if -5 ≤ s.exponent ∧ s.exponent ≤ 15 then
      if s.exponent < 0 then
        ['0', '.'] ++ zeros ((-s.exponent).toNat - 1) ++ s.digits
      else
        let whole := s.exponent.toNat + 1
        let fraction := s.digits.drop whole
        (s.digits.take whole ++ zeros (whole - s.digits.length)) ++
          '.' :: (if fraction.isEmpty then ['0'] else fraction)
    else
      let mantissa :=
        match s.digits with
        | d :: rest@(_ :: _) => d :: '.' :: rest
        | ds => ds
      mantissa ++ 'e' :: (if s.exponent < 0 then '-' else '+') ::
        Nat.toDigits 10 s.exponent.natAbs
  String.ofList chars

/-- The text of a finite double. -/
def floatText (x : Float) : String :=
  let bits := x.toBits.toNat
  let sign := if bits / Nat.pow 2 63 = 1 then "-" else ""
  let biased : Nat := bits / Nat.pow 2 52 % 2048
  let fraction : Nat := bits % Nat.pow 2 52
  let body :=
    if biased = 0 ∧ fraction = 0 then "0.0"
    else if biased = 0 then (shortest fraction (-1074)).text
    else (shortest (Nat.pow 2 52 + fraction) ((biased : Int) - 1075)).text
  sign ++ body

end NetRelocation.Decimal
