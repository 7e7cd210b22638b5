import Booru.Text.Character

/-! The decimal text of a double: the fewest digits that read back to it, and of those the nearest.

A finite positive double is `m * 2^q`. Every real strictly between the midpoints to its two
neighbours reads back to it, and the midpoints themselves do when `m` is even. The search goes
through the grids of one to seventeen significant digits and tests the value's two neighbours on
each. A tie goes to the even digit. -/

/-! ### The shortest text -/

namespace Booru.Decimal

/-- A positive value `significand * 2^exponent`. In a `narrow` one, the double below is half as far
away as the double above. -/
structure Dyadic where
  significand : Nat
  exponent : Int
  narrow : Bool
  deriving Repr, DecidableEq

def Dyadic.ofFloat? (x : Float) : Option Dyadic :=
  let bits := x.toBits.toNat % 0x8000000000000000
  let fraction : Nat := bits % 0x10000000000000
  let biased : Nat := bits / 0x10000000000000
  if biased = 0 then
    if fraction = 0 then none else some ⟨fraction, -1074, false⟩
  else some ⟨0x10000000000000 + fraction, (biased : Int) - 1075, fraction = 0 && 1 < biased⟩

structure Interval where
  low : Nat
  value : Nat
  high : Nat
  denominator : Nat
  closed : Bool

def Dyadic.interval (x : Dyadic) : Interval :=
  let up := (x.exponent - 2).toNat
  let down := (2 - x.exponent).toNat
  let unit := Nat.pow 2 up
  ⟨(4 * x.significand - if x.narrow then 1 else 2) * unit, 4 * x.significand * unit,
    (4 * x.significand + 2) * unit, Nat.pow 2 down, x.significand % 2 == 0⟩

def Interval.holds (i : Interval) (n num den : Nat) : Bool :=
  let point := n * num * i.denominator
  if i.closed then i.low * den ≤ point && point ≤ i.high * den
  else i.low * den < point && point < i.high * den

structure Digits where
  digits : List Nat
  exponent : Int
  deriving Repr, DecidableEq

/-- Zeros behind the point of a double are fewer than these. -/
def Interval.places : Nat := 400

def Interval.magnitude (i : Interval) : Int :=
  (Nat.toDigits 10 (i.value * Nat.pow 10 places / i.denominator)).length - places

/-- The nearer of the value's neighbours with `count` significant digits, of those in the interval.
Of two that are equally near, the even one. -/
def Interval.nearest? (i : Interval) (magnitude : Int) (count : Nat) : Option Nat :=
  let step := magnitude - count
  let num := Nat.pow 10 step.toNat
  let den := Nat.pow 10 (-step).toNat
  let below := i.value * den / (i.denominator * num)
  let twice := (2 * below + 1) * num * i.denominator
  let double := 2 * i.value * den
  let nearer := if double < twice || (double == twice && below % 2 == 0) then below else below + 1
  let farther := if nearer = below then below + 1 else below
  if i.holds nearer num den then some nearer
  else if i.holds farther num den then some farther
  else none

def Interval.search (i : Interval) (magnitude : Int) : Nat → Nat → Option (Nat × Nat)
  | 0, _ => none
  | fuel + 1, count =>
    match i.nearest? magnitude count with
    | some n => some (n, count)
    | none => i.search magnitude fuel (count + 1)

def decimalDigits (n : Nat) : List Nat := (Nat.toDigits 10 n).map fun c => c.toNat - '0'.toNat

def dropTrailingZeros (ds : List Nat) : List Nat := (ds.reverse.dropWhile (· == 0)).reverse

def Dyadic.shortest (x : Dyadic) : Digits :=
  let i := x.interval
  let magnitude := i.magnitude
  match i.search magnitude 17 1 with
  | none => ⟨[0], 0⟩
  | some (n, count) =>
    let ds := decimalDigits n
    ⟨dropTrailingZeros ds, magnitude + (ds.length - count : Int)⟩

/-- How a number is laid out: positional while the decimal exponent is at least `least` and below
`most`, with a fraction always; otherwise with an exponent of two digits or more. -/
structure Layout where
  least : Int
  most : Int
  nan : String
  infinity : String

def digitText (ds : List Nat) : String := String.ofList (ds.map Nat.digitChar)

def zeros (n : Nat) : String := String.ofList (List.replicate n '0')

def Layout.positional (d : Digits) : String :=
  let count : Int := d.digits.length
  if d.exponent ≤ 0 then "0." ++ zeros (-d.exponent).toNat ++ digitText d.digits
  else if count ≤ d.exponent then digitText d.digits ++ zeros (d.exponent - count).toNat ++ ".0"
  else digitText (d.digits.take d.exponent.toNat) ++ "." ++
    digitText (d.digits.drop d.exponent.toNat)

def Layout.scientific (d : Digits) : String :=
  let power := d.exponent - 1
  let mantissa := match d.digits with
    | [] => "0"
    | [a] => digitText [a]
    | a :: rest => digitText [a] ++ "." ++ digitText rest
  let size := toString power.natAbs
  mantissa ++ "e" ++ (if power < 0 then "-" else "+") ++
    (if size.length < 2 then "0" ++ size else size)

def Layout.text (l : Layout) (x : Float) : String :=
  let sign := if x.toBits.toNat < 0x8000000000000000 then "" else "-"
  if x.isNaN then l.nan
  else if x.isInf then sign ++ l.infinity
  else sign ++ match Dyadic.ofFloat? x with
    | none => "0.0"
    | some v =>
      let d := v.shortest
      if l.least < d.exponent && d.exponent ≤ l.most then Layout.positional d
      else Layout.scientific d

/-! ### Reading and rounding -/

def nearest (mantissa : Nat) (exponent : Int) : Float := .ofModel (.ofScientific mantissa exponent)

def infinity : Float := 1.0 / 0.0

def notANumber : Float := 0.0 / 0.0

/-- Digits of any script with single underscores between them, and what follows. -/
def digitRun (afterDigit : Bool) : List Char → List Nat × List Char
  | [] => ([], [])
  | c :: rest =>
    match Text.digitValue? c with
    | some d =>
      let r := digitRun true rest
      (d :: r.1, r.2)
    | none =>
      if c = '_' && afterDigit && (rest.head?.bind Text.digitValue?).isSome then digitRun false rest
      else ([], c :: rest)

def natOfDigits (ds : List Nat) : Nat := ds.foldl (fun n d => 10 * n + d) 0

def signOf : List Char → Bool × List Char
  | '-' :: rest => (true, rest)
  | '+' :: rest => (false, rest)
  | cs => (false, cs)

def fractionPart : List Char → List Nat × List Char
  | '.' :: rest => digitRun false rest
  | cs => ([], cs)

def exponentPart (cs : List Char) : Int × List Char :=
  match cs with
  | [] => (0, [])
  | c :: rest =>
    if c = 'e' || c = 'E' then
      let (negative, body) := signOf rest
      let (ds, after) := digitRun false body
      if ds.isEmpty then (0, cs)
      else ((if negative then -(natOfDigits ds : Int) else natOfDigits ds), after)
    else (0, cs)

def unsigned? (cs : List Char) : Option Float :=
  let (whole, afterWhole) := digitRun false cs
  let (fraction, afterPoint) := fractionPart afterWhole
  if whole.isEmpty && fraction.isEmpty then none
  else
    let (exponent, rest) := exponentPart afterPoint
    if rest.isEmpty then
      some (nearest (natOfDigits (whole ++ fraction)) (exponent - fraction.length))
    else none

def asciiLower (cs : List Char) : String := String.ofList (cs.map Char.toLower)

def magnitude? (cs : List Char) : Option Float :=
  match asciiLower cs with
  | "inf" | "infinity" => some infinity
  | "nan" => some notANumber
  | _ => unsigned? cs

def read? (s : String) : Option Float :=
  let (negative, body) := signOf (Text.trim s.toList)
  (magnitude? body).map fun x => if negative then -x else x

def roundQuotient (n d : Nat) : Nat :=
  let q := n / d
  let twice := 2 * (n % d)
  if twice < d then q else if d < twice then q + 1 else if q % 2 = 0 then q else q + 1

def roundToThousandths (x : Float) : Float :=
  match Dyadic.ofFloat? x with
  | none => x
  | some v =>
    if x.isNaN || x.isInf || 0 ≤ v.exponent then x
    else
      let n := roundQuotient (v.significand * 1000) (Nat.pow 2 (-v.exponent).toNat)
      let r := nearest n (-3)
      if x.toBits.toNat < 0x8000000000000000 then r else -r

end Booru.Decimal
