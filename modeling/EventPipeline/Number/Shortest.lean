import EventPipeline.Number.Decimal

/-!
The shortest decimal that reads back as a given binary floating-point number, and how it is written.
-/

set_option autoImplicit false

namespace EventPipeline

structure Decimal where
  digits : Nat
  exponent : Int
deriving DecidableEq, Repr

namespace Decimal

-- A finite positive number in quarters of its last binary place: the number itself and the two ends
-- of the interval of reals that round to it.
structure Rounding where
  low : Nat
  value : Nat
  high : Nat
  closed : Bool
  scale : Int
deriving DecidableEq, Repr

-- `significand * 2 ^ exponent`; the gap below a power of two is half as wide.
def rounding (significand : Nat) (exponent : Int) (atPower : Bool) : Rounding where
  low := 4 * significand - (if atPower then 1 else 2)
  value := 4 * significand
  high := 4 * significand + 2
  closed := significand % 2 == 0
  scale := exponent - 2

-- The multiple of `10 ^ exponent` nearest to the number among those that round to it. Of two that
-- are equally near, it is the even one.
def onGrid? (r : Rounding) (exponent : Int) : Option Nat :=
  let up := Nat.pow 2 r.scale.toNat * Nat.pow 10 (-exponent).toNat
  let down := Nat.pow 2 (-r.scale).toNat * Nat.pow 10 exponent.toNat
  let inside (n : Nat) : Bool :=
    if r.closed then r.low * up ≤ n * down && n * down ≤ r.high * up
    else r.low * up < n * down && n * down < r.high * up
  let below := r.value * up / down
  let above := below + 1
  let toAbove := above * down - r.value * up
  let toBelow := r.value * up - below * down
  let preferAbove := toAbove < toBelow || (toAbove == toBelow && above % 2 == 0)
  match inside below && below != 0, inside above with
  | true, true => some (if preferAbove then above else below)
  | true, false => some below
  | false, true => some above
  | false, false => none

-- Tries the grids from the coarsest to the finest.
def search (r : Rounding) : Nat → Int → Decimal
  | 0, exponent => ⟨0, exponent⟩
  | fuel + 1, exponent =>
      match onGrid? r exponent with
      | some digits => ⟨digits, exponent⟩
      | none => search r fuel (exponent - 1)

def hiddenBit : Nat := 4503599627370496

def ofFloat (x : Float) : Decimal :=
  let bits := x.toBits.toNat
  let fraction := bits % hiddenBit
  let power : Nat := bits / hiddenBit % 2048
  if power = 0 ∧ fraction = 0 then ⟨0, 0⟩
  else if power = 0 then search (rounding fraction (-1074) false) 660 310
  else
    search (rounding (fraction + hiddenBit) (Int.ofNat power - 1075) (fraction == 0 && power != 1)) 660 310

def padLeft (width : Nat) (chars : List Char) : List Char :=
  List.replicate (width - chars.length) '0' ++ chars

def positional (d : Decimal) : List Char :=
  let chars := Nat.toDigits 10 d.digits
  if 0 ≤ d.exponent then chars ++ List.replicate d.exponent.toNat '0' ++ ['.', '0']
  else
    let places := (-d.exponent).toNat
    let padded := padLeft (places + 1) chars
    padded.take (padded.length - places) ++ '.' :: padded.drop (padded.length - places)

def scientific (d : Decimal) (magnitude : Int) : List Char :=
  let mantissa :=
    match Nat.toDigits 10 d.digits with
    | first :: second :: rest => first :: '.' :: second :: rest
    | chars => chars
  mantissa ++ 'e' :: (if 0 ≤ magnitude then '+' else '-') :: Nat.toDigits 10 magnitude.natAbs

def text (d : Decimal) : String :=
  let magnitude := d.exponent + ((Nat.toDigits 10 d.digits).length - 1 : Nat)
  String.ofList
    (if d.digits = 0 ∨ -5 ≤ magnitude ∧ magnitude ≤ 15 then d.positional
      else d.scientific magnitude)

end Decimal

def floatText (x : Float) : String :=
  (if 9223372036854775808 ≤ x.toBits.toNat then "-" else "") ++ (Decimal.ofFloat x).text

end EventPipeline
