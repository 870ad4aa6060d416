import TransactionLookup.Decimal.Natural

/-!
# Shortest decimals

The decimal with the fewest digits that lies in the interval of reals which round to a given
binary number, and of those with so few digits the nearest. A coarser grid of decimals is tried
before a finer one; on each grid only the two neighbours of the number matter.
-/

namespace TransactionLookup.Decimal

/-- A positive binary number `mantissa * 2 ^ exponent`. -/
structure Binary where
  mantissa : Nat
  exponent : Int
  deriving DecidableEq, Repr

/-- A decimal number `digits * 10 ^ exponent`. -/
structure Scientific where
  digits : Nat
  exponent : Int
  deriving DecidableEq, Repr

/-- The least mantissa of a double with all its places, `2 ^ 52`. -/
def leastNormal : Nat := 4503599627370496

/-- The size of a positive finite double, by its bits. -/
def Binary.ofBits (bits : UInt64) : Binary :=
  let fraction := bits.toNat % leastNormal
  let field := bits.toNat / leastNormal % 2048
  if field = 0 then ⟨fraction, -1074⟩ else ⟨fraction + leastNormal, (field : Int) - 1075⟩

/-- A power with an integer exponent, as a numerator and a denominator. -/
def power (base : Nat) (exponent : Int) : Nat × Nat :=
  if exponent < 0 then (1, base.pow exponent.natAbs) else (base.pow exponent.toNat, 1)

/-- The decimal with exponent `k` that rounds to `b`, if there is one: of two, the nearer, and of
two equally near the even one. All sides are multiples of a quarter of the last binary place. -/
def Binary.onGrid? (b : Binary) (k : Int) : Option Nat :=
  let (unitNum, unitDen) := power 2 (b.exponent - 2)
  let (gridNum, gridDen) := power 10 k
  -- below the least mantissa of an exponent the doubles are twice as close
  let below := if b.mantissa = leastNormal ∧ b.exponent ≠ -1074 then 1 else 2
  let scale := unitNum * gridDen
  let grid := gridNum * unitDen
  let target := 4 * b.mantissa * scale
  let low := (4 * b.mantissa - below) * scale
  let high := (4 * b.mantissa + 2) * scale
  -- a bound itself is rounded to the even mantissa
  let closed := b.mantissa % 2 = 0
  let inside (d : Nat) : Bool :=
    if closed then low ≤ d * grid && d * grid ≤ high else low < d * grid && d * grid < high
  let d := target / grid
  match inside d, inside (d + 1) with
  | true, true =>
    let down := target - d * grid
    let up := (d + 1) * grid - target
    if down < up then some d
    else if up < down then some (d + 1)
    else if d % 2 = 0 then some d else some (d + 1)
  | true, false => some d
  | false, true => some (d + 1)
  | false, false => none

/-- The exponents of the grids, coarsest first. Every double has a decimal on one of them. -/
def gridExponents : List Int := (List.range 660).map fun (i : Nat) => 310 - (i : Int)

/-- The shortest decimal that rounds to a binary number. -/
def Binary.shortest (b : Binary) : Scientific :=
  (gridExponents.findSome? fun k => (b.onGrid? k).map fun d => ⟨d, k⟩).getD ⟨0, 0⟩

/-- How a format writes a decimal: the exponents of the first digit from `positionalFrom` to
`positionalTo` without a power of ten, all others with one. -/
structure Style where
  positionalFrom : Int
  positionalTo : Int

/-- A decimal as text. Positional notation always has a point, and a power of ten always a sign. -/
def Scientific.text (style : Style) (s : Scientific) : List Char :=
  let ds := Decimal.digits s.digits
  let lead : Int := s.exponent + ds.length - 1
  if style.positionalFrom ≤ lead ∧ lead ≤ style.positionalTo then
    if 0 ≤ s.exponent then ds ++ List.replicate s.exponent.toNat '0' ++ ['.', '0']
    else if 0 ≤ lead then
      let whole := lead.toNat + 1
      ds.take whole ++ '.' :: ds.drop whole
    else '0' :: '.' :: List.replicate (lead.natAbs - 1) '0' ++ ds
  else
    let fraction := if ds.length = 1 then [] else '.' :: ds.drop 1
    let sign := if lead < 0 then '-' else '+'
    ds.take 1 ++ fraction ++ 'e' :: sign :: Decimal.digits lead.natAbs

/-- A double as text, its sign and zero included. -/
def textOfDouble (style : Style) (x : Float) : List Char :=
  let bits := x.toBits
  let sign := if 9223372036854775808 ≤ bits.toNat then ['-'] else []
  let size := Binary.ofBits bits
  if size.mantissa = 0 then sign ++ ['0', '.', '0'] else sign ++ size.shortest.text style

end TransactionLookup.Decimal
