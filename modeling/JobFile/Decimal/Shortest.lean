/-!
# Shortest decimal

* `Binary`        : a positive binary fraction `m · 2 ^ q` with the reals that round to it;
* `Binary.ofBits` : the fraction that the bits of a finite nonzero double denote;
* `shortest`      : the decimal of fewest digits that rounds back to it.

A decimal `d · 10 ^ k` is looked for on ever finer grids: the first power of ten a multiple of
which rounds back wins, of two such multiples the nearer, and of two equally near ones the even.
-/

namespace JobFile.Decimal

/-- The value `m · 2 ^ q`.  At a power of two the neighbour below is only half as far away as the
one above. -/
structure Binary where
  m : Nat
  q : Int
  narrowBelow : Bool
  deriving DecidableEq, Repr

/-- The fraction that the lower 63 bits of a finite nonzero double denote. -/
def Binary.ofBits (bits : Nat) : Binary :=
  let exponent := bits / 0x10000000000000 % 0x800
  let fraction := bits % 0x10000000000000
  if exponent = 0 then ⟨fraction, -1074, false⟩
  else ⟨0x10000000000000 + fraction, Int.ofNat exponent - 1075, fraction = 0 ∧ 1 < exponent⟩

/-- A decimal `digits · 10 ^ exponent`. -/
structure Scientific where
  digits : Nat
  exponent : Int
  deriving DecidableEq, Repr

/-- The reals that round to a fraction, scaled to whole numbers: in units of a quarter of the last
binary place, brought to one denominator with `10 ^ k`. -/
structure Window where
  low : Nat
  value : Nat
  high : Nat
  /-- The distance of two neighbours on the decimal grid. -/
  step : Nat
  /-- Do the ends themselves round to the fraction? -/
  closed : Bool

/-- The window of a fraction over the multiples of `10 ^ k`. -/
def Binary.window (b : Binary) (k : Int) : Window :=
  let scale := Nat.pow 2 (b.q - 2).toNat * Nat.pow 10 (-k).toNat
  { low := (4 * b.m - if b.narrowBelow then 1 else 2) * scale
    value := 4 * b.m * scale
    high := (4 * b.m + 2) * scale
    step := Nat.pow 10 k.toNat * Nat.pow 2 (2 - b.q).toNat
    closed := b.m % 2 = 0 }

/-- Does the multiple `d` of the step round to the fraction? -/
def Window.holds (w : Window) (d : Nat) : Bool :=
  let x := d * w.step
  if w.closed then w.low ≤ x && x ≤ w.high else w.low < x && x < w.high

/-- The multiple of the step that rounds to the fraction and is nearest to it. -/
def Window.nearest? (w : Window) : Option Nat :=
  let below := w.value / w.step
  let above := below + 1
  match w.holds below, w.holds above with
  | true, true =>
    let down := w.value - below * w.step
    let up := above * w.step - w.value
    if down < up then some below
    else if up < down then some above
    else some (if below % 2 = 0 then below else above)
  | true, false => some below
  | false, true => some above
  | false, false => none

/-- The decimal of fewest digits that rounds to the fraction.  The finest grid that a double can
need has the step `10 ^ (-324)`. -/
def shortest (b : Binary) : Scientific :=
  let grids := (List.range 634).map fun i => 309 - Int.ofNat i
  match grids.findSome? fun k => ((b.window k).nearest?).map fun d => Scientific.mk d k with
  | some s => s
  | none => ⟨b.m, b.q⟩

end JobFile.Decimal
