import WorkloadIdentity.Number.Rounding

/-! The fewest decimal digits that read back as the same double.
The reals that round to `m * 2 ^ q` form an interval, closed when `m` is even. On
the grid of multiples of `10 ^ p`, only the two neighbours of the value need a
test; the coarsest grid with a neighbour in the interval gives the digits, and of
two such neighbours the nearer one. All comparisons are between natural numbers. -/

namespace WorkloadIdentity.Number

structure Decimal where
  coefficient : Nat
  exponent : Int

/-- A value and its two half-way points, in quarters of the last binary place. -/
structure Span where
  low : Nat
  mid : Nat
  high : Nat
  closed : Bool
  exponent : Int

def span (m : Nat) (q : Int) : Span where
  low := 4 * m - (if m = Nat.pow 2 52 ∧ minExponent < q then 1 else 2)
  mid := 4 * m
  high := 4 * m + 2
  closed := m % 2 = 0
  exponent := q - 2

/-- `x * 2 ^ e` over `10 ^ p` is this numerator over `Span.denominator`. -/
def Span.numerator (s : Span) (p : Int) (x : Nat) : Nat :=
  times2 x s.exponent * Nat.pow 10 (-p).toNat

def Span.denominator (s : Span) (p : Int) : Nat :=
  Nat.pow 10 p.toNat * Nat.pow 2 (-s.exponent).toNat

def Span.holds (s : Span) (p : Int) (c : Nat) : Bool :=
  let d := s.denominator p
  if s.closed then s.numerator p s.low ≤ c * d && c * d ≤ s.numerator p s.high
  else s.numerator p s.low < c * d && c * d < s.numerator p s.high

/-- The nearer of the two grid neighbours that lie in the interval, an exact tie to the even one. -/
def Span.onGrid? (s : Span) (p : Int) : Option Nat :=
  let n := s.numerator p s.mid
  let d := s.denominator p
  let lo := n / d
  let hi := lo + 1
  match s.holds p lo, s.holds p hi with
  | true, true =>
    if n - lo * d < hi * d - n then some lo
    else if hi * d - n < n - lo * d then some hi
    else some (if lo % 2 = 0 then lo else hi)
  | true, false => some lo
  | false, true => some hi
  | false, false => none

/-- The exponent `e` with `10 ^ e ≤ n / d < 10 ^ (e + 1)`. -/
def decade (n d : Nat) : Int :=
  if d ≤ n then ((Nat.toDigits 10 (n / d)).length : Int) - 1
  else -((Nat.toDigits 10 ((d - 1) / n)).length : Int)

def Span.search (s : Span) : Nat → Int → Decimal
  | 0, p => { coefficient := s.numerator p s.mid / s.denominator p, exponent := p }
  | n + 1, p =>
    match s.onGrid? p with
    | some c => { coefficient := c, exponent := p }
    | none => s.search n (p - 1)

/-- Seventeen digits always suffice. -/
def shortest (m : Nat) (q : Int) : Decimal :=
  let s := span m q
  s.search 17 (decade (s.numerator 0 s.mid) (s.denominator 0))

end WorkloadIdentity.Number
