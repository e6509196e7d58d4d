/-! Doubles as exact binary fractions, and the double nearest to a quotient.
A finite double is `significand * 2 ^ exponent`; a quotient of natural numbers is
rounded to the nearest such value, a tie going to the even significand. -/

namespace WorkloadIdentity.Number

structure Parts where
  negative : Bool
  significand : Nat
  exponent : Int

def minExponent : Int := -1074

/-- Significand and exponent of a finite double, read off its bits. -/
def parts (x : Float) : Parts :=
  let bits : Nat := x.toBits.toNat
  let e : Nat := bits / Nat.pow 2 52 % Nat.pow 2 11
  let f : Nat := bits % Nat.pow 2 52
  { negative := bits / Nat.pow 2 63 = 1
    significand := if e = 0 then f else f + Nat.pow 2 52
    exponent := if e = 0 then minExponent else (e : Int) - 1075 }

/-- `x * 2 ^ e` as a natural number, a negative exponent counting as none. -/
def times2 (x : Nat) (e : Int) : Nat := x * Nat.pow 2 e.toNat

/-- `n / d` to the nearest integer, a tie to the even one. -/
def roundDiv (n d : Nat) : Nat :=
  let q := n / d
  let r := n % d
  if 2 * r < d then q
  else if d < 2 * r then q + 1
  else q + q % 2

def assemble (significand : Nat) (exponent : Int) : Float :=
  let bits := (exponent - minExponent).toNat * Nat.pow 2 52 + significand
  if bits < 2047 * Nat.pow 2 52 then Float.ofBits bits.toUInt64
  else Float.ofBits (2047 * Nat.pow 2 52 : Nat).toUInt64

def nearest (n d : Nat) : Float :=
  if n = 0 then 0
  else
    let e : Int := (Nat.log2 n : Int) - (Nat.log2 d : Int) - 53
    let e := if times2 n (-e) / times2 d e < Nat.pow 2 53 then e else e + 1
    let e := max e minExponent
    assemble (roundDiv (times2 n (-e)) (times2 d e)) e

/-- The double nearest to `c * 10 ^ e`; far outside the range no power is formed. -/
def ofDecimal (c : Nat) (e : Int) : Float :=
  let magnitude : Int := (Nat.toDigits 10 c).length + e
  if c = 0 then 0
  else if 400 < magnitude then assemble (Nat.pow 2 53) 1000
  else if magnitude < -400 then 0
  else nearest (c * Nat.pow 10 e.toNat) (Nat.pow 10 (-e).toNat)

def truncate? (x : Float) : Option Int :=
  if x.isNaN || x.isInf then none
  else
    let p := parts x
    let n := times2 p.significand p.exponent / Nat.pow 2 (-p.exponent).toNat
    some (if p.negative then -(n : Int) else n)

def isInteger (x : Float) : Bool :=
  if x.isNaN || x.isInf then false
  else
    let p := parts x
    p.significand % Nat.pow 2 (-p.exponent).toNat = 0

def naturalsBelow (x : Float) : Nat :=
  let p := parts x
  if p.negative then 0
  else
    let d := Nat.pow 2 (-p.exponent).toNat
    (times2 p.significand p.exponent + (d - 1)) / d

theorem naturalsBelow_of_natural {x : Float} {n : Nat} (whole : isInteger x = true)
    (same : truncate? x = some (n : Int)) : naturalsBelow x = n := by
  have positive : 0 < Nat.pow 2 (-(parts x).exponent).toNat := Nat.two_pow_pos _
  simp only [isInteger, Bool.if_false_left, Bool.and_eq_true, decide_eq_true_eq] at whole
  simp only [truncate?, Option.ite_none_left_eq_some, Option.some.injEq] at same
  have divides : Nat.pow 2 (-(parts x).exponent).toNat ∣
      times2 (parts x).significand (parts x).exponent :=
    Nat.dvd_mul_right_of_dvd (Nat.dvd_of_mod_eq_zero whole.2) _
  obtain ⟨k, multiple⟩ := divides
  have quotient := same.2
  rw [multiple, Nat.mul_div_cancel_left _ positive] at quotient
  by_cases negative : (parts x).negative = true
  · rw [if_pos negative] at quotient
    simp only [naturalsBelow, negative, if_true]
    omega
  · rw [if_neg negative] at quotient
    simp only [naturalsBelow, negative, multiple, Nat.mul_add_div positive,
      Nat.div_eq_of_lt (Nat.sub_lt positive Nat.one_pos)]
    simpa using Int.ofNat.inj quotient

end WorkloadIdentity.Number
