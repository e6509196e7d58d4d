import Mathlib.Algebra.Order.Ring.Nat
import Mathlib.Data.List.TakeWhile
import WorkloadIdentity.Proofs.Number.Digits

/-! What the text of a finite number looks like: digits that begin with no needless zero, perhaps a
point with more digits behind it, perhaps an exponent. The digits are never missing, since the
search for the shortest ones ends with a number above zero, whatever grid it ends on. -/

namespace WorkloadIdentity.Number

structure IsWhole (s : List Char) : Prop where
  filled : s ≠ []
  digits : ∀ c ∈ s, c.isDigit = true
  led : s.head? = some '0' → s = ['0']

def IsFraction (s : List Char) : Prop :=
  s = [] ∨ ∃ c digits, s = '.' :: c :: digits ∧ ∀ d ∈ c :: digits, d.isDigit = true

def IsExponent (s : List Char) : Prop := s = [] ∨ ∃ e, s = exponentMark e

/-- A number without a sign as it is written. -/
inductive IsNotation : List Char → Prop
  | parts {whole fraction exponent : List Char} (number : IsWhole whole)
      (behind : IsFraction fraction) (power : IsExponent exponent) :
      IsNotation (whole ++ (fraction ++ exponent))

theorem head?_toDigits_ne {n : Nat} (positive : 0 < n) : (Nat.toDigits 10 n).head? ≠ some '0' := by
  induction n using Nat.strongRecOn with
  | ind n ih =>
    by_cases below : n < 10
    · have listed : ∀ d : Fin 10, 0 < d.val → Nat.digitChar d.val ≠ '0' := by decide
      simpa [Nat.toDigits_of_lt_base below] using listed ⟨n, below⟩ positive
    · have first := ih (n / 10) (by omega) (by omega)
      rw [Nat.toDigits_of_base_le (by decide) (by omega), List.head?_append]
      cases front : (Nat.toDigits 10 (n / 10)).head? with
      | none => exact absurd (List.head?_eq_none_iff.mp front) Nat.toDigits_ne_nil
      | some c => simpa [front] using first

theorem pow_le_of_toDigits {n : Nat} (positive : 0 < n) :
    10 ^ ((Nat.toDigits 10 n).length - 1) ≤ n := by
  rcases Nat.eq_zero_or_pos ((Nat.toDigits 10 n).length - 1) with single | longer
  · rw [single]
    exact positive
  · refine Nat.le_of_not_lt fun small => ?_
    have short := (Nat.length_toDigits_le_iff (by decide) longer).mpr small
    have filled : 0 < (Nat.toDigits 10 n).length := Nat.length_toDigits_pos
    omega

theorem lt_pow_toDigits (n : Nat) : n < 10 ^ (Nat.toDigits 10 n).length :=
  (Nat.length_toDigits_le_iff (by decide) Nat.length_toDigits_pos).mp (Nat.le_refl _)

theorem denominator_le_of_decade {n d : Nat} {p : Int} (positive : 0 < n) (filled : 0 < d)
    (within : p ≤ decade n d) : 10 ^ p.toNat * d ≤ n * 10 ^ (-p).toNat := by
  unfold decade at within
  split at within
  · rename_i least
    have quotient : 0 < n / d := Nat.div_pos least filled
    rcases Int.le_total 0 p with up | down
    · have power : p.toNat ≤ (Nat.toDigits 10 (n / d)).length - 1 := by omega
      calc 10 ^ p.toNat * d
          ≤ (n / d) * d := Nat.mul_le_mul_right d
            ((Nat.pow_le_pow_right (by decide) power).trans (pow_le_of_toDigits quotient))
        _ ≤ n := Nat.div_mul_le_self n d
        _ ≤ n * 10 ^ (-p).toNat := Nat.le_mul_of_pos_right n (Nat.pow_pos (by decide))
    · rw [show p.toNat = 0 by omega, Nat.pow_zero, Nat.one_mul]
      exact least.trans (Nat.le_mul_of_pos_right n (Nat.pow_pos (by decide)))
  · have power : (Nat.toDigits 10 ((d - 1) / n)).length ≤ (-p).toNat := by omega
    have large : d - 1 < 10 ^ (Nat.toDigits 10 ((d - 1) / n)).length * n :=
      (Nat.div_lt_iff_lt_mul positive).mp (lt_pow_toDigits _)
    rw [show p.toNat = 0 by omega, Nat.pow_zero, Nat.one_mul]
    calc d ≤ 10 ^ (Nat.toDigits 10 ((d - 1) / n)).length * n := by omega
      _ ≤ 10 ^ (-p).toNat * n :=
        Nat.mul_le_mul_right n (Nat.pow_le_pow_right (by decide) power)
      _ = n * 10 ^ (-p).toNat := Nat.mul_comm _ _

namespace Span

variable {s : Span} {p : Int} {c : Nat}

theorem pos_of_holds (positive : 0 < s.low) (held : s.holds p c = true) : 0 < c := by
  have low : 0 < s.numerator p s.low :=
    Nat.mul_pos (Nat.mul_pos positive (Nat.two_pow_pos _)) (Nat.pow_pos (by decide))
  refine Nat.pos_of_ne_zero ?_
  rintro rfl
  simp only [holds, Nat.zero_mul] at held
  split at held
  · simp only [Bool.and_eq_true, decide_eq_true_eq] at held
    omega
  · simp at held

theorem holds_of_onGrid? (found : s.onGrid? p = some c) : s.holds p c = true := by
  unfold onGrid? at found
  grind

theorem denominator_le_numerator (positive : 0 < s.mid)
    (within : p ≤ decade (s.numerator 0 s.mid) (s.denominator 0)) :
    s.denominator p ≤ s.numerator p s.mid := by
  have mid : 0 < times2 s.mid s.exponent := Nat.mul_pos positive (Nat.two_pow_pos _)
  have numerator : s.numerator 0 s.mid = times2 s.mid s.exponent := Nat.mul_one _
  have denominator : s.denominator 0 = Nat.pow 2 (-s.exponent).toNat := Nat.one_mul _
  rw [numerator, denominator] at within
  exact denominator_le_of_decade mid (Nat.two_pow_pos _) within

theorem coefficient_search_pos (positive : 0 < s.low) {n : Nat}
    (coarse : s.denominator (p - n) ≤ s.numerator (p - n) s.mid) :
    0 < (s.search n p).coefficient := by
  induction n generalizing p with
  | zero =>
    have filled : 0 < s.denominator p :=
      Nat.mul_pos (Nat.pow_pos (by decide)) (Nat.two_pow_pos _)
    exact Nat.div_pos (by simpa using coarse) filled
  | succ n ih =>
    rw [search]
    cases found : s.onGrid? p with
    | some c => exact pos_of_holds positive (holds_of_onGrid? found)
    | none => exact ih (by rwa [show p - 1 - (n : Int) = p - (n + 1 : Nat) by omega])

end Span

theorem coefficient_shortest_pos {m : Nat} (positive : 0 < m) (q : Int) :
    0 < (shortest m q).coefficient := by
  have low : 0 < (span m q).low := by
    simp only [span]
    split <;> omega
  have mid : 0 < (span m q).mid := Nat.mul_pos (by decide) positive
  exact Span.coefficient_search_pos low (Span.denominator_le_numerator mid (by omega))

structure IsLed (s : List Char) : Prop where
  filled : s ≠ []
  digits : ∀ c ∈ s, c.isDigit = true
  led : s.head? ≠ some '0'

theorem IsLed.isWhole {s : List Char} (led : IsLed s) : IsWhole s :=
  ⟨led.filled, led.digits, fun zero => absurd zero led.led⟩

theorem IsLed.of_append {front back : List Char} (led : IsLed (front ++ back))
    (filled : front ≠ []) : IsLed front := by
  obtain ⟨c, front, rfl⟩ := List.exists_cons_of_ne_nil filled
  exact ⟨filled, fun d member => led.digits d (List.mem_append_left _ member), led.led⟩

theorem isDigit_of_mem_decimalDigits {n : Nat} {c : Char} (member : c ∈ decimalDigits n) :
    c.isDigit = true :=
  Nat.isDigit_of_mem_toDigits (by decide) (by decide) member

theorem isLed_decimalDigits {n : Nat} (positive : 0 < n) : IsLed (decimalDigits n) :=
  ⟨Nat.toDigits_ne_nil, fun _ => isDigit_of_mem_decimalDigits, head?_toDigits_ne positive⟩

theorem isLed_significant {d : Decimal} (positive : 0 < d.coefficient) :
    IsLed d.significant.1 := by
  have led := isLed_decimalDigits positive
  have split : d.significant.1 ++
      ((decimalDigits d.coefficient).reverse.takeWhile (· = '0')).reverse =
        decimalDigits d.coefficient := by
    rw [Decimal.significant, ← List.reverse_append, List.takeWhile_append_dropWhile,
      List.reverse_reverse]
  refine IsLed.of_append (split.symm ▸ led) fun nothing => ?_
  rw [nothing, List.nil_append] at split
  have zeros : ∀ c ∈ decimalDigits d.coefficient, c = '0' := by
    intro c member
    rw [← split, List.mem_reverse] at member
    simpa using List.mem_takeWhile_imp member
  obtain ⟨c, rest, first⟩ := List.exists_cons_of_ne_nil led.filled
  exact led.led (by rw [first, zeros c (by simp [first])]; rfl)

theorem isDigit_of_mem_zeros {n : Int} {c : Char} (member : c ∈ zeros n) : c.isDigit = true := by
  rw [List.eq_of_mem_replicate member]
  rfl

theorem isNotation_place (l : Layout) {digits : List Char} (led : IsLed digits) (point : Int) :
    IsNotation (l.place digits point) := by
  unfold Layout.place
  split
  · rename_i inside
    split
    · have whole : IsWhole (digits ++ zeros (point - digits.length)) := by
        obtain ⟨c, rest, rfl⟩ := List.exists_cons_of_ne_nil led.filled
        refine ⟨List.cons_ne_nil _ _, fun d member => ?_, fun zero => absurd zero led.led⟩
        rcases List.mem_append.mp member with there | there
        · exact led.digits d there
        · exact isDigit_of_mem_zeros there
      simpa using IsNotation.parts whole (.inl rfl) (.inl rfl)
    · rename_i longer
      have front : IsLed (digits.take point.toNat) := by
        refine IsLed.of_append (by rwa [List.take_append_drop]) fun nothing => ?_
        have length := congrArg List.length nothing
        rw [List.length_take, List.length_nil] at length
        omega
      obtain ⟨c, rest, behind⟩ : ∃ c rest, digits.drop point.toNat = c :: rest := by
        refine List.exists_cons_of_ne_nil fun nothing => ?_
        have length := congrArg List.length nothing
        rw [List.length_drop, List.length_nil] at length
        omega
      have fraction : IsFraction ('.' :: digits.drop point.toNat) := by
        refine .inr ⟨c, rest, by rw [behind], fun d member => led.digits d ?_⟩
        exact List.mem_of_mem_drop (behind ▸ member)
      simpa using IsNotation.parts front.isWhole fraction (.inl rfl)
  · split
    · have zero : IsWhole ['0'] := ⟨by simp, by simp, fun _ => rfl⟩
      have fraction : IsFraction ('.' :: (zeros (-point) ++ digits)) := by
        obtain ⟨c, rest, behind⟩ := List.exists_cons_of_ne_nil
          (List.append_ne_nil_of_right_ne_nil (zeros (-point)) led.filled)
        refine .inr ⟨c, rest, by rw [behind], fun d member => ?_⟩
        rcases List.mem_append.mp (behind ▸ member) with there | there
        · exact isDigit_of_mem_zeros there
        · exact led.digits d there
      simpa using IsNotation.parts zero fraction (.inl rfl)
    · split
      · exact IsNotation.parts led.isWhole (.inl rfl) (.inr ⟨_, rfl⟩)
      · rename_i d rest several
        have first : IsLed [d] := IsLed.of_append led (List.cons_ne_nil _ _)
        obtain ⟨c, later, rfl⟩ := List.exists_cons_of_ne_nil several
        have fraction : IsFraction ('.' :: c :: later) :=
          .inr ⟨c, later, rfl, fun e member => led.digits e (List.mem_cons_of_mem d member)⟩
        exact IsNotation.parts first.isWhole fraction (.inr ⟨_, rfl⟩)
      · exact absurd rfl led.filled

theorem isNotation_chars {x : Float} (finite : (x.isNaN || x.isInf) = false) :
    ∃ s, IsNotation s ∧ (chars x = s ∨ chars x = '-' :: s) := by
  obtain ⟨number, bounded⟩ := Bool.or_eq_false_iff.mp finite
  unfold chars
  rw [if_neg (Bool.eq_false_iff.mp number), if_neg (Bool.eq_false_iff.mp bounded)]
  by_cases zero : (parts x).significand = 0
  · refine ⟨['0'], ?_, .inl (by simp [zero])⟩
    exact IsNotation.parts ⟨by simp, by simp, fun _ => rfl⟩ (.inl rfl) (.inl rfl)
  · have led := isLed_significant
      (coefficient_shortest_pos (Nat.pos_of_ne_zero zero) (parts x).exponent)
    refine ⟨_, isNotation_place layout led
      (shortest (parts x).significand (parts x).exponent).significant.2, ?_⟩
    cases negative : (parts x).negative with
    | false => exact .inl (by simp [zero, negative])
    | true => exact .inr (by simp [zero, negative])

theorem takeWhile_isDigit_append {digits rest : List Char} (all : ∀ c ∈ digits, c.isDigit = true)
    (stops : ∀ c, rest.head? = some c → c.isDigit = false) :
    (digits ++ rest).takeWhile Char.isDigit = digits ∧
      (digits ++ rest).dropWhile Char.isDigit = rest := by
  rw [List.takeWhile_append_of_pos all, List.dropWhile_append_of_pos all]
  cases rest with
  | nil => simp
  | cons c rest => simp [stops c rfl]

theorem exponent?_of_isExponent {s : List Char} (power : IsExponent s) :
    ∃ e, exponent? s = some e := by
  rcases power with rfl | ⟨e, rfl⟩
  · exact ⟨0, rfl⟩
  · have read : ofDigits? 10 (Nat.toDigits 10 e.natAbs) = some e.natAbs :=
      ofDigits?_toDigits (by decide) (by decide) e.natAbs
    unfold exponentMark decimalDigits
    split <;> simp [exponent?, read]

theorem not_isDigit_of_isExponent {s : List Char} (power : IsExponent s) {c : Char}
    (first : s.head? = some c) : c.isDigit = false := by
  rcases power with rfl | ⟨e, rfl⟩
  · cases first
  · cases first
    rfl

theorem not_isDigit_of_fraction {fraction exponent : List Char} (behind : IsFraction fraction)
    (power : IsExponent exponent) {c : Char} (first : (fraction ++ exponent).head? = some c) :
    c.isDigit = false := by
  rcases behind with rfl | ⟨d, digits, rfl, -⟩
  · exact not_isDigit_of_isExponent power first
  · cases first
    rfl

theorem unsigned?_of_isNotation {s : List Char} (written : IsNotation s) :
    ∃ x, unsigned? s = some x := by
  cases written with
  | @parts whole fraction exponent number behind power =>
    obtain ⟨e, read⟩ := exponent?_of_isExponent power
    obtain ⟨taken, left⟩ := takeWhile_isDigit_append number.digits
      fun c => not_isDigit_of_fraction behind power
    have filled : whole.isEmpty = false := by simpa using number.filled
    have other : whole ++ (fraction ++ exponent) ≠ "Infinity".toList := by
      obtain ⟨c, rest, rfl⟩ := List.exists_cons_of_ne_nil number.filled
      intro same
      have digit := number.digits c (List.mem_cons_self ..)
      rw [(List.cons.inj same).1] at digit
      cases digit
    simp only [unsigned?, if_neg other, taken, left, filled, Bool.false_and]
    rcases behind with rfl | ⟨c, digits, rfl, all⟩
    · obtain rfl | ⟨r, rfl⟩ : exponent = [] ∨ ∃ r, exponent = 'e' :: r :=
        power.imp id fun ⟨e, marked⟩ => ⟨_, marked⟩
      · simp [read]
      · simp [read]
    · obtain ⟨-, last⟩ := takeWhile_isDigit_append all fun c => not_isDigit_of_isExponent power
      rw [List.cons_append] at last
      simp [last, read]

end WorkloadIdentity.Number
