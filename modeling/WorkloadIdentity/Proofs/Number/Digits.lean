import Mathlib.Algebra.Ring.Nat
import WorkloadIdentity.Number.Written

/-! Digits of a number, written and read. What is written in a radix up to sixteen is read back as
the number, and a run of digits is below the power of the radix that its length allows. -/

namespace WorkloadIdentity.Number

section
variable {radix : Nat}

theorem digitValue?_digitChar {d : Nat} (small : radix ≤ 16) (below : d < radix) :
    digitValue? radix (Nat.digitChar d) = some d := by
  have listed : ∀ r : Fin 17, ∀ d : Fin 16, d.val < r.val →
      digitValue? r (Nat.digitChar d) = some d.val := by decide +kernel
  exact listed ⟨radix, by omega⟩ ⟨d, by omega⟩ below

theorem lt_of_digitValue? {v : Nat} {c : Char} (read : digitValue? radix c = some v) :
    v < radix := by
  simp only [digitValue?, Option.ite_none_right_eq_some, Option.some.injEq] at read
  exact read.2 ▸ read.1

def shifted? (radix : Nat) (n : Option Nat) (c : Char) : Option Nat :=
  n.bind fun n => (digitValue? radix c).map (radix * n + ·)

theorem ofDigits?_of_ne_nil {s : List Char} (filled : s ≠ []) :
    ofDigits? radix s = s.foldl (shifted? radix) (some 0) := by
  have filled : s.isEmpty = false := by simpa using filled
  simp only [ofDigits?, filled]
  rfl

theorem ofDigits?_toDigits (least : 1 < radix) (small : radix ≤ 16) (n : Nat) :
    ofDigits? radix (Nat.toDigits radix n) = some n := by
  rw [ofDigits?_of_ne_nil Nat.toDigits_ne_nil]
  induction n using Nat.strongRecOn with
  | ind n ih =>
    by_cases below : n < radix
    · rw [Nat.toDigits_of_lt_base below]
      simp [shifted?, digitValue?_digitChar small below]
    · rw [Nat.toDigits_of_base_le least (by omega), List.foldl_append,
        ih _ (Nat.div_lt_self (by omega) least)]
      simp [shifted?, digitValue?_digitChar small (Nat.mod_lt n (by omega)), Nat.div_add_mod]

theorem foldl_shifted?_none (s : List Char) : s.foldl (shifted? radix) none = none := by
  induction s with
  | nil => rfl
  | cons c s ih => exact ih

theorem foldl_shifted?_lt {m n : Nat} {s : List Char}
    (read : s.foldl (shifted? radix) (some m) = some n) : n < (m + 1) * radix ^ s.length := by
  induction s generalizing m with
  | nil =>
    cases read
    simp
  | cons c s ih =>
    rw [List.foldl_cons] at read
    cases digit : digitValue? radix c with
    | none => simp [shifted?, digit, foldl_shifted?_none] at read
    | some v =>
      have below := lt_of_digitValue? digit
      simp only [shifted?, digit, Option.bind_some, Option.map_some] at read
      calc n < (radix * m + v + 1) * radix ^ s.length := ih read
        _ ≤ (radix * (m + 1)) * radix ^ s.length :=
          Nat.mul_le_mul_right _ (by rw [Nat.mul_add]; omega)
        _ = (m + 1) * radix ^ (c :: s).length := by
          rw [List.length_cons, Nat.pow_succ', Nat.mul_comm radix (m + 1), Nat.mul_assoc]

theorem lt_of_ofDigits? {n : Nat} {s : List Char} (read : ofDigits? radix s = some n) :
    n < radix ^ s.length := by
  have filled : s ≠ [] := by
    rintro rfl
    cases read
  rw [ofDigits?_of_ne_nil filled] at read
  simpa using foldl_shifted?_lt read

theorem exists_digitChar_of_mem {n : Nat} {c : Char} (least : 1 < radix)
    (member : c ∈ Nat.toDigits radix n) : ∃ d < radix, c = Nat.digitChar d := by
  induction n using Nat.strongRecOn with
  | ind n ih =>
    rw [Nat.toDigits_eq_if least] at member
    split at member
    · exact ⟨n, ‹_›, by simpa using member⟩
    · rcases List.mem_append.mp member with before | last
      · exact ih _ (Nat.div_lt_self (by omega) least) before
      · exact ⟨n % radix, Nat.mod_lt n (by omega), by simpa using last⟩

end

end WorkloadIdentity.Number
