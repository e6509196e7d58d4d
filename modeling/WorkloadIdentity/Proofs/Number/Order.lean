
/-! Floating-point numbers as times. Of two that are numbers one is less than the other exactly when
the other is not at most the one, and a finite number that is added to a number gives a
number, though perhaps an infinite one. -/

namespace WorkloadIdentity.Number

open Float.Model

section
variable {a b : UnpackedFloat}

theorem compare_swap (a b : UnpackedFloat) :
    b.compare a = (a.compare b).map Ordering.swap := by
  cases a with
  | notANumber => cases b <;> rfl
  | infinity s =>
    cases b with
    | infinity t => cases s <;> cases t <;> rfl
    | _ => cases s <;> rfl
  | zero s =>
    cases b with
    | infinity t => cases t <;> rfl
    | finite t => cases t <;> rfl
    | _ => rfl
  | finite s m e _ =>
    cases b with
    | infinity t => cases s <;> cases t <;> rfl
    | finite t n f _ =>
      have swapped : (compare f e).then (compare n m) =
          ((compare e f).then (compare m n)).swap := by
        rw [Ordering.swap_then, Std.OrientedOrd.eq_swap (a := f), Std.OrientedOrd.eq_swap (a := n)]
      cases s with
      | negative =>
        cases t with
        | negative => exact congrArg (fun o => some o.swap) swapped
        | positive => rfl
      | positive =>
        cases t with
        | negative => rfl
        | positive => exact congrArg some swapped
    | _ => cases s <;> rfl

theorem exists_compare (number : a ≠ .notANumber) (other : b ≠ .notANumber) :
    ∃ o, a.compare b = some o := by
  cases a with
  | notANumber => exact absurd rfl number
  | infinity s =>
    cases b with
    | notANumber => exact absurd rfl other
    | infinity t => exact ⟨_, rfl⟩
    | _ => cases s <;> exact ⟨_, rfl⟩
  | zero s =>
    cases b with
    | notANumber => exact absurd rfl other
    | zero t => exact ⟨_, rfl⟩
    | _ t => cases t <;> exact ⟨_, rfl⟩
  | finite s m e _ =>
    cases b with
    | notANumber => exact absurd rfl other
    | zero t => cases s <;> exact ⟨_, rfl⟩
    | _ t => cases s <;> cases t <;> exact ⟨_, rfl⟩

theorem dite_ne {c : Prop} [Decidable c] {positive : c → UnpackedFloat}
    {negative : ¬c → UnpackedFloat} (other : ∀ h, positive h ≠ a) (another : ∀ h, negative h ≠ a) :
    dite c positive negative ≠ a := by
  split
  · exact other _
  · exact another _

theorem unpack_packComponents_ne (sign : UnpackedFloat.Sign) {exponent : BitVec 11}
    {mantissa : BitVec 52} (regular : exponent ≠ -1#11 ∨ mantissa = 0#52) :
    UnpackedFloat.unpack Format.binary64
      (UnpackedFloat.packComponents Format.binary64 sign exponent mantissa) ≠ .notANumber := by
  unfold UnpackedFloat.unpack
  dsimp only
  refine iteInduction (motive := (· ≠ UnpackedFloat.notANumber)) (fun full => ?_) fun _ => ?_
  · refine iteInduction (motive := (· ≠ UnpackedFloat.notANumber)) (fun _ => ?_) fun filled => ?_
    · rintro ⟨⟩
    · rw [UnpackedFloat.unpackExponent_packComponents] at full
      rw [UnpackedFloat.unpackMantissa_packComponents] at filled
      exact absurd full (regular.resolve_right filled)
  · refine iteInduction (motive := (· ≠ UnpackedFloat.notANumber)) (fun _ => ?_) fun _ => ?_
    · refine dite_ne (fun _ => ?_) fun _ => ?_ <;> rintro ⟨⟩
    · rintro ⟨⟩

theorem unpack_pack_ne (number : a ≠ .notANumber) :
    (Float.Model.pack a).unpack ≠ .notANumber := by
  cases a with
  | notANumber => exact absurd rfl number
  | infinity s => exact unpack_packComponents_ne s (.inr rfl)
  | zero s => exact unpack_packComponents_ne s (.inr rfl)
  | finite s m e positive =>
    change UnpackedFloat.unpack Format.binary64
      (UnpackedFloat.pack Format.binary64 (.finite s m e positive)) ≠ .notANumber
    unfold UnpackedFloat.pack
    dsimp only
    split
    · exact unpack_packComponents_ne s (.inr rfl)
    · rename_i small
      split
      · refine unpack_packComponents_ne s (.inl fun full => ?_)
        have whole := congrArg BitVec.toNat full
        have below : (e + Format.binary64.exponentBias +
          Format.binary64.mantissaBitsWithoutImplicit).toNat + 1 < 2048 := Nat.lt_of_not_le small
        rw [show (-1#11).toNat = 2047 from rfl, BitVec.toNat_ofNat] at whole
        change _ % 2048 = 2047 at whole
        omega
      · exact unpack_packComponents_ne s (.inl (by decide))

theorem add_ne (number : a ≠ .notANumber) (finite : b.isFinite = true) :
    UnpackedFloat.add Format.binary64 a b ≠ .notANumber := by
  have rounded (s : UnpackedFloat.Sign) (m : Nat) (e : Int) :
      UnpackedFloat.round Format.binary64 s m e ≠ .notANumber := by
    unfold UnpackedFloat.round UnpackedFloat.roundWithAccuracy
    dsimp only
    refine dite_ne (fun _ => ?_) fun _ => ?_ <;> rintro ⟨⟩
  cases a with
  | notANumber => exact absurd rfl number
  | infinity s =>
    cases b with
    | notANumber => cases finite
    | infinity t => cases finite
    | _ => rintro ⟨⟩
  | zero s =>
    cases b with
    | notANumber => cases finite
    | infinity t => cases finite
    | zero t => cases s <;> cases t <;> rintro ⟨⟩
    | finite t n f _ => rintro ⟨⟩
  | finite s m e _ =>
    cases b with
    | notANumber => cases finite
    | infinity t => cases finite
    | zero t => rintro ⟨⟩
    | finite t n f _ =>
      unfold UnpackedFloat.add
      dsimp only
      unfold UnpackedFloat.normalize
      split
      · exact rounded _ _ _
      · rintro ⟨⟩
      · exact rounded _ _ _

end

section
variable {x y : Float}

theorem isNaN_eq_false_iff : x.isNaN = false ↔ x.toModel.unpack ≠ .notANumber := by
  change x.toModel.unpack.isNaN = false ↔ _
  cases x.toModel.unpack with
  | notANumber => exact iff_of_false Bool.noConfusion (absurd rfl)
  | _ => exact iff_of_true rfl (by rintro ⟨⟩)

theorem isFinite_eq (x : Float) : x.isFinite = (!x.isNaN && !x.isInf) := by
  change x.toModel.unpack.isFinite = (!x.toModel.unpack.isNaN && !x.toModel.unpack.isInf)
  cases x.toModel.unpack <;> rfl

theorem isFinite_of_not (number : x.isNaN = false) (bounded : x.isInf = false) :
    x.isFinite = true := by
  rw [isFinite_eq, number, bounded]
  rfl

theorem lt_iff_not_le (hx : x.isNaN = false) (hy : y.isNaN = false) : x < y ↔ ¬y ≤ x := by
  obtain ⟨o, compared⟩ := exists_compare (isNaN_eq_false_iff.mp hx) (isNaN_eq_false_iff.mp hy)
  have less : x < y ↔ x.toModel.unpack.lt y.toModel.unpack = true :=
    ⟨of_decide_eq_true, decide_eq_true⟩
  have most : y ≤ x ↔ y.toModel.unpack.le x.toModel.unpack = true :=
    ⟨of_decide_eq_true, decide_eq_true⟩
  rw [less, most, UnpackedFloat.lt, UnpackedFloat.le, compare_swap x.toModel.unpack, compared]
  cases o <;> decide

theorem isNaN_add (hx : x.isNaN = false) (hy : y.isFinite = true) : (x + y).isNaN = false := by
  rw [isNaN_eq_false_iff] at hx ⊢
  exact unpack_pack_ne (add_ne hx hy)

end

end WorkloadIdentity.Number
