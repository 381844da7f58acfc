import Orchestration.Proofs.Digits

/-!
# The doubles of large integers

A double is finite if its exponent is not the greatest one. The exponent of an integer grows with
the logarithm of the integer, so that the double of an integer of 64 bits is far from being infinite
(`Decimal.isFinite_ofInt`), also where the integer has to be rounded.
-/

namespace Orchestration

namespace Decimal

open Float.Model Float.Model.UnpackedFloat
open Float.Model.Format (binary64)

/-- A double is a number, and a finite one. -/
def IsFinite (x : Float) : Prop := x.isNaN = false ∧ x.isInf = false

/-! ## Exponents that rounding leaves moderate -/

/-- A number that is zero, or whose exponent is far below the greatest. -/
def IsModerate (x : UnpackedFloat) : Prop :=
  (∃ s, x = .zero s) ∨ ∃ s m e hm, x = .finite s m e hm ∧ e ≤ 900

theorem mantissa_shiftRight_le (m : ExtendedMantissa) (k : Nat) :
    (m >>> k).mantissa ≤ m.mantissa := by
  show (Nat.repeat _ k m).mantissa ≤ _
  induction k with
  | zero => exact Nat.le_refl _
  | succ k ih =>
    show (ExtendedMantissa.shiftRightOne (Nat.repeat _ k m)).mantissa ≤ _
    exact Nat.le_trans (Nat.div_le_self _ _) ih

theorem roundedMantissa_le (m : ExtendedMantissa) : m.roundedMantissa ≤ m.mantissa + 1 := by
  unfold ExtendedMantissa.roundedMantissa Accuracy.roundToNearestEven
  split <;> omega

theorem isModerate_of_exponent_le {s : Sign} {m : Nat} {e : Int} (he : e ≤ 900) :
    IsModerate (if h : m = 0 then .zero s else .finite s m e (Nat.pos_of_ne_zero h)) := by
  by_cases h : m = 0
  · rw [dif_pos h]
    exact .inl ⟨_, rfl⟩
  · rw [dif_neg h]
    exact .inr ⟨_, _, _, _, rfl, he⟩

/-- Rounding a number of moderate size leaves it so: it cuts bits off the mantissa, which may become
greater by one, and the exponent grows by as many as are cut off. -/
theorem isModerate_roundWithAccuracy {s : Sign} {m : Nat} {e : Int}
    (hm : m < pow2 200) (he : e ≤ 200) : IsModerate (roundWithAccuracy binary64 s m e .exact) := by
  have hpow : pow2 201 = pow2 200 * 2 := rfl
  have hlog : ∀ r ≤ m + 1, r.log2 ≤ 200 := by
    intro r hr
    by_cases hzero : r = 0
    · simp [hzero]
    · have hlt : r < pow2 201 := by omega
      exact Nat.lt_succ_iff.1 ((Nat.log2_lt hzero).2 hlt)
  unfold roundWithAccuracy shiftToTargetExponent shiftToExponent
  dsimp only
  refine isModerate_of_exponent_le ?_
  have hbits : binary64.mantissaBits = 53 := rfl
  have hmin : binary64.minExponent = -1074 := by decide
  have hm' := hlog m (Nat.le_succ m)
  have hrounded : ∀ k : Nat,
      ((⟨m, false, false⟩ : ExtendedMantissa) >>> k).roundedMantissa.log2 ≤ 200 :=
    fun k ↦ hlog _ (Nat.le_trans (roundedMantissa_le _)
      (Nat.succ_le_succ (mantissa_shiftRight_le _ k)))
  simp only [ExtendedMantissa.ofMantissaAndAccuracy, Format.targetExponent,
    totalExponent, hbits, hmin]
  generalize hk : (max ((m.log2 : Int) + 1 + e - (53 : Nat)) (-1074) - e).toNat = k
  have hk' := hrounded k
  omega

/-! ## Finite doubles -/

theorem not_special_of_exponent {b : BitVec binary64.numBits} (h : unpackExponent b ≠ -1#11) :
    (UnpackedFloat.unpack binary64 b).isNaN = false ∧ (UnpackedFloat.unpack binary64 b).isInf =
      false := by
  unfold UnpackedFloat.unpack
  dsimp only
  rw [if_neg h]
  by_cases hexponent : unpackExponent b = 0#11
  · rw [if_pos hexponent]
    by_cases hmantissa : unpackMantissa b = 0#52
    · rw [dif_pos hmantissa]
      exact ⟨rfl, rfl⟩
    · rw [dif_neg hmantissa]
      exact ⟨rfl, rfl⟩
  · rw [if_neg hexponent]
    exact ⟨rfl, rfl⟩

theorem IsModerate.not_special {x : UnpackedFloat} (h : IsModerate x) :
    (UnpackedFloat.unpack binary64 (UnpackedFloat.pack binary64 x)).isNaN = false ∧
      (UnpackedFloat.unpack binary64 (UnpackedFloat.pack binary64 x)).isInf = false := by
  refine not_special_of_exponent ?_
  rcases h with ⟨s, rfl⟩ | ⟨s, m, e, hm, rfl, he⟩
  · cases s <;> decide
  · have hbias : binary64.exponentBias = 1023 := by decide
    have hmax : (-1#11).toNat = 2047 := by decide
    unfold UnpackedFloat.pack
    dsimp only
    rw [if_neg (by rw [hbias]; show ¬2048 ≤ _; omega)]
    split
    · rw [unpackExponent_packComponents]
      intro hall
      have hexponent := congrArg BitVec.toNat hall
      rw [BitVec.toNat_ofNat, hbias, hmax, Nat.mod_eq_of_lt (by show _ < 2048; omega)] at hexponent
      omega
    · rw [unpackExponent_packComponents]
      decide

theorem isFinite_ofNat {n : Nat} (hlow : pow2 63 ≤ n) (hhigh : n < pow2 64) :
    IsFinite (Float.ofNat n) := by
  have h53 : pow2 53 = 9007199254740992 := rfl
  have h63 : pow2 63 = 1024 * pow2 53 := rfl
  have h64 : pow2 64 = 2048 * pow2 53 := rfl
  have h200 : pow2 64 * pow2 53 ≤ pow2 200 := by decide
  have hvalue : Float.ofNat n = ⟨Float.Model.ofScientific n 0⟩ := by
    show Float.ofScientific n false 0 = _
    unfold Float.ofScientific
    rw [dif_neg (by omega)]
    rfl
  rw [IsFinite, hvalue]
  refine IsModerate.not_special (x := UnpackedFloat.ofScientific binary64 n 0) ?_
  unfold UnpackedFloat.ofScientific
  rw [dif_neg (by omega), if_neg (by decide), if_neg (by show ¬(0 : Int) < -(2048 + n.log2); omega),
    if_pos (Int.le_refl 0)]
  unfold UnpackedFloat.mul
  dsimp only
  refine isModerate_roundWithAccuracy ?_ (by decide)
  calc n <<< 53 * 1
    _ = n * pow2 53 := by rw [Nat.mul_one, Nat.shiftLeft_eq]; rfl
    _ < pow2 64 * pow2 53 := (Nat.mul_lt_mul_right (by omega)).2 hhigh
    _ ≤ pow2 200 := h200

/-- The double of an integer beyond 64 bits with a sign is finite. -/
theorem isFinite_ofInt {n : Int} (hlow : (pow2 63 : Int) ≤ n) (hhigh : n < pow2 64) :
    IsFinite (Float.ofInt n) := by
  cases n with
  | ofNat n =>
    exact isFinite_ofNat (Int.ofNat_le.1 hlow) (Int.ofNat_lt.1 hhigh)
  | negSucc n =>
    have hpos : (0 : Int) ≤ pow2 63 := Int.natCast_nonneg _
    omega

end Decimal

end Orchestration
