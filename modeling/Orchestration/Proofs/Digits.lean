import Mathlib.Data.List.Basic
import Orchestration.Decimal.Integer
import Orchestration.Proofs.Spelling

/-!
# Digits

A number is written in decimal digits, perhaps with a sign in front of them, and these digits spell
the number again (`Decimal.digitsValue_toDigits`). So a number in free text is read as it is written
(`Decimal.integer?_toString`, `Decimal.signed?_toString`), and so is an integer of 64 bits in a
document (`Json.isNumeral_int`).
-/

namespace Orchestration

namespace Decimal

open Json (IsInt32)

variable {n : Nat} {c : Char}

theorem isDigit_of_mem (h : c ∈ Nat.toDigits 10 n) : c.isDigit = true :=
  Nat.isDigit_of_mem_toDigits (by decide) (by decide) h

theorem toDigits_ne_cons {rest : List Char} (h : c.isDigit = false) :
    Nat.toDigits 10 n ≠ c :: rest :=
  fun heq ↦ Bool.false_ne_true (h.symm.trans (isDigit_of_mem (heq ▸ List.mem_cons_self)))

theorem toList_toString_ofNat (n : Nat) : (toString (Int.ofNat n)).toList = Nat.toDigits 10 n := by
  have htext : toString (Int.ofNat n) = toString n := rfl
  rw [htext, Nat.toString_eq_ofList_toDigits, String.toList_ofList]

theorem toList_toString_negSucc (n : Nat) :
    (toString (Int.negSucc n)).toList = '-' :: Nat.toDigits 10 (n + 1) := by
  have htext : toString (Int.negSucc n) = "-" ++ toString (n + 1) := rfl
  rw [htext, Nat.toString_eq_ofList_toDigits]
  simp

theorem isDigit_or_of_mem_toString {n : Int} (h : c ∈ (toString n).toList) :
    c.isDigit = true ∨ c = '-' := by
  cases n with
  | ofNat k =>
    rw [toList_toString_ofNat] at h
    exact .inl (isDigit_of_mem h)
  | negSucc k =>
    rw [toList_toString_negSucc] at h
    exact (List.mem_cons.1 h).symm.imp_left isDigit_of_mem

theorem digitsValue_toDigits (n : Nat) : digitsValue (Nat.toDigits 10 n) = n := by
  have h := Nat.ofDigitChars_ten_toDigits (n := n)
  simpa only [digitsValue, Nat.ofDigitChars, Nat.mul_comm] using h

/-! ## Numbers in free text -/

theorem natural?_toString (n : Nat) : natural? (toString n) = some n := by
  have hdigits : (Nat.toDigits 10 n).all Char.isDigit = true :=
    List.all_eq_true.2 fun _ hc ↦ isDigit_of_mem hc
  have hne : Nat.toDigits 10 n ≠ [] := Nat.toDigits_ne_nil
  rw [Nat.toString_eq_ofList_toDigits, natural?, String.toList_ofList]
  split
  · next rest h => exact absurd h (toDigits_ne_cons rfl)
  · simp [hne, hdigits, digitsValue_toDigits]

theorem integer?_toString (n : Int) : integer? (toString n) = some n := by
  cases n with
  | ofNat n =>
    have hnatural : natural? (toString (Int.ofNat n)) = some n := natural?_toString n
    rw [integer?, toList_toString_ofNat]
    split
    · next rest h => exact absurd h (toDigits_ne_cons rfl)
    · rw [hnatural]
      rfl
  | negSucc n =>
    have hdigits : (Nat.toDigits 10 (n + 1)).all Char.isDigit = true :=
      List.all_eq_true.2 fun _ hc ↦ isDigit_of_mem hc
    have hne : Nat.toDigits 10 (n + 1) ≠ [] := Nat.toDigits_ne_nil
    rw [integer?, toList_toString_negSucc]
    simp only [hdigits, digitsValue_toDigits, List.isEmpty_eq_false_iff.2 hne]
    rfl

theorem signed?_toString {n : Int} (h : IsInt32 n) : signed? 32 (toString n) = some n := by
  obtain ⟨hlow, hhigh⟩ := h
  have hbelow : n < pow2 31 := Int.lt_of_le_sub_one hhigh
  rw [signed?, integer?_toString, Option.filter_some]
  simp [hlow, hbelow]

end Decimal

namespace Json

/-! ## Numbers in documents -/

/-- A text spells a number. -/
structure IsNumeral (cs : List Char) (value : Json) : Prop where
  chars : ∀ c ∈ cs, Reader.isNumberChar c = true
  first : ∃ c ∈ cs.head?, c = '-' ∨ c.isDigit = true
  value : readNumber? cs = some value

/-- An integer of 64 bits, with or without a sign. -/
def IsInteger (n : Int) : Prop := -(pow2 63 : Int) ≤ n ∧ n < pow2 64

theorem le_foldl_digits (cs : List Char) (n : Nat) :
    n ≤ cs.foldl (fun n c ↦ n * 10 + (c.toNat - '0'.toNat)) n := by
  induction cs generalizing n with
  | nil => exact Nat.le_refl n
  | cons c rest ih =>
    have hstep : n ≤ n * 10 + (c.toNat - '0'.toNat) := by omega
    exact Nat.le_trans hstep (ih _)

theorem growSignificand_eq {cs : List Char} {n : Nat}
    (h : cs.foldl (fun n c ↦ n * 10 + (c.toNat - '0'.toNat)) n ≤ maxSignificand) :
    growSignificand n cs = (cs.foldl (fun n c ↦ n * 10 + (c.toNat - '0'.toNat)) n, []) := by
  induction cs generalizing n with
  | nil => rfl
  | cons c rest ih =>
    rw [growSignificand, if_pos (Nat.le_trans (le_foldl_digits rest _) h)]
    exact ih h

theorem growSignificand_toDigits {n : Nat} (h : n ≤ maxSignificand) :
    growSignificand 0 (Nat.toDigits 10 n) = (n, []) := by
  have hvalue : (Nat.toDigits 10 n).foldl (fun n c ↦ n * 10 + (c.toNat - '0'.toNat)) 0 = n :=
    Decimal.digitsValue_toDigits n
  rw [growSignificand_eq (hvalue.symm ▸ h), hvalue]

theorem spanDigits_toDigits (n : Nat) :
    spanDigits (Nat.toDigits 10 n) = (Nat.toDigits 10 n, []) := by
  have hdigits : ∀ c ∈ Nat.toDigits 10 n, c.isDigit = true := fun _ hc ↦ Decimal.isDigit_of_mem hc
  have htake := @List.takeWhile_append_of_pos _ _ _ [] hdigits
  have hdrop := @List.dropWhile_append_of_pos _ _ _ [] hdigits
  rw [List.append_nil] at htake hdrop
  rw [spanDigits, htake, hdrop, List.takeWhile_nil, List.append_nil, List.dropWhile_nil]

theorem head?_toDigits_ne {n : Nat} (h : 0 < n) : (Nat.toDigits 10 n).head? ≠ some '0' := by
  have hdigit : ∀ d < 10, 0 < d → Nat.digitChar d ≠ '0' := by decide
  induction n using Nat.strongRecOn with
  | ind n ih =>
    rw [Nat.toDigits_eq_if (by decide)]
    split
    · next hlt => exact fun heq ↦ hdigit n hlt h (Option.some.inj heq)
    · next hge =>
      rw [List.head?_append_of_ne_nil _ Nat.toDigits_ne_nil]
      exact ih _ (Nat.div_lt_self h (by decide)) (by omega)

theorem not_leadingZero (n : Nat) : ¬((Nat.toDigits 10 n).isEmpty = true ∨
    (Nat.toDigits 10 n).head? = some '0' ∧ 1 < (Nat.toDigits 10 n).length) := by
  rintro (hempty | ⟨hzero, hlength⟩)
  · exact Nat.toDigits_ne_nil (List.isEmpty_iff.1 hempty)
  · obtain rfl : n = 0 := Nat.eq_zero_of_not_pos fun hpos ↦ head?_toDigits_ne hpos hzero
    revert hlength
    decide

theorem readNumber?_toDigits (n : Nat) :
    readNumber? (Nat.toDigits 10 n) = makeNumber false (Nat.toDigits 10 n) none none := by
  have hspan := spanDigits_toDigits n
  have hzero := not_leadingZero n
  cases hcs : Nat.toDigits 10 n with
  | nil => exact absurd hcs Nat.toDigits_ne_nil
  | cons c rest =>
    have hc : c ≠ '-' := fun heq ↦ Decimal.toDigits_ne_cons rfl (heq ▸ hcs)
    rw [hcs] at hspan hzero
    simp only [readNumber?, List.cons.injEq, hc, false_and, imp_false, not_false_iff,
      implies_true, hspan]
    rw [if_neg hzero]
    rfl

theorem readNumber?_neg_toDigits (n : Nat) :
    readNumber? ('-' :: Nat.toDigits 10 n) = makeNumber true (Nat.toDigits 10 n) none none := by
  simp only [readNumber?, spanDigits_toDigits]
  rw [if_neg (not_leadingZero n)]
  rfl

theorem isNumberChar_of_mem {n : Nat} {c : Char} (h : c ∈ Nat.toDigits 10 n) :
    Reader.isNumberChar c = true := by
  simp [Reader.isNumberChar, Decimal.isDigit_of_mem h]

theorem isNumeral_nat {n : Nat} (h : n ≤ maxSignificand) :
    IsNumeral (Nat.toDigits 10 n) (.int n) := by
  have hne : Nat.toDigits 10 n ≠ [] := Nat.toDigits_ne_nil
  refine ⟨fun c hc ↦ isNumberChar_of_mem hc, ⟨_, List.head?_eq_some_head hne, .inr ?_⟩, ?_⟩
  · exact Decimal.isDigit_of_mem (List.head_mem hne)
  · rw [readNumber?_toDigits, makeNumber, growSignificand_toDigits h]
    rfl

theorem isNumeral_neg {n : Nat} (hpos : 0 < n) (h : n ≤ pow2 63) :
    IsNumeral ('-' :: Nat.toDigits 10 n) (.int (-n)) := by
  refine ⟨List.forall_mem_cons.2 ⟨rfl, fun c hc ↦ isNumberChar_of_mem hc⟩, ⟨'-', rfl, .inl rfl⟩, ?_⟩
  have hmax : n ≤ maxSignificand := Nat.le_trans h (by decide)
  rw [readNumber?_neg_toDigits, makeNumber, growSignificand_toDigits hmax]
  simp [hpos, h]

theorem isNumeral_int {n : Int} (h : IsInteger n) : IsNumeral (toString n).toList (.int n) := by
  obtain ⟨hlow, hhigh⟩ := h
  cases n with
  | ofNat n =>
    rw [Decimal.toList_toString_ofNat]
    exact isNumeral_nat (Nat.le_sub_one_of_lt (Int.ofNat_lt.1 hhigh))
  | negSucc n =>
    have hbound : n + 1 ≤ pow2 63 := by
      rw [Int.negSucc_eq] at hlow
      omega
    rw [Decimal.toList_toString_negSucc]
    exact isNumeral_neg (Nat.succ_pos n) hbound

end Json

end Orchestration
