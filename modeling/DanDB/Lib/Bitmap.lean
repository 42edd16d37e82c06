import Mathlib

/-!
# Bitmaps

A list of bytes as a sequence of bits, the low bits of each byte first.
-/

namespace Bitmap

/-- Bit `i` of the bytes; the bits behind them are zero. -/
def bit (bytes : List UInt8) (i : Nat) : Bool := (bytes.getD (i / 8) 0).toNat.testBit (i % 8)

/-- The byte with bit `i` alone. -/
def mask (i : Nat) : UInt8 := 1 <<< UInt8.ofNat (i % 8)

/-- The byte with the bits from `k` on. -/
def highMask (k : Nat) : UInt8 := 0xFF <<< UInt8.ofNat k

section Bytes

variable {a b : UInt8}

theorem eq_of_testBit (h : ∀ k < 8, a.toNat.testBit k = b.toNat.testBit k) : a = b := by
  refine UInt8.toNat.inj (Nat.eq_of_testBit_eq fun k => ?_)
  by_cases hk : k < 8
  · exact h k hk
  · have hpow : 2 ^ 8 ≤ 2 ^ k := Nat.pow_le_pow_right (by decide) (Nat.le_of_not_lt hk)
    rw [Nat.testBit_lt_two_pow (Nat.lt_of_lt_of_le a.toNat_lt hpow),
      Nat.testBit_lt_two_pow (Nat.lt_of_lt_of_le b.toNat_lt hpow)]

theorem testBit_mask (i : Nat) {k : Nat} (hk : k < 8) :
    (mask i).toNat.testBit k = decide (i % 8 = k) := by
  have hall : ∀ j k : Fin 8,
      ((1 : UInt8) <<< UInt8.ofNat j).toNat.testBit k = decide ((j : Nat) = k) := by decide
  exact hall ⟨i % 8, Nat.mod_lt i (by decide)⟩ ⟨k, hk⟩

theorem testBit_highMask {j k : Nat} (hj : j < 8) (hk : k < 8) :
    (highMask j).toNat.testBit k = decide (j ≤ k) := by
  have hall : ∀ j k : Fin 8,
      ((0xFF : UInt8) <<< UInt8.ofNat j).toNat.testBit k = decide ((j : Nat) ≤ k) := by decide
  exact hall ⟨j, hj⟩ ⟨k, hk⟩

/-- Two bytes share no bit. -/
theorem and_eq_zero : a &&& b = 0 ↔
    ∀ k < 8, b.toNat.testBit k = true → a.toNat.testBit k = false := by
  constructor
  · intro h k _ hb
    have hand := congrArg (fun c : UInt8 => c.toNat.testBit k) h
    rw [UInt8.toNat_and, Nat.testBit_and, hb, Bool.and_true] at hand
    exact hand.trans (Nat.zero_testBit k)
  · intro h
    refine eq_of_testBit fun k hk => ?_
    rw [UInt8.toNat_and, Nat.testBit_and]
    cases hb : b.toNat.testBit k with
    | false => exact (Bool.and_false _).trans (Nat.zero_testBit k).symm
    | true =>
      rw [h k hk hb]
      exact (Nat.zero_testBit k).symm

theorem and_mask_ne_zero (i : Nat) : a &&& mask i ≠ 0 ↔ a.toNat.testBit (i % 8) = true := by
  have hlt : i % 8 < 8 := Nat.mod_lt i (by decide)
  rw [Ne, and_eq_zero, ← Bool.not_eq_false, not_iff_not]
  constructor
  · exact fun h => h _ hlt ((testBit_mask i hlt).trans (decide_eq_true rfl))
  · intro h k hk hmask
    rw [testBit_mask i hk, decide_eq_true_iff] at hmask
    exact hmask ▸ h

theorem and_highMask_eq_zero {j : Nat} (hj : j < 8) :
    a &&& highMask j = 0 ↔ ∀ k < 8, j ≤ k → a.toNat.testBit k = false := by
  rw [and_eq_zero]
  refine forall₂_congr fun k hk => ?_
  rw [testBit_highMask hj hk, decide_eq_true_iff]

end Bytes

section Lists

variable {bytes : List UInt8}

theorem bit_or_mask {i : Nat} (hi : i / 8 < bytes.length) (j : Nat) :
    bit (bytes.set (i / 8) (bytes.getD (i / 8) 0 ||| mask i)) j = (bit bytes j || decide (j = i)) := by
  unfold bit
  by_cases hj : j / 8 = i / 8
  · have hk : j % 8 < 8 := Nat.mod_lt j (by decide)
    rw [hj, List.getD_eq_getElem?_getD, List.getElem?_set_self hi, Option.getD_some,
      UInt8.toNat_or, Nat.testBit_or, testBit_mask i hk]
    have hiff : i % 8 = j % 8 ↔ j = i := by omega
    rw [decide_eq_decide.mpr hiff]
  · have hne : j ≠ i := fun h => hj (h ▸ rfl)
    rw [List.getD_eq_getElem?_getD, List.getElem?_set_ne (Ne.symm hj), ← List.getD_eq_getElem?_getD,
      decide_eq_false hne, Bool.or_false]

/-- Bytes are their bits. -/
theorem ext_bits {as bs : List UInt8} (hlength : as.length = bs.length)
    (h : ∀ i < 8 * as.length, bit as i = bit bs i) : as = bs := by
  refine List.ext_getElem hlength fun j hj hj' => eq_of_testBit fun k hk => ?_
  have hbit := h (8 * j + k) (by omega)
  have hdiv : (8 * j + k) / 8 = j := by omega
  have hmod : (8 * j + k) % 8 = k := by omega
  rwa [bit, bit, hdiv, hmod, List.getD_eq_getElem?_getD, List.getD_eq_getElem?_getD,
    List.getElem?_eq_getElem hj, List.getElem?_eq_getElem hj', Option.getD_some,
    Option.getD_some] at hbit

theorem bit_replicate (n i : Nat) : bit (List.replicate n 0) i = false := by
  have hget : (List.replicate n (0 : UInt8)).getD (i / 8) 0 = 0 := by
    rw [List.getD_eq_getElem?_getD, List.getElem?_replicate]
    split <;> rfl
  rw [bit, hget]
  exact Nat.zero_testBit _

end Lists

end Bitmap
