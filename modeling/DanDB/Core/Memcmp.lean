import DanDB.Core.Bytes

/-!
# Comparing bytes

Byte strings of one length are compared as the big-endian numbers that they
write.  This makes the arrays of one size a linear order.
-/

namespace DanDB.Core

/-- `memcmp` on byte strings of one length, whose bytes count as unsigned. -/
def memcmp : List Byte → List Byte → Ordering
  | a :: as, b :: bs => (compare a.toNat b.toNat).then (memcmp as bs)
  | _, _ => .eq

/-- The number with the given bytes, most significant first. -/
def beValue : List Byte → Nat
  | [] => 0
  | b :: bs => b.toNat * 256 ^ bs.length + beValue bs

theorem beValue_lt (bs : List Byte) : beValue bs < 256 ^ bs.length := by
  induction bs with
  | nil => exact Nat.one_pos
  | cons b bs ih =>
    have hb := b.toNat_lt
    have hle : (b.toNat + 1) * 256 ^ bs.length ≤ 256 * 256 ^ bs.length :=
      Nat.mul_le_mul_right _ (by omega)
    rw [Nat.succ_mul] at hle
    rw [beValue, List.length_cons, Nat.pow_succ']
    omega

/-- A leading digit decides, and the others only if it is the same. -/
theorem compare_digits {base a b x y : Nat} (hx : x < base) (hy : y < base) :
    compare (a * base + x) (b * base + y) = (compare a b).then (compare x y) := by
  rcases Nat.lt_trichotomy a b with h | rfl | h
  · have hle : (a + 1) * base ≤ b * base := Nat.mul_le_mul_right _ h
    rw [Nat.succ_mul] at hle
    rw [Nat.compare_eq_lt.mpr h, Nat.compare_eq_lt.mpr (by omega)]
    rfl
  · rw [Nat.compare_eq_eq.mpr rfl, Ordering.eq_then]
    rcases Nat.lt_trichotomy x y with hlt | rfl | hgt
    · rw [Nat.compare_eq_lt.mpr hlt, Nat.compare_eq_lt.mpr (by omega)]
    · rw [Nat.compare_eq_eq.mpr rfl, Nat.compare_eq_eq.mpr rfl]
    · rw [Nat.compare_eq_gt.mpr hgt, Nat.compare_eq_gt.mpr (by omega)]
  · have hle : (b + 1) * base ≤ a * base := Nat.mul_le_mul_right _ h
    rw [Nat.succ_mul] at hle
    rw [Nat.compare_eq_gt.mpr h, Nat.compare_eq_gt.mpr (by omega)]
    rfl

theorem beValue_append (as bs : List Byte) :
    beValue (as ++ bs) = beValue as * 256 ^ bs.length + beValue bs := by
  induction as with
  | nil => simp [beValue]
  | cons a as ih =>
    rw [List.cons_append, beValue, ih, beValue, List.length_append, Nat.pow_add, Nat.add_mul]
    ring

theorem beValue_reverse (bs : List Byte) : beValue bs.reverse = leValue bs := by
  induction bs with
  | nil => rfl
  | cons b bs ih =>
    rw [List.reverse_cons, beValue_append, ih, leValue]
    simp [beValue]
    ring

theorem beValue_beBytes {n v : Nat} (h : v < 256 ^ n) : beValue (beBytes n v) = v := by
  rw [beBytes, beValue_reverse, leValue_leBytes_of_lt h]

@[simp] theorem length_beBytes (n v : Nat) : (beBytes n v).length = n := by
  rw [beBytes, List.length_reverse, length_leBytes]

/-- Of equal length, bytes compare as the numbers they stand for with the most significant
byte first. -/
theorem memcmp_eq {as bs : List Byte} (h : as.length = bs.length) :
    memcmp as bs = compare (beValue as) (beValue bs) := by
  induction as generalizing bs with
  | nil =>
    cases bs with
    | nil => rfl
    | cons => cases h
  | cons a as ih =>
    cases bs with
    | nil => cases h
    | cons b bs =>
      have hlength : as.length = bs.length := Nat.succ.inj h
      have hlt := beValue_lt as
      rw [memcmp, ih hlength, beValue, beValue, hlength,
        compare_digits (hlength ▸ hlt) (beValue_lt bs)]

/-- They are determined by the number. -/
theorem beValue_inj {as bs : List Byte} (h : as.length = bs.length)
    (hvalue : beValue as = beValue bs) : as = bs := by
  induction as generalizing bs with
  | nil =>
    cases bs with
    | nil => rfl
    | cons => cases h
  | cons a as ih =>
    cases bs with
    | nil => cases h
    | cons b bs =>
      have hlength : as.length = bs.length := Nat.succ.inj h
      have hcompare := compare_digits (a := a.toNat) (b := b.toNat) (hlength ▸ beValue_lt as)
        (beValue_lt bs)
      rw [beValue, beValue, hlength] at hvalue
      rw [hvalue, Nat.compare_eq_eq.mpr rfl] at hcompare
      obtain ⟨hhead, htail⟩ := Ordering.then_eq_eq.mp hcompare.symm
      rw [UInt8.toNat.inj (Nat.compare_eq_eq.mp hhead), ih hlength (Nat.compare_eq_eq.mp htail)]

namespace Bytes

variable {size : Nat}

/-- Arrays of one size, in the order of `memcmp`. -/
instance : LinearOrder (Bytes size) :=
  LinearOrder.lift' (fun array => beValue array.bytes) fun a b h =>
    ext (beValue_inj (a.size_eq.trans b.size_eq.symm) h)

/-- The order of byte arrays is that of `memcmp`. -/
theorem memcmp_eq_lt {a b : Bytes size} : memcmp a.bytes b.bytes = .lt ↔ a < b := by
  rw [memcmp_eq (a.size_eq.trans b.size_eq.symm), Nat.compare_eq_lt]
  rfl

theorem memcmp_eq_eq {a b : Bytes size} : memcmp a.bytes b.bytes = .eq ↔ a = b := by
  rw [memcmp_eq (a.size_eq.trans b.size_eq.symm), Nat.compare_eq_eq]
  exact ⟨fun h => ext (beValue_inj (a.size_eq.trans b.size_eq.symm) h), fun h => by rw [h]⟩

theorem memcmp_ne_gt {a b : Bytes size} : memcmp a.bytes b.bytes ≠ .gt ↔ a ≤ b := by
  rw [memcmp_eq (a.size_eq.trans b.size_eq.symm), Ne, Nat.compare_eq_gt, Nat.not_lt]
  rfl

end Bytes

end DanDB.Core
