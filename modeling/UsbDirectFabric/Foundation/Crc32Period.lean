import UsbDirectFabric.Foundation.Crc32
import UsbDirectFabric.Foundation.LittleEndian
import UsbDirectFabric.Foundation.ShiftPeriod
import Mathlib.Tactic.NormNum.Prime

/-!
# The period of CRC-32

The generator is primitive: its shift register goes through all `2 ^ 32 - 1` nonzero states. Data
followed by their own checksum always leave the same residue behind, so two flipped bits anywhere in
data and checksum show unless the string is half a gigabyte long.
-/

namespace Crc32

open LittleEndian
open ShiftRegister (shift run top power block flip)

/-! ## The period -/

theorem prime_dvd_period {p : ℕ} (hprime : p.Prime) (hdivides : p ∣ 2 ^ 32 - 1) :
    p = 3 ∨ p = 5 ∨ p = 17 ∨ p = 257 ∨ p = 65537 := by
  have hfactors : 2 ^ 32 - 1 = 3 * (5 * (17 * (257 * 65537))) := by norm_num
  rw [hfactors, hprime.dvd_mul, hprime.dvd_mul, hprime.dvd_mul, hprime.dvd_mul] at hdivides
  have hequal {q : ℕ} (hq : q.Prime) (hone : p ∣ q) : p = q :=
    (Nat.prime_dvd_prime_iff_eq hprime hq).mp hone
  rcases hdivides with h | h | h | h | h
  · exact .inl (hequal (by norm_num) h)
  · exact .inr (.inl (hequal (by norm_num) h))
  · exact .inr (.inr (.inl (hequal (by norm_num) h)))
  · exact .inr (.inr (.inr (.inl (hequal (by norm_num) h))))
  · exact .inr (.inr (.inr (.inr (hequal (by norm_num) h))))

/-- The register comes back after a number of shifts exactly if `power` says so. -/
theorem isPeriodicPt_iff {exponent : ℕ} (hdigits : exponent < 2 ^ 32) :
    Function.IsPeriodicPt (shift polynomial.toBitVec) exponent (top 32) ↔
      power polynomial.toBitVec 32 exponent = top 32 := by
  rw [ShiftRegister.power_eq _ hdigits]
  rfl

theorem minimalPeriod_shift :
    Function.minimalPeriod (shift polynomial.toBitVec) (top 32) = 2 ^ 32 - 1 := by
  apply ShiftRegister.minimalPeriod_eq_of_primes
  · exact (isPeriodicPt_iff (by decide)).mpr (by decide +kernel)
  · intro p hprime hdivides
    rcases prime_dvd_period hprime hdivides with rfl | rfl | rfl | rfl | rfl <;>
      exact fun hperiodic ↦
        absurd ((isPeriodicPt_iff (by decide)).mp hperiodic) (by decide +kernel)

/-! ## The residue -/

/-- A block of bytes that fits the register is their little-endian value. -/
theorem toNat_block {data : List UInt8} (hfits : data.length ≤ 4) :
    (block 32 (data.map UInt8.toBitVec)).toNat = value data := by
  induction data with
  | nil => rfl
  | cons byte data ih =>
      rw [List.length_cons] at hfits
      have hrest := ih (by omega)
      have hblock : 8 * (byte.toBitVec :: data.map UInt8.toBitVec).length ≤ 32 := by
        rw [List.length_cons, List.length_map]
        omega
      have hroom : (block 32 (data.map UInt8.toBitVec)).toNat * 2 ^ 8 < 2 ^ 32 :=
        ShiftRegister.block_room hblock
      have hbyte : (byte.toBitVec.setWidth 32).toNat = byte.toNat := by
        rw [BitVec.toNat_setWidth]
        exact Nat.mod_eq_of_lt (lt_trans byte.toNat_lt (by decide))
      rw [List.map_cons, block, BitVec.toNat_xor, ShiftRegister.toNat_shiftLeft_of_room hroom,
        hbyte, hrest, value_cons]
      apply Nat.eq_of_testBit_eq
      intro index
      have hsplit : byte.toNat + 256 * value data = 2 ^ 8 * value data + byte.toNat := by omega
      rw [hsplit, Nat.testBit_two_pow_mul_add _ byte.toNat_lt, Nat.testBit_xor,
        mul_comm (value data), Nat.testBit_two_pow_mul]
      by_cases hlow : index < 8
      · simp [hlow, not_le.mpr hlow]
      · have hzero : byte.toNat.testBit index = false := by
          apply Nat.testBit_lt_two_pow
          exact lt_of_lt_of_le byte.toNat_lt (Nat.pow_le_pow_right (by decide) (not_lt.mp hlow))
        simp [hlow, hzero, not_lt.mp hlow]

/-- Data followed by their checksum leave a register behind that does not depend on them. -/
theorem foldl_feed_residue {body stored : List UInt8} (hwidth : stored.length = 4)
    (hstored : value stored = (checksum body).toNat) :
    (body ++ stored).foldl feed mask = shiftBits 32 mask := by
  apply UInt32.toBitVec_inj.mp
  have hblock : block 32 (stored.map UInt8.toBitVec) = (checksum body).toBitVec := by
    apply BitVec.eq_of_toNat_eq
    rw [toNat_block (le_of_eq hwidth), hstored]
    rfl
  have hfits : 8 * (stored.map UInt8.toBitVec).length = 32 := by
    rw [List.length_map, hwidth]
  calc
    ((body ++ stored).foldl feed mask).toBitVec =
        run polynomial.toBitVec (body.foldl feed mask).toBitVec (stored.map UInt8.toBitVec) := by
      rw [List.foldl_append, foldl_feed_toBitVec]
    _ = (shift polynomial.toBitVec)^[32]
        ((body.foldl feed mask).toBitVec ^^^ (checksum body).toBitVec) := by
      rw [ShiftRegister.run_eq_iterate _ _ (le_of_eq hfits), hfits, hblock]
    _ = (shift polynomial.toBitVec)^[32] mask.toBitVec := by
      congr 1
      rw [checksum, UInt32.toBitVec_xor, ← BitVec.xor_assoc, BitVec.xor_self, BitVec.zero_xor]
    _ = (shiftBits 32 mask).toBitVec := (shiftBits_toBitVec 32 mask).symm

/-- Two flipped bits of a string change the register it leaves behind. -/
theorem foldl_feed_flipTwo {data damaged : List UInt8} (hshort : 8 * data.length + 32 < 2 ^ 32)
    {index bit other position : ℕ} (hindex : index < data.length) (hbit : bit < 8)
    (hother : other < data.length) (hposition : position < 8)
    (hdistinct : ¬(index = other ∧ bit = position))
    (hdamaged : damaged.map UInt8.toBitVec =
      flip (flip (data.map UInt8.toBitVec) index bit) other position) :
    damaged.foldl feed mask ≠ data.foldl feed mask := by
  intro hequal
  have hruns := congrArg UInt32.toBitVec hequal
  rw [foldl_feed_toBitVec, foldl_feed_toBitVec, hdamaged] at hruns
  refine ShiftRegister.run_flipTwo _ ?_ (by decide) ?_ hbit ?_ hposition hdistinct hruns
  · rw [minimalPeriod_shift, List.length_map]
    omega
  · rwa [List.length_map]
  · rwa [List.length_map]

end Crc32
