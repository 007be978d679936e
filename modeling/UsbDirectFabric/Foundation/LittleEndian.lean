import Mathlib.Data.Nat.Digits.Lemmas
import Mathlib.Data.List.TakeDrop

/-!
# Fixed-width little-endian integers

Unsigned integers written as a fixed number of bytes, least significant byte first. Reading is
`Nat.ofDigits` in base 256; writing truncates to the width, so it inverts reading exactly on the
integers that fit.
-/

namespace LittleEndian

/-- The `width` low bytes of `value`, least significant first. -/
def bytes : ℕ → ℕ → List UInt8
  | 0, _ => []
  | width + 1, value => UInt8.ofNat value :: bytes width (value / 256)

/-- The integer that a little-endian byte string denotes. -/
def value (data : List UInt8) : ℕ :=
  Nat.ofDigits 256 (data.map UInt8.toNat)

@[simp]
theorem length_bytes (width number : ℕ) : (bytes width number).length = width := by
  induction width generalizing number with
  | zero => rfl
  | succ width ih => simp [bytes, ih]

@[simp]
theorem value_nil : value [] = 0 := rfl

@[simp]
theorem value_cons (byte : UInt8) (data : List UInt8) :
    value (byte :: data) = byte.toNat + 256 * value data := by
  simp [value, Nat.ofDigits_cons]

theorem value_singleton (byte : UInt8) : value [byte] = byte.toNat := by
  simp

/-- A byte string of a given width denotes an integer that fits the width. -/
theorem value_lt (data : List UInt8) : value data < 256 ^ data.length := by
  have h := Nat.ofDigits_lt_base_pow_length (b := 256) (l := data.map UInt8.toNat) (by norm_num)
    (fun digit hdigit ↦ by
      obtain ⟨byte, _, rfl⟩ := List.mem_map.mp hdigit
      exact byte.toNat_lt)
  simpa only [value, List.length_map] using h

/-- Reading back what was written recovers every integer that fits the width. -/
theorem value_bytes {width number : ℕ} (hfits : number < 256 ^ width) :
    value (bytes width number) = number := by
  induction width generalizing number with
  | zero =>
      have hzero : number = 0 := by simpa using hfits
      simp [bytes, hzero]
  | succ width ih =>
      have hquotient : number / 256 < 256 ^ width := by
        rw [Nat.div_lt_iff_lt_mul (by norm_num)]
        simpa only [pow_succ] using hfits
      rw [bytes, value_cons, ih hquotient, UInt8.toNat_ofNat']
      omega

/-- Writing back what was read recovers a byte string of the given width. -/
theorem bytes_value {width : ℕ} {data : List UInt8} (hwidth : data.length = width) :
    bytes width (value data) = data := by
  induction data generalizing width with
  | nil =>
      subst hwidth
      rfl
  | cons byte data ih =>
      subst hwidth
      have hbyte := byte.toNat_lt
      have hquotient : (byte.toNat + 256 * value data) / 256 = value data := by omega
      have hremainder : UInt8.ofNat (byte.toNat + 256 * value data) = byte := by
        apply UInt8.toNat_inj.mp
        rw [UInt8.toNat_ofNat']
        omega
      rw [List.length_cons, value_cons, bytes, hquotient, hremainder, ih rfl]

theorem value_eq_iff {width number : ℕ} {data : List UInt8} (hwidth : data.length = width)
    (hfits : number < 256 ^ width) : value data = number ↔ data = bytes width number := by
  constructor
  · rintro rfl
    exact (bytes_value hwidth).symm
  · rintro rfl
    exact value_bytes hfits

end LittleEndian
