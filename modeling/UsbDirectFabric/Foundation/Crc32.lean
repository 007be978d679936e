import UsbDirectFabric.Foundation.ShiftRegister

/-!
# CRC-32

The reflected IEEE 802.3 cyclic redundancy check, one bit at a time: initial register and final
mask all ones, generator `0xEDB88320`.
-/

namespace Crc32

open ShiftRegister (shift run run_burst)

def polynomial : UInt32 := 0xEDB88320
def mask : UInt32 := 0xFFFFFFFF

/-- Shift the register by one bit and subtract the generator if a one falls out. -/
def shiftBit (register : UInt32) : UInt32 :=
  if register &&& 1 = 1 then (register >>> 1) ^^^ polynomial else register >>> 1

def shiftBits : ℕ → UInt32 → UInt32
  | 0, register => register
  | count + 1, register => shiftBits count (shiftBit register)

def feed (register : UInt32) (byte : UInt8) : UInt32 :=
  shiftBits 8 (register ^^^ byte.toUInt32)

def checksum (data : List UInt8) : UInt32 :=
  data.foldl feed mask ^^^ mask

example : checksum [0x31, 0x32, 0x33, 0x34, 0x35, 0x36, 0x37, 0x38, 0x39] = 0xCBF43926 := by
  decide +kernel

theorem shiftBit_toBitVec (register : UInt32) :
    (shiftBit register).toBitVec = shift polynomial.toBitVec register.toBitVec := by
  have hlow : register &&& 1 = 1 ↔ register.toBitVec.getLsbD 0 = true := by
    rw [← UInt32.toBitVec_inj, UInt32.toBitVec_and]
    change register.toBitVec &&& 1#32 = 1#32 ↔ _
    rw [BitVec.and_one_eq_setWidth_ofBool_getLsbD]
    cases register.toBitVec.getLsbD 0 <;> decide
  unfold shiftBit shift
  by_cases hbit : register.toBitVec.getLsbD 0 = true
  · rw [if_pos (hlow.mpr hbit), if_pos hbit]
    rfl
  · rw [if_neg (mt hlow.mp hbit), if_neg hbit]
    rfl

theorem shiftBits_toBitVec (count : ℕ) (register : UInt32) :
    (shiftBits count register).toBitVec =
      (shift polynomial.toBitVec)^[count] register.toBitVec := by
  induction count generalizing register with
  | zero => rfl
  | succ count ih => rw [shiftBits, ih, shiftBit_toBitVec, Function.iterate_succ_apply]

theorem feed_toBitVec (register : UInt32) (byte : UInt8) :
    (feed register byte).toBitVec =
      ShiftRegister.feed polynomial.toBitVec register.toBitVec byte.toBitVec := by
  rw [feed, shiftBits_toBitVec, UInt32.toBitVec_xor, UInt8.toBitVec_toUInt32]
  rfl

/-- The bytewise loop over the data is a run of the shift register. -/
theorem foldl_feed_toBitVec (register : UInt32) (data : List UInt8) :
    (data.foldl feed register).toBitVec =
      run polynomial.toBitVec register.toBitVec (data.map UInt8.toBitVec) := by
  induction data generalizing register with
  | nil => rfl
  | cons byte data ih =>
      rw [List.foldl_cons, ih, feed_toBitVec]
      rfl

/-- Strings with one checksum that differ at most in one window of four bytes are equal. -/
theorem checksum_burst (front : List UInt8) {first second : List UInt8} (rest : List UInt8)
    (hlength : first.length = second.length) (hwindow : first.length ≤ 4)
    (hequal : checksum (front ++ (first ++ rest)) = checksum (front ++ (second ++ rest))) :
    first = second := by
  have hregisters : (front ++ (first ++ rest)).foldl feed mask =
      (front ++ (second ++ rest)).foldl feed mask := (UInt32.xor_left_inj mask).mp hequal
  have hruns := congrArg UInt32.toBitVec hregisters
  simp only [foldl_feed_toBitVec, List.map_append] at hruns
  have hblocks := run_burst (by decide) _ _ _ (by simpa using hlength)
    (by rw [List.length_map]; omega) hruns
  exact List.map_injective_iff.mpr (fun _ _ ↦ UInt8.toBitVec_inj.mp) hblocks

end Crc32
