import UsbDirectFabric.Foundation.Crc32Period
import UsbDirectFabric.Wire.ErrorDetection

/-!
# Two flipped bits are always revealed

With the IEEE 802.3 CRC-32 every packed frame in which two bits have been flipped is rejected,
wherever the bits lie in header, payload, padding and CRC, as long as the flips leave the padded
payload length alone. Frames are far shorter than the period of the CRC.
-/

namespace UsbDirectFabric.Wire

open LittleEndian Crc32

variable {data damaged : Bytes}

/-- An accepted string without trailing bytes leaves the residue of the CRC behind. -/
theorem foldl_feed_of_unpack {frame : Frame} (hunpack : unpack checksum data = .ok frame)
    (hlength : data.length = hdrSize + pad16 (headerOf data).plen + crcSize) :
    data.foldl feed mask = shiftBits 32 mask := by
  obtain ⟨-, -, -, hcrc, -⟩ := (unpack_eq_ok_iff checksum).mp hunpack
  set covered := hdrSize + pad16 (headerOf data).plen
  have hwidth : (data.drop covered).length = crcSize := by
    rw [List.length_drop, hlength, Nat.add_sub_cancel_left]
  rw [List.take_of_length_le (le_of_eq hwidth)] at hcrc
  rw [← List.take_append_drop covered data]
  exact foldl_feed_residue hwidth hcrc

theorem map_flipBit (data : Bytes) (index bit : ℕ) :
    (flipBit data index bit).map UInt8.toBitVec =
      ShiftRegister.flip (data.map UInt8.toBitVec) index bit := by
  have hbyte (byte : UInt8) : (byte ^^^ UInt8.ofNat (2 ^ bit)).toBitVec =
      byte.toBitVec ^^^ BitVec.twoPow 8 bit := by
    rw [UInt8.toBitVec_xor]
    congr 1
    apply BitVec.eq_of_toNat_eq
    rw [BitVec.toNat_twoPow]
    rfl
  apply List.ext_getElem?
  intro place
  rw [ShiftRegister.flip, flipBit, List.getElem?_map, List.getElem?_modify, List.getElem?_modify,
    List.getElem?_map]
  cases data[place]? with
  | none => rfl
  | some byte =>
      by_cases hplace : index = place
      · simp [hplace, hbyte]
      · simp [hplace]

theorem length_flipBit (data : Bytes) (index bit : ℕ) :
    (flipBit data index bit).length = data.length :=
  List.length_modify _ _ _

/-- **Double bit errors.** A packed frame with two different bits flipped raises `ValueError` if its
padded payload length has not changed. -/
theorem unpack_flipTwo {src dst seq flags hop : ℤ} {payload : Bytes}
    (hpack : pack checksum src dst seq payload flags hop = .ok data)
    {index bit other position : ℕ} (hindex : index < data.length) (hbit : bit < 8)
    (hother : other < data.length) (hposition : position < 8)
    (hdistinct : ¬(index = other ∧ bit = position))
    (hpadded : pad16 (headerOf (flipBit (flipBit data index bit) other position)).plen =
      pad16 (headerOf data).plen) :
    ∃ message, unpack checksum (flipBit (flipBit data index bit) other position) =
      .error (.valueError message) := by
  obtain ⟨frame, -, -, -, rfl, -, -, hlength, rfl⟩ := pack_eq_ok checksum hpack
  have hdata := unpack_encode checksum frame hlength
  have hend : (encode checksum frame).length =
      hdrSize + pad16 (headerOf (encode checksum frame)).plen + crcSize := by
    rw [headerOf_encode_plen checksum frame hlength, length_encode]
  set data := encode checksum frame
  set damaged := flipBit (flipBit data index bit) other position with hdamaged
  apply unpack_valueError
  intro another haccept
  have hsame : damaged.length = data.length := by
    rw [hdamaged, length_flipBit, length_flipBit]
  have hresidue : damaged.foldl feed mask = data.foldl feed mask := by
    rw [foldl_feed_of_unpack haccept (by rw [hsame, hpadded, hend]),
      foldl_feed_of_unpack hdata hend]
  have hshort : 8 * data.length + 32 < 2 ^ 32 := by
    have hplen := headerOf_encode_plen checksum frame hlength
    rw [hend, hplen, pad16_eq, hdrSize, crcSize]
    omega
  refine foldl_feed_flipTwo hshort hindex hbit hother hposition hdistinct ?_ hresidue
  rw [hdamaged, map_flipBit, map_flipBit]

/-- A bit of the payload and one of the CRC. -/
theorem unpack_flipTwo_hi :
    ∃ message, unpack checksum (flipBit (flipBit hiData 16 0) 33 5) =
      .error (.valueError message) :=
  unpack_flipTwo (show pack checksum 1 2 0 [0x48, 0x69] 0 0 = .ok hiData by decide +kernel)
    (by decide +kernel) (by decide) (by decide +kernel) (by decide) (by decide) (by decide +kernel)

end UsbDirectFabric.Wire
