import UsbDirectFabric.Foundation.Crc32
import UsbDirectFabric.Wire.RoundTrip

/-!
# Encoding a received frame again

`unpack` reads all of a frame but the reserved bytes of the header and the padding behind the
payload, which count only as part of the checksum. A received frame packed again therefore differs
from what was received in at most these bytes and the checksum, and not at all if they are zero.
-/

namespace UsbDirectFabric.Wire

open LittleEndian

variable (crc32 : Bytes → UInt32)

/-- The reserved bytes and the padding behind a payload of the given length are zero. -/
structure ZeroFilled (data : Bytes) (plen : ℕ) : Prop where
  reserved : ∀ byte ∈ (data.drop 12).take 4, byte = 0
  padding : ∀ byte ∈ (data.drop (hdrSize + plen)).take (pad16 plen - plen), byte = 0

/-- A byte that was read at an offset stands there. -/
theorem singleton_of_value {data : Bytes} {offset : ℕ} (hlength : offset + 1 ≤ data.length) :
    [UInt8.ofNat (value ((data.drop offset).take 1))] = (data.drop offset).take 1 := by
  have hone : ((data.drop offset).take 1).length = 1 :=
    List.length_take_of_le (by rw [List.length_drop]; omega)
  calc
    [UInt8.ofNat (value ((data.drop offset).take 1))] =
        bytes 1 (value ((data.drop offset).take 1)) := rfl
    _ = (data.drop offset).take 1 := bytes_value hone

/-- The header of an accepted frame is what packing writes, up to the reserved bytes. -/
theorem headerBytes_frame {data : Bytes} (hlength : hdrSize ≤ data.length)
    (hmagic : data.take 2 = magic)
    (hplen : ((headerOf data).frame data).payload.length = (headerOf data).plen) :
    headerBytes ((headerOf data).frame data) = data.take 12 ++ bytes 4 0 := by
  unfold hdrSize at hlength
  have hwidth (offset width : ℕ) (hbound : offset + width ≤ 16) :
      ((data.drop offset).take width).length = width :=
    List.length_take_of_le (by rw [List.length_drop]; omega)
  have hseq : bytes 4 ((headerOf data).frame data).seq.toNat = (data.drop 4).take 4 := by
    have hvalue := value_lt ((data.drop 4).take 4)
    rw [hwidth 4 4 (by omega)] at hvalue
    have hread : ((headerOf data).frame data).seq.toNat = value ((data.drop 4).take 4) :=
      UInt32.toNat_ofNat_of_lt hvalue
    rw [hread, bytes_value (hwidth 4 4 (by omega))]
  have hlen : bytes 2 ((headerOf data).frame data).payload.length = (data.drop 10).take 2 := by
    rw [hplen]
    exact bytes_value (hwidth 10 2 (by omega))
  have hbyte (offset : ℕ) (hbound : offset + 1 ≤ 16) :
      [UInt8.ofNat (value ((data.drop offset).take 1))] = (data.drop offset).take 1 :=
    singleton_of_value (by omega)
  have hsplit : data.take 12 = data.take 2 ++ (data.drop 2).take 1 ++ (data.drop 3).take 1 ++
      (data.drop 4).take 4 ++ (data.drop 8).take 1 ++ (data.drop 9).take 1 ++
        (data.drop 10).take 2 := by
    change data.take (2 + 1 + 1 + 4 + 1 + 1 + 2) = _
    simp only [List.take_add]
  rw [headerBytes, hseq, hlen, hsplit, hmagic, ← hbyte 2 (by omega), ← hbyte 3 (by omega),
    ← hbyte 8 (by omega), ← hbyte 9 (by omega)]
  simp [Header.frame, headerOf]

/-- What packing a received frame again puts under the checksum. -/
theorem rawBytes_unpacked {data : Bytes} {frame : Frame} (hunpack : unpack crc32 data = .ok frame) :
    rawBytes frame = data.take 12 ++ List.replicate 4 0 ++
      (frame.payload ++ List.replicate (pad16 frame.payload.length - frame.payload.length) 0) := by
  have hlength := (length_payload_of_unpack crc32 hunpack).1
  obtain ⟨hmin, hmagic, -, -, rfl⟩ := (unpack_eq_ok_iff crc32).mp hunpack
  rw [rawBytes, headerBytes_frame (le_trans (by decide) hmin) hmagic hlength, padPayload_eq]
  rfl

/-- What stood under the checksum when it was received. -/
theorem take_unpacked {data : Bytes} {frame : Frame} (hunpack : unpack crc32 data = .ok frame) :
    data.take (hdrSize + pad16 frame.payload.length) =
      data.take 12 ++ (data.drop 12).take 4 ++
        (frame.payload ++ (data.drop (hdrSize + frame.payload.length)).take
          (pad16 frame.payload.length - frame.payload.length)) := by
  have hlength := (length_payload_of_unpack crc32 hunpack).1
  have hpad := le_pad16 frame.payload.length
  have hpayload : (data.drop hdrSize).take frame.payload.length = frame.payload := by
    obtain ⟨-, -, -, -, rfl⟩ := (unpack_eq_ok_iff crc32).mp hunpack
    rw [hlength]
    rfl
  have hheader : data.take hdrSize = data.take 12 ++ (data.drop 12).take 4 := by
    change data.take (12 + 4) = _
    exact List.take_add
  have hbody : (data.drop hdrSize).take (pad16 frame.payload.length) =
      (data.drop hdrSize).take frame.payload.length ++
        (data.drop (hdrSize + frame.payload.length)).take
          (pad16 frame.payload.length - frame.payload.length) := by
    rw [← List.drop_drop, ← List.take_add, Nat.add_sub_of_le hpad]
  rw [List.take_add, hheader, hbody, hpayload]

/-- The two agree exactly if the bytes that `unpack` does not read are zero. -/
theorem rawBytes_eq_take_iff {data : Bytes} {frame : Frame}
    (hunpack : unpack crc32 data = .ok frame) :
    rawBytes frame = data.take (hdrSize + pad16 frame.payload.length) ↔
      ZeroFilled data frame.payload.length := by
  have hlength := (length_payload_of_unpack crc32 hunpack).1
  obtain ⟨hmin, -, hcomplete, -, -⟩ := (unpack_eq_ok_iff crc32).mp hunpack
  rw [← hlength] at hcomplete
  have hreserved : ((data.drop 12).take 4).length = 4 := by
    unfold minFrame hdrSize at hmin
    exact List.length_take_of_le (by rw [List.length_drop]; omega)
  have hpadding : ((data.drop (hdrSize + frame.payload.length)).take
      (pad16 frame.payload.length - frame.payload.length)).length =
        pad16 frame.payload.length - frame.payload.length := by
    have hpad := le_pad16 frame.payload.length
    exact List.length_take_of_le (by rw [List.length_drop]; omega)
  rw [rawBytes_unpacked crc32 hunpack, take_unpacked crc32 hunpack]
  constructor
  · intro hequal
    obtain ⟨hheader, hbody⟩ := List.append_inj hequal (by simp [hreserved])
    have hfirst := List.append_cancel_left hheader
    have hlast := List.append_cancel_left hbody
    exact ⟨(List.eq_replicate_iff.mp hfirst.symm).2, (List.eq_replicate_iff.mp hlast.symm).2⟩
  · intro hzero
    rw [List.eq_replicate_iff.mpr ⟨hreserved, hzero.reserved⟩,
      List.eq_replicate_iff.mpr ⟨hpadding, hzero.padding⟩]

/-- Packing a received frame again reproduces its bytes exactly if the unread ones are zero. -/
theorem encode_eq_take_iff {data : Bytes} {frame : Frame}
    (hunpack : unpack crc32 data = .ok frame) :
    encode crc32 frame = data.take (20 + pad16 frame.payload.length) ↔
      ZeroFilled data frame.payload.length := by
  have hlength := (length_payload_of_unpack crc32 hunpack).1
  obtain ⟨-, -, hcomplete, hcrc, -⟩ := (unpack_eq_ok_iff crc32).mp hunpack
  rw [← hlength] at hcomplete hcrc
  have hword : ((data.drop (hdrSize + pad16 frame.payload.length)).take crcSize).length = 4 :=
    List.length_take_of_le (by rw [List.length_drop]; omega)
  have htake : data.take (20 + pad16 frame.payload.length) =
      sealCrc crc32 (data.take (hdrSize + pad16 frame.payload.length)) := by
    have hsize : 20 + pad16 frame.payload.length =
        hdrSize + pad16 frame.payload.length + crcSize := by
      unfold hdrSize crcSize
      omega
    rw [hsize, List.take_add, sealCrc, ← hcrc, bytes_value hword]
  rw [← rawBytes_eq_take_iff crc32 hunpack, htake, encode]
  constructor
  · intro hsealed
    refine (List.append_inj hsealed ?_).1
    rw [length_rawBytes, List.length_take_of_le (by omega)]
  · intro hraw
    rw [hraw]

/-- **Canonical encoding.** A received frame can be packed again, to a string of 20 bytes and the
padded payload that unpacks to the same frame. It is the beginning of every received string for this
frame whose reserved bytes and padding are zero, and of no other. -/
theorem pack_unpacked {data : Bytes} {frame : Frame} (hunpack : unpack crc32 data = .ok frame) :
    ∃ packed, pack crc32 frame.src.toNat frame.dst.toNat frame.seq.toNat frame.payload
        frame.flags.toNat frame.hop.toNat = .ok packed ∧
      packed.length = 20 + pad16 frame.payload.length ∧ unpack crc32 packed = .ok frame ∧
      (packed = data.take (20 + pad16 frame.payload.length) ↔
        ZeroFilled data frame.payload.length) ∧
      ∀ other, unpack crc32 other = .ok frame → ZeroFilled other frame.payload.length →
        other.take (20 + pad16 frame.payload.length) = packed := by
  have hlength := (length_payload_of_unpack crc32 hunpack).2
  refine ⟨encode crc32 frame, pack_frame crc32 frame hlength, ?_,
    unpack_encode crc32 frame hlength, encode_eq_take_iff crc32 hunpack, ?_⟩
  · rw [length_encode]
    unfold hdrSize crcSize
    omega
  · intro other hother hzero
    exact ((encode_eq_take_iff crc32 hother).mpr hzero).symm

/-- A frame with the payload `Hi`, received with two bytes behind it. -/
def noteFrame : Frame where
  flags := 0
  hop := 0
  seq := 42
  src := 1
  dst := 2
  payload := [0x48, 0x69]

theorem pack_unpacked_note :
    ∃ packed, pack Crc32.checksum 1 2 42 [0x48, 0x69] 0 0 = .ok packed ∧
      packed.length = 20 + pad16 2 ∧ unpack Crc32.checksum packed = .ok noteFrame ∧
      (packed = (encode Crc32.checksum noteFrame ++ [9, 9]).take (20 + pad16 2) ↔
        ZeroFilled (encode Crc32.checksum noteFrame ++ [9, 9]) 2) ∧
      ∀ other, unpack Crc32.checksum other = .ok noteFrame → ZeroFilled other 2 →
        other.take (20 + pad16 2) = packed :=
  pack_unpacked Crc32.checksum
    (unpack_encode_append Crc32.checksum noteFrame (by decide) [9, 9])

end UsbDirectFabric.Wire
