import UsbDirectFabric.Foundation.Crc32
import UsbDirectFabric.Wire.RoundTrip

/-!
# The wire grammar of the specification

A byte string belongs to the grammar when a complete frame with magic, matching CRC and a payload
length of at most `MAX_PAYLOAD` stands at its beginning. `unpack` decides all of it but the bound on
the length: `MAX_PAYLOAD` is defined beside it and never compared with the length field.
-/

namespace UsbDirectFabric.Wire

open LittleEndian

variable (crc32 : Bytes → UInt32)

def payloadLength (data : Bytes) : ℕ :=
  value ((data.drop 10).take 2)

/-- Header and padded payload, the bytes under the CRC. -/
def coveredLength (data : Bytes) : ℕ :=
  16 + (payloadLength data + 15) / 16 * 16

/-- The word behind the covered bytes is their checksum. -/
def CrcMatches (data : Bytes) : Prop :=
  value ((data.drop (coveredLength data)).take 4) =
    (crc32 (data.take (coveredLength data))).toNat

/-- A complete frame of any length with magic and CRC. -/
structure Framed (data : Bytes) : Prop where
  minimum : 20 ≤ data.length
  magic : data.take 2 = [0x55, 0x46]
  complete : coveredLength data + 4 ≤ data.length
  crc : CrcMatches crc32 data

structure Grammar (data : Bytes) : Prop extends Framed crc32 data where
  bounded : payloadLength data ≤ 16368

theorem coveredLength_eq (data : Bytes) :
    hdrSize + pad16 (headerOf data).plen = coveredLength data := by
  rw [pad16_eq]
  rfl

/-- `unpack` accepts exactly the complete frames, whatever length they announce. -/
theorem exists_unpack_iff (data : Bytes) :
    (∃ frame, unpack crc32 data = .ok frame) ↔ Framed crc32 data := by
  have hcovered := coveredLength_eq data
  constructor
  · rintro ⟨frame, hunpack⟩
    obtain ⟨hmin, hmagic, hcomplete, hcrc, -⟩ := (unpack_eq_ok_iff crc32).mp hunpack
    rw [hcovered] at hcomplete hcrc
    exact ⟨hmin, hmagic, hcomplete, hcrc⟩
  · rintro ⟨hmin, hmagic, hcomplete, hcrc⟩
    refine ⟨(headerOf data).frame data, (unpack_eq_ok_iff crc32).mpr ⟨hmin, hmagic, ?_, ?_, rfl⟩⟩
    · rwa [hcovered]
    · rwa [hcovered]

/-- Strings that begin alike and hold a complete frame are told apart by their CRC alone. -/
theorem exists_unpack_congr {data other : Bytes} (hmagic : other.take 2 = data.take 2)
    (hcomplete : coveredLength other + 4 ≤ other.length ↔ coveredLength data + 4 ≤ data.length)
    (hcrc : CrcMatches crc32 other ↔ CrcMatches crc32 data) :
    (∃ frame, unpack crc32 other = .ok frame) ↔ ∃ frame, unpack crc32 data = .ok frame := by
  have hleast (string : Bytes) (hlength : coveredLength string + 4 ≤ string.length) :
      20 ≤ string.length := by
    unfold coveredLength at hlength
    omega
  rw [exists_unpack_iff, exists_unpack_iff]
  constructor
  · rintro ⟨-, hbegins, hlength, hmatches⟩
    have hlength := hcomplete.mp hlength
    exact ⟨hleast data hlength, hmagic ▸ hbegins, hlength, hcrc.mp hmatches⟩
  · rintro ⟨-, hbegins, hlength, hmatches⟩
    have hlength := hcomplete.mpr hlength
    exact ⟨hleast other hlength, hmagic ▸ hbegins, hlength, hcrc.mpr hmatches⟩

/-- **Accepted strings.** `unpack` decides membership in the grammar, and looks at nothing but
magic, completeness and CRC, for all strings except complete frames that announce a payload above
the maximum. -/
theorem unpack_grammar_iff (data : Bytes) :
    (((∃ frame, unpack crc32 data = .ok frame) ↔ Grammar crc32 data) ∧
      ∀ other, other.take 2 = data.take 2 →
        (coveredLength other + 4 ≤ other.length ↔ coveredLength data + 4 ≤ data.length) →
        (CrcMatches crc32 other ↔ CrcMatches crc32 data) →
        ((∃ frame, unpack crc32 other = .ok frame) ↔ ∃ frame, unpack crc32 data = .ok frame)) ↔
      ¬(Framed crc32 data ∧ 16368 < payloadLength data) := by
  constructor
  · rintro ⟨hdecides, -⟩ ⟨hframed, hoversize⟩
    have hgrammar := hdecides.mp ((exists_unpack_iff crc32 data).mpr hframed)
    exact Nat.not_le.mpr hoversize hgrammar.bounded
  · intro hbounded
    refine ⟨?_, fun other hmagic hcomplete hcrc ↦
      exists_unpack_congr crc32 hmagic hcomplete hcrc⟩
    rw [exists_unpack_iff]
    constructor
    · intro hframed
      exact ⟨hframed, Nat.not_lt.mp fun hoversize ↦ hbounded ⟨hframed, hoversize⟩⟩
    · exact Grammar.toFramed

def oversizeFrame : Frame where
  flags := 0
  hop := 0
  seq := 0
  src := 1
  dst := 2
  payload := List.replicate 16369 0

theorem not_unpack_grammar :
    ¬∀ data, (∃ frame, unpack Crc32.checksum data = .ok frame) ↔ Grammar Crc32.checksum data := by
  have hlength : oversizeFrame.payload.length = 16369 := List.length_replicate
  have hfits : oversizeFrame.payload.length < 65536 := by omega
  have hfield : payloadLength (encode Crc32.checksum oversizeFrame) = 16369 :=
    (headerOf_encode_plen Crc32.checksum oversizeFrame hfits).trans hlength
  intro hdecides
  have hgrammar := (hdecides _).mp ⟨_, unpack_encode Crc32.checksum oversizeFrame hfits⟩
  have hbounded := hgrammar.bounded
  omega

end UsbDirectFabric.Wire
