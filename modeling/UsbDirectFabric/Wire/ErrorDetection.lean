import UsbDirectFabric.Foundation.Crc32
import UsbDirectFabric.Wire.RoundTrip

/-!
# Which damage the CRC reveals

With the IEEE 802.3 CRC-32 two strings that `unpack` accepts, whose frames have one padded length
and which agree outside a window of four covered bytes, are equal. So a packed frame damaged in such
a window is rejected as long as the damage leaves the payload length alone.

The CRC is looked up behind the payload that the length field announces. Damage to that field which
shortens the payload therefore compares a shorter string with bytes of the old payload, and passes
when these happen to be its checksum.
-/

namespace UsbDirectFabric.Wire

open LittleEndian Crc32

/-! ## Damage in a window -/

/-- `damaged` has the length of `data` and its bytes outside the `width` bytes from `offset` on. -/
def AgreeOutside (offset width : ℕ) (data damaged : Bytes) : Prop :=
  damaged.length = data.length ∧
    ∀ index, index < offset ∨ offset + width ≤ index → damaged[index]? = data[index]?

/-- A string as what is before, in and after a window. -/
theorem split_window (string : Bytes) (offset width : ℕ) :
    string = string.take offset ++
      ((string.drop offset).take width ++ string.drop (offset + width)) := by
  rw [← List.drop_drop, List.take_append_drop, List.take_append_drop]

variable {offset width : ℕ} {data damaged : Bytes}

/-- Slices on either side of the window are undamaged. -/
theorem AgreeOutside.slice_eq (hagree : AgreeOutside offset width data damaged) {start count : ℕ}
    (hside : start + count ≤ offset ∨ offset + width ≤ start) :
    (damaged.drop start).take count = (data.drop start).take count := by
  apply List.ext_getElem?
  intro index
  rw [List.getElem?_take, List.getElem?_take]
  split
  · rw [List.getElem?_drop, List.getElem?_drop]
    exact hagree.2 _ (by omega)
  · rfl

theorem AgreeOutside.take_eq (hagree : AgreeOutside offset width data damaged) {count : ℕ}
    (hbefore : count ≤ offset) : damaged.take count = data.take count := by
  have hbefore : 0 + count ≤ offset := by rwa [Nat.zero_add]
  simpa using hagree.slice_eq (.inl hbefore)

theorem AgreeOutside.drop_eq (hagree : AgreeOutside offset width data damaged) {start : ℕ}
    (hafter : offset + width ≤ start) : damaged.drop start = data.drop start := by
  apply List.ext_getElem?
  intro index
  rw [List.getElem?_drop, List.getElem?_drop]
  exact hagree.2 _ (by omega)

theorem AgreeOutside.take (hagree : AgreeOutside offset width data damaged) (count : ℕ) :
    AgreeOutside offset width (data.take count) (damaged.take count) := by
  refine ⟨by rw [List.length_take, List.length_take, hagree.1], ?_⟩
  intro index hindex
  rw [List.getElem?_take, List.getElem?_take, hagree.2 index hindex]

/-- Damage beside the length field leaves the payload length alone. -/
theorem AgreeOutside.plen_eq (hagree : AgreeOutside offset width data damaged)
    (haside : 12 ≤ offset ∨ offset + width ≤ 10) :
    (headerOf damaged).plen = (headerOf data).plen := by
  have hfield : (damaged.drop 10).take 2 = (data.drop 10).take 2 := hagree.slice_eq haside
  simp only [headerOf, hfield]

/-- Strings with one checksum that agree outside four bytes are equal. -/
theorem AgreeOutside.eq_of_checksum (hagree : AgreeOutside offset width data damaged)
    (hwidth : width ≤ 4) (hchecksum : checksum damaged = checksum data) : damaged = data := by
  have hfront := hagree.take_eq le_rfl
  have hrest := hagree.drop_eq le_rfl
  have hlength : ((damaged.drop offset).take width).length =
      ((data.drop offset).take width).length := by
    simp only [List.length_take, List.length_drop, hagree.1]
  rw [split_window damaged offset width, split_window data offset width, hfront, hrest]
    at hchecksum
  have hwindow := checksum_burst _ _ hlength
    (le_trans (List.length_take_le _ _) hwidth) hchecksum
  rw [split_window damaged offset width, hfront, hrest, hwindow, ← split_window]

/-! ## Two accepted strings -/

/-- Accepted strings with one padded payload length that differ at most in four covered bytes are
equal. -/
theorem eq_of_unpack_of_covered {frame other : Frame} (hdata : unpack checksum data = .ok frame)
    (hdamaged : unpack checksum damaged = .ok other)
    (hpadded : pad16 (headerOf damaged).plen = pad16 (headerOf data).plen)
    (hagree : AgreeOutside offset width data damaged) (hwidth : width ≤ 4)
    (hcovered : offset + width ≤ hdrSize + pad16 (headerOf data).plen) : damaged = data := by
  obtain ⟨_, _, _, hcrc, _⟩ := (unpack_eq_ok_iff checksum).mp hdata
  obtain ⟨_, _, _, hcrcDamaged, _⟩ := (unpack_eq_ok_iff checksum).mp hdamaged
  rw [hpadded, hagree.slice_eq (.inr hcovered), hcrc] at hcrcDamaged
  have htake := (hagree.take _).eq_of_checksum hwidth (UInt32.toNat_inj.mp hcrcDamaged.symm)
  rw [← List.take_append_drop (hdrSize + pad16 (headerOf data).plen) damaged, htake,
    hagree.drop_eq hcovered, List.take_append_drop]

/-- Accepted strings with one padded payload length that differ at most in their CRC are equal. -/
theorem eq_of_unpack_of_crc {frame other : Frame} (hdata : unpack checksum data = .ok frame)
    (hdamaged : unpack checksum damaged = .ok other)
    (hpadded : pad16 (headerOf damaged).plen = pad16 (headerOf data).plen)
    (hagree : AgreeOutside (hdrSize + pad16 (headerOf data).plen) crcSize data damaged) :
    damaged = data := by
  obtain ⟨_, _, hcomplete, hcrc, _⟩ := (unpack_eq_ok_iff checksum).mp hdata
  obtain ⟨_, _, _, hcrcDamaged, _⟩ := (unpack_eq_ok_iff checksum).mp hdamaged
  rw [hpadded, hagree.take_eq le_rfl, ← hcrc] at hcrcDamaged
  set covered := hdrSize + pad16 (headerOf data).plen with hcovered
  have hlength {string : Bytes} (hstring : string.length = data.length) :
      ((string.drop covered).take crcSize).length = crcSize := by
    rw [List.length_take, List.length_drop]
    omega
  have hword : (damaged.drop covered).take crcSize = (data.drop covered).take crcSize := by
    rw [← bytes_value (hlength hagree.1), hcrcDamaged, bytes_value (hlength rfl)]
  rw [split_window damaged covered crcSize, hagree.take_eq le_rfl, hagree.drop_eq le_rfl, hword,
    ← split_window]

/-! ## Packed frames -/

/-- **Bursts are rejected.** Damage to at most four consecutive covered bytes outside magic and
payload length raises `ValueError`, and so does damage to the CRC. -/
theorem unpack_burst {src dst seq flags hop : ℤ} {payload : Bytes}
    (hpack : pack checksum src dst seq payload flags hop = .ok data) :
    (∀ offset width damaged, width ≤ 4 → offset + width ≤ data.length - 4 →
      (∀ index ∈ [0, 1, 10, 11], index < offset ∨ offset + width ≤ index) →
      AgreeOutside offset width data damaged → damaged ≠ data →
      ∃ message, unpack checksum damaged = .error (.valueError message)) ∧
    ∀ damaged, AgreeOutside (data.length - 4) 4 data damaged → damaged ≠ data →
      ∃ message, unpack checksum damaged = .error (.valueError message) := by
  obtain ⟨frame, -, -, -, rfl, -, -, hlength, rfl⟩ := pack_eq_ok checksum hpack
  have hdata := unpack_encode checksum frame hlength
  have hplen := headerOf_encode_plen checksum frame hlength
  have hend : (encode checksum frame).length - 4 =
      hdrSize + pad16 (headerOf (encode checksum frame)).plen := by
    rw [length_encode, hplen, crcSize, Nat.add_sub_cancel]
  constructor
  · intro offset width damaged hwidth hcovered havoids hagree hdiffers
    apply unpack_valueError
    intro other hdamaged
    have hwindow : width ≠ 0 := by
      rintro rfl
      apply hdiffers
      apply List.ext_getElem?
      intro index
      exact hagree.2 index (by omega)
    have hfield : (headerOf damaged).plen = (headerOf (encode checksum frame)).plen := by
      have hten := havoids 10 (by simp)
      have heleven := havoids 11 (by simp)
      exact hagree.plen_eq (by omega)
    exact hdiffers (eq_of_unpack_of_covered hdata hdamaged (by rw [hfield]) hagree hwidth
      (hend ▸ hcovered))
  · intro damaged hagree hdiffers
    apply unpack_valueError
    intro other hdamaged
    have hfield : (headerOf damaged).plen = (headerOf (encode checksum frame)).plen := by
      apply hagree.plen_eq
      rw [hend, hdrSize]
      omega
    rw [hend] at hagree
    exact hdiffers (eq_of_unpack_of_crc hdata hdamaged (by rw [hfield]) hagree)

def hiData : Bytes :=
  (pack checksum 1 2 0 [0x48, 0x69] 0 0).toOption.getD []

theorem unpack_burst_hi :
    (∀ offset width damaged, width ≤ 4 → offset + width ≤ hiData.length - 4 →
      (∀ index ∈ [0, 1, 10, 11], index < offset ∨ offset + width ≤ index) →
      AgreeOutside offset width hiData damaged → damaged ≠ hiData →
      ∃ message, unpack checksum damaged = .error (.valueError message)) ∧
    ∀ damaged, AgreeOutside (hiData.length - 4) 4 hiData damaged → damaged ≠ hiData →
      ∃ message, unpack checksum damaged = .error (.valueError message) :=
  unpack_burst (show pack checksum 1 2 0 [0x48, 0x69] 0 0 = .ok hiData by decide +kernel)

/-! ## Single bits -/

def flipBit (data : Bytes) (index bit : ℕ) : Bytes :=
  data.modify index fun byte ↦ byte ^^^ UInt8.ofNat (2 ^ bit)

theorem agreeOutside_flipBit (data : Bytes) (index bit : ℕ) :
    AgreeOutside index 1 data (flipBit data index bit) := by
  refine ⟨List.length_modify _ _ _, ?_⟩
  intro other hother
  rw [flipBit, List.getElem?_modify_ne _ _ (by omega)]

theorem flipBit_ne {data : Bytes} {index bit : ℕ} (hindex : index < data.length) (hbit : bit < 8) :
    flipBit data index bit ≠ data := by
  intro hequal
  have hbyte := congrArg (·[index]?) hequal
  simp only [flipBit, List.getElem?_modify_eq, List.getElem?_eq_getElem hindex, Option.map_eq_map,
    Option.map_some, Option.some.injEq] at hbyte
  have hzero : UInt8.ofNat (2 ^ bit) = 0 := by
    rw [← UInt8.xor_right_inj data[index], hbyte, UInt8.xor_zero]
  interval_cases bit <;> exact absurd hzero (by decide)

/-- The damaged payload length announces an earlier end of the frame, and the four bytes found there
are the checksum of what precedes them. -/
def PassesShortened (data damaged : Bytes) : Prop :=
  pad16 (headerOf damaged).plen < pad16 (headerOf data).plen ∧
    value ((damaged.drop (hdrSize + pad16 (headerOf damaged).plen)).take crcSize) =
      (checksum (damaged.take (hdrSize + pad16 (headerOf damaged).plen))).toNat

/-- **Single bit errors.** A packed frame with one bit flipped raises `ValueError`, except where
the flip shortens the payload length and the frame passes shortened. -/
theorem unpack_flipBit_iff {src dst seq flags hop : ℤ} {payload data : Bytes}
    (hpack : pack checksum src dst seq payload flags hop = .ok data) {index bit : ℕ}
    (hindex : index < data.length) (hbit : bit < 8) :
    (∃ message, unpack checksum (flipBit data index bit) = .error (.valueError message)) ↔
      ¬((index = 10 ∨ index = 11) ∧ PassesShortened data (flipBit data index bit)) := by
  obtain ⟨frame, -, -, -, rfl, -, -, hlength, rfl⟩ := pack_eq_ok checksum hpack
  have hdata := unpack_encode checksum frame hlength
  set data := encode checksum frame with hencode
  set damaged := flipBit data index bit with hdamaged
  have hagree : AgreeOutside index 1 data damaged := agreeOutside_flipBit data index bit
  have hdiffers : damaged ≠ data := flipBit_ne hindex hbit
  have hend : data.length = hdrSize + pad16 (headerOf data).plen + crcSize := by
    rw [hencode, headerOf_encode_plen checksum frame hlength, length_encode]
  obtain ⟨hmin, hmagic, -⟩ := (unpack_eq_ok_iff checksum).mp hdata
  constructor
  · rintro ⟨message, hreject⟩ ⟨hfield, hshorter, hcrc⟩
    have haccept : unpack checksum damaged = .ok ((headerOf damaged).frame damaged) := by
      refine (unpack_eq_ok_iff checksum).mpr ⟨?_, ?_, ?_, hcrc, rfl⟩
      · rwa [hagree.1]
      · rwa [hagree.take_eq (by omega)]
      · rw [hagree.1]
        omega
    rw [hreject] at haccept
    cases haccept
  · intro hpasses
    apply unpack_valueError
    intro other haccept
    obtain ⟨-, -, hcomplete, hcrc, -⟩ := (unpack_eq_ok_iff checksum).mp haccept
    rw [hagree.1, hend] at hcomplete
    by_cases hpadded : pad16 (headerOf damaged).plen = pad16 (headerOf data).plen
    · by_cases hcovered : index < hdrSize + pad16 (headerOf data).plen
      · exact hdiffers (eq_of_unpack_of_covered hdata haccept hpadded hagree (by decide) hcovered)
      · apply hdiffers
        apply eq_of_unpack_of_crc hdata haccept hpadded
        refine ⟨hagree.1, ?_⟩
        intro other hother
        rw [hend] at hindex
        exact hagree.2 other (by omega)
    · have hfield : index = 10 ∨ index = 11 := by
        by_contra hother
        apply hpadded
        rw [hagree.plen_eq (by omega)]
      exact hpasses ⟨hfield, by omega, hcrc⟩

theorem unpack_flipBit_iff_hi :
    (∃ message, unpack checksum (flipBit hiData 16 0) = .error (.valueError message)) ↔
      ¬((16 = 10 ∨ 16 = 11) ∧ PassesShortened hiData (flipBit hiData 16 0)) :=
  unpack_flipBit_iff (show pack checksum 1 2 0 [0x48, 0x69] 0 0 = .ok hiData by decide +kernel)
    (by decide +kernel) (by decide)

/-- A payload that begins with the checksum of an empty frame's header. -/
def crcPayload : Bytes :=
  [0x1F, 0xE0, 0x8F, 0xED] ++ List.replicate 12 0

/-- The frame of sixteen such bytes passes as an empty one when its length field loses its only
bit. -/
theorem not_unpack_flipBit :
    ¬∀ (src dst seq flags hop : ℤ) (payload data : Bytes) (index bit : ℕ),
      payload.length ≤ maxPayload → pack checksum src dst seq payload flags hop = .ok data →
      index < data.length → bit < 8 →
      ∃ message, unpack checksum (flipBit data index bit) = .error (.valueError message) := by
  intro hdetects
  set data := (pack checksum 1 2 0 crcPayload 0 0).toOption.getD [] with hdata
  have hpack : pack checksum 1 2 0 crcPayload 0 0 = .ok data := by decide +kernel
  have haccept : (unpack checksum (flipBit data 10 4)).isOk := by decide +kernel
  obtain ⟨message, hreject⟩ := hdetects 1 2 0 0 0 crcPayload data 10 4 (by decide) hpack
    (by decide +kernel) (by decide)
  rw [hreject] at haccept
  cases haccept

end UsbDirectFabric.Wire
