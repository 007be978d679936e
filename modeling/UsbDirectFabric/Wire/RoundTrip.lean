import UsbDirectFabric.Wire.Frame

/-!
# What packing writes and what unpacking accepts

Packing a frame whose payload length fits the 16-bit length field writes one fixed byte layout,
`encode`. Unpacking reads its six fields at fixed offsets, so on any string of at least 20 bytes it
is a comparison of the length, the magic and the checksum; `unpack_eq_ok_iff` states that once and
the round trip and the rejection of every truncation follow from it.
-/

namespace UsbDirectFabric.Wire

open LittleEndian

variable (crc32 : Bytes → UInt32)

/-- A computation that may raise returns a result exactly when all of its steps do. -/
theorem bind_eq_ok {ε α β : Type} {step : Except ε α} {next : α → Except ε β} {result : β} :
    (step >>= next) = .ok result ↔ ∃ value, step = .ok value ∧ next value = .ok result := by
  cases step <;> simp [bind, Except.bind]

theorem isOk_iff {ε α : Type} {result : Except ε α} :
    result.isOk ↔ ∃ value, result = .ok value := by
  cases result with
  | ok value => exact iff_of_true rfl ⟨value, rfl⟩
  | error error => exact iff_of_false Bool.false_ne_true fun ⟨_, hvalue⟩ ↦ nomatch hvalue

/-! ## Padding -/

theorem pad16_eq (n : ℕ) : pad16 n = (n + 15) / 16 * 16 := by
  unfold pad16
  split <;> omega

theorem le_pad16 (n : ℕ) : n ≤ pad16 n := by
  rw [pad16_eq]
  omega

theorem pad16_eq_zero_iff {n : ℕ} : pad16 n = 0 ↔ n = 0 := by
  rw [pad16_eq]
  omega

theorem padPayload_eq (payload : Bytes) :
    padPayload payload =
      payload ++ List.replicate (pad16 payload.length - payload.length) 0 := by
  unfold padPayload
  split
  · rfl
  · rename_i hzero
    have hempty : payload = [] := by
      simpa only [ne_eq, not_not, pad16_eq_zero_iff, List.length_eq_zero_iff] using hzero
    simp [hempty, pad16]

@[simp]
theorem length_padPayload (payload : Bytes) :
    (padPayload payload).length = pad16 payload.length := by
  rw [padPayload_eq, List.length_append, List.length_replicate]
  have h := le_pad16 payload.length
  omega

theorem take_padPayload (payload : Bytes) :
    (padPayload payload).take payload.length = payload := by
  rw [padPayload_eq, List.take_left]

/-! ## The layout that packing writes -/

def headerBytes (frame : Frame) : Bytes :=
  magic ++ [frame.flags, frame.hop] ++ bytes 4 frame.seq.toNat ++ [frame.src, frame.dst] ++
    bytes 2 frame.payload.length ++ bytes 4 0

/-- Everything the checksum of a frame covers. -/
def rawBytes (frame : Frame) : Bytes :=
  headerBytes frame ++ padPayload frame.payload

def encode (frame : Frame) : Bytes :=
  sealCrc crc32 (rawBytes frame)

@[simp]
theorem length_headerBytes (frame : Frame) : (headerBytes frame).length = hdrSize := by
  simp [headerBytes, magic, hdrSize]

@[simp]
theorem length_rawBytes (frame : Frame) :
    (rawBytes frame).length = hdrSize + pad16 frame.payload.length := by
  simp [rawBytes]

@[simp]
theorem length_sealCrc (raw : Bytes) : (sealCrc crc32 raw).length = raw.length + crcSize := by
  simp [sealCrc, crcSize]

@[simp]
theorem length_encode (frame : Frame) :
    (encode crc32 frame).length = hdrSize + pad16 frame.payload.length + crcSize := by
  simp [encode]

theorem packField_natCast {width number : ℕ} (hfits : number < 256 ^ width) :
    packField width number = .ok (bytes width number) := by
  simp [packField, hfits]

theorem packField_eq_ok {width : ℕ} {number : ℤ} {field : Bytes}
    (h : packField width number = .ok field) :
    ∃ n : ℕ, number = n ∧ n < 256 ^ width ∧ field = bytes width n := by
  unfold packField at h
  split at h
  · rename_i hrange
    obtain ⟨n, rfl⟩ := Int.eq_ofNat_of_zero_le hrange.1
    refine ⟨n, rfl, by simpa using hrange.2, ?_⟩
    simpa using h.symm
  · cases h

theorem packStruct_cons_eq_ok {width : ℕ} {number : ℤ} {fields : List (ℕ × ℤ)} {packed : Bytes}
    (h : packStruct ((width, number) :: fields) = .ok packed) :
    ∃ (n : ℕ) (tail : Bytes), number = n ∧ n < 256 ^ width ∧ packStruct fields = .ok tail ∧
      packed = bytes width n ++ tail := by
  simp only [packStruct, bind_eq_ok] at h
  obtain ⟨head, hhead, tail, htail, hpacked⟩ := h
  obtain ⟨n, hnumber, hfits, rfl⟩ := packField_eq_ok hhead
  exact ⟨n, tail, hnumber, hfits, htail, (Except.ok.inj hpacked).symm⟩

theorem exists_byte {n : ℕ} (hfits : n < 256 ^ 1) : ∃ byte : UInt8, n = byte.toNat :=
  ⟨.ofNat n, (UInt8.toNat_ofNat_of_lt (by simpa only [pow_one] using hfits)).symm⟩

theorem exists_word {n : ℕ} (hfits : n < 256 ^ 4) : ∃ word : UInt32, n = word.toNat :=
  ⟨.ofNat n, (UInt32.toNat_ofNat_of_lt (by simpa [UInt32.size] using hfits)).symm⟩

/-- An integer in the range of a byte is the value of one. -/
theorem exists_byte_of_range {number : ℤ} (hrange : 0 ≤ number ∧ number < 256) :
    ∃ byte : UInt8, number = byte.toNat := by
  obtain ⟨n, rfl⟩ := Int.eq_ofNat_of_zero_le hrange.1
  obtain ⟨byte, rfl⟩ := exists_byte (show n < 256 ^ 1 by omega)
  exact ⟨byte, rfl⟩

theorem exists_word_of_range {number : ℤ} (hrange : 0 ≤ number ∧ number < 2 ^ 32) :
    ∃ word : UInt32, number = word.toNat := by
  obtain ⟨n, rfl⟩ := Int.eq_ofNat_of_zero_le hrange.1
  obtain ⟨word, rfl⟩ := exists_word (show n < 256 ^ 4 by omega)
  exact ⟨word, rfl⟩

theorem bytes_one_toNat (byte : UInt8) : bytes 1 byte.toNat = [byte] := by
  simp [bytes]

/-- A byte is packed as itself. -/
theorem packField_byte (byte : UInt8) : packField 1 byte.toNat = .ok [byte] := by
  rw [packField_natCast (by simpa using byte.toNat_lt), bytes_one_toNat]

/-- Packing a frame whose length fits its field succeeds. -/
theorem packHeader_frame (frame : Frame) (hlength : frame.payload.length < 65536) :
    packHeader frame.src.toNat frame.dst.toNat frame.seq.toNat frame.payload frame.flags.toNat
      frame.hop.toNat = .ok (headerBytes frame) := by
  have hseq : packField 4 (frame.seq.toNat : ℤ) = .ok (bytes 4 frame.seq.toNat) :=
    packField_natCast (by simpa using frame.seq.toNat_lt)
  have hplen : packField 2 (frame.payload.length : ℤ) = .ok (bytes 2 frame.payload.length) :=
    packField_natCast (by simpa using hlength)
  have hreserved : packField 4 0 = .ok (bytes 4 0) := by
    simpa using packField_natCast (show 0 < 256 ^ 4 by norm_num)
  simp only [packHeader, packStruct, packField_byte, hseq, hplen, hreserved]
  simp [headerBytes, bind, Except.bind, pure, Except.pure]

/-- Packing succeeds only on arguments that are the fields of a frame. -/
theorem packHeader_eq_ok {src dst seq : ℤ} {payload : Bytes} {flags hop : ℤ} {header : Bytes}
    (h : packHeader src dst seq payload flags hop = .ok header) :
    ∃ frame : Frame, src = frame.src.toNat ∧ dst = frame.dst.toNat ∧ seq = frame.seq.toNat ∧
      payload = frame.payload ∧ flags = frame.flags.toNat ∧ hop = frame.hop.toNat ∧
      payload.length < 65536 ∧ header = headerBytes frame := by
  simp only [packHeader, bind_eq_ok] at h
  obtain ⟨hdr, hhdr, routing, hrouting, hheader⟩ := h
  obtain ⟨flags, _, rfl, hflags, hhdr₁, rfl⟩ := packStruct_cons_eq_ok hhdr
  obtain ⟨hop, _, rfl, hhop, hhdr₂, rfl⟩ := packStruct_cons_eq_ok hhdr₁
  obtain ⟨seq, _, rfl, hseq, ⟨⟩, rfl⟩ := packStruct_cons_eq_ok hhdr₂
  obtain ⟨src, _, rfl, hsrc, hrouting₁, rfl⟩ := packStruct_cons_eq_ok hrouting
  obtain ⟨dst, _, rfl, hdst, hrouting₂, rfl⟩ := packStruct_cons_eq_ok hrouting₁
  obtain ⟨plen, _, hplen, hfits, hrouting₃, rfl⟩ := packStruct_cons_eq_ok hrouting₂
  obtain ⟨reserved, _, hreserved, _, ⟨⟩, rfl⟩ := packStruct_cons_eq_ok hrouting₃
  obtain rfl : payload.length = plen := Int.ofNat.inj hplen
  obtain rfl : 0 = reserved := Int.ofNat.inj hreserved
  obtain ⟨flags, rfl⟩ := exists_byte hflags
  obtain ⟨hop, rfl⟩ := exists_byte hhop
  obtain ⟨src, rfl⟩ := exists_byte hsrc
  obtain ⟨dst, rfl⟩ := exists_byte hdst
  obtain ⟨seq, rfl⟩ := exists_word hseq
  refine ⟨⟨flags, hop, seq, src, dst, payload⟩, rfl, rfl, rfl, rfl, rfl, rfl,
    by simpa using hfits, ?_⟩
  rw [← Except.ok.inj hheader]
  simp only [bytes_one_toNat, headerBytes, List.append_assoc, List.append_nil, List.cons_append,
    List.nil_append]

theorem pack_frame (frame : Frame) (hlength : frame.payload.length < 65536) :
    pack crc32 frame.src.toNat frame.dst.toNat frame.seq.toNat frame.payload frame.flags.toNat
      frame.hop.toNat = .ok (encode crc32 frame) := by
  simp only [pack, packHeader_frame frame hlength]
  rfl

/-- Whatever `pack` returns is the layout of a frame with the packed fields. -/
theorem pack_eq_ok {src dst seq : ℤ} {payload : Bytes} {flags hop : ℤ} {data : Bytes}
    (h : pack crc32 src dst seq payload flags hop = .ok data) :
    ∃ frame : Frame, src = frame.src.toNat ∧ dst = frame.dst.toNat ∧ seq = frame.seq.toNat ∧
      payload = frame.payload ∧ flags = frame.flags.toNat ∧ hop = frame.hop.toNat ∧
      payload.length < 65536 ∧ data = encode crc32 frame := by
  simp only [pack, bind_eq_ok] at h
  obtain ⟨header, hheader, hdata⟩ := h
  obtain ⟨frame, hsrc, hdst, hseq, rfl, hflags, hhop, hlength, rfl⟩ := packHeader_eq_ok hheader
  exact ⟨frame, hsrc, hdst, hseq, rfl, hflags, hhop, hlength, (Except.ok.inj hdata).symm⟩

/-- What `pack` returns is as long as the payload demands. -/
theorem length_of_pack {src dst seq : ℤ} {payload : Bytes} {flags hop : ℤ} {data : Bytes}
    (hpack : pack crc32 src dst seq payload flags hop = .ok data) :
    data.length = hdrSize + pad16 payload.length + crcSize := by
  obtain ⟨frame, -, -, -, rfl, -, -, -, rfl⟩ := pack_eq_ok crc32 hpack
  exact length_encode crc32 frame

/-- Packing succeeds on all arguments that lie in the ranges of their fields. -/
theorem pack_of_range {src dst seq : ℤ} {payload : Bytes} {flags hop : ℤ}
    (hsrc : 0 ≤ src ∧ src < 256) (hdst : 0 ≤ dst ∧ dst < 256) (hseq : 0 ≤ seq ∧ seq < 2 ^ 32)
    (hflags : 0 ≤ flags ∧ flags < 256) (hhop : 0 ≤ hop ∧ hop < 256)
    (hlength : payload.length < 65536) :
    ∃ data, pack crc32 src dst seq payload flags hop = .ok data := by
  obtain ⟨src, rfl⟩ := exists_byte_of_range hsrc
  obtain ⟨dst, rfl⟩ := exists_byte_of_range hdst
  obtain ⟨flags, rfl⟩ := exists_byte_of_range hflags
  obtain ⟨hop, rfl⟩ := exists_byte_of_range hhop
  obtain ⟨seq, rfl⟩ := exists_word_of_range hseq
  exact ⟨_, pack_frame crc32 ⟨flags, hop, seq, src, dst, payload⟩ hlength⟩

/-- Packing succeeds on no other arguments. -/
theorem pack_eq_ok_iff {src dst seq : ℤ} {payload : Bytes} {flags hop : ℤ} :
    (∃ data, pack crc32 src dst seq payload flags hop = .ok data) ↔
      (0 ≤ src ∧ src < 256) ∧ (0 ≤ dst ∧ dst < 256) ∧ (0 ≤ seq ∧ seq < 2 ^ 32) ∧
        (0 ≤ flags ∧ flags < 256) ∧ (0 ≤ hop ∧ hop < 256) ∧ payload.length < 65536 := by
  constructor
  · rintro ⟨data, hdata⟩
    obtain ⟨frame, rfl, rfl, rfl, rfl, rfl, rfl, hlength, -⟩ := pack_eq_ok crc32 hdata
    have hbyte (byte : UInt8) : 0 ≤ (byte.toNat : ℤ) ∧ (byte.toNat : ℤ) < 256 :=
      ⟨Int.natCast_nonneg _, by exact_mod_cast byte.toNat_lt⟩
    have hseq : 0 ≤ (frame.seq.toNat : ℤ) ∧ (frame.seq.toNat : ℤ) < 2 ^ 32 :=
      ⟨Int.natCast_nonneg _, by exact_mod_cast frame.seq.toNat_lt⟩
    exact ⟨hbyte _, hbyte _, hseq, hbyte _, hbyte _, hlength⟩
  · rintro ⟨hsrc, hdst, hseq, hflags, hhop, hlength⟩
    exact pack_of_range crc32 hsrc hdst hseq hflags hhop hlength

theorem packField_error {width : ℕ} {number : ℤ} {error : PyError}
    (h : packField width number = .error error) : error = .structError := by
  unfold packField at h
  split at h <;> cases h
  rfl

/-- The only exception of `struct.pack` is `struct.error`. -/
theorem packStruct_error {fields : List (ℕ × ℤ)} {error : PyError}
    (h : packStruct fields = .error error) : error = .structError := by
  induction fields with
  | nil => cases h
  | cons field fields ih =>
      simp only [packStruct] at h
      cases hhead : packField field.1 field.2 with
      | error other =>
          rw [hhead] at h
          exact packField_error (hhead.trans h)
      | ok head =>
          rw [hhead] at h
          cases htail : packStruct fields with
          | error other =>
              rw [htail] at h
              exact ih (htail.trans h)
          | ok tail =>
              rw [htail] at h
              cases h

theorem pack_error {src dst seq : ℤ} {payload : Bytes} {flags hop : ℤ} {error : PyError}
    (h : pack crc32 src dst seq payload flags hop = .error error) : error = .structError := by
  simp only [pack, packHeader] at h
  cases hhdr : packStruct [(1, flags), (1, hop), (4, seq)] with
  | error other =>
      rw [hhdr] at h
      exact packStruct_error (hhdr.trans h)
  | ok hdr =>
      rw [hhdr] at h
      cases hrouting : packStruct [(1, src), (1, dst), (2, payload.length), (4, 0)] with
      | error other =>
          rw [hrouting] at h
          exact packStruct_error (hrouting.trans h)
      | ok routing =>
          rw [hrouting] at h
          cases h

/-! ## What unpacking reads -/

theorem unpackFrom_eq {data : Bytes} {offset width : ℕ} (hbound : offset + width ≤ data.length) :
    unpackFrom data offset width = .ok (value ((data.drop offset).take width)) :=
  if_pos hbound

def headerOf (data : Bytes) : Header where
  flags := .ofNat (value ((data.drop 2).take 1))
  hop := .ofNat (value ((data.drop 3).take 1))
  seq := .ofNat (value ((data.drop 4).take 4))
  src := .ofNat (value ((data.drop 8).take 1))
  dst := .ofNat (value ((data.drop 9).take 1))
  plen := value ((data.drop 10).take 2)

/-- No header read is out of range once sixteen bytes are there. -/
theorem unpackHeader_eq {data : Bytes} (hlength : hdrSize ≤ data.length) :
    unpackHeader data = .ok (headerOf data) := by
  unfold hdrSize at hlength
  simp only [unpackHeader]
  rw [unpackFrom_eq (by omega), unpackFrom_eq (by omega), unpackFrom_eq (by omega),
    unpackFrom_eq (by omega), unpackFrom_eq (by omega), unpackFrom_eq (by omega),
    unpackFrom_eq (by omega)]
  rfl

/-- The exact acceptance condition of `unpack`. -/
theorem unpack_eq_ok_iff {data : Bytes} {frame : Frame} :
    unpack crc32 data = .ok frame ↔
      minFrame ≤ data.length ∧ data.take 2 = magic ∧
      hdrSize + pad16 (headerOf data).plen + crcSize ≤ data.length ∧
      value ((data.drop (hdrSize + pad16 (headerOf data).plen)).take crcSize) =
        (crc32 (data.take (hdrSize + pad16 (headerOf data).plen))).toNat ∧
      frame = (headerOf data).frame data := by
  unfold unpack
  split
  · rename_i hshort
    simp [Nat.not_le.mpr hshort]
  rename_i hlong
  have hmin : minFrame ≤ data.length := Nat.le_of_not_lt hlong
  split
  · rename_i hmagic
    simp [hmagic]
  rename_i hmagic
  have hmagic : data.take 2 = magic := not_not.mp hmagic
  have hheader := unpackHeader_eq (le_trans (show hdrSize ≤ minFrame by decide) hmin)
  simp only [hheader, bind, Except.bind, hmin, hmagic, true_and]
  split
  · rename_i htruncated
    simp [Nat.not_le.mpr htruncated]
  rename_i hcomplete
  have hexpected := Nat.le_of_not_lt hcomplete
  rw [unpackFrom_eq (by simpa only [crcSize] using hexpected)]
  simp only [hexpected, true_and]
  split
  · rename_i hcrc
    simp [crcSize, hcrc]
  · rename_i hcrc
    have hcrc := not_not.mp hcrc
    simp [crcSize, hcrc, pure, Except.pure, eq_comm]

/-- An unpacked payload is as long as its length field says. -/
theorem length_payload_of_unpack {data : Bytes} {frame : Frame}
    (hunpack : unpack crc32 data = .ok frame) :
    frame.payload.length = (headerOf data).plen ∧ frame.payload.length < 65536 := by
  obtain ⟨_, _, hcomplete, _, rfl⟩ := (unpack_eq_ok_iff crc32).mp hunpack
  have hplen : (headerOf data).plen < 65536 := by
    have hvalue := value_lt ((data.drop 10).take 2)
    have hwidth : ((data.drop 10).take 2).length ≤ 2 := List.length_take_le _ _
    calc
      (headerOf data).plen < 256 ^ ((data.drop 10).take 2).length := hvalue
      _ ≤ 256 ^ 2 := Nat.pow_le_pow_right (by decide) hwidth
  have hbody := le_pad16 (headerOf data).plen
  have hpayload : ((headerOf data).frame data).payload.length = (headerOf data).plen := by
    simp only [Header.frame, List.length_take, List.length_drop]
    omega
  exact ⟨hpayload, hpayload ▸ hplen⟩

/-- Bytes beyond the frame do not matter: any cut that keeps the whole frame unpacks to it. -/
theorem unpack_take {data : Bytes} {frame : Frame} {size : ℕ}
    (hunpack : unpack crc32 data = .ok frame)
    (hsize : hdrSize + pad16 frame.payload.length + crcSize ≤ size) :
    unpack crc32 (data.take size) = .ok frame := by
  have hplen := (length_payload_of_unpack crc32 hunpack).1
  obtain ⟨hmin, hmagic, hcomplete, hcrc, hframe⟩ := (unpack_eq_ok_iff crc32).mp hunpack
  rw [hplen] at hsize
  have hbody := le_pad16 (headerOf data).plen
  have hlarge : minFrame ≤ size := le_trans (by simp [minFrame]) hsize
  unfold minFrame hdrSize crcSize at *
  have hcut (offset width : ℕ) (hbound : offset + width ≤ size) :
      ((data.take size).drop offset).take width = (data.drop offset).take width := by
    rw [List.drop_take, List.take_take, min_eq_left (by omega)]
  have hheader : headerOf (data.take size) = headerOf data := by
    unfold headerOf
    rw [hcut 2 1 (by omega), hcut 3 1 (by omega), hcut 4 4 (by omega), hcut 8 1 (by omega),
      hcut 9 1 (by omega), hcut 10 2 (by omega)]
  rw [unpack_eq_ok_iff, hheader]
  unfold minFrame hdrSize crcSize
  refine ⟨?_, ?_, ?_, ?_, ?_⟩
  · rw [List.length_take]
    omega
  · rw [List.take_take, min_eq_left (by omega), hmagic]
  · rw [List.length_take]
    omega
  · rw [hcut _ _ hsize, List.take_take, min_eq_left (by omega), hcrc]
  · rw [hframe]
    unfold Header.frame hdrSize
    rw [hcut _ _ (by omega)]

/-- What a front part unpacks to, the whole unpacks to. -/
theorem unpack_of_take {data : Bytes} {frame : Frame} {size : ℕ}
    (hunpack : unpack crc32 (data.take size) = .ok frame) : unpack crc32 data = .ok frame := by
  obtain ⟨hmin, hmagic, hcomplete, hcrc, hframe⟩ := (unpack_eq_ok_iff crc32).mp hunpack
  have hlength : (data.take size).length ≤ size ∧ (data.take size).length ≤ data.length :=
    List.length_take .. ▸ ⟨min_le_left _ _, min_le_right _ _⟩
  have hbody := le_pad16 (headerOf (data.take size)).plen
  unfold minFrame hdrSize crcSize at *
  have hcut (offset width : ℕ) (hbound : offset + width ≤ size) :
      ((data.take size).drop offset).take width = (data.drop offset).take width := by
    rw [List.drop_take, List.take_take, min_eq_left (by omega)]
  have hheader : headerOf (data.take size) = headerOf data := by
    unfold headerOf
    rw [hcut 2 1 (by omega), hcut 3 1 (by omega), hcut 4 4 (by omega), hcut 8 1 (by omega),
      hcut 9 1 (by omega), hcut 10 2 (by omega)]
  rw [hheader] at hcomplete hbody hcrc hframe
  rw [hcut _ _ (by omega), List.take_take, min_eq_left (by omega)] at hcrc
  rw [List.take_take, min_eq_left (by omega)] at hmagic
  rw [unpack_eq_ok_iff]
  unfold minFrame hdrSize crcSize
  refine ⟨by omega, hmagic, by omega, hcrc, ?_⟩
  rw [hframe]
  unfold Header.frame hdrSize
  rw [hcut _ _ (by omega)]

/-- Rejections of `unpack` are `ValueError`s; no read behind its guards is out of range. -/
theorem unpack_error {data : Bytes} {error : PyError} (h : unpack crc32 data = .error error) :
    ∃ message, error = .valueError message := by
  unfold unpack at h
  split at h
  · exact ⟨_, (Except.error.inj h).symm⟩
  rename_i hlong
  split at h
  · exact ⟨_, (Except.error.inj h).symm⟩
  have hmin : minFrame ≤ data.length := Nat.le_of_not_lt hlong
  rw [unpackHeader_eq (le_trans (by decide) hmin)] at h
  simp only [bind, Except.bind] at h
  split at h
  · exact ⟨_, (Except.error.inj h).symm⟩
  rename_i hcomplete
  rw [unpackFrom_eq (by simpa only [crcSize] using Nat.le_of_not_lt hcomplete)] at h
  simp only at h
  split at h
  · exact ⟨_, (Except.error.inj h).symm⟩
  · cases h

/-- What is not accepted raises `ValueError`. -/
theorem unpack_valueError {data : Bytes} (hreject : ∀ frame, unpack crc32 data ≠ .ok frame) :
    ∃ message, unpack crc32 data = .error (.valueError message) := by
  cases hunpack : unpack crc32 data with
  | error error =>
      obtain ⟨message, rfl⟩ := unpack_error crc32 hunpack
      exact ⟨message, rfl⟩
  | ok frame => exact absurd hunpack (hreject frame)

/-- `unpack_frame` never raises. -/
theorem unpackFrame_eq (data : Bytes) :
    unpackFrame crc32 data = .ok ((unpack crc32 data).toOption.map Frame.tuple) := by
  unfold unpackFrame
  cases hunpack : unpack crc32 data with
  | ok frame => rfl
  | error error =>
      obtain ⟨message, rfl⟩ := unpack_error crc32 hunpack
      rfl

/-! ## The round trip -/

theorem headerOf_headerBytes (frame : Frame) (hlength : frame.payload.length < 65536)
    (rest : Bytes) :
    headerOf (headerBytes frame ++ rest) =
      { flags := frame.flags, hop := frame.hop, seq := frame.seq, src := frame.src,
        dst := frame.dst, plen := frame.payload.length } := by
  have hseq : ((headerBytes frame ++ rest).drop 4).take 4 = bytes 4 frame.seq.toNat := rfl
  have hplen : ((headerBytes frame ++ rest).drop 10).take 2 = bytes 2 frame.payload.length := rfl
  have hflags : ((headerBytes frame ++ rest).drop 2).take 1 = [frame.flags] := rfl
  have hhop : ((headerBytes frame ++ rest).drop 3).take 1 = [frame.hop] := rfl
  have hsrc : ((headerBytes frame ++ rest).drop 8).take 1 = [frame.src] := rfl
  have hdst : ((headerBytes frame ++ rest).drop 9).take 1 = [frame.dst] := rfl
  unfold headerOf
  rw [hflags, hhop, hseq, hsrc, hdst, hplen, value_bytes (by simpa using frame.seq.toNat_lt),
    value_bytes (by simpa using hlength)]
  simp only [value_singleton, UInt8.ofNat_toNat, UInt32.ofNat_toNat]

theorem headerOf_encode_plen (frame : Frame) (hlength : frame.payload.length < 65536) :
    (headerOf (encode crc32 frame)).plen = frame.payload.length := by
  rw [encode, sealCrc, rawBytes, List.append_assoc, headerOf_headerBytes frame hlength]

/-- Reading a header back with the frame's own length field returns the frame. -/
theorem frame_headerOf (frame : Frame) (hlength : frame.payload.length < 65536) (rest : Bytes) :
    (headerOf (rawBytes frame ++ rest)).frame (rawBytes frame ++ rest) = frame := by
  have hsplit : rawBytes frame ++ rest =
      headerBytes frame ++ (padPayload frame.payload ++ rest) := List.append_assoc _ _ _
  have hbody : ((rawBytes frame ++ rest).drop hdrSize).take frame.payload.length =
      frame.payload := by
    rw [hsplit, List.drop_left' (length_headerBytes frame), List.take_append_of_le_length
      (by simpa using le_pad16 frame.payload.length), take_padPayload]
  rw [hsplit, headerOf_headerBytes frame hlength, ← hsplit]
  simp only [Header.frame, hbody]

/-- Bytes after a frame are ignored, and the frame is returned without its padding. -/
theorem unpack_encode_append (frame : Frame) (hlength : frame.payload.length < 65536)
    (rest : Bytes) : unpack crc32 (encode crc32 frame ++ rest) = .ok frame := by
  have hsplit : encode crc32 frame ++ rest =
      rawBytes frame ++ (bytes 4 (crc32 (rawBytes frame)).toNat ++ rest) :=
    List.append_assoc _ _ _
  have hraw := length_rawBytes frame
  have hplen : (headerOf (encode crc32 frame ++ rest)).plen = frame.payload.length := by
    rw [hsplit, rawBytes, List.append_assoc, headerOf_headerBytes frame hlength]
  rw [unpack_eq_ok_iff, hplen]
  refine ⟨?_, ?_, ?_, ?_, ?_⟩
  · simp only [List.length_append, length_encode, minFrame, hdrSize, crcSize]
    omega
  · rfl
  · simp
  · rw [hsplit, List.drop_left' hraw, List.take_left' hraw,
      List.take_left' (by simp [crcSize]), value_bytes (by
        simpa using (crc32 (rawBytes frame)).toNat_lt)]
  · rw [hsplit, frame_headerOf frame hlength]

theorem unpack_encode (frame : Frame) (hlength : frame.payload.length < 65536) :
    unpack crc32 (encode crc32 frame) = .ok frame := by
  simpa using unpack_encode_append crc32 frame hlength []

/-- A beginning of a frame that is long enough holds the whole header. -/
theorem exists_headerBytes_append (frame : Frame) {cut rest : Bytes}
    (hcut : cut <+: headerBytes frame ++ rest) (hlength : hdrSize ≤ cut.length) :
    ∃ tail, cut = headerBytes frame ++ tail := by
  obtain ⟨missing, hmissing⟩ := hcut
  have hheader : cut.take hdrSize = headerBytes frame := by
    calc
      cut.take hdrSize = (cut ++ missing).take hdrSize :=
        (List.take_append_of_le_length hlength).symm
      _ = headerBytes frame := by rw [hmissing, List.take_left' (length_headerBytes frame)]
  exact ⟨cut.drop hdrSize, by rw [← hheader, List.take_append_drop]⟩

/-- A frame cut short anywhere is rejected: either the header is incomplete, or it still announces
the full length. -/
theorem unpack_prefix (frame : Frame) (hlength : frame.payload.length < 65536) {cut : Bytes}
    (hcut : cut <+: encode crc32 frame) (hproper : cut ≠ encode crc32 frame) :
    ∃ message, unpack crc32 cut = .error (.valueError message) := by
  have hshorter : cut.length < hdrSize + pad16 frame.payload.length + crcSize := by
    rw [← length_encode crc32 frame]
    exact lt_of_le_of_ne hcut.length_le fun hequal ↦
      hproper (hcut.eq_of_length hequal)
  apply unpack_valueError
  intro result hunpack
  obtain ⟨hmin, _, hcomplete, _⟩ := (unpack_eq_ok_iff crc32).mp hunpack
  rw [encode, sealCrc, rawBytes, List.append_assoc] at hcut
  obtain ⟨tail, rfl⟩ := exists_headerBytes_append frame hcut (le_trans (by decide) hmin)
  rw [headerOf_headerBytes frame hlength] at hcomplete
  exact absurd hcomplete (Nat.not_le.mpr hshorter)

/-- **Plain codec round trip.** Every frame whose payload fits the length field is packed, unpacked
again from its bytes with anything after them, and rejected with `ValueError` when cut short. -/
theorem pack_unpack_roundTrip (frame : Frame) (hlength : frame.payload.length ≤ 65535) :
    ∃ data, pack crc32 frame.src.toNat frame.dst.toNat frame.seq.toNat frame.payload
        frame.flags.toNat frame.hop.toNat = .ok data ∧
      (∀ rest, unpack crc32 (data ++ rest) = .ok frame) ∧
      ∀ cut, cut <+: data → cut ≠ data →
        ∃ message, unpack crc32 cut = .error (.valueError message) := by
  have hfits : frame.payload.length < 65536 := Nat.lt_succ_of_le hlength
  refine ⟨encode crc32 frame, pack_frame crc32 frame hfits,
    unpack_encode_append crc32 frame hfits, ?_⟩
  intro cut hcut hproper
  exact unpack_prefix crc32 frame hfits hcut hproper

theorem pack_unpack_roundTrip_hello :
    ∃ data, pack (fun _ ↦ 0) 1 2 42 [0x48, 0x65, 0x6C, 0x6C, 0x6F] 0 0 = .ok data ∧
      (∀ rest, unpack (fun _ ↦ 0) (data ++ rest) = .ok
        { flags := 0, hop := 0, seq := 42, src := 1, dst := 2,
          payload := [0x48, 0x65, 0x6C, 0x6C, 0x6F] }) ∧
      ∀ cut, cut <+: data → cut ≠ data →
        ∃ message, unpack (fun _ ↦ 0) cut = .error (.valueError message) :=
  pack_unpack_roundTrip (fun _ ↦ 0)
    { flags := 0, hop := 0, seq := 42, src := 1, dst := 2,
      payload := [0x48, 0x65, 0x6C, 0x6C, 0x6F] } (by decide)

end UsbDirectFabric.Wire
