import UsbDirectFabric.Wire.Authenticated

/-!
# The layout of authenticated frames

`pack_authenticated` writes the layout of a plain frame with the tag between payload and CRC, and
`unpack_authenticated` with the same key returns the packed frame whatever follows it.
-/

namespace UsbDirectFabric.Wire

open LittleEndian

def maxPayloadAuth : ℕ := maxPayload - authTagSize

variable (crc32 : Bytes → UInt32) (hmac : Hmac)

/-- Header, padded payload and tag, the bytes that the CRC covers. -/
def taggedBytes (key : Bytes) (frame : Frame) : Bytes :=
  rawBytes frame ++ computeTag hmac key (headerBytes frame) (padPayload frame.payload)

def encodeAuthenticated (key : Bytes) (frame : Frame) : Bytes :=
  sealCrc crc32 (taggedBytes hmac key frame)

variable {hmac}

@[simp]
theorem length_taggedBytes (key : Bytes) (frame : Frame) :
    (taggedBytes hmac key frame).length = hdrSize + pad16 frame.payload.length + authTagSize := by
  simp [taggedBytes]

@[simp]
theorem length_encodeAuthenticated (key : Bytes) (frame : Frame) :
    (encodeAuthenticated crc32 hmac key frame).length =
      hdrSize + pad16 frame.payload.length + authTagSize + crcSize := by
  simp [encodeAuthenticated]

theorem packAuthenticated_frame (key : Bytes) (frame : Frame)
    (hlength : frame.payload.length < 65536) :
    packAuthenticated crc32 hmac frame.src.toNat frame.dst.toNat frame.seq.toNat frame.payload key
      frame.flags.toNat frame.hop.toNat = .ok (encodeAuthenticated crc32 hmac key frame) := by
  simp only [packAuthenticated, packHeader_frame frame hlength]
  rfl

/-- Whatever `pack_authenticated` returns is the layout of a frame with the packed fields. -/
theorem packAuthenticated_eq_ok {src dst seq : ℤ} {payload key : Bytes} {flags hop : ℤ}
    {data : Bytes} (h : packAuthenticated crc32 hmac src dst seq payload key flags hop = .ok data) :
    ∃ frame : Frame, src = frame.src.toNat ∧ dst = frame.dst.toNat ∧ seq = frame.seq.toNat ∧
      payload = frame.payload ∧ flags = frame.flags.toNat ∧ hop = frame.hop.toNat ∧
      payload.length < 65536 ∧ data = encodeAuthenticated crc32 hmac key frame := by
  simp only [packAuthenticated, bind_eq_ok] at h
  obtain ⟨header, hheader, hdata⟩ := h
  obtain ⟨frame, hsrc, hdst, hseq, rfl, hflags, hhop, hlength, rfl⟩ := packHeader_eq_ok hheader
  exact ⟨frame, hsrc, hdst, hseq, rfl, hflags, hhop, hlength, (Except.ok.inj hdata).symm⟩

/-- A complete frame with a matching CRC and a matching tag is accepted. -/
theorem unpackAuthenticated_of_layout (data key : Bytes) (hmagic : data.take 2 = magic)
    (hcomplete : hdrSize + pad16 (headerOf data).plen + authTagSize + crcSize ≤ data.length)
    (hcrc : value ((data.drop (hdrSize + pad16 (headerOf data).plen + authTagSize)).take 4) =
      (crc32 (data.take (hdrSize + pad16 (headerOf data).plen + authTagSize))).toNat)
    (htag : (data.drop (hdrSize + pad16 (headerOf data).plen)).take authTagSize =
      computeTag hmac key (data.take hdrSize)
        ((data.drop hdrSize).take (pad16 (headerOf data).plen))) :
    unpackAuthenticated crc32 hmac data key = .ok ((headerOf data).frame data) := by
  have hmin : minFrame + authTagSize ≤ data.length := by
    refine le_trans ?_ hcomplete
    unfold minFrame
    omega
  unfold unpackAuthenticated
  rw [if_neg (Nat.not_lt.mpr hmin), if_neg (not_not.mpr hmagic),
    unpackHeader_eq (le_trans (by decide) hmin)]
  simp only [bind, Except.bind]
  rw [if_neg (Nat.not_lt.mpr hcomplete), unpackFrom_eq (by simpa only [crcSize] using hcomplete)]
  simp only [hcrc, htag, ne_eq, not_true_eq_false, if_false]
  rfl

/-- With the key it was packed with an authenticated frame is returned, whatever follows it. -/
theorem unpackAuthenticated_encode_append (key : Bytes) (frame : Frame)
    (hlength : frame.payload.length < 65536) (rest : Bytes) :
    unpackAuthenticated crc32 hmac (encodeAuthenticated crc32 hmac key frame ++ rest) key =
      .ok frame := by
  set data := encodeAuthenticated crc32 hmac key frame ++ rest with hdata
  set crc := bytes 4 (crc32 (taggedBytes hmac key frame)).toNat with hcrc
  set tag := computeTag hmac key (headerBytes frame) (padPayload frame.payload) with htag
  have htagged : data = taggedBytes hmac key frame ++ (crc ++ rest) := List.append_assoc _ _ _
  have hraw : data = rawBytes frame ++ (tag ++ (crc ++ rest)) := by
    rw [htagged, taggedBytes, List.append_assoc]
  have hheader :
      data = headerBytes frame ++ (padPayload frame.payload ++ (tag ++ (crc ++ rest))) := by
    rw [hraw, rawBytes, List.append_assoc]
  have hplen : (headerOf data).plen = frame.payload.length := by
    rw [hheader, headerOf_headerBytes frame hlength]
  have hframe : (headerOf data).frame data = frame := by
    rw [hraw, frame_headerOf frame hlength]
  have hlayout := @unpackAuthenticated_of_layout crc32 hmac data key
  rw [hframe, hplen] at hlayout
  apply hlayout
  · rfl
  · simp [hdata]
  · have hcovered : (taggedBytes hmac key frame).length = _ := length_taggedBytes key frame
    rw [htagged, List.drop_left' hcovered, List.take_left' hcovered,
      List.take_left' (by simp [hcrc]), hcrc, value_bytes (by
        simpa using (crc32 (taggedBytes hmac key frame)).toNat_lt)]
  · have hbody : (padPayload frame.payload).length = pad16 frame.payload.length := by simp
    rw [hraw, List.drop_left' (length_rawBytes frame), List.take_left' (length_computeTag _ _ _),
      ← hraw, hheader, List.take_left' (length_headerBytes frame),
      List.drop_left' (length_headerBytes frame), List.take_left' hbody]

theorem unpackAuthenticated_encode (key : Bytes) (frame : Frame)
    (hlength : frame.payload.length < 65536) :
    unpackAuthenticated crc32 hmac (encodeAuthenticated crc32 hmac key frame) key = .ok frame := by
  simpa using unpackAuthenticated_encode_append crc32 key frame hlength []

/-- An authenticated frame cut short anywhere is rejected. -/
theorem unpackAuthenticated_prefix (key : Bytes) (frame : Frame)
    (hlength : frame.payload.length < 65536) {cut : Bytes}
    (hcut : cut <+: encodeAuthenticated crc32 hmac key frame)
    (hproper : cut ≠ encodeAuthenticated crc32 hmac key frame) :
    ∃ message, unpackAuthenticated crc32 hmac cut key = .error (.valueError message) := by
  have hshorter : cut.length <
      hdrSize + pad16 frame.payload.length + authTagSize + crcSize := by
    rw [← length_encodeAuthenticated crc32 key frame]
    exact lt_of_le_of_ne hcut.length_le fun hequal ↦
      hproper (hcut.eq_of_length hequal)
  apply unpackAuthenticated_valueError
  intro result haccept
  have hcomplete := (unpackAuthenticated_eq_ok haccept).1
  rw [encodeAuthenticated, sealCrc, taggedBytes, rawBytes, List.append_assoc,
    List.append_assoc] at hcut
  obtain ⟨tail, rfl⟩ := exists_headerBytes_append frame hcut (by omega)
  rw [headerOf_headerBytes frame hlength] at hcomplete
  exact absurd hcomplete (Nat.not_le.mpr hshorter)

/-- **Authenticated codec round trip.** Every frame whose payload fits the length field is packed
into 36 bytes and its padded payload, unpacked again with the same key from these bytes with
anything after them, and rejected with `ValueError` when cut short. -/
theorem packAuthenticated_roundTrip (key : Bytes) (frame : Frame)
    (hlength : frame.payload.length ≤ 65535) :
    ∃ data, packAuthenticated crc32 hmac frame.src.toNat frame.dst.toNat frame.seq.toNat
        frame.payload key frame.flags.toNat frame.hop.toNat = .ok data ∧
      data.length = 36 + (frame.payload.length + 15) / 16 * 16 ∧
      (∀ rest, unpackAuthenticated crc32 hmac (data ++ rest) key = .ok frame) ∧
      ∀ cut, cut <+: data → cut ≠ data →
        ∃ message, unpackAuthenticated crc32 hmac cut key = .error (.valueError message) := by
  have hfits : frame.payload.length < 65536 := Nat.lt_succ_of_le hlength
  refine ⟨encodeAuthenticated crc32 hmac key frame, packAuthenticated_frame crc32 key frame hfits,
    ?_, unpackAuthenticated_encode_append crc32 key frame hfits, ?_⟩
  · rw [length_encodeAuthenticated, pad16_eq, hdrSize, authTagSize, crcSize]
    omega
  · intro cut hcut hproper
    exact unpackAuthenticated_prefix crc32 key frame hfits hcut hproper

theorem packAuthenticated_roundTrip_secret :
    ∃ data, packAuthenticated Crc32.checksum recordedHmac 1 2 7
        [0x73, 0x65, 0x63, 0x72, 0x65, 0x74] secretKey 0 0 = .ok data ∧
      data.length = 36 + (6 + 15) / 16 * 16 ∧
      (∀ rest, unpackAuthenticated Crc32.checksum recordedHmac (data ++ rest) secretKey = .ok
        { flags := 0, hop := 0, seq := 7, src := 1, dst := 2,
          payload := [0x73, 0x65, 0x63, 0x72, 0x65, 0x74] }) ∧
      ∀ cut, cut <+: data → cut ≠ data →
        ∃ message, unpackAuthenticated Crc32.checksum recordedHmac cut secretKey =
          .error (.valueError message) :=
  packAuthenticated_roundTrip Crc32.checksum secretKey
    { flags := 0, hop := 0, seq := 7, src := 1, dst := 2,
      payload := [0x73, 0x65, 0x63, 0x72, 0x65, 0x74] } (by decide)

end UsbDirectFabric.Wire
