import UsbDirectFabric.Wire.AuthenticatedRoundTrip

/-!
# Frames of one mode and key before the parser of another

Plain and authenticated frames begin with the same header, and nothing in it says which mode or
which key a frame was packed for. What keeps them apart is the length of the frame, the tag and the
keys that `derive_link_key` computes from the two ids of a link and a nonce.
-/

namespace UsbDirectFabric.Wire

open LittleEndian

variable {crc32 : Bytes → UInt32} {hmac : Hmac}

/-! ## Frames whose header and padded payload stand at the beginning -/

theorem headerOf_rawBytes_append (frame : Frame) (hlength : frame.payload.length < 65536)
    (rest : Bytes) : (headerOf (rawBytes frame ++ rest)).plen = frame.payload.length := by
  rw [rawBytes, List.append_assoc, headerOf_headerBytes frame hlength]

/-- The stored word is the checksum exactly if its bytes are. -/
theorem value_take_eq_crc_iff {rest : Bytes} (hrest : crcSize ≤ rest.length) (raw : Bytes) :
    value (rest.take crcSize) = (crc32 raw).toNat ↔
      rest.take crcSize = bytes crcSize (crc32 raw).toNat :=
  value_eq_iff (List.length_take_of_le hrest) (crc32 raw).toNat_lt

/-- With four bytes behind them, `unpack` accepts them exactly if these are the checksum. -/
theorem unpack_rawBytes_append (frame : Frame) (hlength : frame.payload.length < 65536)
    {rest : Bytes} (hrest : crcSize ≤ rest.length) :
    unpack crc32 (rawBytes frame ++ rest) =
      if rest.take crcSize = bytes crcSize (crc32 (rawBytes frame)).toNat then .ok frame
      else .error (.valueError "CRC mismatch") := by
  set data := rawBytes frame ++ rest with hdata
  have hplen : (headerOf data).plen = frame.payload.length :=
    headerOf_rawBytes_append frame hlength rest
  have hframe : (headerOf data).frame data = frame := frame_headerOf frame hlength rest
  have hcomplete : hdrSize + pad16 frame.payload.length + crcSize ≤ data.length := by
    simpa [hdata] using hrest
  have hmin : minFrame ≤ data.length := by
    unfold minFrame
    omega
  have hmagic : data.take 2 = magic := rfl
  have hstored : (data.drop (hdrSize + pad16 frame.payload.length)).take 4 = rest.take crcSize := by
    rw [hdata, List.drop_left' (length_rawBytes frame), crcSize]
  have hcovered : data.take (hdrSize + pad16 frame.payload.length) = rawBytes frame :=
    List.take_left' (length_rawBytes frame)
  unfold unpack
  rw [if_neg (Nat.not_lt.mpr hmin), if_neg (not_not.mpr hmagic),
    unpackHeader_eq (le_trans (show hdrSize ≤ minFrame by decide) hmin)]
  simp only [bind, Except.bind]
  rw [hplen, if_neg (Nat.not_lt.mpr hcomplete),
    unpackFrom_eq (by simpa only [crcSize] using hcomplete)]
  simp only [hstored, hcovered, hframe, ne_eq, value_take_eq_crc_iff hrest, ite_not]
  rfl

/-- With twenty bytes behind them, `unpack_authenticated` accepts them exactly if these are checksum
and tag. -/
theorem unpackAuthenticated_rawBytes_append (frame : Frame)
    (hlength : frame.payload.length < 65536) (key : Bytes) {tag rest : Bytes}
    (htag : tag.length = authTagSize) (hrest : crcSize ≤ rest.length) :
    unpackAuthenticated crc32 hmac (rawBytes frame ++ (tag ++ rest)) key =
      if rest.take crcSize ≠ bytes crcSize (crc32 (rawBytes frame ++ tag)).toNat then
        .error (.valueError "CRC mismatch")
      else if tag ≠ computeTag hmac key (headerBytes frame) (padPayload frame.payload) then
        .error (.valueError "Authentication failed — HMAC mismatch")
      else .ok frame := by
  set data := rawBytes frame ++ (tag ++ rest) with hdata
  have hplen : (headerOf data).plen = frame.payload.length :=
    headerOf_rawBytes_append frame hlength _
  have hframe : (headerOf data).frame data = frame := frame_headerOf frame hlength _
  have hcomplete : hdrSize + pad16 frame.payload.length + authTagSize + crcSize ≤ data.length := by
    simp only [hdata, List.length_append, length_rawBytes, htag]
    omega
  have hmin : minFrame + authTagSize ≤ data.length := by
    unfold minFrame
    omega
  have hmagic : data.take 2 = magic := rfl
  have hlong : (rawBytes frame ++ tag).length =
      hdrSize + pad16 frame.payload.length + authTagSize := by
    rw [List.length_append, length_rawBytes, htag]
  have htagged : data = (rawBytes frame ++ tag) ++ rest := (List.append_assoc _ _ _).symm
  have hstored : (data.drop (hdrSize + pad16 frame.payload.length + authTagSize)).take 4 =
      rest.take crcSize := by
    rw [htagged, List.drop_left' hlong, crcSize]
  have hcovered : data.take (hdrSize + pad16 frame.payload.length + authTagSize) =
      rawBytes frame ++ tag := by
    rw [htagged, List.take_left' hlong]
  have hsplit : data = headerBytes frame ++ (padPayload frame.payload ++ (tag ++ rest)) :=
    List.append_assoc _ _ _
  have hheader : data.take hdrSize = headerBytes frame := by
    rw [hsplit, List.take_left' (length_headerBytes frame)]
  have hbody : (data.drop hdrSize).take (pad16 frame.payload.length) =
      padPayload frame.payload := by
    rw [hsplit, List.drop_left' (length_headerBytes frame), List.take_left' (length_padPayload _)]
  have htagStored : (data.drop (hdrSize + pad16 frame.payload.length)).take authTagSize = tag := by
    rw [hdata, List.drop_left' (length_rawBytes frame), List.take_left' htag]
  unfold unpackAuthenticated
  rw [if_neg (Nat.not_lt.mpr hmin), if_neg (not_not.mpr hmagic),
    unpackHeader_eq (le_trans (by decide) hmin)]
  simp only [bind, Except.bind]
  rw [hplen, if_neg (Nat.not_lt.mpr hcomplete),
    unpackFrom_eq (by simpa only [crcSize] using hcomplete)]
  simp only [hstored, hcovered, hheader, hbody, htagStored, hframe, ne_eq,
    value_take_eq_crc_iff hrest]
  rfl

/-- A plain frame is sixteen bytes too short for `unpack_authenticated`. -/
theorem unpackAuthenticated_encode_plain (frame : Frame) (hlength : frame.payload.length < 65536)
    (key : Bytes) :
    ∃ message, unpackAuthenticated crc32 hmac (encode crc32 frame) key =
      .error (.valueError message) := by
  apply unpackAuthenticated_valueError
  intro result haccept
  have hcomplete := (unpackAuthenticated_eq_ok haccept).1
  rw [headerOf_encode_plen crc32 frame hlength, length_encode, authTagSize] at hcomplete
  omega

/-! ## The bytes of one frame in both modes -/

/-- The plain frame stands at the beginning of the authenticated one exactly if the tag begins with
the checksum. -/
theorem encode_prefix_iff (frame : Frame) (key : Bytes) :
    encode crc32 frame <+: encodeAuthenticated crc32 hmac key frame ↔
      (computeTag hmac key (headerBytes frame) (padPayload frame.payload)).take crcSize =
        bytes crcSize (crc32 (rawBytes frame)).toNat := by
  set tag := computeTag hmac key (headerBytes frame) (padPayload frame.payload) with htag
  have hshort : crcSize ≤ tag.length := by
    rw [htag, length_computeTag]
    decide
  rw [encode, encodeAuthenticated, sealCrc, sealCrc, taggedBytes, List.append_assoc,
    List.prefix_append_right_inj, List.prefix_iff_eq_take, length_bytes]
  rw [show (4 : ℕ) = crcSize from rfl, ← htag, List.take_append_of_le_length hshort, eq_comm]

/-- Under two keys a frame has the same bytes exactly if it has the same tag. -/
theorem encodeAuthenticated_eq_iff (frame : Frame) (key other : Bytes) :
    encodeAuthenticated crc32 hmac other frame = encodeAuthenticated crc32 hmac key frame ↔
      computeTag hmac other (headerBytes frame) (padPayload frame.payload) =
        computeTag hmac key (headerBytes frame) (padPayload frame.payload) := by
  constructor
  · intro hequal
    have htagged := List.append_inj_left' hequal (by simp)
    exact List.append_cancel_left htagged
  · intro htag
    rw [encodeAuthenticated, encodeAuthenticated, taggedBytes, taggedBytes, htag]

/-- **Modes and keys.** A plain frame alone is no authenticated frame under any key. An
authenticated frame, whatever follows it, is a plain frame only if the plain frame stands at its
beginning, and an authenticated frame of another key only if packing with that key gives the same
bytes; otherwise the two parsers raise `CRC mismatch` and the error about the tag. -/
theorem modes_apart {src dst seq flags hop : ℤ} {payload key plain authenticated : Bytes}
    (hplain : pack crc32 src dst seq payload flags hop = .ok plain)
    (hauthenticated : packAuthenticated crc32 hmac src dst seq payload key flags hop =
      .ok authenticated) :
    (∀ other, ∃ message, unpackAuthenticated crc32 hmac plain other =
      .error (.valueError message)) ∧
    ∃ frame, unpack crc32 plain = .ok frame ∧ ∀ rest,
      unpack crc32 (authenticated ++ rest) =
        (if plain <+: authenticated then .ok frame else .error (.valueError "CRC mismatch")) ∧
      ∀ other, unpackAuthenticated crc32 hmac (authenticated ++ rest) other =
        if packAuthenticated crc32 hmac src dst seq payload other flags hop = .ok authenticated then
          .ok frame
        else .error (.valueError "Authentication failed — HMAC mismatch") := by
  obtain ⟨frame, rfl, rfl, rfl, rfl, rfl, rfl, hlength, rfl⟩ :=
    packAuthenticated_eq_ok crc32 hauthenticated
  obtain rfl : encode crc32 frame = plain := by
    simpa [pack_frame crc32 frame hlength] using hplain
  refine ⟨unpackAuthenticated_encode_plain frame hlength, frame, unpack_encode crc32 frame hlength,
    fun rest ↦ ⟨?_, fun other ↦ ?_⟩⟩
  · set tag := computeTag hmac key (headerBytes frame) (padPayload frame.payload) with htag
    have hlong : crcSize ≤ tag.length := by
      rw [htag, length_computeTag]
      decide
    have hsplit : encodeAuthenticated crc32 hmac key frame ++ rest = rawBytes frame ++
        (tag ++ (bytes 4 (crc32 (taggedBytes hmac key frame)).toNat ++ rest)) := by
      simp [encodeAuthenticated, sealCrc, taggedBytes, htag]
    rw [hsplit, unpack_rawBytes_append frame hlength (by simp; omega),
      List.take_append_of_le_length hlong]
    exact if_congr (encode_prefix_iff frame key).symm rfl rfl
  · set tag := computeTag hmac key (headerBytes frame) (padPayload frame.payload) with htag
    have hsplit : encodeAuthenticated crc32 hmac key frame ++ rest = rawBytes frame ++
        (tag ++ (bytes 4 (crc32 (rawBytes frame ++ tag)).toNat ++ rest)) := by
      simp [encodeAuthenticated, sealCrc, taggedBytes, htag]
    have hcrc : (bytes 4 (crc32 (rawBytes frame ++ tag)).toNat ++ rest).take crcSize =
        bytes crcSize (crc32 (rawBytes frame ++ tag)).toNat :=
      List.take_left' (length_bytes _ _)
    have hsame : tag = computeTag hmac other (headerBytes frame) (padPayload frame.payload) ↔
        packAuthenticated crc32 hmac frame.src.toNat frame.dst.toNat frame.seq.toNat frame.payload
          other frame.flags.toNat frame.hop.toNat =
            .ok (encodeAuthenticated crc32 hmac key frame) := by
      rw [packAuthenticated_frame crc32 other frame hlength, Except.ok.injEq,
        encodeAuthenticated_eq_iff, eq_comm]
    rw [hsplit, unpackAuthenticated_rawBytes_append frame hlength other (length_computeTag _ _ _)
      (by simp [crcSize]), if_neg (not_not.mpr hcrc), ite_not]
    exact if_congr hsame rfl rfl

def secretPlain : Bytes :=
  ((pack Crc32.checksum 1 2 7 secretArgs.payload 0 0).toOption.getD [])

theorem modes_apart_secret :
    (∀ other, ∃ message, unpackAuthenticated Crc32.checksum recordedHmac secretPlain other =
      .error (.valueError message)) ∧
    ∃ frame, unpack Crc32.checksum secretPlain = .ok frame ∧ ∀ rest,
      unpack Crc32.checksum (secretData.take 52 ++ rest) =
        (if secretPlain <+: secretData.take 52 then .ok frame
        else .error (.valueError "CRC mismatch")) ∧
      ∀ other, unpackAuthenticated Crc32.checksum recordedHmac (secretData.take 52 ++ rest) other =
        if packAuthenticated Crc32.checksum recordedHmac 1 2 7 secretArgs.payload other 0 0 =
          .ok (secretData.take 52) then .ok frame
        else .error (.valueError "Authentication failed — HMAC mismatch") := by
  have hauthenticated : packAuthenticated Crc32.checksum recordedHmac 1 2 7 secretArgs.payload
      secretKey 0 0 = .ok (secretData.take 52) := by decide +kernel
  exact modes_apart (by decide +kernel) hauthenticated

end UsbDirectFabric.Wire
