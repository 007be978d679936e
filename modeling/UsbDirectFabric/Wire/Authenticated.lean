import UsbDirectFabric.Foundation.Crc32
import UsbDirectFabric.Wire.RoundTrip

/-!
# Authenticated frames

The authenticated mode of `common/frame.py` inserts a 16-byte tag between the padded payload and
the CRC. `Hmac` stands for `hmac.digest(key, message, 'sha256')` with its output length as a field.

The tag covers `header + padded_payload`, and the header has a fixed length, so the covered string
determines where it is split and therefore every field of the frame. Against a sender whose tags
cannot be forged, an accepted string begins with the bytes that `pack_authenticated` wrote.
-/

namespace UsbDirectFabric.Wire

open LittleEndian

/-- A keyed digest with the output length of HMAC-SHA256. -/
structure Hmac where
  digest : Bytes → Bytes → Bytes
  length_digest : ∀ key message, (digest key message).length = 32

def authTagSize : ℕ := 16

variable (crc32 : Bytes → UInt32) (hmac : Hmac)

/-- `_compute_tag`: the digest of `header + padded_payload`, truncated to 16 bytes. -/
def computeTag (key header paddedPayload : Bytes) : Bytes :=
  (hmac.digest key (header ++ paddedPayload)).take authTagSize

/-- `pack_authenticated`: header, padded payload, tag and CRC. -/
def packAuthenticated (src dst seq : ℤ) (payload key : Bytes) (flags hop : ℤ) :
    Except PyError Bytes := do
  let header ← packHeader src dst seq payload flags hop
  let body := padPayload payload
  let tag := computeTag hmac key header body
  return sealCrc crc32 (header ++ body ++ tag)

/-- `unpack_authenticated`: the CRC is verified first, then the tag. -/
def unpackAuthenticated (data key : Bytes) : Except PyError Frame :=
  if data.length < minFrame + authTagSize then
    .error (.valueError s!"Authenticated frame too short ({data.length})")
  else if data.take 2 ≠ magic then
    .error (.valueError s!"Bad magic: {bytesRepr (data.take 2)}")
  else do
    let header ← unpackHeader data
    let padded := pad16 header.plen
    let expected := hdrSize + padded + authTagSize + crcSize
    if data.length < expected then
      .error (.valueError s!"Frame truncated ({data.length} < {expected})")
    else
      let crcOffset := hdrSize + padded + authTagSize
      let crcStored ← unpackFrom data crcOffset 4
      if crcStored ≠ (crc32 (data.take crcOffset)).toNat then
        .error (.valueError "CRC mismatch")
      else
        let body := (data.drop hdrSize).take padded
        let tagStored := (data.drop (hdrSize + padded)).take authTagSize
        if tagStored ≠ computeTag hmac key (data.take hdrSize) body then
          .error (.valueError "Authentication failed — HMAC mismatch")
        else
          return header.frame data

variable {crc32 hmac}

@[simp]
theorem length_computeTag (key header paddedPayload : Bytes) :
    (computeTag hmac key header paddedPayload).length = authTagSize := by
  simp [computeTag, hmac.length_digest, authTagSize]

/-- The tag depends only on the concatenation that it covers. -/
theorem computeTag_append (key header paddedPayload : Bytes) :
    computeTag hmac key header paddedPayload =
      computeTag hmac key (header ++ paddedPayload) [] := by
  simp [computeTag]

/-- What acceptance by `unpack_authenticated` implies about the bytes. -/
theorem unpackAuthenticated_eq_ok {data key : Bytes} {frame : Frame}
    (h : unpackAuthenticated crc32 hmac data key = .ok frame) :
    let covered := hdrSize + pad16 (headerOf data).plen
    covered + authTagSize + crcSize ≤ data.length ∧
      value ((data.drop (covered + authTagSize)).take crcSize) =
        (crc32 (data.take (covered + authTagSize))).toNat ∧
      (data.drop covered).take authTagSize = computeTag hmac key (data.take covered) [] ∧
      frame = (headerOf data).frame data := by
  unfold unpackAuthenticated at h
  split at h
  · cases h
  rename_i hlong
  have hmin : minFrame + authTagSize ≤ data.length := Nat.le_of_not_lt hlong
  split at h
  · cases h
  rw [unpackHeader_eq (le_trans (by decide) hmin)] at h
  simp only [bind, Except.bind] at h
  split at h
  · cases h
  rename_i hcomplete
  have hexpected := Nat.le_of_not_lt hcomplete
  rw [unpackFrom_eq (by simpa only [crcSize] using hexpected)] at h
  simp only at h
  split at h
  · cases h
  rename_i hcrc
  split at h
  · cases h
  rename_i htag
  have hcovered : data.take hdrSize ++ (data.drop hdrSize).take (pad16 (headerOf data).plen) =
      data.take (hdrSize + pad16 (headerOf data).plen) := List.take_add.symm
  rw [not_not, computeTag_append, hcovered] at htag
  exact ⟨hexpected, not_not.mp hcrc, htag, (Except.ok.inj h).symm⟩

/-- Rejections of `unpack_authenticated` are `ValueError`s. -/
theorem unpackAuthenticated_error {data key : Bytes} {error : PyError}
    (h : unpackAuthenticated crc32 hmac data key = .error error) :
    ∃ message, error = .valueError message := by
  unfold unpackAuthenticated at h
  split at h
  · exact ⟨_, (Except.error.inj h).symm⟩
  rename_i hlong
  split at h
  · exact ⟨_, (Except.error.inj h).symm⟩
  have hmin : minFrame + authTagSize ≤ data.length := Nat.le_of_not_lt hlong
  rw [unpackHeader_eq (le_trans (by decide) hmin)] at h
  simp only [bind, Except.bind] at h
  split at h
  · exact ⟨_, (Except.error.inj h).symm⟩
  rename_i hcomplete
  rw [unpackFrom_eq (by simpa only [crcSize] using Nat.le_of_not_lt hcomplete)] at h
  simp only at h
  split at h
  · exact ⟨_, (Except.error.inj h).symm⟩
  split at h
  · exact ⟨_, (Except.error.inj h).symm⟩
  · cases h

/-! ## Unforgeability -/

/-- The arguments of one call of `pack_authenticated`, its key apart. -/
structure PackArgs where
  src : ℤ
  dst : ℤ
  seq : ℤ
  payload : Bytes
  flags : ℤ
  hop : ℤ

/-- The string `header + padded_payload` over which the call computes its tag. -/
def PackArgs.message (args : PackArgs) : Except PyError Bytes := do
  let header ← packHeader args.src args.dst args.seq args.payload args.flags args.hop
  return header ++ padPayload args.payload

def PackArgs.packed (crc32 : Bytes → UInt32) (hmac : Hmac) (key : Bytes) (args : PackArgs) :
    Except PyError Bytes :=
  packAuthenticated crc32 hmac args.src args.dst args.seq args.payload key args.flags args.hop

/-- The fields of a frame are the arguments of the call. -/
def PackArgs.Describes (args : PackArgs) (frame : Frame) : Prop :=
  (frame.flags.toNat : ℤ) = args.flags ∧ (frame.hop.toNat : ℤ) = args.hop ∧
    (frame.seq.toNat : ℤ) = args.seq ∧ (frame.src.toNat : ℤ) = args.src ∧
    (frame.dst.toNat : ℤ) = args.dst ∧ frame.payload = args.payload

/-- An ideal MAC towards `data`: wherever a 16-byte string that follows a prefix of `data` is the
valid tag of that prefix, the prefix is a message that one of the `sent` calls authenticated. Real
HMAC assigns a valid tag to every message, so the assumption is about the pairs that occur. -/
def IdealMac (hmac : Hmac) (key : Bytes) (sent : Set PackArgs) (data : Bytes) : Prop :=
  ∀ n, n + authTagSize ≤ data.length →
    (data.drop n).take authTagSize = computeTag hmac key (data.take n) [] →
    ∃ args ∈ sent, args.message = .ok (data.take n)

/-- The authenticated string determines the frame. -/
theorem message_eq_ok {args : PackArgs} {message : Bytes} (h : args.message = .ok message) :
    ∃ frame, args.Describes frame ∧ frame.payload.length < 65536 ∧ message = rawBytes frame ∧
      packHeader args.src args.dst args.seq args.payload args.flags args.hop =
        .ok (headerBytes frame) := by
  simp only [PackArgs.message, bind_eq_ok] at h
  obtain ⟨header, hheader, hmessage⟩ := h
  obtain ⟨frame, hsrc, hdst, hseq, hpayload, hflags, hhop, hlength, rfl⟩ := packHeader_eq_ok hheader
  refine ⟨frame, ⟨hflags.symm, hhop.symm, hseq.symm, hsrc.symm, hdst.symm, hpayload.symm⟩,
    hpayload ▸ hlength, ?_, hheader⟩
  rw [← Except.ok.inj hmessage, rawBytes, hpayload]

theorem unpackAuthenticated_valueError {data key : Bytes}
    (hreject : ∀ frame, unpackAuthenticated crc32 hmac data key ≠ .ok frame) :
    ∃ message, unpackAuthenticated crc32 hmac data key = .error (.valueError message) := by
  cases hunpack : unpackAuthenticated crc32 hmac data key with
  | error error =>
      obtain ⟨message, rfl⟩ := unpackAuthenticated_error hunpack
      exact ⟨message, rfl⟩
  | ok frame => exact absurd hunpack (hreject frame)

/-- Under an ideal MAC an accepted string begins with the bytes of one sent frame. -/
theorem unpackAuthenticated_sent {key : Bytes} {sent : Set PackArgs} {data : Bytes}
    (hideal : IdealMac hmac key sent data) {frame : Frame}
    (haccept : unpackAuthenticated crc32 hmac data key = .ok frame) :
    ∃ args ∈ sent, args.Describes frame ∧
      ∃ packed, args.packed crc32 hmac key = .ok packed ∧ packed <+: data := by
  obtain ⟨hcomplete, hcrc, htag, rfl⟩ := unpackAuthenticated_eq_ok haccept
  set covered := hdrSize + pad16 (headerOf data).plen with hcovered
  obtain ⟨args, hsent, hmessage⟩ := hideal covered (by omega) htag
  obtain ⟨frame, hdescribes, hlength, hraw, hheader⟩ := message_eq_ok hmessage
  have hdata : data = rawBytes frame ++ data.drop covered := by
    rw [← hraw, List.take_append_drop]
  have hframe : (headerOf data).frame data = frame := by
    rw [hdata]
    exact frame_headerOf frame hlength _
  have htail : (data.drop (covered + authTagSize)).take crcSize =
      bytes 4 (crc32 (data.take (covered + authTagSize))).toNat := by
    have hlength : ((data.drop (covered + authTagSize)).take crcSize).length = crcSize :=
      List.length_take_of_le (by rw [List.length_drop]; omega)
    rw [← hcrc]
    exact (bytes_value hlength).symm
  have hpacked : args.packed crc32 hmac key =
      .ok (sealCrc crc32 (data.take (covered + authTagSize))) := by
    have htake : data.take (covered + authTagSize) =
        headerBytes frame ++ padPayload frame.payload ++
          computeTag hmac key (headerBytes frame) (padPayload frame.payload) := by
      rw [List.take_add, htag, hraw, computeTag_append key (headerBytes frame)]
      rfl
    rw [htake, hdescribes.2.2.2.2.2]
    simp only [PackArgs.packed, packAuthenticated, hheader]
    rfl
  refine ⟨args, hsent, hframe ▸ hdescribes, _, hpacked, ?_⟩
  rw [sealCrc, ← htail, ← List.take_add]
  exact List.take_prefix _ _

/-- **Authenticated frames cannot be altered.** Under an ideal MAC whatever
`unpack_authenticated` returns is a frame that was sent, its bytes stand at the beginning of the
input, and an input that begins with no sent frame raises `ValueError`. -/
theorem unpackAuthenticated_unaltered {key : Bytes} {sent : Set PackArgs} {data : Bytes}
    (hideal : IdealMac hmac key sent data) :
    (∀ frame, unpackAuthenticated crc32 hmac data key = .ok frame →
      ∃ args ∈ sent, args.Describes frame ∧
        ∃ packed, args.packed crc32 hmac key = .ok packed ∧ packed <+: data) ∧
    ((∀ args ∈ sent, ∀ packed, args.packed crc32 hmac key = .ok packed → ¬ packed <+: data) →
      ∃ message, unpackAuthenticated crc32 hmac data key = .error (.valueError message)) := by
  refine ⟨fun frame haccept ↦ unpackAuthenticated_sent hideal haccept, ?_⟩
  intro hforeign
  apply unpackAuthenticated_valueError
  intro frame haccept
  obtain ⟨args, hsent, _, packed, hpacked, hcut⟩ := unpackAuthenticated_sent hideal haccept
  exact absurd hcut (hforeign args hsent packed hpacked)

/-- The arguments of one call, with the 6-byte payload `secret`. -/
def secretArgs : PackArgs where
  src := 1
  dst := 2
  seq := 7
  payload := [0x73, 0x65, 0x63, 0x72, 0x65, 0x74]
  flags := 0
  hop := 0

def secretKey : Bytes := [0x6B, 0x65, 0x79]

/-- The bytes over which the tag of `secretArgs` is computed. -/
def secretMessage : Bytes :=
  [0x55, 0x46, 0, 0, 7, 0, 0, 0, 1, 2, 6, 0, 0, 0, 0, 0,
    0x73, 0x65, 0x63, 0x72, 0x65, 0x74, 0, 0, 0, 0, 0, 0, 0, 0, 0, 0]

/-- HMAC-SHA256 recorded at `secretKey` and `secretMessage`, and zero elsewhere. -/
def recordedHmac : Hmac where
  digest key message :=
    if key = secretKey ∧ message = secretMessage then
      [0xCC, 0x74, 0x95, 0x4A, 0xC1, 0x30, 0x55, 0x67, 0xCA, 0x9D, 0x51, 0x45, 0xA5, 0xA4, 0xFA,
        0xF3, 0x44, 0x6D, 0x93, 0xCC, 0xA7, 0x6F, 0xFF, 0xF9, 0xCD, 0x7D, 0x7C, 0x81, 0xB2, 0x16,
        0xBE, 0x3E]
    else List.replicate 32 0
  length_digest _ _ := by split <;> rfl

/-- One authenticated frame followed by two foreign bytes. -/
def secretData : Bytes :=
  ((secretArgs.packed Crc32.checksum recordedHmac secretKey).toOption.getD []) ++ [9, 9]

theorem unpackAuthenticated_unaltered_secret :
    (∀ frame, unpackAuthenticated Crc32.checksum recordedHmac secretData secretKey = .ok frame →
      ∃ args ∈ ({secretArgs} : Set PackArgs), args.Describes frame ∧
        ∃ packed, args.packed Crc32.checksum recordedHmac secretKey = .ok packed ∧
          packed <+: secretData) ∧
    ((∀ args ∈ ({secretArgs} : Set PackArgs), ∀ packed,
        args.packed Crc32.checksum recordedHmac secretKey = .ok packed → ¬ packed <+: secretData) →
      ∃ message, unpackAuthenticated Crc32.checksum recordedHmac secretData secretKey =
        .error (.valueError message)) := by
  apply unpackAuthenticated_unaltered
  intro n hn htag
  have hlength : secretData.length = 54 := by decide +kernel
  have hoffset : ∀ n < 39, (secretData.drop n).take authTagSize =
      computeTag recordedHmac secretKey (secretData.take n) [] → n = 32 := by decide +kernel
  have hn : n = 32 := hoffset n (by rw [hlength, authTagSize] at hn; omega) htag
  subst hn
  exact ⟨secretArgs, rfl, by decide +kernel⟩

end UsbDirectFabric.Wire
