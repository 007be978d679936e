import UsbDirectFabric.Foundation.BulkPipe
import UsbDirectFabric.Wire.AuthenticatedRoundTrip
import UsbDirectFabric.Daemon.Gadget
import UsbDirectFabric.Daemon.Host
import UsbDirectFabric.Daemon.Node

/-!
# One frame, one transfer

Every frame leaves in one write and is decoded from one read of at most `readSize` bytes. The two
payload limits of `common/frame.py` are what that buffer has room for, but no sender compares a
payload with them; the length field alone would let a payload of 65535 bytes pass.

Within the limits a frame keeps its boundaries on the bulk pipe by itself: its length is four more
than a multiple of sixteen, while the packet sizes of all three speeds are multiples of sixteen, so
it always ends with a short packet.
-/

namespace UsbDirectFabric.Daemon

open Wire

/-! ## The endpoint descriptors of `gadget/udf_gadget.py` -/

def interfaceDesc : Except PyError Bytes :=
  packStruct [(1, 9), (1, 4), (1, 0), (1, 0), (1, 2), (1, 0xFF), (1, 0x01), (1, 0x01), (1, 0)]

def epBulkOut (maxPkt : ℤ) : Except PyError Bytes :=
  packStruct [(1, 7), (1, 5), (1, 0x01), (1, 0x02), (2, maxPkt), (1, 0)]

def epBulkIn (maxPkt : ℤ) : Except PyError Bytes :=
  packStruct [(1, 7), (1, 5), (1, 0x81), (1, 0x02), (2, maxPkt), (1, 0)]

/-- `_ss_companion` with its default burst. -/
def ssCompanion : Except PyError Bytes :=
  packStruct [(1, 6), (1, 48), (1, 15), (1, 0x00), (2, 0)]

/-- `build_descriptors`: full, high and super speed. -/
def buildDescriptors : Except PyError Bytes := do
  let fs := (← interfaceDesc) ++ (← epBulkOut 64) ++ (← epBulkIn 64)
  let hs := (← interfaceDesc) ++ (← epBulkOut 512) ++ (← epBulkIn 512)
  let ss := (← interfaceDesc) ++ (← epBulkOut 1024) ++ (← ssCompanion) ++ (← epBulkIn 1024) ++
    (← ssCompanion)
  let counts ← packStruct [(4, 3), (4, 3), (4, 5)]
  let body := counts ++ fs ++ hs ++ ss
  let header ← packStruct [(4, 3), (4, 12 + body.length), (4, 7)]
  return header ++ body

/-- The packet sizes of the endpoint descriptors in a list of at most `count` descriptors, each of
which begins with its length and its type. -/
def endpointSizes : ℕ → Bytes → List ℕ
  | count + 1, length :: kind :: rest =>
      let later := endpointSizes count (rest.drop (length.toNat - 2))
      if kind = 5 then LittleEndian.value ((rest.drop 2).take 2) :: later else later
  | _, _ => []

def maxPacketSizes : List ℕ := [64, 512, 1024]

example : (buildDescriptors.map fun data ↦ (endpointSizes 11 (data.drop 24)).dedup) =
    .ok maxPacketSizes := by
  decide

/-! ## Senders and the payload limits -/

variable (crc32 : Bytes → UInt32) (hmac : Hmac)

/-- `data` is what a packing function made of `payload`, authenticated if there is a key. -/
inductive Packed : Option Bytes → Bytes → Bytes → Prop
  | pack {src dst seq : ℤ} {payload : Bytes} {flags hop : ℤ} {data : Bytes}
      (packs : pack crc32 src dst seq payload flags hop = .ok data) : Packed none payload data
  | packAuthenticated {src dst seq : ℤ} {payload key : Bytes} {flags hop : ℤ} {data : Bytes}
      (packs : packAuthenticated crc32 hmac src dst seq payload key flags hop = .ok data) :
      Packed (some key) payload data

/-- `data` is what a packing function, a `send` call of a node or of a gadget daemon, or the
transmit loop of a host made of the payload it was given. -/
inductive Emits : Option Bytes → Bytes → Bytes → Prop
  | packed {key : Option Bytes} {payload data : Bytes}
      (packs : Packed crc32 hmac key payload data) : Emits key payload data
  | nodeSend {node next : UDFNode} {number index : ℕ} {dst : ℤ} {payload data : Bytes}
      (sends : node.sendStep crc32 number index = some (next, .created (.send dst payload) data)) :
      Emits none payload data
  | gadgetSend {daemon next : GadgetDaemon} {number index : ℕ} {dst : ℤ} {payload data : Bytes}
      (sends : daemon.sendPut crc32 number index = some (next, .created (.send dst payload) data)) :
      Emits none payload data
  | hostTx {host next : UDFHost} {seq : ℕ} {payload data : Bytes}
      (takes : host.tx = .numbered payload seq) (sends : host.txStep crc32 = some next)
      (holds : next.tx = .packed seq data) : Emits none payload data

def decode (data : Bytes) : Option Bytes → Except PyError Frame
  | none => unpack crc32 data
  | some key => unpackAuthenticated crc32 hmac data key

/-- `MAX_PAYLOAD` or `MAX_PAYLOAD_AUTH`. -/
def payloadLimit : Option Bytes → ℕ
  | none => maxPayload
  | some _ => maxPayloadAuth

def overhead : Option Bytes → ℕ
  | none => hdrSize + crcSize
  | some _ => hdrSize + authTagSize + crcSize

/-- A frame fits the buffer and one read of it decodes to the payload. -/
def Fits (key : Option Bytes) (payload data : Bytes) : Prop :=
  data.length ≤ readSize ∧
    (decode crc32 hmac (data.take readSize) key).map Frame.payload = .ok payload

variable {crc32 hmac} {key : Option Bytes} {payload data : Bytes}

/-- All senders pack the payload as it was given. -/
theorem Emits.packs (hemits : Emits crc32 hmac key payload data) :
    Packed crc32 hmac key payload data := by
  cases hemits with
  | packed hpacks => exact hpacks
  | nodeSend hsends =>
      cases UDFNode.sendStep_moves crc32 hsends with
      | put _ hpack => exact .pack hpack
  | gadgetSend hsends =>
      cases GadgetDaemon.sendPut_moves hsends with
      | sendPut _ hpack => exact .pack hpack
  | hostTx htakes hsends hholds =>
      simp only [UDFHost.txStep, htakes] at hsends
      split at hsends
      · rename_i hpack
        cases hsends
        cases hholds
        exact .pack hpack
      · cases hsends
        cases hholds

theorem Packed.length_eq (hpacked : Packed crc32 hmac key payload data) :
    data.length = overhead key + pad16 payload.length := by
  cases hpacked with
  | pack hpack =>
      obtain ⟨frame, -, -, -, rfl, -, -, -, rfl⟩ := pack_eq_ok crc32 hpack
      rw [length_encode, overhead]
      omega
  | packAuthenticated hpack =>
      obtain ⟨frame, -, -, -, rfl, -, -, -, rfl⟩ := packAuthenticated_eq_ok crc32 hpack
      rw [length_encodeAuthenticated, overhead]
      omega

theorem Packed.decode_eq (hpacked : Packed crc32 hmac key payload data) :
    (decode crc32 hmac data key).map Frame.payload = .ok payload := by
  cases hpacked with
  | pack hpack =>
      obtain ⟨frame, -, -, -, rfl, -, -, hlength, rfl⟩ := pack_eq_ok crc32 hpack
      rw [decode, unpack_encode crc32 frame hlength]
      rfl
  | packAuthenticated hpack =>
      obtain ⟨frame, -, -, -, rfl, -, -, hlength, rfl⟩ := packAuthenticated_eq_ok crc32 hpack
      rw [decode, unpackAuthenticated_encode crc32 _ frame hlength]
      rfl

/-- The buffer has room for exactly the frames whose payload is within the limit. -/
theorem Packed.length_le_iff (hpacked : Packed crc32 hmac key payload data) :
    data.length ≤ readSize ↔ payload.length ≤ payloadLimit key := by
  rw [hpacked.length_eq, pad16_eq]
  cases key with
  | none =>
      simp only [overhead, payloadLimit, readSize, maxPayload, hdrSize, crcSize]
      omega
  | some key =>
      simp only [overhead, payloadLimit, readSize, maxPayloadAuth, maxPayload, hdrSize, authTagSize,
        crcSize]
      omega

/-- **Frames and buffers.** Whatever a sender emits fits the receivers' buffer, and one read decodes
to the payload given to the sender, exactly when that payload is within the limit of its format. -/
theorem emits_fits_iff (hemits : Emits crc32 hmac key payload data) :
    Fits crc32 hmac key payload data ↔ payload.length ≤ payloadLimit key := by
  have hpacked := hemits.packs
  rw [← hpacked.length_le_iff]
  refine ⟨And.left, ?_⟩
  intro hlength
  refine ⟨hlength, ?_⟩
  rw [List.take_of_length_le hlength]
  exact hpacked.decode_eq

def greeting : Frame where
  flags := 0
  hop := 0
  seq := 42
  src := 1
  dst := 2
  payload := [0x48, 0x69]

theorem emits_fits_iff_greeting :
    Fits Crc32.checksum recordedHmac none [0x48, 0x69] (encode Crc32.checksum greeting) ↔
      2 ≤ payloadLimit none :=
  emits_fits_iff (.packed (.pack (pack_frame Crc32.checksum greeting (by decide))))

def oversized : Bytes := List.replicate 16369 0

/-- A fresh node after an application thread has entered `send(2, oversized)`. -/
def oversizedSend : UDFNode :=
  { UDFNode.start 1 true true with seqHostTx := 1, senders := [.numbered 2 oversized 0] }

/-- The node emits a frame for the oversized payload that does not fit. -/
theorem not_fits_oversized :
    (UDFNode.start 1 true true).send 2 oversized = some (oversizedSend, .silent) ∧
      ∃ next data, oversizedSend.sendStep Crc32.checksum 0 0 =
          some (next, .created (.send 2 oversized) data) ∧
        ¬ Fits Crc32.checksum recordedHmac none oversized data := by
  have hlength : oversized.length = 16369 := List.length_replicate
  obtain ⟨data, hpack⟩ : ∃ data, pack Crc32.checksum 1 2 (0 : ℕ) oversized 0 0 = .ok data := by
    exact pack_of_range Crc32.checksum (by decide) (by decide) (by decide) (by decide) (by decide)
      (lt_of_eq_of_lt hlength (by decide))
  have hsend : ∃ next, oversizedSend.sendStep Crc32.checksum 0 0 =
      some (next, .created (.send 2 oversized) data) := by
    simp only [UDFNode.sendStep, oversizedSend, UDFNode.start, List.getElem?_cons_zero, hpack]
    exact ⟨_, rfl⟩
  obtain ⟨next, hsend⟩ := hsend
  refine ⟨rfl, next, data, hsend, ?_⟩
  rintro ⟨hfits, -⟩
  have hpacked : Packed Crc32.checksum recordedHmac none oversized data := .pack hpack
  rw [hpacked.length_le_iff, hlength] at hfits
  exact absurd hfits (by decide)

/-! ## Frame boundaries on the bulk pipe -/

/-- No frame is a whole number of packets long. -/
theorem Packed.not_dvd_length {size : ℕ} (hsize : size ∈ maxPacketSizes)
    (hpacked : Packed crc32 hmac key payload data) : ¬ size ∣ data.length := by
  have hoverhead : overhead key = 20 ∨ overhead key = 36 := by
    cases key with
    | none => exact .inl rfl
    | some key => exact .inr rfl
  rw [hpacked.length_eq, pad16_eq]
  simp only [maxPacketSizes, List.mem_cons, List.not_mem_nil, or_false] at hsize
  rcases hsize with rfl | rfl | rfl <;> omega

/-- **One read, one frame.** At every speed successive reads return exactly the frames that were
written, one whole frame each, whatever is written after them. -/
theorem reads_frames {size : ℕ} (hsize : size ∈ maxPacketSizes) {frames : List Bytes}
    (hframes : ∀ frame ∈ frames, ∃ key payload,
      Packed crc32 hmac key payload frame ∧ payload.length ≤ payloadLimit key)
    (pipe : List Bytes) :
    BulkPipe.reads size readSize frames.length
        (frames.flatMap (BulkPipe.packets size) ++ pipe) = some (frames, pipe) ∧
      ∀ frame ∈ frames, frame.length ≤ readSize := by
  have hfits : ∀ frame ∈ frames, frame.length ≤ readSize := by
    intro frame hframe
    obtain ⟨key, payload, hpacked, hlimit⟩ := hframes frame hframe
    exact hpacked.length_le_iff.mpr hlimit
  have hshort : ∀ frame ∈ frames, ¬ size ∣ frame.length := by
    intro frame hframe
    obtain ⟨key, payload, hpacked, -⟩ := hframes frame hframe
    exact hpacked.not_dvd_length hsize
  have hpositive : 0 < size := by
    simp only [maxPacketSizes, List.mem_cons, List.not_mem_nil, or_false] at hsize
    omega
  exact ⟨BulkPipe.reads_packets hpositive pipe hshort hfits, hfits⟩

def greetings : List Bytes :=
  [encode Crc32.checksum greeting,
    encodeAuthenticated Crc32.checksum recordedHmac secretKey greeting]

theorem reads_frames_greetings :
    BulkPipe.reads 64 readSize greetings.length
        (greetings.flatMap (BulkPipe.packets 64) ++ []) = some (greetings, []) ∧
      ∀ frame ∈ greetings, frame.length ≤ readSize := by
  have hframes : ∀ frame ∈ greetings, ∃ key payload,
      Packed Crc32.checksum recordedHmac key payload frame ∧
        payload.length ≤ payloadLimit key := by
    intro frame hframe
    rcases List.mem_pair.mp hframe with rfl | rfl
    · exact ⟨none, [0x48, 0x69], .pack (pack_frame Crc32.checksum greeting (by decide)), by decide⟩
    · exact ⟨some secretKey, [0x48, 0x69],
        .packAuthenticated (packAuthenticated_frame Crc32.checksum secretKey greeting (by decide)),
        by decide⟩
  exact reads_frames (by decide) hframes []

end UsbDirectFabric.Daemon
