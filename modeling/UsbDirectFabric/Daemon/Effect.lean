import UsbDirectFabric.Wire.RoundTrip

/-!
# What the daemons have in common

The gadget daemon, the dual-cable node and the host daemon are modelled one thread step at a time: a
step is what a thread does between two points where another thread can run. Queues, links and thread
states hold frames together with a `Tag`. Tags are history variables: no branch of a daemon reads
them, they only record which frame a byte string is a copy of and how often it was forwarded.

Each step reports an `Effect`, the part of it that is visible outside the daemon's own state.
-/

namespace UsbDirectFabric.Daemon

open Wire

/-- The number of the frame that an item is a copy of, and how often it has been re-packed since. -/
structure Tag where
  origin : ℕ
  forwards : ℕ
deriving DecidableEq, Repr

def Tag.fresh (number : ℕ) : Tag := ⟨number, 0⟩

def Tag.forward (tag : Tag) : Tag := { tag with forwards := tag.forwards + 1 }

/-- The call that brought a new frame into being. -/
inductive Source
  | send (dst : ℤ) (payload : Bytes)
  | heartbeat
deriving DecidableEq, Repr

/-- How a copy goes out of existence: counted in a `dropped` statistic or silently. -/
inductive Fate
  | dropped
  | discarded
deriving DecidableEq, Repr

/-- What a step does besides changing the daemon's state. -/
inductive Effect
  | silent
  /-- A new frame, tagged with the next free number, was put on the transmit queue. -/
  | created (source : Source) (data : Bytes)
  /-- One write passed the whole frame to the device. -/
  | wrote (tag : Tag) (data : Bytes)
  /-- A write passed on only `piece`; `abandoned` is set when the rest of the frame is given up. -/
  | tore (piece : Bytes) (abandoned : Option Tag)
  | ended (fate : Fate) (tag : Tag)
deriving DecidableEq, Repr

def Effect.drops : Effect → ℕ
  | .ended .dropped _ => 1
  | _ => 0

def Effect.passed : Effect → List Bytes
  | .wrote _ data => [data]
  | .tore piece _ => [piece]
  | _ => []

theorem Effect.passed_cases (effect : Effect) :
    effect.passed = [] ∨ ∃ data, effect.passed = [data] := by
  cases effect with
  | silent | created | ended => exact .inl rfl
  | wrote _ data => exact .inr ⟨data, rfl⟩
  | tore piece _ => exact .inr ⟨piece, rfl⟩

/-- `f.dst == self.node_id or f.dst == 0xFF`. -/
abbrev Addressed (nodeId : ℤ) (frame : Frame) : Prop :=
  (frame.dst.toNat : ℤ) = nodeId ∨ (frame.dst.toNat : ℤ) = broadcast

/-- The largest transfer a receive loop reads, `os.read(fd, 16388)`. -/
def readSize : ℕ := 16388

def hopLimit : ℕ := 15

/-- The `frame.pack` call of a forwarder: same source, destination and payload, a number of its own,
the FWD flag and one hop more. -/
def repack (crc32 : Bytes → UInt32) (frame : Frame) (seq : ℕ) : Except PyError Bytes :=
  pack crc32 frame.src.toNat frame.dst.toNat seq frame.payload (frame.flags ||| flagFwd).toNat
    (frame.hop.toNat + 1)

/-- What a forwarder's packed frame unpacks to. -/
def relayed (frame : Frame) (seq : ℕ) : Frame :=
  { frame with flags := frame.flags ||| flagFwd, hop := frame.hop + 1, seq := .ofNat seq }

variable (crc32 : Bytes → UInt32)

/-- A frame with at most the maximal payload is read in one piece. -/
theorem frame_le_readSize {frame : Frame} (hpayload : frame.payload.length ≤ maxPayload) :
    hdrSize + pad16 frame.payload.length + crcSize ≤ readSize := by
  rw [pad16_eq]
  unfold maxPayload at hpayload
  unfold hdrSize crcSize readSize
  omega

/-- What a receive loop unpacks from a transfer that holds such a frame. -/
theorem unpack_read {data : Bytes} {frame : Frame} (hunpack : unpack crc32 data = .ok frame)
    (hpayload : frame.payload.length ≤ maxPayload) :
    unpack crc32 (data.take readSize) = .ok frame :=
  unpack_take crc32 hunpack (frame_le_readSize hpayload)

theorem unpack_read_encode {frame : Frame} (hpayload : frame.payload.length ≤ maxPayload) :
    unpack crc32 ((encode crc32 frame).take readSize) = .ok frame :=
  unpack_read crc32 (unpack_encode crc32 frame (lt_of_le_of_lt hpayload (by decide))) hpayload

theorem toNat_relayed_hop {frame : Frame} (hlimit : frame.hop.toNat < hopLimit) (seq : ℕ) :
    (relayed frame seq).hop.toNat = frame.hop.toNat + 1 := by
  have hbound : frame.hop.toNat + 1 < 2 ^ 8 := by
    unfold hopLimit at hlimit
    omega
  simp only [relayed, UInt8.toNat_add, UInt8.toNat_one]
  exact Nat.mod_eq_of_lt hbound

/-- A forwarder below the hop limit packs the relayed frame if its number fits 32 bits. -/
theorem repack_eq_ok {frame : Frame} {seq : ℕ} (hlimit : frame.hop.toNat < hopLimit)
    (hlength : frame.payload.length < 65536) (hseq : seq < 2 ^ 32) :
    repack crc32 frame seq = .ok (encode crc32 (relayed frame seq)) := by
  have hnumber : (relayed frame seq).seq.toNat = seq := UInt32.toNat_ofNat_of_lt hseq
  rw [← pack_frame crc32 (relayed frame seq) hlength, hnumber, toNat_relayed_hop hlimit]
  rfl

/-- Whatever a forwarder below the hop limit packs unpacks to the relayed frame. -/
theorem unpack_repack {frame : Frame} {seq : ℕ} {data : Bytes}
    (hlimit : frame.hop.toNat < hopLimit) (hrepack : repack crc32 frame seq = .ok data) :
    data = encode crc32 (relayed frame seq) ∧ frame.payload.length < 65536 := by
  obtain ⟨packed, _, _, hseq, _, _, _, hlength, _⟩ := pack_eq_ok crc32 hrepack
  have hfits : seq < 2 ^ 32 := by
    rw [Int.ofNat.inj hseq]
    exact packed.seq.toNat_lt
  rw [repack_eq_ok crc32 hlimit hlength hfits] at hrepack
  exact ⟨(Except.ok.inj hrepack).symm, hlength⟩

def seqOf (raw : Bytes) : Option ℕ :=
  (unpack crc32 raw).toOption.map fun frame ↦ frame.seq.toNat

/-- A packed frame carries the number it was packed with. -/
theorem seqOf_of_pack {src dst flags hop : ℤ} {seq : ℕ} {payload raw : Bytes}
    (hpack : pack crc32 src dst seq payload flags hop = .ok raw) : seqOf crc32 raw = some seq := by
  obtain ⟨frame, -, -, hseq, rfl, -, -, hlength, rfl⟩ := pack_eq_ok crc32 hpack
  rw [seqOf, unpack_encode crc32 frame hlength, Int.ofNat.inj hseq]
  rfl

end UsbDirectFabric.Daemon
