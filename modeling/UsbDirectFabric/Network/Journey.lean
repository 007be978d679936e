import UsbDirectFabric.Daemon.Effect
import Mathlib.Logic.Relation

/-!
# The journey of one frame

What can happen to a single frame between its creation and its end, whichever daemons and links it
passes: it waits to be written, lies on a link, is read, unpacked, and then handed to the
application, given up, or numbered and packed anew with one hop more. Nothing here mentions queues,
threads or other frames; the network is shown to move every frame by these steps only.
-/

namespace UsbDirectFabric.Network

open Wire Daemon

/-- Where a frame is. `outgoing` covers the transmit queue and the transmit loop, `delivered` the
receive queue and the application behind it. -/
inductive Spot (ι : Type)
  | outgoing (node : ι) (data : Bytes)
  | onLink (node : ι) (data : Bytes)
  | received (node : ι) (data : Bytes)
  | unpacked (node : ι) (frame : Frame)
  | numbered (node : ι) (frame : Frame) (seq : ℕ)
  | delivered (node : ι) (frame : Frame)
  | gone (node : ι) (fate : Fate)
deriving DecidableEq, Repr

/-- A frame that has been forwarded so many times, where it is. -/
abbrev Copy (ι : Type) := ℕ × Spot ι

/-- What a journey depends on: the ids of the daemons, which daemon reads what a daemon writes, and
how a daemon gives up a frame at the hop limit. -/
structure Topology (ι : Type) where
  ids : ι → ℤ
  next : ι → Option ι
  limitFate : ι → Fate

variable {ι : Type} (crc32 : Bytes → UInt32) (topology : Topology ι) (faulty : Prop)

/-- One step of a journey. `faulty` admits what a run without faults excludes: frames lost on a
link or given up by the transmit loop, and sequence numbers beyond 32 bits. -/
inductive Step : Copy ι → Copy ι → Prop
  | write (forwards : ℕ) (node : ι) (data : Bytes) :
      Step (forwards, .outgoing node data) (forwards, .onLink node data)
  | abandon (forwards : ℕ) (node : ι) (data : Bytes) (fate : Fate) (fault : faulty) :
      Step (forwards, .outgoing node data) (forwards, .gone node fate)
  | lose (forwards : ℕ) (node : ι) (data : Bytes) (fault : faulty) :
      Step (forwards, .onLink node data) (forwards, .gone node .discarded)
  | read (forwards : ℕ) (node reader : ι) (data : Bytes)
      (wired : topology.next node = some reader) :
      Step (forwards, .onLink node data) (forwards, .received reader (data.take readSize))
  | skip (forwards : ℕ) (node reader : ι) (wired : topology.next node = some reader) :
      Step (forwards, .onLink node []) (forwards, .gone reader .discarded)
  | unpack (forwards : ℕ) (node : ι) {data : Bytes} {frame : Frame}
      (accepted : unpack crc32 data = .ok frame) :
      Step (forwards, .received node data) (forwards, .unpacked node frame)
  | reject (forwards : ℕ) (node : ι) {data : Bytes} {error : PyError}
      (rejected : Wire.unpack crc32 data = .error error) :
      Step (forwards, .received node data) (forwards, .gone node .discarded)
  | deliver (forwards : ℕ) (node : ι) {frame : Frame}
      (addressed : Addressed (topology.ids node) frame) :
      Step (forwards, .unpacked node frame) (forwards, .delivered node frame)
  | expire (forwards : ℕ) (node : ι) {frame : Frame}
      (other : ¬Addressed (topology.ids node) frame) (limit : hopLimit ≤ frame.hop.toNat) :
      Step (forwards, .unpacked node frame) (forwards, .gone node (topology.limitFate node))
  | number (forwards : ℕ) (node : ι) {frame : Frame} (seq : ℕ)
      (other : ¬Addressed (topology.ids node) frame) (limit : frame.hop.toNat < hopLimit)
      (fits : seq < 2 ^ 32 ∨ faulty) :
      Step (forwards, .unpacked node frame) (forwards, .numbered node frame seq)
  | forward (forwards : ℕ) (node : ι) {frame : Frame} {seq : ℕ} {data : Bytes}
      (packed : repack crc32 frame seq = .ok data) :
      Step (forwards, .numbered node frame seq) (forwards + 1, .outgoing node data)
  | fail (forwards : ℕ) (node : ι) {frame : Frame} {seq : ℕ} {error : PyError}
      (unpackable : repack crc32 frame seq = .error error) :
      Step (forwards, .numbered node frame seq) (forwards, .gone node .discarded)

abbrev Journey : Copy ι → Copy ι → Prop :=
  Relation.ReflTransGen (Step crc32 topology faulty)

/-- What holds at the start of a journey and is kept by every step holds throughout. -/
theorem Journey.invariant {crc32 : Bytes → UInt32} {topology : Topology ι} {faulty : Prop}
    {start copy : Copy ι} (hjourney : Journey crc32 topology faulty start copy)
    (invariant : Copy ι → Prop) (hstart : invariant start)
    (hstep : ∀ copy next, invariant copy → Step crc32 topology faulty copy next → invariant next) :
    invariant copy := by
  induction hjourney with
  | refl => exact hstart
  | tail _ hlast ih => exact hstep _ _ ih hlast

/-! ## The frame in a copy -/

/-- The frame that a copy shows: the one its bytes unpack to, or the unpacked frame itself. -/
def Spot.content : Spot ι → Option Frame
  | .outgoing _ data => (unpack crc32 data).toOption
  | .onLink _ data => (unpack crc32 data).toOption
  | .received _ data => (unpack crc32 data).toOption
  | .unpacked _ frame => some frame
  | .numbered _ frame _ => some frame
  | .delivered _ frame => some frame
  | .gone _ _ => none

/-- `frame` is `original` after so many forwards, up to its sequence number. -/
structure Relayed (original : Frame) (forwards : ℕ) (frame : Frame) : Prop where
  src : frame.src = original.src
  dst : frame.dst = original.dst
  payload : frame.payload = original.payload
  hop : frame.hop.toNat = original.hop.toNat + forwards
  flags : frame.flags = if forwards = 0 then original.flags else original.flags ||| flagFwd

theorem Relayed.refl (original : Frame) : Relayed original 0 original :=
  ⟨rfl, rfl, rfl, rfl, rfl⟩

/-- Forwarding a relayed frame relays it once more. -/
theorem Relayed.forward {original frame : Frame} {forwards : ℕ}
    (hrelayed : Relayed original forwards frame) (hlimit : frame.hop.toNat < hopLimit) (seq : ℕ) :
    Relayed original (forwards + 1) (relayed frame seq) where
  src := hrelayed.src
  dst := hrelayed.dst
  payload := hrelayed.payload
  hop := by rw [toNat_relayed_hop hlimit, hrelayed.hop, Nat.add_assoc]
  flags := by
    rw [if_neg (Nat.succ_ne_zero forwards)]
    have hflags := hrelayed.flags
    split at hflags
    · rw [← hflags]
      rfl
    · calc
        frame.flags ||| flagFwd = original.flags ||| flagFwd ||| flagFwd := by rw [hflags]
        _ = original.flags ||| flagFwd := by rw [UInt8.or_assoc, UInt8.or_self]

/-- A copy is right for its original: it has been forwarded no more often than the hop limit
admits, it shows the relayed original unless it is gone, and a numbered frame is below the limit. -/
structure Faithful (original : Frame) (copy : Copy ι) : Prop where
  bound : copy.1 ≤ hopLimit - original.hop.toNat
  shows : (∃ node fate, copy.2 = .gone node fate) ∨
    ∃ frame, copy.2.content crc32 = some frame ∧ Relayed original copy.1 frame
  below : ∀ node frame seq, copy.2 = .numbered node frame seq → frame.hop.toNat < hopLimit

variable {crc32} {topology} {faulty}

theorem unpack_of_content {data : Bytes} {frame : Frame}
    (hcontent : (unpack crc32 data).toOption = some frame) : unpack crc32 data = .ok frame := by
  cases hunpack : unpack crc32 data with
  | ok other =>
      rw [hunpack] at hcontent
      exact congrArg _ (Option.some.inj hcontent)
  | error error =>
      rw [hunpack] at hcontent
      cases hcontent

theorem Faithful.gone {original : Frame} {forwards : ℕ} (node : ι) (fate : Fate)
    (hbound : forwards ≤ hopLimit - original.hop.toNat) :
    Faithful crc32 original (forwards, Spot.gone node fate) :=
  ⟨hbound, .inl ⟨node, fate, rfl⟩, by simp⟩

/-- Every step of a journey keeps the copy faithful to a frame with at most the maximal payload. -/
theorem Faithful.step {original : Frame} (hpayload : original.payload.length ≤ maxPayload)
    {copy next : Copy ι} (hfaithful : Faithful crc32 original copy)
    (hstep : Step crc32 topology faulty copy next) : Faithful crc32 original next := by
  obtain ⟨hbound, hshows, hbelow⟩ := hfaithful
  cases hstep with
  | write forwards node data => exact ⟨hbound, .inr (hshows.resolve_left (by simp)), by simp⟩
  | abandon forwards node data fate => exact .gone node fate hbound
  | lose forwards node data => exact .gone node .discarded hbound
  | read forwards node reader data =>
      obtain ⟨frame, hframe, hrelayed⟩ := hshows.resolve_left (by simp)
      refine ⟨hbound, .inr ⟨frame, ?_, hrelayed⟩, by simp⟩
      have hlength : frame.payload.length ≤ maxPayload := hrelayed.payload ▸ hpayload
      simp [Spot.content, unpack_read crc32 (unpack_of_content hframe) hlength, Except.toOption]
  | skip forwards node reader => exact .gone reader .discarded hbound
  | unpack forwards node haccepted =>
      obtain ⟨frame, hframe, hrelayed⟩ := hshows.resolve_left (by simp)
      have hunpack := unpack_of_content hframe
      rw [haccepted] at hunpack
      cases hunpack
      exact ⟨hbound, .inr ⟨_, rfl, hrelayed⟩, by simp⟩
  | reject forwards node => exact .gone node .discarded hbound
  | deliver forwards node => exact ⟨hbound, .inr (hshows.resolve_left (by simp)), by simp⟩
  | expire forwards node => exact .gone node _ hbound
  | @number forwards node frame seq _ hlimit =>
      refine ⟨hbound, .inr (hshows.resolve_left (by simp)), ?_⟩
      intro _ other _ hspot
      cases hspot
      exact hlimit
  | @forward forwards node frame seq data hpacked =>
      have hlimit := hbelow node frame seq rfl
      obtain ⟨other, hother, hrelayed⟩ := hshows.resolve_left (by simp)
      cases hother
      obtain ⟨rfl, hlength⟩ := unpack_repack crc32 hlimit hpacked
      refine ⟨?_, .inr ⟨relayed frame seq, ?_, hrelayed.forward hlimit seq⟩, by simp⟩
      · have hhop := hrelayed.hop
        simp only at hhop hbound ⊢
        omega
      · simp [Spot.content, unpack_encode crc32 (relayed frame seq) hlength, Except.toOption]
  | fail forwards node => exact .gone node .discarded hbound

end UsbDirectFabric.Network
