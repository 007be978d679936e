import UsbDirectFabric.Network.Copies
import UsbDirectFabric.Foundation.Crc32

/-!
# Forwarding in an arbitrary network

Nodes and gadgets in any mix, wired in any way, with duplicate ids, loops and self-loops, links that
lose frames, torn writes and exhausted counters: a frame is still in one place at most, is forwarded
no more often than its hop count leaves room for, and shows its original source, destination and
payload all the way.
-/

namespace UsbDirectFabric.Network

open Wire Daemon

variable {ι : Type} {crc32 : Bytes → UInt32}

/-- A frame is faithful to itself at its first place. -/
theorem Faithful.place {origin : Origin ι} {frame : Frame}
    (hframe : unpack crc32 origin.data = .ok frame) : Faithful crc32 frame origin.place := by
  have hcontent : (unpack crc32 origin.data).toOption = some frame := by
    rw [hframe]
    rfl
  unfold Origin.place
  split
  · exact ⟨Nat.zero_le _, .inr ⟨frame, hcontent, .refl frame⟩, by simp⟩
  · exact ⟨Nat.zero_le _, .inr ⟨frame, hcontent, .refl frame⟩, by simp⟩

/-- A frame stays faithful to itself on every journey. -/
theorem Journey.faithful {topology : Topology ι} {faulty : Prop} {origin : Origin ι} {frame : Frame}
    {copy : Copy ι} (hjourney : Journey crc32 topology faulty origin.place copy)
    (hframe : unpack crc32 origin.data = .ok frame)
    (hpayload : frame.payload.length ≤ maxPayload) : Faithful crc32 frame copy :=
  hjourney.invariant (Faithful crc32 frame) (.place hframe) fun _ _ hfaithful hstep ↦
    hfaithful.step hpayload hstep

/-- The hop count exceeds the limit only if it did so from the start. -/
theorem Relayed.hop_le {original frame : Frame} {forwards : ℕ}
    (hrelayed : Relayed original forwards frame)
    (hbound : forwards ≤ hopLimit - original.hop.toNat) :
    frame.hop.toNat ≤ max original.hop.toNat hopLimit := by
  rw [hrelayed.hop]
  omega

variable [Fintype ι] [DecidableEq ι]

/-- **Bounded, content-preserving forwarding.** In every state that any network reaches, a valid
frame that was injected or sent has one copy. It has been forwarded at most 15 times less its
initial hop count, and unless it is gone it shows the original with one more hop per forward. -/
theorem forwarding_bounded (wiring : ι → Option (ι × RxLoop)) (boot : ι → Boot) {fabric : Fabric ι}
    (hreachable : Run.Reachable (Fabric.step crc32 wiring) (Fabric.start boot) fabric)
    {number : ℕ} {origin : Origin ι} {frame : Frame}
    (horigin : fabric.origins[number]? = some origin)
    (hframe : unpack crc32 origin.data = .ok frame)
    (hpayload : frame.payload.length ≤ maxPayload) :
    ∃ forwards spot, fabric.copies number = {(forwards, spot)} ∧
      forwards ≤ hopLimit - frame.hop.toNat ∧
      ((∃ node fate, spot = .gone node fate) ∨
        ∃ copy, spot.content crc32 = some copy ∧ Relayed frame forwards copy ∧
          copy.hop.toNat ≤ max frame.hop.toNat hopLimit) := by
  have hcondition (state : Fabric ι) (action : Fabric.Action ι) (_ : True) :
      True ∨ state.Faultless action := .inl trivial
  obtain ⟨⟨forwards, spot⟩, hcopies, hjourney⟩ :=
    Fabric.exists_copy hreachable hcondition horigin
  have hfaithful := hjourney.faithful hframe hpayload
  refine ⟨forwards, spot, hcopies, hfaithful.bound, hfaithful.shows.imp_right ?_⟩
  rintro ⟨copy, hcontent, hrelayed⟩
  exact ⟨copy, hcontent, hrelayed, hrelayed.hop_le hfaithful.bound⟩

/-- A node and a gadget in a loop, with the cable of the gadget on the node's host side. -/
def mixedLoop : Fin 2 → Option (Fin 2 × RxLoop)
  | 0 => some (1, .gadgetRx)
  | 1 => some (0, .hostRx)

/-- Both daemons have the same id. -/
def mixedBoot : Fin 2 → Boot
  | 0 => .udfNode 7 true true
  | 1 => .gadgetDaemon 7

def straying : Frame := ⟨4, 14, 5, 3, 9, [0x48, 0x69]⟩

/-- A frame for nobody goes through the gadget and is unpacked by the node. -/
def mixedRun : List (Fabric.Action (Fin 2)) :=
  [.inject 0 (encode Crc32.checksum straying), .read 0 0] ++
    List.replicate 4 (.peer 1 (.gadgetDaemon .rxStep)) ++
    [.peer 1 (.gadgetDaemon .txGet), .peer 1 (.gadgetDaemon (.txWrite 36)), .read 1 0,
      .peer 0 (.udfNode (.rxStep .hostRx))]

theorem forwarding_bounded_mixedRun :
    ∃ fabric, Run.Reachable (Fabric.step Crc32.checksum mixedLoop) (Fabric.start mixedBoot) fabric ∧
      ∃ forwards spot, fabric.copies 0 = {(forwards, spot)} ∧
        forwards ≤ hopLimit - straying.hop.toNat ∧
        ((∃ node fate, spot = .gone node fate) ∨
          ∃ copy, spot.content Crc32.checksum = some copy ∧ Relayed straying forwards copy ∧
            copy.hop.toNat ≤ max straying.hop.toNat hopLimit) := by
  have hrun : (Run.attempt (Fabric.step Crc32.checksum mixedLoop) (fun _ _ ↦ True)
      (Fabric.start mixedBoot) mixedRun).map (·.origins) =
        some [⟨0, none, encode Crc32.checksum straying⟩] := by
    decide +kernel
  obtain ⟨fabric, hreachable, horigins⟩ := Run.exists_of_attempt hrun
  have horigin : fabric.origins[0]? = some ⟨0, none, encode Crc32.checksum straying⟩ := by
    rw [horigins]
    rfl
  have hframe := unpack_encode Crc32.checksum straying (by decide)
  exact ⟨fabric, hreachable,
    forwarding_bounded mixedLoop mixedBoot hreachable horigin hframe (by decide)⟩

end UsbDirectFabric.Network
