import UsbDirectFabric.Daemon.HostReceive
import UsbDirectFabric.Foundation.Run
import UsbDirectFabric.Foundation.TransferPipe

/-!
# Heartbeats on one cable

A `UDFHost` and a `GadgetDaemon` joined by a cable that carries transfers both ways. The host sends
its heartbeats to destination 0, the gadget forwards what is not addressed to it without looking at
the HB flag, and the host counts every frame with the flag. So the host counts its own heartbeats as
soon as the gadget forwards one; as long as the gadget does not, all it counts come from the gadget.
-/

namespace UsbDirectFabric.Daemon

open Wire

/-! ## The cable -/

/-- Both daemons, the pipes down to the gadget and up to the host, and the heartbeats that the host
has counted. -/
structure Cable where
  host : UDFHost
  receiver : HostReceiver
  rx : HostReceiver.RxThread
  gadget : GadgetDaemon
  down : TransferPipe UInt8
  up : TransferPipe UInt8
  counted : List FrameTuple
deriving DecidableEq, Repr

def heartbeatIn (crc32 : Bytes → UInt32) (data : Bytes) : List Frame :=
  match unpack crc32 data with
  | .ok frame => if frame.isHeartbeat then [frame] else []
  | .error _ => []

def flagged (frame : FrameTuple) : List FrameTuple :=
  if frame.flags &&& flagHb ≠ 0 then [frame] else []

/-- The heartbeat that the next statement of `UDFHost._rx_loop` counts. -/
def HostReceiver.RxThread.counting : HostReceiver.RxThread → List FrameTuple
  | .sized frame => flagged frame
  | _ => []

/-- What a read of the host takes off the cable. -/
def UDFHost.Outcome.taken : UDFHost.Outcome → ℕ
  | .success => readSize
  | .timeout moved => moved
  | .failure moved => moved

namespace Cable

/-- `gadgetBreak` is a write of `_tx_loop` that accepts a part of a frame and ends with a full
packet, so that the host goes on reading; after any other write the transfer is complete. -/
inductive Action
  | host (action : UDFHost.Action)
  | hostRead (outcome : UDFHost.Outcome)
  | hostStep
  | gadgetRead
  | gadget (action : GadgetDaemon.Action)
  | gadgetBreak (accepted : ℕ)
deriving DecidableEq, Repr

def start (hostId gadgetId : ℤ) : Cable where
  host := .start hostId
  receiver := .start
  rx := .reading
  gadget := .start gadgetId
  down := .empty
  up := .empty
  counted := []

variable (crc32 : Bytes → UInt32)

/-- `_bulk_read`; what a read that does not succeed has taken is lost. -/
def hostRead (cable : Cable) (outcome : UDFHost.Outcome) : Option Cable :=
  if cable.rx = .reading then
    match outcome with
    | .success =>
        (cable.up.front readSize).map fun data ↦
          { cable with rx := .received data, up := cable.up.take readSize }
    | .timeout moved =>
        some { cable with
          host := { cable.host with timeouts := cable.host.timeouts + 1 }
          up := cable.up.take moved }
    | .failure moved => some { cable with up := cable.up.take moved }
  else none

def step (cable : Cable) : Action → Option Cable
  | .host action =>
      (cable.host.step crc32 action).map fun (host, passed) ↦
        { cable with
          host := host
          down := (cable.down.breakOff (cable.host.broken action)).writes passed }
  | .hostRead outcome => cable.hostRead outcome
  | .hostStep =>
      (cable.receiver.rxStep crc32 cable.rx).map fun (receiver, rx) ↦
        { cable with
          receiver := receiver
          rx := rx
          counted := cable.counted ++ cable.rx.counting }
  | .gadgetRead =>
      match cable.down.front readSize with
      | none => none
      | some data =>
          (cable.gadget.read (.fresh 0) data).map fun (gadget, _) ↦
            { cable with gadget := gadget, down := cable.down.take readSize }
  | .gadget action =>
      (cable.gadget.step crc32 0 action).map fun (gadget, effect) ↦
        { cable with gadget := gadget, up := cable.up.writes effect.passed }
  | .gadgetBreak accepted =>
      match cable.gadget.txWrite accepted with
      | some (gadget, .tore piece _) =>
          some { cable with gadget := gadget, up := cable.up.breakOff piece }
      | _ => none

/-- Every heartbeat that the host has counted is one of the gadget, and none of the host's own is on
the gadget's transmit queue. -/
structure PeerOnly (hostId gadgetId : ℤ) (cable : Cable) : Prop where
  number : cable.receiver.rxHb = cable.counted.length
  counted : ∀ frame ∈ cable.counted, (frame.src.toNat : ℤ) = gadgetId
  queued : ∀ item ∈ cable.gadget.txQueue, ∀ frame, unpack crc32 item.2 = .ok frame →
    frame.isHeartbeat = true → (frame.src.toNat : ℤ) ≠ hostId

end Cable

/-! ## Heartbeats of one node -/

/-- If the host reads a heartbeat out of the transfer, it is one of the given node. -/
def HeartbeatOf (crc32 : Bytes → UInt32) (nodeId : ℤ) (data : Bytes) : Prop :=
  ∀ frame ∈ heartbeatIn crc32 (data.take readSize), (frame.src.toNat : ℤ) = nodeId

instance (crc32 : Bytes → UInt32) (nodeId : ℤ) (data : Bytes) :
    Decidable (HeartbeatOf crc32 nodeId data) :=
  inferInstanceAs (Decidable (∀ frame ∈ heartbeatIn crc32 (data.take readSize), _))

/-- A packed frame that is a heartbeat only if it is one of the given node. -/
def Made (crc32 : Bytes → UInt32) (nodeId : ℤ) (data : Bytes) : Prop :=
  ∃ frame : Frame, data = encode crc32 frame ∧ frame.payload.length < 65536 ∧
    (frame.isHeartbeat = true → (frame.src.toNat : ℤ) = nodeId)

variable {crc32 : Bytes → UInt32}

theorem mem_heartbeatIn {data : Bytes} {frame : Frame} :
    frame ∈ heartbeatIn crc32 data ↔
      unpack crc32 data = .ok frame ∧ frame.isHeartbeat = true := by
  unfold heartbeatIn
  split
  · rename_i other hunpack
    by_cases hflag : other.isHeartbeat = true
    · rw [if_pos hflag, List.mem_singleton, hunpack, Except.ok.injEq]
      constructor
      · rintro rfl
        exact ⟨rfl, hflag⟩
      · rintro ⟨rfl, -⟩
        rfl
    · rw [if_neg hflag, hunpack, Except.ok.injEq]
      constructor
      · intro hframe
        cases hframe
      · rintro ⟨rfl, hframe⟩
        exact absurd hframe hflag
  · rename_i error hunpack
    rw [hunpack]
    simp

/-- Reading a whole packed frame gives this frame, reading less of it nothing. -/
theorem Made.heartbeatOf {nodeId : ℤ} {data : Bytes} (hmade : Made crc32 nodeId data) :
    HeartbeatOf crc32 nodeId data := by
  obtain ⟨frame, rfl, hlength, hsrc⟩ := hmade
  intro other hother
  obtain ⟨hunpack, hflag⟩ := mem_heartbeatIn.mp hother
  by_cases hwhole : (encode crc32 frame).take readSize = encode crc32 frame
  · rw [hwhole, unpack_encode crc32 frame hlength] at hunpack
    cases hunpack
    exact hsrc hflag
  · obtain ⟨message, hreject⟩ :=
      unpack_prefix crc32 frame hlength (List.take_prefix readSize _) hwhole
    rw [hreject] at hunpack
    cases hunpack

theorem Made.src {nodeId : ℤ} {data : Bytes} (hmade : Made crc32 nodeId data) {frame : Frame}
    (hunpack : unpack crc32 data = .ok frame) (hflag : frame.isHeartbeat = true) :
    (frame.src.toNat : ℤ) = nodeId := by
  obtain ⟨other, rfl, hlength, hsrc⟩ := hmade
  rw [unpack_encode crc32 other hlength] at hunpack
  cases hunpack
  exact hsrc hflag

theorem made_of_pack {nodeId dst seq flags hop : ℤ} {payload data : Bytes}
    (hpack : pack crc32 nodeId dst seq payload flags hop = .ok data) : Made crc32 nodeId data := by
  obtain ⟨frame, hsrc, -, -, rfl, -, -, hlength, rfl⟩ := pack_eq_ok crc32 hpack
  exact ⟨frame, rfl, hlength, fun _ ↦ hsrc.symm⟩

/-- Forwarding leaves the HB flag as it is. -/
theorem isHeartbeat_relayed (frame : Frame) (seq : ℕ) :
    (relayed frame seq).isHeartbeat = frame.isHeartbeat := by
  have hdisjoint : flagFwd.toBitVec &&& flagHb.toBitVec = 0#8 := by decide
  have hflags : (frame.flags ||| flagFwd) &&& flagHb = frame.flags &&& flagHb := by
    apply UInt8.eq_of_toBitVec_eq
    rw [UInt8.toBitVec_and, UInt8.toBitVec_or, UInt8.toBitVec_and, BitVec.and_or_distrib_right,
      hdisjoint, BitVec.or_zero]
  simp only [Frame.isHeartbeat, relayed, hflags]

theorem made_of_repack {nodeId : ℤ} {frame : Frame} {seq : ℕ} {data : Bytes}
    (hlimit : frame.hop.toNat < hopLimit) (hflag : frame.isHeartbeat = false)
    (hrepack : repack crc32 frame seq = .ok data) : Made crc32 nodeId data := by
  obtain ⟨rfl, hlength⟩ := unpack_repack crc32 hlimit hrepack
  refine ⟨relayed frame seq, rfl, hlength, ?_⟩
  intro hrelayed
  rw [isHeartbeat_relayed, hflag] at hrelayed
  cases hrelayed

/-! ## The gadget -/

namespace GadgetDaemon

/-- `_rx_loop` is not about to take the forwarding branch with a heartbeat. -/
def RxThread.Spares (nodeId : ℤ) : RxThread → Prop
  | .accounted _ frame =>
      frame.isHeartbeat = true → Addressed nodeId frame ∨ hopLimit ≤ frame.hop.toNat
  | _ => True

instance (nodeId : ℤ) : ∀ thread, Decidable (RxThread.Spares nodeId thread)
  | .accounted _ frame => inferInstanceAs (Decidable (frame.isHeartbeat = true → _))
  | .waiting | .received _ _ | .sized _ _ | .numbered _ _ _ | .dead => isTrue trivial

variable (crc32) in
/-- The write of `_tx_loop` passes a whole frame, or what it completes does not read as a heartbeat
of another node. -/
def TxThread.Spares (nodeId : ℤ) (begun : Bytes) (accepted : ℕ) : TxThread → Prop
  | .writing _ data written =>
      (begun = [] ∧ written = 0 ∧ accepted = data.length) ∨
        HeartbeatOf crc32 nodeId (begun ++ (data.drop written).take accepted)
  | _ => True

instance (nodeId : ℤ) (begun : Bytes) (accepted : ℕ) :
    ∀ thread, Decidable (TxThread.Spares crc32 nodeId begun accepted thread)
  | .writing _ _ _ => inferInstanceAs (Decidable (_ ∨ _))
  | .waiting | .sent _ => isTrue trivial

variable (crc32) in
/-- A step that neither forwards a heartbeat nor makes one up, where the cable holds the beginning
of a transfer. -/
def Proper (daemon : GadgetDaemon) (begun : Bytes) : Action → Prop
  | .rxStep => daemon.rx.Spares daemon.nodeId
  | .txWrite accepted => daemon.tx.Spares crc32 daemon.nodeId begun accepted
  | _ => True

instance (daemon : GadgetDaemon) (begun : Bytes) :
    ∀ action, Decidable (daemon.Proper crc32 begun action)
  | .rxStep => inferInstanceAs (Decidable (daemon.rx.Spares _))
  | .txWrite accepted => inferInstanceAs (Decidable (daemon.tx.Spares crc32 _ begun accepted))
  | .txGet | .txFail | .txFinish | .hbStep | .send _ _ | .sendPut _ => isTrue trivial

variable (crc32) in
/-- The heartbeats that the gadget has queued or is sending are its own, and what it is forwarding
is none. -/
structure OwnHeartbeats (daemon : GadgetDaemon) : Prop where
  queue : ∀ item ∈ daemon.txQueue, Made crc32 daemon.nodeId item.2
  sending : ∀ tag data written, daemon.tx = .writing tag data written →
    Made crc32 daemon.nodeId data
  forwarding : ∀ tag frame seq, daemon.rx = .numbered tag frame seq →
    frame.hop.toNat < hopLimit ∧ frame.isHeartbeat = false

variable {daemon next : GadgetDaemon} {effect : Effect}

theorem ownHeartbeats_start (nodeId : ℤ) : (start nodeId).OwnHeartbeats crc32 where
  queue := by simp [start]
  sending := by simp [start]
  forwarding := by simp [start]

/-- A step after which the queue is right and the other threads stand as before. -/
theorem OwnHeartbeats.of_queue (hown : daemon.OwnHeartbeats crc32)
    (hqueue : ∀ item ∈ next.txQueue, Made crc32 daemon.nodeId item.2)
    (hid : next.nodeId = daemon.nodeId) (htx : next.tx = daemon.tx)
    (hrx : ∀ tag frame seq, next.rx = .numbered tag frame seq →
      daemon.rx = .numbered tag frame seq) : next.OwnHeartbeats crc32 where
  queue := by
    rw [hid]
    exact hqueue
  sending := by
    rw [htx, hid]
    exact hown.sending
  forwarding := fun tag frame seq hframe ↦
    hown.forwarding tag frame seq (hrx tag frame seq hframe)

theorem OwnHeartbeats.put {tag : Tag} {data : Bytes} (hown : daemon.OwnHeartbeats crc32)
    (hmade : Made crc32 daemon.nodeId data) (hid : next.nodeId = daemon.nodeId)
    (hqueue : next.txQueue = daemon.txQueue ++ [(tag, data)]) (htx : next.tx = daemon.tx)
    (hrx : ∀ tag frame seq, next.rx = .numbered tag frame seq →
      daemon.rx = .numbered tag frame seq) : next.OwnHeartbeats crc32 := by
  apply hown.of_queue _ hid htx hrx
  intro item hitem
  rw [hqueue] at hitem
  rcases List.mem_append.mp hitem with hold | hnew
  · exact hown.queue item hold
  · rw [List.mem_singleton.mp hnew]
    exact hmade

theorem OwnHeartbeats.keep (hown : daemon.OwnHeartbeats crc32) (hid : next.nodeId = daemon.nodeId)
    (hqueue : next.txQueue = daemon.txQueue) (htx : next.tx = daemon.tx)
    (hrx : ∀ tag frame seq, next.rx = .numbered tag frame seq →
      daemon.rx = .numbered tag frame seq) : next.OwnHeartbeats crc32 := by
  apply hown.of_queue _ hid htx hrx
  rw [hqueue]
  exact hown.queue

theorem ownHeartbeats_rxStep {begun : Bytes} (hown : daemon.OwnHeartbeats crc32)
    (hproper : daemon.Proper crc32 begun .rxStep)
    (hstep : daemon.rxStep crc32 = some (next, effect)) :
    next.OwnHeartbeats crc32 ∧ effect.passed = [] := by
  have hmove : Move crc32 0 daemon .rxStep next effect := rxStep_moves hstep
  cases hmove with
  | size | reject | deliver | drop | rxDie => exact ⟨hown.keep rfl rfl rfl (by simp), rfl⟩
  | account =>
      rw [account_eq]
      exact ⟨hown.keep rfl rfl rfl (by simp), rfl⟩
  | @number tag frame hrx hother hlimit =>
      simp only [Proper, hrx, RxThread.Spares] at hproper
      refine ⟨⟨hown.queue, hown.sending, ?_⟩, rfl⟩
      intro _ _ _ hframe
      cases hframe
      refine ⟨hlimit, Bool.eq_false_iff.mpr fun hflag ↦ ?_⟩
      exact (hproper hflag).elim hother (Nat.not_le.mpr hlimit)
  | @forward tag frame seq data hrx hrepack =>
      obtain ⟨hlimit, hflag⟩ := hown.forwarding tag frame seq hrx
      exact ⟨hown.put (made_of_repack hlimit hflag hrepack) rfl rfl rfl (by simp), rfl⟩

/-- A write leaves the queue and the frame in hand as they are. -/
theorem ownHeartbeats_txWrite {accepted : ℕ} (hown : daemon.OwnHeartbeats crc32)
    (hstep : daemon.txWrite accepted = some (next, effect)) :
    next.OwnHeartbeats crc32 ∧ next.nodeId = daemon.nodeId := by
  have hmove : Move crc32 0 daemon (.txWrite accepted) next effect := txWrite_moves hstep
  cases hmove with
  | txWhole => exact ⟨⟨hown.queue, by simp, hown.forwarding⟩, rfl⟩
  | @txPiece tag data written accepted hstands =>
      refine ⟨⟨hown.queue, ?_, hown.forwarding⟩, rfl⟩
      intro _ _ _ hwriting
      cases hwriting
      exact hown.sending tag data written hstands

/-- A proper step of the gadget keeps its heartbeats its own, on the queue and on the endpoint. -/
theorem ownHeartbeats_step {number : ℕ} {action : Action} {begun : Bytes}
    (hown : daemon.OwnHeartbeats crc32) (hproper : daemon.Proper crc32 begun action)
    (hstep : daemon.step crc32 number action = some (next, effect)) :
    next.OwnHeartbeats crc32 ∧
      ∀ data ∈ effect.passed, HeartbeatOf crc32 daemon.nodeId (begun ++ data) := by
  have hsilent (hnext : next.OwnHeartbeats crc32 ∧ effect.passed = []) :
      next.OwnHeartbeats crc32 ∧
        ∀ data ∈ effect.passed, HeartbeatOf crc32 daemon.nodeId (begun ++ data) := by
    refine ⟨hnext.1, ?_⟩
    rw [hnext.2]
    simp
  cases step_moves hstep with
  | size | account | reject | deliver | number | drop | forward | rxDie =>
      exact hsilent (ownHeartbeats_rxStep hown hproper hstep)
  | @txGet tag data rest htx hqueue =>
      have hitems := hown.queue
      rw [hqueue] at hitems
      refine hsilent ⟨⟨fun item hitem ↦ hitems item (List.mem_cons_of_mem _ hitem), ?_,
        hown.forwarding⟩, rfl⟩
      intro _ _ _ hwriting
      cases hwriting
      exact hitems _ List.mem_cons_self
  | @txWhole tag data htx =>
      simp only [Proper, htx, TxThread.Spares, List.drop_zero, List.take_length, and_self,
        and_true] at hproper
      refine ⟨(ownHeartbeats_txWrite hown hstep).1, ?_⟩
      intro piece hpiece
      rw [List.mem_singleton.mp hpiece]
      rcases hproper with rfl | hspares
      · exact (hown.sending tag data 0 htx).heartbeatOf
      · exact hspares
  | @txPiece tag data written accepted htx hroom hpart =>
      simp only [Proper, htx, TxThread.Spares] at hproper
      refine ⟨(ownHeartbeats_txWrite hown hstep).1, ?_⟩
      intro piece hpiece
      rw [List.mem_singleton.mp hpiece]
      exact hproper.resolve_left fun hwhole ↦ hpart hwhole.2
  | txFail | txFinish | txFinishPieces =>
      exact hsilent ⟨⟨hown.queue, by simp, hown.forwarding⟩, rfl⟩
  | hbNumber | hbDie | send | sendRaise =>
      exact hsilent ⟨hown.keep rfl rfl rfl fun _ _ _ hframe ↦ hframe, rfl⟩
  | hbPut _ hpack | sendPut _ hpack =>
      exact hsilent ⟨hown.put (made_of_pack hpack) rfl rfl rfl fun _ _ _ hframe ↦ hframe, rfl⟩

theorem ownHeartbeats_read {tag : Tag} {data : Bytes} (hown : daemon.OwnHeartbeats crc32)
    (hread : daemon.read tag data = some (next, effect)) : next.OwnHeartbeats crc32 := by
  obtain ⟨-, ⟨-, rfl, -⟩ | ⟨-, rfl, -⟩⟩ := read_cases hread
  · exact hown
  · exact hown.keep rfl rfl rfl (by simp)

end GadgetDaemon

/-! ## Both sides -/

namespace HostReceiver

variable (crc32) in
def RxThread.heartbeats : RxThread → List FrameTuple
  | .received data => (heartbeatIn crc32 data).map Frame.tuple
  | .counted _ frame | .sized frame => flagged frame
  | .reading | .dead => []

/-- A statement of the receive loop counts the heartbeat in hand or keeps it. -/
theorem heartbeats_step {receiver next : HostReceiver} {thread after : RxThread}
    (hstep : receiver.rxStep crc32 thread = some (next, after)) :
    thread.heartbeats crc32 = thread.counting ++ after.heartbeats crc32 ∧
      next.rxHb = receiver.rxHb + thread.counting.length := by
  cases rxStep_moves hstep with
  | reject hreject => simp [RxThread.heartbeats, RxThread.counting, heartbeatIn, hreject]
  | @count data frame hunpack =>
      have htuple : frame.tuple.flags = frame.flags := rfl
      simp only [RxThread.heartbeats, RxThread.counting, heartbeatIn, hunpack, flagged, htuple,
        Frame.isHeartbeat, List.nil_append, List.length_nil, Nat.add_zero, and_true]
      by_cases hflag : frame.flags &&& flagHb = 0
      · simp [hflag]
      · simp [hflag]
  | size => exact ⟨rfl, rfl⟩
  | heartbeat hflag => simp [RxThread.heartbeats, RxThread.counting, flagged, hflag]
  | queue hflag => simp [RxThread.heartbeats, RxThread.counting, flagged, hflag]

end HostReceiver

namespace Cable

variable {cable next : Cable} {hostId gadgetId : ℤ}

variable (crc32) in
/-- A step after which the gadget's heartbeats are still its own: a read of the host, too, leaves
nothing of a transfer that reads as a heartbeat of another node. -/
def Proper (cable : Cable) : Action → Prop
  | .gadget action => cable.gadget.Proper crc32 cable.up.begun action
  | .hostRead outcome =>
      ∀ data ∈ cable.up.remains outcome.taken, HeartbeatOf crc32 cable.gadget.nodeId data
  | _ => True

instance (cable : Cable) : ∀ action, Decidable (cable.Proper crc32 action)
  | .gadget action => inferInstanceAs (Decidable (cable.gadget.Proper crc32 _ action))
  | .hostRead outcome => inferInstanceAs (Decidable (∀ data ∈ cable.up.remains outcome.taken, _))
  | .host _ | .hostStep | .gadgetRead | .gadgetBreak _ => isTrue trivial

variable (crc32) in
/-- Whatever is queued, on its way up, in the hands of the host or counted as a heartbeat is one of
the gadget. -/
structure OwnHeartbeats (gadgetId : ℤ) (cable : Cable) : Prop where
  id : cable.gadget.nodeId = gadgetId
  gadget : cable.gadget.OwnHeartbeats crc32
  up : ∀ data ∈ cable.up.whole, HeartbeatOf crc32 gadgetId data
  rx : ∀ frame ∈ cable.rx.heartbeats crc32, (frame.src.toNat : ℤ) = gadgetId
  number : cable.receiver.rxHb = cable.counted.length
  counted : ∀ frame ∈ cable.counted, (frame.src.toNat : ℤ) = gadgetId

theorem ownHeartbeats_start : (start hostId gadgetId).OwnHeartbeats crc32 gadgetId where
  id := rfl
  gadget := GadgetDaemon.ownHeartbeats_start gadgetId
  up := by simp [start, TransferPipe.empty]
  rx := by simp [start, HostReceiver.RxThread.heartbeats]
  number := rfl
  counted := by simp [start]

/-- A read of the host takes some of the first transfer off the cable. -/
theorem hostRead_cases {outcome : UDFHost.Outcome} (hread : cable.hostRead outcome = some next) :
    cable.rx = .reading ∧ next.up = cable.up.take outcome.taken ∧ next.down = cable.down ∧
      next.receiver = cable.receiver ∧ next.gadget = cable.gadget ∧ next.counted = cable.counted ∧
      (∃ timeouts, next.host = { cable.host with timeouts := timeouts }) ∧
      ((outcome = .success ∧ ∃ data, cable.up.front readSize = some data ∧
          next.rx = .received data) ∨
        outcome ≠ .success ∧ next.rx = .reading) := by
  unfold hostRead at hread
  split at hread
  · rename_i hreading
    refine ⟨hreading, ?_⟩
    cases outcome with
    | success =>
        obtain ⟨data, hfront, rfl⟩ := Option.map_eq_some_iff.mp hread
        exact ⟨rfl, rfl, rfl, rfl, rfl, ⟨_, rfl⟩, .inl ⟨rfl, data, hfront, rfl⟩⟩
    | timeout | failure =>
        cases hread
        exact ⟨rfl, rfl, rfl, rfl, rfl, ⟨_, rfl⟩, .inr ⟨nofun, hreading⟩⟩
  · cases hread

theorem ownHeartbeats_hostRead {outcome : UDFHost.Outcome}
    (hown : cable.OwnHeartbeats crc32 gadgetId) (hproper : cable.Proper crc32 (.hostRead outcome))
    (hread : cable.hostRead outcome = some next) : next.OwnHeartbeats crc32 gadgetId := by
  obtain ⟨hid, hgadget, hup, hrx, hnumber, hcounted⟩ := hown
  obtain ⟨-, hpipe, -, hreceiver, hsame, hghost, -, hthread⟩ := hostRead_cases hread
  refine ⟨hsame ▸ hid, hsame ▸ hgadget, ?_, ?_, ?_, hghost ▸ hcounted⟩
  · intro data hdata
    rw [hpipe] at hdata
    rcases TransferPipe.mem_whole_take hdata with hbefore | hleft
    · exact hup data hbefore
    · exact hid ▸ hproper data hleft
  · rcases hthread with ⟨-, data, hfront, hreceived⟩ | ⟨-, hreading⟩
    · obtain ⟨first, later, hwhole, rfl⟩ := TransferPipe.front_eq_some hfront
      rw [hreceived]
      intro frame hframe
      obtain ⟨heartbeat, hheartbeat, rfl⟩ := List.mem_map.mp hframe
      exact hup first (by simp [hwhole]) heartbeat hheartbeat
    · simp [hreading, HostReceiver.RxThread.heartbeats]
  · rw [hreceiver, hnumber, hghost]

theorem ownHeartbeats_step {action : Action} (hown : cable.OwnHeartbeats crc32 gadgetId)
    (hproper : cable.Proper crc32 action) (hstep : cable.step crc32 action = some next) :
    next.OwnHeartbeats crc32 gadgetId := by
  cases action with
  | hostRead outcome => exact ownHeartbeats_hostRead hown hproper hstep
  | host action =>
      obtain ⟨hid, hgadget, hup, hrx, hnumber, hcounted⟩ := hown
      obtain ⟨_, _, rfl⟩ := Option.map_eq_some_iff.mp hstep
      exact ⟨hid, hgadget, hup, hrx, hnumber, hcounted⟩
  | hostStep =>
      obtain ⟨hid, hgadget, hup, hrx, hnumber, hcounted⟩ := hown
      obtain ⟨⟨receiver, rx⟩, hmove, rfl⟩ := Option.map_eq_some_iff.mp hstep
      obtain ⟨hhands, hcount⟩ := HostReceiver.heartbeats_step hmove
      rw [hhands] at hrx
      have hleft : ∀ frame ∈ rx.heartbeats crc32, (frame.src.toNat : ℤ) = gadgetId :=
        fun frame hframe ↦ hrx frame (List.mem_append_right _ hframe)
      refine ⟨hid, hgadget, hup, hleft, ?_, ?_⟩
      · simp only [hcount, hnumber, List.length_append]
      · intro frame hframe
        rcases List.mem_append.mp hframe with hold | hnew
        · exact hcounted frame hold
        · exact hrx frame (List.mem_append_left _ hnew)
  | gadgetRead =>
      obtain ⟨hid, hgadget, hup, hrx, hnumber, hcounted⟩ := hown
      simp only [step] at hstep
      split at hstep
      · cases hstep
      · obtain ⟨⟨gadget, effect⟩, hread, rfl⟩ := Option.map_eq_some_iff.mp hstep
        have hsame := (GadgetDaemon.read_frame hread).1
        exact ⟨hsame.trans hid, GadgetDaemon.ownHeartbeats_read hgadget hread, hup, hrx, hnumber,
          hcounted⟩
  | gadget action =>
      obtain ⟨hid, hgadget, hup, hrx, hnumber, hcounted⟩ := hown
      obtain ⟨⟨gadget, effect⟩, hmove, rfl⟩ := Option.map_eq_some_iff.mp hstep
      have hsame := (GadgetDaemon.step_frame hmove).1
      obtain ⟨hnext, hpassed⟩ := GadgetDaemon.ownHeartbeats_step hgadget hproper hmove
      refine ⟨hsame.trans hid, hnext, ?_, hrx, hnumber, hcounted⟩
      intro data hdata
      change data ∈ (cable.up.writes effect.passed).whole at hdata
      rcases effect.passed_cases with hnone | ⟨piece, hpiece⟩
      · rw [hnone] at hdata
        exact hup data hdata
      · rw [hpiece, TransferPipe.writes_singleton, TransferPipe.mem_whole_write] at hdata
        rcases hdata with hold | rfl
        · exact hup data hold
        · rw [← hid]
          exact hpassed piece (by simp [hpiece])
  | gadgetBreak accepted =>
      obtain ⟨hid, hgadget, hup, hrx, hnumber, hcounted⟩ := hown
      simp only [step] at hstep
      split at hstep
      · rename_i gadget piece _ hwrite
        cases hstep
        obtain ⟨hnext, hsame⟩ := GadgetDaemon.ownHeartbeats_txWrite hgadget hwrite
        exact ⟨hsame.trans hid, hnext, hup, hrx, hnumber, hcounted⟩
      · cases hstep

/-- **Heartbeats of the peer.** In every run in which the gadget never takes its forwarding branch
with a heartbeat, and no part of a frame that a write completes or a read leaves reads as one of
another node, the host counts only heartbeats of the gadget, and none of its own is ever on the
gadget's transmit queue. -/
theorem peerOnly_of_proper (hne : hostId ≠ gadgetId)
    (hreaches : Run.Reaches (step crc32) (Proper crc32) (start hostId gadgetId) cable) :
    cable.PeerOnly crc32 hostId gadgetId := by
  have hown : cable.OwnHeartbeats crc32 gadgetId :=
    hreaches.invariant ownHeartbeats_start fun _ _ _ hown hproper hstep ↦
      ownHeartbeats_step hown hproper hstep
  refine ⟨hown.number, hown.counted, ?_⟩
  intro item hitem frame hunpack hflag hhost
  have hsrc := (hown.gadget.queue item hitem).src hunpack hflag
  exact hne (hhost.symm.trans (hsrc.trans hown.id))

/-- A heartbeat of the host is on its way through the gadget when one of the gadget reaches the
host. -/
def crossingRun : List Action :=
  [.host .hbStep, .host .hbStep, .host (.hbWrite .success), .gadgetRead, .gadget .rxStep,
    .gadget .rxStep, .gadget .hbStep, .gadget .hbStep, .gadget .txGet, .gadget (.txWrite 20),
    .hostRead .success, .hostStep, .hostStep, .hostStep]

theorem peerOnly_of_proper_crossingRun :
    ∃ cable, Run.Reaches (step Crc32.checksum) (Proper Crc32.checksum) (start 1 2) cable ∧
      cable.receiver.rxHb = 1 ∧ cable.PeerOnly Crc32.checksum 1 2 := by
  have hrun : (Run.attempt (step Crc32.checksum) (Proper Crc32.checksum) (start 1 2)
      crossingRun).map (·.receiver.rxHb) = some 1 := by
    decide +kernel
  obtain ⟨cable, hreaches, hcount⟩ := Run.exists_of_attempt hrun
  exact ⟨cable, hreaches, hcount, peerOnly_of_proper (by decide) hreaches⟩

/-- The gadget forwards a heartbeat of the host, and the host counts it. -/
def reflectingRun : List Action :=
  [.host .hbStep, .host .hbStep, .host (.hbWrite .success), .gadgetRead] ++
    List.replicate 4 (.gadget .rxStep) ++
    [.gadget .txGet, .gadget (.txWrite 20), .hostRead .success, .hostStep, .hostStep, .hostStep]

/-- With whole writes and nothing lost the host counts its own heartbeat. -/
theorem not_peerOnly_reflectingRun :
    ∃ cable, Run.Reachable (step Crc32.checksum) (start 1 2) cable ∧
      cable.receiver.rxHb = 1 ∧ ¬cable.PeerOnly Crc32.checksum 1 2 := by
  have hrun : (Run.attempt (step Crc32.checksum) (fun _ _ ↦ True) (start 1 2)
      reflectingRun).map (fun cable ↦ (cable.receiver.rxHb, cable.counted.map (·.src))) =
        some (1, [1]) := by
    decide +kernel
  obtain ⟨cable, hreaches, hpair⟩ := Run.exists_of_attempt hrun
  obtain ⟨hcount, hsrcs⟩ := Prod.mk.inj hpair
  refine ⟨cable, hreaches, hcount, ?_⟩
  intro honly
  obtain ⟨frame, hframe, hsrc⟩ : ∃ frame ∈ cable.counted, frame.src = 1 := by
    apply List.mem_map.mp
    rw [hsrcs]
    exact List.mem_singleton_self 1
  have hpeer := honly.counted frame hframe
  rw [hsrc] at hpeer
  exact absurd hpeer (by decide)

end Cable

end UsbDirectFabric.Daemon
