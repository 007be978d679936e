import UsbDirectFabric.Daemon.GadgetReceive
import UsbDirectFabric.Daemon.Host
import UsbDirectFabric.Daemon.Node
import UsbDirectFabric.Foundation.Crc32

/-!
# The receive loop of the host daemon, and the four receive loops side by side

`_rx_loop` of `UDFHost` puts every frame without the HB flag on its queue, whatever its destination,
and only counts the frames with the flag. The loops of the gadget daemon and of the dual-cable node
look at the destination and not at the flag. So they agree on a transfer exactly if its frame has
the flag just when it is not addressed to the node.
-/

namespace UsbDirectFabric.Daemon

open Wire

variable (crc32 : Bytes → UInt32)

/-! ## `UDFHost._rx_loop` -/

/-- The attributes of `UDFHost` that belong to `_rx_loop`. -/
structure HostReceiver where
  rxQueue : List FrameTuple
  rxFrames : ℕ
  rxBytes : ℕ
  rxHb : ℕ
  crcErrors : ℕ
deriving DecidableEq, Repr

namespace HostReceiver

def start : HostReceiver where
  rxQueue := []
  rxFrames := 0
  rxBytes := 0
  rxHb := 0
  crcErrors := 0

/-- One iteration of `_rx_loop` after `_bulk_read` returned `data`. -/
def receive (receiver : HostReceiver) (data : Bytes) : Except PyError HostReceiver := do
  match ← unpackFrame crc32 data with
  | none => return { receiver with crcErrors := receiver.crcErrors + 1 }
  | some frame =>
      let receiver := { receiver with rxFrames := receiver.rxFrames + 1,
                                      rxBytes := receiver.rxBytes + data.length }
      if frame.flags &&& flagHb ≠ 0 then return { receiver with rxHb := receiver.rxHb + 1 }
      else return { receiver with rxQueue := receiver.rxQueue ++ [frame] }

/-- The receiver after a transfer; no exception leaves the loop. -/
def received (receiver : HostReceiver) (data : Bytes) : HostReceiver :=
  match unpack crc32 data with
  | .error _ => { receiver with crcErrors := receiver.crcErrors + 1 }
  | .ok frame =>
      { receiver with
        rxFrames := receiver.rxFrames + 1
        rxBytes := receiver.rxBytes + data.length
        rxHb := receiver.rxHb + if frame.isHeartbeat then 1 else 0
        rxQueue := receiver.rxQueue ++ if frame.isHeartbeat then [] else [frame.tuple] }

theorem receive_eq (receiver : HostReceiver) (data : Bytes) :
    receiver.receive crc32 data = .ok (receiver.received crc32 data) := by
  unfold receive received
  rw [unpackFrame_eq]
  cases unpack crc32 data with
  | error error => rfl
  | ok frame =>
      simp only [Except.toOption, Option.map_some, bind, Except.bind, Frame.tuple,
        Frame.isHeartbeat, bne_iff_ne, ne_eq]
      by_cases hflag : frame.flags &&& flagHb = 0
      · simp [hflag, pure, Except.pure]
      · simp [hflag, pure, Except.pure]

/-! ### One statement at a time -/

/-- Where `_rx_loop` stands: at the read, with a transfer, with a frame that it has counted, or with
one whose bytes it has counted too. -/
inductive RxThread
  | reading
  | received (data : Bytes)
  | counted (data : Bytes) (frame : FrameTuple)
  | sized (frame : FrameTuple)
  | dead
deriving DecidableEq, Repr

/-- The next statement of an iteration after `_bulk_read` has returned. -/
def rxStep (receiver : HostReceiver) : RxThread → Option (HostReceiver × RxThread)
  | .received data =>
      match unpackFrame crc32 data with
      | .ok none => some ({ receiver with crcErrors := receiver.crcErrors + 1 }, .reading)
      | .ok (some frame) =>
          some ({ receiver with rxFrames := receiver.rxFrames + 1 }, .counted data frame)
      | .error _ => some (receiver, .dead)
  | .counted data frame =>
      some ({ receiver with rxBytes := receiver.rxBytes + data.length }, .sized frame)
  | .sized frame =>
      if frame.flags &&& flagHb ≠ 0 then
        some ({ receiver with rxHb := receiver.rxHb + 1 }, .reading)
      else some ({ receiver with rxQueue := receiver.rxQueue ++ [frame] }, .reading)
  | _ => none

inductive RxMove (crc32 : Bytes → UInt32) (receiver : HostReceiver) :
    RxThread → HostReceiver → RxThread → Prop
  | reject {data : Bytes} {error : PyError} (rejects : unpack crc32 data = .error error) :
      RxMove crc32 receiver (.received data)
        { receiver with crcErrors := receiver.crcErrors + 1 } .reading
  | count {data : Bytes} {frame : Frame} (unpacks : unpack crc32 data = .ok frame) :
      RxMove crc32 receiver (.received data)
        { receiver with rxFrames := receiver.rxFrames + 1 } (.counted data frame.tuple)
  | size {data : Bytes} {frame : FrameTuple} :
      RxMove crc32 receiver (.counted data frame)
        { receiver with rxBytes := receiver.rxBytes + data.length } (.sized frame)
  | heartbeat {frame : FrameTuple} (flag : frame.flags &&& flagHb ≠ 0) :
      RxMove crc32 receiver (.sized frame) { receiver with rxHb := receiver.rxHb + 1 } .reading
  | queue {frame : FrameTuple} (flag : frame.flags &&& flagHb = 0) :
      RxMove crc32 receiver (.sized frame)
        { receiver with rxQueue := receiver.rxQueue ++ [frame] } .reading

variable {crc32}

theorem rxStep_moves {receiver next : HostReceiver} {thread after : RxThread}
    (hstep : receiver.rxStep crc32 thread = some (next, after)) :
    RxMove crc32 receiver thread next after := by
  cases thread with
  | reading => cases hstep
  | dead => cases hstep
  | received data =>
      simp only [rxStep, unpackFrame_eq] at hstep
      cases hunpack : unpack crc32 data with
      | error error =>
          simp only [hunpack, Except.toOption, Option.map_none] at hstep
          cases hstep
          exact .reject hunpack
      | ok frame =>
          simp only [hunpack, Except.toOption, Option.map_some] at hstep
          cases hstep
          exact .count hunpack
  | counted data frame =>
      cases hstep
      exact .size
  | sized frame =>
      simp only [rxStep] at hstep
      split at hstep <;> cases hstep
      · rename_i hflag
        exact .heartbeat hflag
      · rename_i hflag
        exact .queue (not_not.mp hflag)

variable (crc32) in
/-- `rxStep` where the loop can go on, nothing where it reads. -/
def rxAdvance (state : HostReceiver × RxThread) : HostReceiver × RxThread :=
  (state.1.rxStep crc32 state.2).getD state

/-- Statement by statement the loop does what `receive` does in an iteration. -/
theorem rxAdvance_received (receiver : HostReceiver) (data : Bytes) :
    (rxAdvance crc32)^[3] (receiver, .received data) =
      (receiver.received crc32 data, .reading) := by
  simp only [Function.iterate_succ, Function.iterate_zero, Function.comp_apply, id_eq, rxAdvance,
    rxStep, unpackFrame_eq, received]
  cases unpack crc32 data with
  | error error => rfl
  | ok frame =>
      simp only [Except.toOption, Option.map_some, Option.getD_some, Frame.tuple,
        Frame.isHeartbeat]
      by_cases hflag : frame.flags &&& flagHb = 0
      · simp [hflag]
      · simp [hflag]

end HostReceiver

/-! ## What each loop hands to the application -/

def handed {α : Type} (before after : List α) : List α := after.drop before.length

theorem handed_append {α : Type} (before items : List α) :
    handed before (before ++ items) = items :=
  List.drop_left

/-- The frame of a transfer, if the node's receive queue is to have it. -/
def delivery (nodeId : ℤ) (data : Bytes) : List Frame :=
  match unpack crc32 data with
  | .error _ => []
  | .ok frame => if Addressed nodeId frame then [frame] else []

variable {crc32}

/-- The gadget daemon hands over what is addressed to it, whatever becomes of the other frames. -/
theorem GadgetDaemon.rxQueue_receive (daemon : GadgetDaemon) (data : Bytes) :
    (daemon.receive crc32 data).rxQueue =
      daemon.rxQueue ++ (delivery crc32 daemon.nodeId data).map fun frame ↦ (.fresh 0, frame) := by
  cases hunpack : unpack crc32 data with
  | error error =>
      have hreject (frame : Frame) : unpack crc32 data ≠ .ok frame := by
        rw [hunpack]
        nofun
      rw [receive_rejected crc32 hreject]
      simp [delivery, hunpack]
  | ok frame =>
      by_cases haddressed : Addressed daemon.nodeId frame
      · rw [receive_delivered crc32 hunpack haddressed]
        simp [delivery, hunpack, haddressed]
      · by_cases hlimit : frame.hop.toNat < hopLimit
        · simp only [receive, Function.iterate_succ, Function.iterate_zero, Function.comp_apply,
            id_eq, rxAdvance, rxStep, hunpack, account_eq, haddressed, hlimit, nextSeq, if_true,
            if_false, Option.map_some, Option.getD_some, delivery]
          cases repack crc32 frame daemon.txSeq <;> simp
        · rw [receive_dropped crc32 hunpack haddressed hlimit, account_eq]
          simp [delivery, hunpack, haddressed]

namespace UDFNode

variable (crc32) in
/-- `rxStep` where the loop can go on, nothing where it waits for data or has died. -/
def rxAdvance (loop : RxLoop) (node : UDFNode) : UDFNode :=
  ((node.rxStep crc32 loop).map Prod.fst).getD node

variable (crc32) in
/-- One undisturbed pass of a receive loop over a transfer that it has read. -/
def receive (node : UDFNode) (loop : RxLoop) (data : Bytes) : UDFNode :=
  (rxAdvance crc32 loop)^[4] (node.withRx (.received (.fresh 0) data) loop)

/-- A receive loop that has decided about its frame. -/
def RxThread.Decided : RxThread → Prop
  | .received _ _ | .unpacked _ _ => False
  | .waiting | .numbered _ _ _ | .queued | .dead => True

@[simp]
theorem rx_withRx_self (node : UDFNode) (thread : RxThread) (loop : RxLoop) :
    (node.withRx thread loop).rx loop = thread := by
  cases loop <;> rfl

@[simp]
theorem rxQueue_withRx (node : UDFNode) (thread : RxThread) (loop : RxLoop) :
    (node.withRx thread loop).rxQueue = node.rxQueue := by
  cases loop <;> rfl

/-- Nothing is handed over any more once the decision has been made. -/
theorem rxAdvance_decided {node : UDFNode} {loop : RxLoop} (hdecided : (node.rx loop).Decided) :
    ((rxAdvance crc32 loop node).rx loop).Decided ∧
      (rxAdvance crc32 loop node).rxQueue = node.rxQueue := by
  cases hrx : node.rx loop with
  | received tag data => exact absurd hdecided (by simp [hrx, RxThread.Decided])
  | unpacked tag frame => exact absurd hdecided (by simp [hrx, RxThread.Decided])
  | waiting => simp [rxAdvance, rxStep, hrx, RxThread.Decided]
  | dead => simp [rxAdvance, rxStep, hrx, RxThread.Decided]
  | queued =>
      simp only [rxAdvance, rxStep, hrx]
      cases loop <;> exact ⟨trivial, rfl⟩
  | numbered tag frame seq =>
      simp only [rxAdvance, rxStep, hrx]
      split
      · cases loop <;> exact ⟨trivial, rfl⟩
      · simp [RxThread.Decided]
      · simp [RxThread.Decided]

theorem rxQueue_iterate_decided {node : UDFNode} {loop : RxLoop}
    (hdecided : (node.rx loop).Decided) (count : ℕ) :
    ((rxAdvance crc32 loop)^[count] node).rxQueue = node.rxQueue := by
  induction count generalizing node with
  | zero => rfl
  | succ count ih =>
      obtain ⟨hnext, hqueue⟩ := rxAdvance_decided hdecided
      rw [Function.iterate_succ_apply, ih hnext, hqueue]

/-- The step at which a frame is handed over or not. -/
theorem rxAdvance_unpacked {node : UDFNode} {loop : RxLoop} {tag : Tag} {frame : Frame}
    (hrx : node.rx loop = .unpacked tag frame) :
    ((rxAdvance crc32 loop node).rx loop).Decided ∧
      (rxAdvance crc32 loop node).rxQueue =
        node.rxQueue ++ if Addressed node.nodeId frame then [(tag, frame)] else [] := by
  simp only [rxAdvance, rxStep, hrx]
  split
  · cases loop <;> exact ⟨trivial, rfl⟩
  · rw [List.append_nil]
    unfold forward
    repeat' split
    all_goals cases loop <;> exact ⟨trivial, rfl⟩

/-- A receive loop of the node hands over what is addressed to it. -/
theorem rxQueue_receive (node : UDFNode) (loop : RxLoop) (data : Bytes) :
    (node.receive crc32 loop data).rxQueue =
      node.rxQueue ++ (delivery crc32 node.nodeId data).map fun frame ↦ (.fresh 0, frame) := by
  set reading := node.withRx (.received (.fresh 0) data) loop with hreading
  have hrx : reading.rx loop = .received (.fresh 0) data := rx_withRx_self _ _ _
  cases hunpack : unpack crc32 data with
  | error error =>
      obtain ⟨message, rfl⟩ := unpack_error crc32 hunpack
      have hfirst : rxAdvance crc32 loop reading = reading.withRx .waiting loop := by
        simp [rxAdvance, rxStep, hrx, hunpack]
      have hdecided : ((rxAdvance crc32 loop reading).rx loop).Decided := by
        rw [hfirst, rx_withRx_self]
        trivial
      rw [receive, ← hreading, Function.iterate_succ_apply, rxQueue_iterate_decided hdecided,
        hfirst]
      simp [hreading, delivery, hunpack]
  | ok frame =>
      have hfirst : (rxAdvance crc32 loop reading).rx loop = .unpacked (.fresh 0) frame ∧
          (rxAdvance crc32 loop reading).nodeId = node.nodeId ∧
          (rxAdvance crc32 loop reading).rxQueue = node.rxQueue := by
        simp only [rxAdvance, rxStep, hrx, hunpack]
        cases loop <;> exact ⟨rfl, rfl, rfl⟩
      obtain ⟨hdecided, hqueue⟩ := rxAdvance_unpacked hfirst.1
      rw [receive, ← hreading, Function.iterate_succ_apply, Function.iterate_succ_apply,
        rxQueue_iterate_decided hdecided, hqueue, hfirst.2.1, hfirst.2.2]
      by_cases haddressed : Addressed node.nodeId frame <;> simp [delivery, hunpack, haddressed]

end UDFNode

/-! ## Agreement -/

variable (crc32) in
/-- The four loops hand the same frames over, and only frames addressed to the node. -/
def Agree (daemon : GadgetDaemon) (node : UDFNode) (receiver : HostReceiver) (data : Bytes) :
    Prop :=
  ∃ frames : List FrameTuple,
    (handed daemon.rxQueue (daemon.receive crc32 data).rxQueue).map (·.2.tuple) = frames ∧
    (handed node.rxQueue (node.receive crc32 .gadgetRx data).rxQueue).map (·.2.tuple) = frames ∧
    (handed node.rxQueue (node.receive crc32 .hostRx data).rxQueue).map (·.2.tuple) = frames ∧
    (∃ next, receiver.receive crc32 data = .ok next ∧
      handed receiver.rxQueue next.rxQueue = frames) ∧
    ∀ frame ∈ frames, (frame.dst.toNat : ℤ) = daemon.nodeId ∨ (frame.dst.toNat : ℤ) = broadcast

theorem mem_delivery {nodeId : ℤ} {data : Bytes} :
    ∀ frame ∈ (delivery crc32 nodeId data).map Frame.tuple,
      (frame.dst.toNat : ℤ) = nodeId ∨ (frame.dst.toNat : ℤ) = broadcast := by
  intro tuple htuple
  obtain ⟨frame, hframe, rfl⟩ := List.mem_map.mp htuple
  unfold delivery at hframe
  split at hframe
  · cases hframe
  · split at hframe
    · rename_i haddressed
      rw [List.mem_singleton.mp hframe]
      exact haddressed
    · cases hframe

/-- The loops of the gadget and of the node always agree, so the host's has to agree with them. -/
theorem agree_iff_host (daemon : GadgetDaemon) (node : UDFNode) (receiver : HostReceiver)
    (data : Bytes) (hid : node.nodeId = daemon.nodeId) :
    Agree crc32 daemon node receiver data ↔
      handed receiver.rxQueue (receiver.received crc32 data).rxQueue =
        (delivery crc32 daemon.nodeId data).map Frame.tuple := by
  have hgadget : (handed daemon.rxQueue (daemon.receive crc32 data).rxQueue).map (·.2.tuple) =
      (delivery crc32 daemon.nodeId data).map Frame.tuple := by
    rw [GadgetDaemon.rxQueue_receive, handed_append, List.map_map]
    rfl
  have hnode (loop : RxLoop) :
      (handed node.rxQueue (node.receive crc32 loop data).rxQueue).map (·.2.tuple) =
        (delivery crc32 daemon.nodeId data).map Frame.tuple := by
    rw [UDFNode.rxQueue_receive, handed_append, List.map_map, hid]
    rfl
  unfold Agree
  rw [hgadget, hnode, hnode, HostReceiver.receive_eq]
  constructor
  · rintro ⟨frames, hframes, -, -, ⟨next, hnext, hhost⟩, -⟩
    rw [Except.ok.inj hnext, hhost, hframes]
  · intro hhost
    exact ⟨_, rfl, rfl, rfl, ⟨_, rfl, hhost⟩, mem_delivery⟩

/-- **One delivery rule.** With the same id the four receive loops agree on a transfer exactly if a
frame in it has the HB flag just when it is addressed neither to the node nor to all. -/
theorem agree_iff (daemon : GadgetDaemon) (node : UDFNode) (receiver : HostReceiver) (data : Bytes)
    (hid : node.nodeId = daemon.nodeId) :
    Agree crc32 daemon node receiver data ↔
      ∀ frame, unpack crc32 data = .ok frame →
        (frame.isHeartbeat = true ↔ ¬Addressed daemon.nodeId frame) := by
  rw [agree_iff_host daemon node receiver data hid]
  cases hunpack : unpack crc32 data with
  | error error => simp [HostReceiver.received, delivery, hunpack, handed]
  | ok frame =>
      have hone : (∀ other, (Except.ok frame : Except PyError Frame) = .ok other →
          (other.isHeartbeat = true ↔ ¬Addressed daemon.nodeId other)) ↔
            (frame.isHeartbeat = true ↔ ¬Addressed daemon.nodeId frame) := by
        constructor
        · intro hall
          exact hall frame rfl
        · intro hframe other hother
          cases hother
          exact hframe
      rw [hone]
      simp only [HostReceiver.received, delivery, hunpack, handed_append]
      by_cases haddressed : Addressed daemon.nodeId frame
      · rw [if_pos haddressed]
        cases frame.isHeartbeat with
        | true => exact iff_of_false (by simp) fun hflag ↦ hflag.mp rfl haddressed
        | false => exact iff_of_true rfl ⟨nofun, fun hother ↦ absurd haddressed hother⟩
      · rw [if_neg haddressed]
        cases frame.isHeartbeat with
        | true => exact iff_of_true rfl ⟨fun _ ↦ haddressed, fun _ ↦ rfl⟩
        | false => exact iff_of_false (by simp) fun hflag ↦ nomatch hflag.mpr haddressed

def foreignFrame : Frame where
  flags := 0
  hop := 0
  seq := 0
  src := 1
  dst := 3
  payload := [0x48, 0x69]

theorem agree_iff_foreign :
    Agree Crc32.checksum (.start 3) (.start 3 true true) .start
        (encode Crc32.checksum foreignFrame) ↔
      ∀ frame, unpack Crc32.checksum (encode Crc32.checksum foreignFrame) = .ok frame →
        (frame.isHeartbeat = true ↔ ¬Addressed (GadgetDaemon.start 3).nodeId frame) :=
  agree_iff (.start 3) (.start 3 true true) .start _ rfl

/-- The host daemon of node 2 hands over a frame for node 3, the other loops do not. -/
theorem not_agree_foreign :
    ¬Agree Crc32.checksum (.start 2) (.start 2 true true) .start
      (encode Crc32.checksum foreignFrame) := by
  rintro ⟨frames, hgadget, -, -, ⟨next, hnext, hhost⟩, -⟩
  have hnone : (handed (GadgetDaemon.start 2).rxQueue ((GadgetDaemon.start 2).receive Crc32.checksum
      (encode Crc32.checksum foreignFrame)).rxQueue).map (·.2.tuple) = [] := by
    decide +kernel
  have hone : HostReceiver.start.receive Crc32.checksum (encode Crc32.checksum foreignFrame) =
      .ok { HostReceiver.start with
        rxQueue := [foreignFrame.tuple], rxFrames := 1, rxBytes := 36 } := by
    decide +kernel
  rw [hone] at hnext
  rw [← hgadget, hnone, ← Except.ok.inj hnext] at hhost
  cases hhost

end UsbDirectFabric.Daemon
