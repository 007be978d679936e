import UsbDirectFabric.Daemon.HeartbeatLink
import UsbDirectFabric.Daemon.HostSurvival

/-!
# What the applications at both ends of a cable exchange

A payload that an application gives to `UDFHost.send` goes through the transmit queue and the hands
of `_tx_loop`, down the cable, and through the receive loop of the gadget to its receive queue; one
given to `GadgetDaemon.send` takes the same way up. Heartbeats use the same counters, queue and
endpoints. As long as the payloads have room in the reader's buffer and a transfer is completed or
moves nothing, payloads neither overtake each other nor are they altered or doubled; and if no write
fails either, what has not arrived is still on its way.
-/

namespace UsbDirectFabric.Daemon

open Wire
open scoped List

/-! ## The frames in a transfer that are no heartbeats -/

def dataOf (frame : FrameTuple) : List FrameTuple :=
  if frame.flags &&& flagHb ≠ 0 then [] else [frame]

/-- The frame for an application in a transfer, if there is one. -/
def dataIn (crc32 : Bytes → UInt32) (data : Bytes) : List FrameTuple :=
  match unpack crc32 data with
  | .ok frame => dataOf frame.tuple
  | .error _ => []

def message (frame : FrameTuple) : ℤ × Bytes := (frame.dst.toNat, frame.payload)

variable (crc32 : Bytes → UInt32)

/-- A packed frame that is read in one piece. -/
def Fit (data : Bytes) : Prop :=
  ∃ frame : Frame, data = encode crc32 frame ∧ frame.payload.length ≤ maxPayload

variable {crc32}

theorem dataIn_of_unpack {data : Bytes} {frame : Frame} (hunpack : unpack crc32 data = .ok frame) :
    dataIn crc32 data = dataOf frame.tuple := by
  simp only [dataIn, hunpack]

theorem dataIn_of_reject {data : Bytes} {error : PyError}
    (hreject : unpack crc32 data = .error error) : dataIn crc32 data = [] := by
  simp only [dataIn, hreject]

theorem dataOf_heartbeat {frame : Frame} (hflag : frame.isHeartbeat = true) :
    dataOf frame.tuple = [] := by
  apply if_pos
  simpa [Frame.isHeartbeat, Frame.tuple] using hflag

theorem dataOf_data {frame : Frame} (hflag : frame.isHeartbeat = false) :
    dataOf frame.tuple = [frame.tuple] := by
  apply if_neg
  simpa [Frame.isHeartbeat, Frame.tuple] using hflag

theorem dataIn_heartbeat {data : Bytes} {frame : Frame} (hunpack : unpack crc32 data = .ok frame)
    (hflag : frame.isHeartbeat = true) : dataIn crc32 data = [] := by
  rw [dataIn_of_unpack hunpack, dataOf_heartbeat hflag]

/-- A packed frame unpacks to one with the packed fields. -/
theorem unpack_of_pack {src dst seq flags hop : ℤ} {payload data : Bytes}
    (hpack : pack crc32 src dst seq payload flags hop = .ok data) :
    ∃ frame, unpack crc32 data = .ok frame ∧ (frame.flags.toNat : ℤ) = flags ∧
      message frame.tuple = (dst, payload) := by
  obtain ⟨frame, -, hdst, -, rfl, hflags, -, hlength, rfl⟩ := pack_eq_ok crc32 hpack
  exact ⟨frame, unpack_encode crc32 frame hlength, hflags.symm, by rw [hdst]; rfl⟩

theorem isHeartbeat_of_flags {frame : Frame} {flags : UInt8}
    (hflags : (frame.flags.toNat : ℤ) = flags.toNat) :
    frame.isHeartbeat = (flags &&& flagHb != 0) := by
  have hsame : frame.flags = flags := UInt8.toNat_inj.mp (by exact_mod_cast hflags)
  rw [Frame.isHeartbeat, hsame]

/-- A frame that is packed without flags is one for an application. -/
theorem dataIn_of_pack {src dst seq hop : ℤ} {payload data : Bytes}
    (hpack : pack crc32 src dst seq payload 0 hop = .ok data) :
    ∃ frame, unpack crc32 data = .ok frame ∧ dataIn crc32 data = [frame.tuple] ∧
      message frame.tuple = (dst, payload) := by
  obtain ⟨frame, hunpack, hflags, hmessage⟩ := unpack_of_pack hpack
  have hzero : (frame.flags.toNat : ℤ) = (0 : UInt8).toNat := hflags
  have hnone : frame.isHeartbeat = false := isHeartbeat_of_flags hzero
  refine ⟨frame, hunpack, ?_, hmessage⟩
  rw [dataIn_of_unpack hunpack, dataOf_data hnone]

theorem dataIn_makeHeartbeat {src seq dst : ℤ} {data : Bytes}
    (hpack : makeHeartbeat crc32 src seq dst = .ok data) : dataIn crc32 data = [] := by
  obtain ⟨frame, hunpack, hflags, -⟩ := unpack_of_pack hpack
  exact dataIn_heartbeat hunpack (isHeartbeat_of_flags hflags)

theorem Fit.length_le {data : Bytes} (hfit : Fit crc32 data) : data.length ≤ readSize := by
  obtain ⟨frame, rfl, hpayload⟩ := hfit
  exact (length_encode crc32 frame).trans_le (frame_le_readSize hpayload)

theorem Fit.unpack {data : Bytes} (hfit : Fit crc32 data) :
    ∃ frame, unpack crc32 data = .ok frame := by
  obtain ⟨frame, rfl, hpayload⟩ := hfit
  exact ⟨frame, unpack_encode crc32 frame (lt_of_le_of_lt hpayload (by decide))⟩

theorem Fit.ne_nil {data : Bytes} (hfit : Fit crc32 data) : data ≠ [] := by
  obtain ⟨frame, hunpack⟩ := hfit.unpack
  rintro rfl
  cases hunpack

theorem fit_of_pack {src dst seq flags hop : ℤ} {payload data : Bytes}
    (hpack : pack crc32 src dst seq payload flags hop = .ok data)
    (hpayload : payload.length ≤ maxPayload) : Fit crc32 data := by
  obtain ⟨frame, -, -, -, rfl, -, -, -, rfl⟩ := pack_eq_ok crc32 hpack
  exact ⟨frame, rfl, hpayload⟩

/-! ## The host -/

/-- What the host sends is a heartbeat or goes to all, and its payload has room. -/
structure FromHost (frame : Frame) : Prop where
  dst : frame.isHeartbeat = false → (frame.dst.toNat : ℤ) = broadcast
  payload : frame.payload.length ≤ maxPayload

namespace UDFHost

variable {host next : UDFHost} {action : Action} {passed : List Bytes}

variable (crc32) in
/-- The threads hold what they have packed: `_tx_loop` a frame to all, `_hb_loop` a heartbeat. -/
structure Ready (host : UDFHost) : Prop where
  tx : ∀ seq packet, host.tx = .packed seq packet →
    ∃ frame, dataIn crc32 packet = [frame.tuple] ∧ unpack crc32 packet = .ok frame ∧
      (frame.dst.toNat : ℤ) = broadcast
  hb : ∀ seq packet, host.hb = .packed seq packet →
    ∃ frame, unpack crc32 packet = .ok frame ∧ frame.isHeartbeat = true

theorem ready_start (nodeId : ℤ) : (start nodeId).Ready crc32 where
  tx := by simp [start]
  hb := by simp [start]

theorem sound_start (nodeId : ℤ) : (start nodeId).Sound crc32 where
  queue := by simp [start]
  tx := trivial
  hb := trivial

theorem ready_step (hready : host.Ready crc32)
    (hstep : host.step crc32 action = some (next, passed)) : next.Ready crc32 := by
  obtain ⟨htx, hhb⟩ := hready
  cases step_moves hstep with
  | send => exact ⟨htx, hhb⟩
  | txGet | txNumber | txDie | txCount | txSize => exact ⟨by simp, hhb⟩
  | txPack _ hpack =>
      refine ⟨?_, hhb⟩
      intro _ _ hpacked
      cases hpacked
      obtain ⟨frame, hunpack, hdata, hmessage⟩ := dataIn_of_pack hpack
      exact ⟨frame, hdata, hunpack, (Prod.mk.inj hmessage).1⟩
  | txWrite outcome _ hwrites =>
      obtain ⟨-, -, -, hother, hthread⟩ := bulkWrite_wrote hwrites
      refine ⟨?_, ?_⟩
      · rcases hthread with rfl | ⟨length, rfl⟩ <;> simp
      · simp only [hother]
        exact hhb
  | hbNumber | hbDie | hbCount | hbSize => exact ⟨htx, by simp⟩
  | hbPack _ hpack =>
      refine ⟨htx, ?_⟩
      intro _ _ hpacked
      cases hpacked
      obtain ⟨frame, hunpack, hflags, -⟩ := unpack_of_pack hpack
      exact ⟨frame, hunpack, isHeartbeat_of_flags hflags⟩
  | hbWrite outcome _ hwrites =>
      obtain ⟨-, -, hother, -, hthread⟩ := bulkWrite_wrote hwrites
      refine ⟨?_, ?_⟩
      · simp only [hother]
        exact htx
      · rcases hthread with rfl | ⟨length, rfl⟩ <;> simp

variable (crc32) in
/-- A frame of the host in one piece. -/
def Sending (data : Bytes) : Prop :=
  Fit crc32 data ∧ ∃ frame, unpack crc32 data = .ok frame ∧ FromHost frame

/-- A sound thread's packet that has been unpacked. -/
theorem sending_of_packet {nodeId : ℤ} {seq : ℕ} {packet : Bytes} {frame : Frame}
    (hpacket : IsPacket crc32 nodeId seq packet) (hunpack : unpack crc32 packet = .ok frame)
    (hdst : frame.isHeartbeat = false → (frame.dst.toNat : ℤ) = broadcast) :
    Sending crc32 packet := by
  obtain ⟨other, rfl, -, -, hpayload⟩ := hpacket
  have hother := unpack_encode crc32 other (lt_of_le_of_lt hpayload (by decide))
  refine ⟨⟨other, rfl, hpayload⟩, frame, hunpack, hdst, ?_⟩
  rw [hunpack] at hother
  cases hother
  exact hpayload

/-- A write passes on its packet or nothing. -/
theorem mem_bulkWrite {job : Type} {wrote : UDFHost} {packet data : Bytes} {outcome : Outcome}
    {thread : Thread job} (hwrites : host.bulkWrite packet outcome = (wrote, thread, passed))
    (hdata : data ∈ passed) : data = packet := by
  cases outcome with
  | success =>
      cases hwrites
      exact List.mem_singleton.mp hdata
  | timeout | failure =>
      cases hwrites
      cases hdata

/-- Only frames of the host go down the cable. -/
theorem sending_of_passed (hready : host.Ready crc32) (hsound : host.Sound crc32)
    (hstep : host.step crc32 action = some (next, passed)) :
    ∀ data ∈ passed, Sending crc32 data := by
  intro data hdata
  cases step_moves hstep with
  | send | txGet | txNumber | txPack | txDie | txCount | txSize | hbNumber | hbPack | hbDie
  | hbCount | hbSize => cases hdata
  | txWrite outcome hstands hwrites =>
      obtain ⟨frame, -, hunpack, hdst⟩ := hready.tx _ _ hstands
      have hpacket := hsound.tx
      rw [hstands] at hpacket
      rw [mem_bulkWrite hwrites hdata]
      exact sending_of_packet hpacket hunpack fun _ ↦ hdst
  | hbWrite outcome hstands hwrites =>
      obtain ⟨frame, hunpack, hflag⟩ := hready.hb _ _ hstands
      have hpacket := hsound.hb
      rw [hstands] at hpacket
      rw [mem_bulkWrite hwrites hdata]
      refine sending_of_packet hpacket hunpack fun hnone ↦ ?_
      rw [hflag] at hnone
      cases hnone

/-- A clean step breaks no packet off. -/
theorem broken_of_clean (hclean : Clean action) : host.broken action = [] := by
  cases action with
  | txWrite outcome =>
      have hmoved : outcome.moved = 0 := hclean
      simp only [broken, hmoved, List.take_zero]
      split <;> rfl
  | hbWrite outcome =>
      have hmoved : outcome.moved = 0 := hclean
      simp only [broken, hmoved, List.take_zero]
      split <;> rfl
  | send | txStep | hbStep => rfl

/-- `CanPack` where `_tx_loop` is about to pack. -/
theorem canPack_txStep_iff {payload : Bytes} {seq : ℕ}
    (hstands : host.tx = .numbered payload seq) :
    host.CanPack .txStep ↔
      payload.length < 65536 ∧ seq < 2 ^ 32 ∧ 0 ≤ host.nodeId ∧ host.nodeId < 256 := by
  constructor
  · intro hcan
    exact hcan payload seq hstands
  · intro hfits _ _ hother
    rw [hstands] at hother
    cases hother
    exact hfits

theorem canPack_hbStep_iff {seq : ℕ} (hstands : host.hb = .numbered () seq) :
    host.CanPack .hbStep ↔ seq < 2 ^ 32 ∧ 0 ≤ host.nodeId ∧ host.nodeId < 256 := by
  constructor
  · intro hcan
    exact hcan seq hstands
  · intro hfits _ hother
    rw [hstands] at hother
    cases hother
    exact hfits

instance (host : UDFHost) : ∀ action, Decidable (host.CanPack action)
  | .txStep =>
      match hstands : host.tx with
      | .numbered _ _ => decidable_of_iff' _ (canPack_txStep_iff hstands)
      | .idle | .taken _ | .packed _ _ | .counting _ | .sizing _ | .dead =>
          isTrue fun _ _ hother ↦ nomatch hstands.symm.trans hother
  | .hbStep =>
      match hstands : host.hb with
      | .numbered () _ => decidable_of_iff' _ (canPack_hbStep_iff hstands)
      | .idle | .taken _ | .packed _ _ | .counting _ | .sizing _ | .dead =>
          isTrue fun _ hother ↦ nomatch hstands.symm.trans hother
  | .send _ | .txWrite _ | .hbWrite _ => isTrue trivial

/-- The payloads in the host, those that leave it in the step first. -/
def pending (crc32 : Bytes → UInt32) (passed : List Bytes) (host : UDFHost) : List Bytes :=
  (passed.flatMap (dataIn crc32)).map FrameTuple.payload ++ (host.inHand crc32 ++ host.txQueue)

theorem inHand_packed {seq : ℕ} {packet : Bytes} {frame : Frame}
    (hstands : host.tx = .packed seq packet) (hunpack : unpack crc32 packet = .ok frame) :
    host.inHand crc32 = [frame.payload] := by
  simp [inHand, hstands, payloadOf, hunpack, Except.toOption]

/-- A write leaves the queue alone and passes the packet on or not. -/
theorem pending_txWrite {seq : ℕ} {packet : Bytes} {frame : Frame} {outcome : Outcome}
    {wrote : UDFHost} {thread : Thread Bytes} (hstands : host.tx = .packed seq packet)
    (hunpack : unpack crc32 packet = .ok frame) (hdata : dataIn crc32 packet = [frame.tuple])
    (hwrites : host.bulkWrite packet outcome = (wrote, thread, passed)) :
    { wrote with tx := thread }.pending crc32 passed <+ host.pending crc32 [] ∧
      (outcome = .success →
        { wrote with tx := thread }.pending crc32 passed = host.pending crc32 []) := by
  have hbefore : host.pending crc32 [] = frame.payload :: host.txQueue := by
    rw [pending, inHand_packed hstands hunpack]
    rfl
  rw [hbefore]
  cases outcome with
  | timeout | failure =>
      cases hwrites
      constructor
      · simp [pending, inHand]
      · intro hsuccess
        cases hsuccess
  | success =>
      cases hwrites
      have hafter : { host with tx := .counting packet.length }.pending crc32 [packet] =
          frame.payload :: host.txQueue := by
        simp [pending, inHand, hdata, Frame.tuple]
      rw [hafter]
      exact ⟨List.Sublist.refl _, fun _ ↦ rfl⟩

/-- A step of the host moves payloads on and takes in new ones; it loses some only if a write fails
or packing raises an exception. -/
theorem pending_step (hready : host.Ready crc32)
    (hstep : host.step crc32 action = some (next, passed)) :
    next.pending crc32 passed <+ host.pending crc32 [] ++ action.sending ∧
      (Fits action → host.CanPack action →
        next.pending crc32 passed = host.pending crc32 [] ++ action.sending) := by
  have hkept (hequal : next.pending crc32 passed = host.pending crc32 [] ++ action.sending) :
      next.pending crc32 passed <+ host.pending crc32 [] ++ action.sending ∧
        (Fits action → host.CanPack action →
          next.pending crc32 passed = host.pending crc32 [] ++ action.sending) :=
    ⟨hequal ▸ List.Sublist.refl _, fun _ _ ↦ hequal⟩
  cases step_moves hstep with
  | send => exact hkept (by simp [pending, inHand, Action.sending, UDFHost.send])
  | txGet hstands hwaits =>
      exact hkept (by simp [pending, inHand, hstands, hwaits, Action.sending])
  | txNumber hstands | txCount hstands | txSize hstands =>
      exact hkept (by simp [pending, inHand, hstands, Action.sending])
  | txPack hstands hpack =>
      exact hkept (by simp [pending, inHand, hstands, payloadOf_of_pack hpack, Action.sending])
  | @txDie payload seq error hstands hpack =>
      refine ⟨by simp [pending, inHand, hstands, Action.sending], ?_⟩
      intro _ hcan
      obtain ⟨packet, hpacket⟩ := packFrame_eq_ok_iff.mpr (hcan payload seq hstands)
      rw [hpack] at hpacket
      cases hpacket
  | @txWrite seq packet outcome _ _ _ hstands hwrites =>
      obtain ⟨frame, hdata, hunpack, -⟩ := hready.tx _ _ hstands
      obtain ⟨hsublist, hequal⟩ := pending_txWrite hstands hunpack hdata hwrites
      have hnone : Action.sending (.txWrite outcome) = [] := rfl
      rw [hnone, List.append_nil]
      exact ⟨hsublist, fun hfits _ ↦ hequal hfits⟩
  | hbNumber | hbPack | hbDie | hbCount | hbSize =>
      exact hkept (by simp [pending, inHand, Action.sending])
  | @hbWrite seq packet outcome _ _ _ hstands hwrites =>
      obtain ⟨frame, hunpack, hflag⟩ := hready.hb _ _ hstands
      have hnone := dataIn_heartbeat hunpack hflag
      cases outcome with
      | success | timeout | failure =>
          cases hwrites
          exact hkept (by simp [pending, inHand, Action.sending, hnone])

end UDFHost

/-! ## The gadget -/

namespace GadgetDaemon

variable {daemon next : GadgetDaemon} {effect : Effect}

variable (crc32) in
/-- What `_rx_loop` is working on came from the host, and it forwards nothing but heartbeats. -/
def RxThread.FromHost : RxThread → Prop
  | .received _ data | .sized _ data =>
      ∃ frame, unpack crc32 data = .ok frame ∧ Daemon.FromHost frame
  | .accounted _ frame => Daemon.FromHost frame
  | .numbered _ frame _ =>
      Daemon.FromHost frame ∧ frame.isHeartbeat = true ∧ frame.hop.toNat < hopLimit
  | .waiting | .dead => True

variable (crc32) in
/-- The frame for the application that `_rx_loop` is working on. -/
def RxThread.data : RxThread → List FrameTuple
  | .received _ data | .sized _ data => dataIn crc32 data
  | .accounted _ frame => dataOf frame.tuple
  | .waiting | .numbered _ _ _ | .dead => []

/-- The frames on the receive queue that are no heartbeats. -/
def delivered (daemon : GadgetDaemon) : List FrameTuple :=
  daemon.rxQueue.flatMap fun item ↦ dataOf item.2.tuple

/-- A frame of the host that is not for the gadget is a heartbeat. -/
theorem isHeartbeat_of_fromHost {frame : Frame} (hfrom : Daemon.FromHost frame)
    (hother : ¬Addressed daemon.nodeId frame) : frame.isHeartbeat = true := by
  by_contra hflag
  exact hother (.inr (hfrom.dst (Bool.eq_false_iff.mpr hflag)))

theorem fromHost_step {number : ℕ} {action : Action} (hfrom : daemon.rx.FromHost crc32)
    (hstep : daemon.step crc32 number action = some (next, effect)) :
    next.rx.FromHost crc32 := by
  cases step_moves hstep with
  | size hrx =>
      rw [hrx] at hfrom
      exact hfrom
  | account hrx hunpack =>
      rw [hrx] at hfrom
      obtain ⟨frame, hframe, hhost⟩ := hfrom
      rw [hunpack] at hframe
      cases hframe
      exact hhost
  | number hrx hother hlimit =>
      rw [hrx] at hfrom
      exact ⟨hfrom, isHeartbeat_of_fromHost hfrom hother, hlimit⟩
  | reject | deliver | drop | forward | rxDie => trivial
  | txGet | txWhole | txPiece | txFail | txFinish | txFinishPieces | hbNumber | hbPut | hbDie | send
  | sendPut | sendRaise => exact hfrom

/-- What the gadget reads in one piece comes from the host if the transfer does. -/
theorem fromHost_read {tag : Tag} {data : Bytes} (hfrom : daemon.rx.FromHost crc32)
    (hdata : UDFHost.Sending crc32 data) (hread : daemon.read tag data = some (next, effect)) :
    next.rx.FromHost crc32 := by
  obtain ⟨-, ⟨-, rfl, -⟩ | ⟨-, rfl, -⟩⟩ := read_cases hread
  · exact hfrom
  · obtain ⟨hfit, frame, hunpack, hhost⟩ := hdata
    refine ⟨frame, ?_, hhost⟩
    rw [List.take_of_length_le hfit.length_le, hunpack]

/-- The gadget hands over what the host has sent, and loses nothing of it. -/
theorem delivered_step {number : ℕ} {action : Action} (hfrom : daemon.rx.FromHost crc32)
    (hstep : daemon.step crc32 number action = some (next, effect)) :
    next.delivered ++ next.rx.data crc32 = daemon.delivered ++ daemon.rx.data crc32 := by
  cases step_moves hstep with
  | size hrx => simp [delivered, hrx, RxThread.data]
  | account hrx hunpack =>
      simp [account_eq, delivered, hrx, RxThread.data, dataIn_of_unpack hunpack]
  | reject hrx hreject => simp [delivered, hrx, RxThread.data, dataIn_of_reject hreject]
  | deliver hrx => simp [delivered, hrx, RxThread.data]
  | number hrx hother =>
      rw [hrx] at hfrom
      have hnone := dataOf_heartbeat (isHeartbeat_of_fromHost hfrom hother)
      simp [delivered, hrx, RxThread.data, hnone]
  | drop hrx hother =>
      rw [hrx] at hfrom
      have hnone := dataOf_heartbeat (isHeartbeat_of_fromHost hfrom hother)
      simp [delivered, hrx, RxThread.data, hnone]
  | forward hrx => simp [delivered, hrx, RxThread.data]
  | rxDie hrx => simp [delivered, hrx, RxThread.data]
  | txGet | txWhole | txPiece | txFail | txFinish | txFinishPieces | hbNumber | hbPut | hbDie | send
  | sendPut | sendRaise => rfl

/-- A read takes the frame out of the transfer. -/
theorem delivered_read {tag : Tag} {data : Bytes} (hroom : data.length ≤ readSize)
    (hread : daemon.read tag data = some (next, effect)) :
    next.delivered ++ next.rx.data crc32 =
      daemon.delivered ++ daemon.rx.data crc32 ++ dataIn crc32 data := by
  obtain ⟨hwaiting, ⟨rfl, rfl, -⟩ | ⟨-, rfl, -⟩⟩ := read_cases hread
  · have hnone : dataIn crc32 [] = [] := rfl
    rw [hnone, List.append_nil]
  · simp [delivered, hwaiting, RxThread.data, List.take_of_length_le hroom]

/-! ### The way up -/

/-- The frame for the host's application that `_tx_loop` has in hand. -/
def TxThread.data (crc32 : Bytes → UInt32) : TxThread → List FrameTuple
  | .writing _ data _ => dataIn crc32 data
  | .waiting | .sent _ => []

/-- The frames for the host's application in the gadget, those that leave it in the step first. -/
def pending (crc32 : Bytes → UInt32) (passed : List Bytes) (daemon : GadgetDaemon) :
    List FrameTuple :=
  passed.flatMap (dataIn crc32) ++ (daemon.tx.data crc32 ++
    daemon.txQueue.flatMap fun item ↦ dataIn crc32 item.2)

def posted : Effect → List (ℤ × Bytes)
  | .created (.send dst payload) _ => [(dst, payload)]
  | _ => []

def TxThread.Whole (accepted : ℕ) : TxThread → Prop
  | .writing _ data written => written = 0 ∧ accepted = data.length
  | .waiting | .sent _ => True

instance (accepted : ℕ) : ∀ thread : TxThread, Decidable (thread.Whole accepted)
  | .writing _ _ _ => inferInstanceAs (Decidable (_ ∧ _))
  | .waiting | .sent _ => isTrue trivial

/-- No frame is cut, and each payload that is sent has room in the reader's buffer. -/
def Whole (daemon : GadgetDaemon) : Action → Prop
  | .txWrite accepted => daemon.tx.Whole accepted
  | .sendPut index => ∀ sender ∈ daemon.senders[index]?, sender.payload.length ≤ maxPayload
  | _ => True

instance (daemon : GadgetDaemon) : ∀ action, Decidable (daemon.Whole action)
  | .txWrite accepted => inferInstanceAs (Decidable (daemon.tx.Whole accepted))
  | .sendPut index => inferInstanceAs
      (Decidable (∀ sender ∈ daemon.senders[index]?, sender.payload.length ≤ maxPayload))
  | .rxStep | .txGet | .txFail | .txFinish | .hbStep | .send _ _ => isTrue trivial

variable (crc32) in
/-- The gadget has frames to send that are read in one piece, and has written nothing of the one in
hand. -/
structure Fits (daemon : GadgetDaemon) : Prop where
  queue : ∀ item ∈ daemon.txQueue, Fit crc32 item.2
  sending : ∀ tag data written, daemon.tx = .writing tag data written →
    written = 0 ∧ Fit crc32 data

theorem fits_start (nodeId : ℤ) : (start nodeId).Fits crc32 where
  queue := by simp [start]
  sending := by simp [start]

theorem Fits.put {tag : Tag} {data : Bytes} (hfits : daemon.Fits crc32) (hdata : Fit crc32 data)
    (hqueue : next.txQueue = daemon.txQueue ++ [(tag, data)]) (htx : next.tx = daemon.tx) :
    next.Fits crc32 where
  queue := by
    intro item hitem
    rw [hqueue] at hitem
    rcases List.mem_append.mp hitem with hold | hnew
    · exact hfits.queue item hold
    · rw [List.mem_singleton.mp hnew]
      exact hdata
  sending := by
    rw [htx]
    exact hfits.sending

/-- As long as no frame is cut and payloads have room, what the gadget writes is read in one
piece. -/
theorem fits_step {number : ℕ} {action : Action} (hfits : daemon.Fits crc32)
    (hfrom : daemon.rx.FromHost crc32) (hwhole : daemon.Whole action)
    (hstep : daemon.step crc32 number action = some (next, effect)) :
    next.Fits crc32 ∧ ∀ data ∈ effect.passed, Fit crc32 data := by
  have hnone : ∀ data ∈ ([] : List Bytes), Fit crc32 data := by simp
  obtain ⟨hqueue, hsending⟩ := hfits
  cases step_moves hstep with
  | size | reject | deliver | number | drop | rxDie | hbNumber | hbDie | send | sendRaise =>
      exact ⟨⟨hqueue, hsending⟩, hnone⟩
  | account =>
      rw [account_eq]
      exact ⟨⟨hqueue, hsending⟩, hnone⟩
  | forward hstands hrepack =>
      rw [hstands] at hfrom
      exact ⟨.put ⟨hqueue, hsending⟩ (fit_of_pack hrepack hfrom.1.payload) rfl rfl, hnone⟩
  | hbPut _ hpack =>
      exact ⟨.put ⟨hqueue, hsending⟩ (fit_of_pack hpack (Nat.zero_le _)) rfl rfl, hnone⟩
  | @sendPut index sender data hstands hpack =>
      exact ⟨.put ⟨hqueue, hsending⟩ (fit_of_pack hpack (hwhole sender hstands)) rfl rfl, hnone⟩
  | @txGet tag data rest hstands hwaits =>
      rw [hwaits] at hqueue
      refine ⟨⟨fun item hitem ↦ hqueue item (List.mem_cons_of_mem _ hitem), ?_⟩, hnone⟩
      intro _ _ _ hwriting
      cases hwriting
      exact ⟨rfl, hqueue _ List.mem_cons_self⟩
  | @txWhole tag data hstands =>
      refine ⟨⟨hqueue, by simp⟩, ?_⟩
      intro other hother
      rw [List.mem_singleton.mp hother]
      exact (hsending tag data 0 hstands).2
  | txPiece hstands hroom hpart =>
      simp only [Whole, hstands] at hwhole
      exact absurd hwhole hpart
  | txFail | txFinish | txFinishPieces => exact ⟨⟨hqueue, by simp⟩, hnone⟩

/-- A read changes nothing that is on its way up. -/
theorem up_read {tag : Tag} {data : Bytes} (hread : daemon.read tag data = some (next, effect)) :
    next.txQueue = daemon.txQueue ∧ next.tx = daemon.tx := by
  obtain ⟨-, ⟨-, rfl, -⟩ | ⟨-, rfl, -⟩⟩ := read_cases hread
  · exact ⟨rfl, rfl⟩
  · exact ⟨rfl, rfl⟩

/-- A forwarded heartbeat of the host is nothing for an application. -/
theorem dataIn_of_repack {frame : Frame} {seq : ℕ} {data : Bytes}
    (hflag : frame.isHeartbeat = true) (hlimit : frame.hop.toNat < hopLimit)
    (hrepack : repack crc32 frame seq = .ok data) : dataIn crc32 data = [] := by
  obtain ⟨rfl, hlength⟩ := unpack_repack crc32 hlimit hrepack
  have hunpack := unpack_encode crc32 (relayed frame seq) hlength
  exact dataIn_heartbeat hunpack ((isHeartbeat_relayed frame seq).trans hflag)

/-- As long as no frame is cut a step of the gadget moves messages on and takes in new ones; it
loses one only if a write fails. -/
theorem pending_step {number : ℕ} {action : Action} (hfrom : daemon.rx.FromHost crc32)
    (hfits : daemon.Fits crc32) (hwhole : daemon.Whole action)
    (hstep : daemon.step crc32 number action = some (next, effect)) :
    (next.pending crc32 effect.passed).map message <+
        (daemon.pending crc32 []).map message ++ posted effect ∧
      (action ≠ .txFail → (next.pending crc32 effect.passed).map message =
        (daemon.pending crc32 []).map message ++ posted effect) := by
  have hkept (hequal : (next.pending crc32 effect.passed).map message =
      (daemon.pending crc32 []).map message ++ posted effect) :
      (next.pending crc32 effect.passed).map message <+
          (daemon.pending crc32 []).map message ++ posted effect ∧
        (action ≠ .txFail → (next.pending crc32 effect.passed).map message =
          (daemon.pending crc32 []).map message ++ posted effect) :=
    ⟨hequal ▸ List.Sublist.refl _, fun _ ↦ hequal⟩
  cases step_moves hstep with
  | size | reject | deliver | number | drop | rxDie =>
      exact hkept (by simp [pending, Effect.passed, posted])
  | account => exact hkept (by simp [account_eq, pending, Effect.passed, posted])
  | forward hrx hrepack =>
      rw [hrx] at hfrom
      have hnone := dataIn_of_repack hfrom.2.1 hfrom.2.2 hrepack
      exact hkept (by simp [pending, Effect.passed, posted, hnone])
  | txGet hstands hwaits =>
      exact hkept (by simp [pending, Effect.passed, posted, hstands, hwaits, TxThread.data])
  | txWhole hstands =>
      exact hkept (by simp [pending, Effect.passed, posted, hstands, TxThread.data])
  | txPiece hstands hroom hpart =>
      simp only [Whole, hstands] at hwhole
      exact absurd hwhole hpart
  | txFail hstands =>
      refine ⟨?_, fun hgoes ↦ absurd rfl hgoes⟩
      simp [pending, Effect.passed, posted, TxThread.data]
  | txFinish hstands =>
      exact hkept (by simp [pending, Effect.passed, posted, hstands, TxThread.data])
  | txFinishPieces hstands =>
      obtain ⟨hzero, hfit⟩ := hfits.sending _ _ _ hstands
      exact absurd (List.length_eq_zero_iff.mp hzero) hfit.ne_nil
  | hbNumber | hbDie | send | sendRaise =>
      exact hkept (by simp [pending, Effect.passed, posted])
  | hbPut hstands hpack =>
      have hnone := dataIn_makeHeartbeat hpack
      exact hkept (by simp [pending, Effect.passed, posted, hnone])
  | sendPut hstands hpack =>
      obtain ⟨frame, hunpack, hdata, hmessage⟩ := dataIn_of_pack hpack
      exact hkept (by simp [pending, Effect.passed, posted, hdata, hmessage])

end GadgetDaemon

namespace HostReceiver

variable (crc32) in
/-- The frame for the application that `_rx_loop` is working on. -/
def RxThread.data : RxThread → List FrameTuple
  | .received data => dataIn crc32 data
  | .counted _ frame | .sized frame => dataOf frame
  | .reading | .dead => []

/-- The host puts on its queue what it has read, heartbeats apart. -/
theorem data_step {receiver next : HostReceiver} {thread after : RxThread}
    (hstep : receiver.rxStep crc32 thread = some (next, after)) :
    next.rxQueue ++ after.data crc32 = receiver.rxQueue ++ thread.data crc32 := by
  cases rxStep_moves hstep with
  | reject hreject => simp [RxThread.data, dataIn_of_reject hreject]
  | count hunpack => simp [RxThread.data, dataIn_of_unpack hunpack]
  | size => rfl
  | heartbeat hflag => simp [RxThread.data, dataOf, hflag]
  | queue hflag => simp [RxThread.data, dataOf, hflag]

/-- Only a read brings a new transfer. -/
theorem ne_received_of_step {receiver next : HostReceiver} {thread after : RxThread}
    (hstep : receiver.rxStep crc32 thread = some (next, after)) (data : Bytes) :
    after ≠ .received data := by
  cases rxStep_moves hstep with
  | reject | count | size | heartbeat | queue => nofun

end HostReceiver

/-! ## Both ends -/

namespace Cable

variable {cable next : Cable} {action : Action}

/-- The payloads have room, and what the host does not write it does not begin. -/
def CleanDown : Action → Prop
  | .host action => UDFHost.Clean action
  | .hostRead _ | .hostStep | .gadgetRead | .gadget _ | .gadgetBreak _ => True

/-- No write of the host fails, and what it packs fits. -/
def SmoothDown (cable : Cable) : Action → Prop
  | .host action => UDFHost.Fits action ∧ cable.host.CanPack action
  | .hostRead _ | .hostStep | .gadgetRead | .gadget _ | .gadgetBreak _ => True

/-- On both ways payloads have room, and a transfer is completed or moves nothing. -/
def WholeUp (cable : Cable) : Action → Prop
  | .host action => UDFHost.Clean action
  | .hostRead outcome => outcome.moved = 0
  | .gadget action => cable.gadget.Whole action
  | .gadgetBreak _ => False
  | .hostStep | .gadgetRead => True

def SmoothUp (cable : Cable) (action : Action) : Prop :=
  cable.WholeUp action ∧ action ≠ .gadget .txFail

instance (cable : Cable) : ∀ action, Decidable (cable.SmoothDown action)
  | .host action => inferInstanceAs (Decidable (UDFHost.Fits action ∧ cable.host.CanPack action))
  | .hostRead _ | .hostStep | .gadgetRead | .gadget _ | .gadgetBreak _ => isTrue trivial

instance (cable : Cable) : ∀ action, Decidable (cable.WholeUp action)
  | .host action => inferInstanceAs (Decidable (UDFHost.Clean action))
  | .hostRead outcome => inferInstanceAs (Decidable (outcome.moved = 0))
  | .gadget action => inferInstanceAs (Decidable (cable.gadget.Whole action))
  | .gadgetBreak _ => isFalse id
  | .hostStep | .gadgetRead => isTrue trivial

instance (cable : Cable) (action : Action) : Decidable (cable.SmoothUp action) :=
  inferInstanceAs (Decidable (_ ∧ _))

theorem SmoothDown.clean (hsmooth : cable.SmoothDown action) : CleanDown action := by
  cases action with
  | host action => exact hsmooth.1.clean
  | hostRead | hostStep | gadgetRead | gadget | gadgetBreak => trivial

theorem WholeUp.clean (hwhole : cable.WholeUp action) : CleanDown action := by
  cases action with
  | host action => exact hwhole
  | hostRead | hostStep | gadgetRead | gadget | gadgetBreak => trivial

/-! ### Down -/

variable (crc32) in
/-- What is in the host's threads, on the cable and in the gadget's receive loop comes from the
host, and is read in one piece. -/
structure Ready (cable : Cable) : Prop where
  host : cable.host.Ready crc32
  sound : cable.host.Sound crc32
  pipe : cable.down.Fits readSize
  down : ∀ data ∈ cable.down.whole, UDFHost.Sending crc32 data
  rx : cable.gadget.rx.FromHost crc32

theorem ready_start (hostId gadgetId : ℤ) : (start hostId gadgetId).Ready crc32 where
  host := UDFHost.ready_start hostId
  sound := UDFHost.sound_start hostId
  pipe := TransferPipe.fits_empty
  down := by simp [start, TransferPipe.empty]
  rx := trivial

/-- A clean step of the host puts what it passes on onto the cable. -/
theorem host_cases {action : UDFHost.Action} (hready : cable.Ready crc32)
    (hclean : UDFHost.Clean action) (hstep : cable.step crc32 (.host action) = some next) :
    ∃ host passed, cable.host.step crc32 action = some (host, passed) ∧
      next = { cable with host := host, down := cable.down.writes passed } ∧
      (cable.down.writes passed).Fits readSize ∧
      (cable.down.writes passed).whole = cable.down.whole ++ passed ∧
      ∀ data ∈ passed, UDFHost.Sending crc32 data := by
  obtain ⟨⟨host, passed⟩, hmove, rfl⟩ := Option.map_eq_some_iff.mp hstep
  have hsending := UDFHost.sending_of_passed hready.host hready.sound hmove
  have hfits : (cable.down.writes passed).Fits readSize :=
    hready.pipe.writes fun data hdata ↦ (hsending data hdata).1.length_le
  rw [UDFHost.broken_of_clean hclean, TransferPipe.breakOff_nil]
  exact ⟨host, passed, hmove, rfl, hfits, (TransferPipe.whole_writes hready.pipe.closed _).2,
    hsending⟩

/-- The gadget reads the first transfer as it is. -/
theorem gadgetRead_cases (hready : cable.Ready crc32)
    (hstep : cable.step crc32 .gadgetRead = some next) :
    ∃ data gadget effect down, cable.gadget.read (.fresh 0) data = some (gadget, effect) ∧
      next = { cable with gadget := gadget, down := down } ∧
      cable.down.whole = data :: down.whole ∧ down.Fits readSize := by
  simp only [step] at hstep
  split at hstep
  · cases hstep
  · rename_i data hfront
    obtain ⟨⟨gadget, effect⟩, hread, rfl⟩ := Option.map_eq_some_iff.mp hstep
    obtain ⟨hwhole, hfits⟩ := hready.pipe.read (by decide) hfront
    exact ⟨data, gadget, effect, cable.down.take readSize, hread, rfl, hwhole, hfits⟩

/-- The rest of a step's cases: a step that leaves the host's sending threads, the way down and the
gadget's receive side alone. -/
structure Apart (cable next : Cable) : Prop where
  host : ∃ timeouts, next.host = { cable.host with timeouts := timeouts }
  down : next.down = cable.down
  rx : next.gadget.rx = cable.gadget.rx
  rxQueue : next.gadget.rxQueue = cable.gadget.rxQueue

theorem apart_hostRead {outcome : UDFHost.Outcome}
    (hread : cable.hostRead outcome = some next) : cable.Apart next := by
  obtain ⟨-, -, hdown, -, hgadget, -, hhost, -⟩ := hostRead_cases hread
  exact ⟨hhost, hdown, by rw [hgadget], by rw [hgadget]⟩

theorem apart_hostStep (hstep : cable.step crc32 .hostStep = some next) : cable.Apart next := by
  obtain ⟨_, -, rfl⟩ := Option.map_eq_some_iff.mp hstep
  exact ⟨⟨_, rfl⟩, rfl, rfl, rfl⟩

/-- A write that is broken off changes only what `_tx_loop` holds and the way up. -/
theorem gadgetBreak_cases {accepted : ℕ}
    (hstep : cable.step crc32 (.gadgetBreak accepted) = some next) :
    ∃ tx up, next = { cable with gadget := { cable.gadget with tx := tx }, up := up } := by
  simp only [step] at hstep
  split at hstep
  · rename_i gadget piece _ hwrite
    cases hstep
    have hmove : GadgetDaemon.Move crc32 0 cable.gadget (.txWrite accepted) gadget _ :=
      GadgetDaemon.txWrite_moves hwrite
    cases hmove
    exact ⟨_, _, rfl⟩
  · cases hstep

theorem apart_gadgetBreak {accepted : ℕ}
    (hstep : cable.step crc32 (.gadgetBreak accepted) = some next) : cable.Apart next := by
  obtain ⟨tx, up, rfl⟩ := gadgetBreak_cases hstep
  exact ⟨⟨_, rfl⟩, rfl, rfl, rfl⟩

theorem Ready.apart (hready : cable.Ready crc32) (hapart : cable.Apart next) :
    next.Ready crc32 := by
  obtain ⟨⟨timeouts, hhost⟩, hdown, hrx, -⟩ := hapart
  refine ⟨?_, ?_, hdown ▸ hready.pipe, hdown ▸ hready.down, hrx ▸ hready.rx⟩
  · rw [hhost]
    exact ⟨hready.host.tx, hready.host.hb⟩
  · rw [hhost]
    exact ⟨hready.sound.queue, hready.sound.tx, hready.sound.hb⟩

theorem ready_step (hready : cable.Ready crc32) (hclean : CleanDown action)
    (hstep : cable.step crc32 action = some next) : next.Ready crc32 := by
  cases action with
  | host action =>
      obtain ⟨host, passed, hmove, rfl, hfits, hwhole, hsending⟩ :=
        host_cases hready hclean hstep
      refine ⟨UDFHost.ready_step hready.host hmove, UDFHost.sound_step hready.sound hclean hmove,
        hfits, ?_, hready.rx⟩
      intro data hdata
      rw [hwhole] at hdata
      exact (List.mem_append.mp hdata).elim (hready.down data) (hsending data)
  | gadget action =>
      obtain ⟨⟨gadget, effect⟩, hmove, rfl⟩ := Option.map_eq_some_iff.mp hstep
      obtain ⟨hhost, hsound, hpipe, hdown, hrx⟩ := hready
      exact ⟨hhost, hsound, hpipe, hdown, GadgetDaemon.fromHost_step hrx hmove⟩
  | gadgetRead =>
      obtain ⟨data, gadget, effect, down, hread, rfl, hwhole, hfits⟩ :=
        gadgetRead_cases hready hstep
      obtain ⟨hhost, hsound, hpipe, hdown, hrx⟩ := hready
      rw [hwhole] at hdown
      refine ⟨hhost, hsound, hfits, fun item hitem ↦ hdown item (List.mem_cons_of_mem _ hitem), ?_⟩
      exact GadgetDaemon.fromHost_read hrx (hdown data List.mem_cons_self) hread
  | hostRead outcome => exact hready.apart (apart_hostRead hstep)
  | hostStep => exact hready.apart (apart_hostStep hstep)
  | gadgetBreak accepted => exact hready.apart (apart_gadgetBreak hstep)

def giving : Action → List Bytes
  | .host action => action.sending
  | .hostRead _ | .hostStep | .gadgetRead | .gadget _ | .gadgetBreak _ => []

/-- The payloads on the gadget's receive queue, heartbeats apart. -/
def arrived (cable : Cable) : List Bytes := cable.gadget.delivered.map FrameTuple.payload

variable (crc32) in
/-- The payloads on their way down, the first one nearest to the gadget's receive queue. -/
def underway (cable : Cable) : List Bytes :=
  (cable.gadget.rx.data crc32 ++ cable.down.whole.flatMap (dataIn crc32)).map FrameTuple.payload ++
    cable.host.pending crc32 []

theorem underway_apart (hapart : cable.Apart next) :
    next.arrived ++ next.underway crc32 = cable.arrived ++ cable.underway crc32 := by
  obtain ⟨⟨timeouts, hhost⟩, hdown, hrx, hqueue⟩ := hapart
  simp only [arrived, underway, GadgetDaemon.delivered, hhost, hdown, hrx, hqueue]
  rfl

/-- A clean step moves payloads on towards the gadget's receive queue. -/
theorem underway_step (hready : cable.Ready crc32) (hclean : CleanDown action)
    (hstep : cable.step crc32 action = some next) :
    next.arrived ++ next.underway crc32 <+
        cable.arrived ++ cable.underway crc32 ++ giving action ∧
      (cable.SmoothDown action → next.arrived ++ next.underway crc32 =
        cable.arrived ++ cable.underway crc32 ++ giving action) := by
  have hkept (hnone : giving action = [])
      (hequal : next.arrived ++ next.underway crc32 = cable.arrived ++ cable.underway crc32) :
      next.arrived ++ next.underway crc32 <+
          cable.arrived ++ cable.underway crc32 ++ giving action ∧
        (cable.SmoothDown action → next.arrived ++ next.underway crc32 =
          cable.arrived ++ cable.underway crc32 ++ giving action) := by
    rw [hnone, List.append_nil, hequal]
    exact ⟨List.Sublist.refl _, fun _ ↦ rfl⟩
  cases action with
  | host action =>
      obtain ⟨host, passed, hmove, rfl, -, hwhole, -⟩ := host_cases hready hclean hstep
      obtain ⟨hsublist, hequal⟩ := UDFHost.pending_step hready.host hmove
      have hafter : { cable with host := host, down := cable.down.writes passed }.arrived ++
          { cable with host := host, down := cable.down.writes passed }.underway crc32 =
          (cable.gadget.delivered ++ (cable.gadget.rx.data crc32 ++
            cable.down.whole.flatMap (dataIn crc32))).map FrameTuple.payload ++
            host.pending crc32 passed := by
        simp only [arrived, underway, UDFHost.pending, hwhole]
        simp
      have hbefore : cable.arrived ++ cable.underway crc32 ++ giving (.host action) =
          (cable.gadget.delivered ++ (cable.gadget.rx.data crc32 ++
            cable.down.whole.flatMap (dataIn crc32))).map FrameTuple.payload ++
            (cable.host.pending crc32 [] ++ action.sending) := by
        simp [arrived, underway, giving]
      rw [hafter, hbefore]
      refine ⟨hsublist.append_left _, ?_⟩
      intro hsmooth
      rw [hequal hsmooth.1 hsmooth.2]
  | gadget action =>
      obtain ⟨⟨gadget, effect⟩, hmove, rfl⟩ := Option.map_eq_some_iff.mp hstep
      have hdelivered := GadgetDaemon.delivered_step hready.rx hmove
      apply hkept rfl
      simp only [arrived, underway, ← List.append_assoc, ← List.map_append, hdelivered]
  | gadgetRead =>
      obtain ⟨data, gadget, effect, down, hread, rfl, hwhole, -⟩ := gadgetRead_cases hready hstep
      have hroom : data.length ≤ readSize := hready.pipe.whole data (by simp [hwhole])
      have hdelivered : gadget.delivered ++ gadget.rx.data crc32 =
          cable.gadget.delivered ++ cable.gadget.rx.data crc32 ++ dataIn crc32 data :=
        GadgetDaemon.delivered_read hroom hread
      apply hkept rfl
      simp only [arrived, underway, ← List.append_assoc, ← List.map_append, hdelivered, hwhole,
        List.flatMap_cons]
  | hostRead outcome => exact hkept rfl (underway_apart (apart_hostRead hstep))
  | hostStep => exact hkept rfl (underway_apart (apart_hostStep hstep))
  | gadgetBreak accepted => exact hkept rfl (underway_apart (apart_gadgetBreak hstep))

/-! ### Up -/

variable (crc32) in
/-- What is on its way up is read in one piece. -/
structure ReadyUp (cable : Cable) : Prop where
  down : cable.Ready crc32
  gadget : cable.gadget.Fits crc32
  pipe : cable.up.Fits readSize
  up : ∀ data ∈ cable.up.whole, Fit crc32 data
  rx : ∀ data, cable.rx = .received data → Fit crc32 data

theorem readyUp_start (hostId gadgetId : ℤ) : (start hostId gadgetId).ReadyUp crc32 where
  down := ready_start hostId gadgetId
  gadget := GadgetDaemon.fits_start gadgetId
  pipe := TransferPipe.fits_empty
  up := by simp [start, TransferPipe.empty]
  rx := by simp [start]

/-- The host reads the first transfer as it is, or nothing. -/
theorem hostRead_cases_up {outcome : UDFHost.Outcome} (hready : cable.ReadyUp crc32)
    (hwhole : cable.WholeUp (.hostRead outcome)) (hread : cable.hostRead outcome = some next) :
    cable.rx = .reading ∧ next.receiver = cable.receiver ∧ next.gadget = cable.gadget ∧
      next.up.Fits readSize ∧
      ((next.rx = .reading ∧ next.up = cable.up) ∨
        ∃ data, next.rx = .received data ∧ cable.up.whole = data :: next.up.whole) := by
  obtain ⟨hreading, hup, -, hreceiver, hgadget, -, -, hcases⟩ := hostRead_cases hread
  refine ⟨hreading, hreceiver, hgadget, ?_⟩
  rcases hcases with ⟨rfl, data, hfront, hreceived⟩ | ⟨hfailed, hnext⟩
  · obtain ⟨hpipe, hfits⟩ := hready.pipe.read (by decide) hfront
    rw [hup]
    exact ⟨hfits, .inr ⟨data, hreceived, hpipe⟩⟩
  · have hmoved : outcome.moved = 0 := hwhole
    have hnone : outcome.taken = 0 := by
      cases outcome with
      | success => exact absurd rfl hfailed
      | timeout moved | failure moved => exact hmoved
    rw [hnone, TransferPipe.take_zero] at hup
    exact ⟨hup ▸ hready.pipe, .inl ⟨hnext, hup⟩⟩

/-- The gadget puts what it writes onto the cable. -/
theorem gadget_cases_up {action : GadgetDaemon.Action} (hready : cable.ReadyUp crc32)
    (hwhole : cable.WholeUp (.gadget action))
    (hstep : cable.step crc32 (.gadget action) = some next) :
    ∃ gadget effect, cable.gadget.step crc32 0 action = some (gadget, effect) ∧
      next = { cable with gadget := gadget, up := cable.up.writes effect.passed } ∧
      gadget.Fits crc32 ∧ (cable.up.writes effect.passed).Fits readSize ∧
      (cable.up.writes effect.passed).whole = cable.up.whole ++ effect.passed ∧
      ∀ data ∈ effect.passed, Fit crc32 data := by
  obtain ⟨⟨gadget, effect⟩, hmove, rfl⟩ := Option.map_eq_some_iff.mp hstep
  obtain ⟨hnext, hpassed⟩ := GadgetDaemon.fits_step hready.gadget hready.down.rx hwhole hmove
  have hfits : (cable.up.writes effect.passed).Fits readSize :=
    hready.pipe.writes fun data hdata ↦ (hpassed data hdata).length_le
  exact ⟨gadget, effect, hmove, rfl, hnext, hfits,
    (TransferPipe.whole_writes hready.pipe.closed _).2, hpassed⟩

theorem readyUp_step (hready : cable.ReadyUp crc32) (hwhole : cable.WholeUp action)
    (hstep : cable.step crc32 action = some next) : next.ReadyUp crc32 := by
  have hdown := ready_step hready.down hwhole.clean hstep
  cases action with
  | host action =>
      obtain ⟨_, _, rfl⟩ := Option.map_eq_some_iff.mp hstep
      exact ⟨hdown, hready.gadget, hready.pipe, hready.up, hready.rx⟩
  | gadget action =>
      obtain ⟨gadget, effect, -, rfl, hfits, hpipe, hup, hpassed⟩ :=
        gadget_cases_up hready hwhole hstep
      refine ⟨hdown, hfits, hpipe, ?_, hready.rx⟩
      intro data hdata
      rw [hup] at hdata
      exact (List.mem_append.mp hdata).elim (hready.up data) (hpassed data)
  | gadgetRead =>
      obtain ⟨data, gadget, effect, down, hread, rfl, -, -⟩ := gadgetRead_cases hready.down hstep
      obtain ⟨hqueue, htx⟩ := GadgetDaemon.up_read hread
      refine ⟨hdown, ⟨?_, ?_⟩, hready.pipe, hready.up, hready.rx⟩
      · simp only [hqueue]
        exact hready.gadget.queue
      · simp only [htx]
        exact hready.gadget.sending
  | hostRead outcome =>
      obtain ⟨-, -, hgadget, hpipe, hcases⟩ := hostRead_cases_up hready hwhole hstep
      have hfits : next.gadget.Fits crc32 := hgadget ▸ hready.gadget
      rcases hcases with ⟨hreading, hup⟩ | ⟨data, hreceived, hup⟩
      · exact ⟨hdown, hfits, hpipe, hup ▸ hready.up, by simp [hreading]⟩
      · have hall := hready.up
        rw [hup] at hall
        refine ⟨hdown, hfits, hpipe, fun item hitem ↦ hall item (List.mem_cons_of_mem _ hitem), ?_⟩
        intro other hother
        rw [hreceived] at hother
        cases hother
        exact hall data List.mem_cons_self
  | hostStep =>
      obtain ⟨⟨receiver, rx⟩, hmove, rfl⟩ := Option.map_eq_some_iff.mp hstep
      refine ⟨hdown, hready.gadget, hready.pipe, hready.up, ?_⟩
      intro data hreceived
      exact absurd hreceived (HostReceiver.ne_received_of_step hmove data)
  | gadgetBreak accepted => exact hwhole.elim

variable (crc32) in
/-- The messages that an action puts on the gadget's transmit queue. -/
def posting (cable : Cable) : Action → List (ℤ × Bytes)
  | .gadget action =>
      match cable.gadget.step crc32 0 action with
      | some (_, effect) => GadgetDaemon.posted effect
      | none => []
  | .host _ | .hostRead _ | .hostStep | .gadgetRead | .gadgetBreak _ => []

def answers (cable : Cable) : List (ℤ × Bytes) := cable.receiver.rxQueue.map message

variable (crc32) in
/-- The messages on their way up, the first one nearest to the host's receive queue. -/
def returning (cable : Cable) : List (ℤ × Bytes) :=
  (cable.rx.data crc32 ++ (cable.up.whole.flatMap (dataIn crc32) ++
    cable.gadget.pending crc32 [])).map message

/-- As long as no frame is cut a step moves messages on towards the host's receive queue. -/
theorem returning_step (hready : cable.ReadyUp crc32) (hwhole : cable.WholeUp action)
    (hstep : cable.step crc32 action = some next) :
    next.answers ++ next.returning crc32 <+
        cable.answers ++ cable.returning crc32 ++ cable.posting crc32 action ∧
      (action ≠ .gadget .txFail → next.answers ++ next.returning crc32 =
        cable.answers ++ cable.returning crc32 ++ cable.posting crc32 action) := by
  have hkept (hnone : cable.posting crc32 action = [])
      (hequal : next.answers ++ next.returning crc32 = cable.answers ++ cable.returning crc32) :
      next.answers ++ next.returning crc32 <+
          cable.answers ++ cable.returning crc32 ++ cable.posting crc32 action ∧
        (action ≠ .gadget .txFail → next.answers ++ next.returning crc32 =
          cable.answers ++ cable.returning crc32 ++ cable.posting crc32 action) := by
    rw [hnone, List.append_nil, hequal]
    exact ⟨List.Sublist.refl _, fun _ ↦ rfl⟩
  cases action with
  | host action =>
      obtain ⟨_, _, rfl⟩ := Option.map_eq_some_iff.mp hstep
      exact hkept rfl rfl
  | gadget action =>
      obtain ⟨gadget, effect, hmove, rfl, -, -, hup, -⟩ := gadget_cases_up hready hwhole hstep
      obtain ⟨hsublist, hequal⟩ :=
        GadgetDaemon.pending_step hready.down.rx hready.gadget hwhole hmove
      have hposting : cable.posting crc32 (.gadget action) = GadgetDaemon.posted effect := by
        simp only [posting, hmove]
      set front := (cable.rx.data crc32 ++ cable.up.whole.flatMap (dataIn crc32)).map message
        with hfront
      have hafter : { cable with gadget := gadget, up := cable.up.writes effect.passed }.answers ++
          { cable with
            gadget := gadget, up := cable.up.writes effect.passed }.returning crc32 =
          cable.answers ++ front ++ (gadget.pending crc32 effect.passed).map message := by
        simp only [answers, returning, GadgetDaemon.pending, hup, hfront]
        simp
      have hbefore : cable.answers ++ cable.returning crc32 ++
          cable.posting crc32 (.gadget action) = cable.answers ++ front ++
            ((cable.gadget.pending crc32 []).map message ++ GadgetDaemon.posted effect) := by
        simp [returning, hposting, hfront]
      rw [hafter, hbefore]
      refine ⟨hsublist.append_left _, fun hgoes ↦ ?_⟩
      rw [hequal fun hfail ↦ hgoes (congrArg Action.gadget hfail)]
  | gadgetRead =>
      obtain ⟨data, gadget, effect, down, hread, rfl, -, -⟩ := gadgetRead_cases hready.down hstep
      obtain ⟨hqueue, htx⟩ := GadgetDaemon.up_read hread
      apply hkept rfl
      simp only [answers, returning, GadgetDaemon.pending, hqueue, htx]
  | hostRead outcome =>
      obtain ⟨hbefore, hreceiver, hgadget, -, hcases⟩ := hostRead_cases_up hready hwhole hstep
      apply hkept rfl
      rcases hcases with ⟨hreading, hup⟩ | ⟨data, hreceived, hup⟩
      · simp only [answers, returning, hbefore, hreceiver, hgadget, hreading, hup]
      · simp [answers, returning, hbefore, hreceiver, hgadget, hreceived, hup,
          HostReceiver.RxThread.data]
  | hostStep =>
      obtain ⟨⟨receiver, rx⟩, hmove, rfl⟩ := Option.map_eq_some_iff.mp hstep
      have hqueue := congrArg (List.map message) (HostReceiver.data_step hmove)
      apply hkept rfl
      simp only [List.map_append] at hqueue
      simp only [answers, returning, List.map_append, ← List.append_assoc, hqueue]
  | gadgetBreak accepted => exact hwhole.elim

end Cable

/-! ## Whole runs -/

/-- A cable, the payloads given to `UDFHost.send`, and the messages that calls of
`GadgetDaemon.send` have put on the gadget's transmit queue. -/
structure Session where
  cable : Cable
  given : List Bytes
  posted : List (ℤ × Bytes)
deriving DecidableEq, Repr

namespace Session

def start (hostId gadgetId : ℤ) : Session where
  cable := .start hostId gadgetId
  given := []
  posted := []

variable (crc32) in
def step (session : Session) (action : Cable.Action) : Option Session :=
  (session.cable.step crc32 action).map fun next ↦
    { cable := next
      given := session.given ++ Cable.giving action
      posted := session.posted ++ session.cable.posting crc32 action }

variable {session next : Session} {action : Cable.Action} {hostId gadgetId : ℤ}

theorem ready_of_reaches
    (hreaches : Run.Reaches (step crc32) (fun _ action ↦ Cable.CleanDown action)
      (start hostId gadgetId) session) : session.cable.Ready crc32 := by
  apply hreaches.invariant (Cable.ready_start hostId gadgetId)
  intro state action next hready hclean hstep
  obtain ⟨cable, hcable, rfl⟩ := Option.map_eq_some_iff.mp hstep
  exact Cable.ready_step hready hclean hcable

theorem arrived_sublist
    (hreaches : Run.Reaches (step crc32) (fun _ action ↦ Cable.CleanDown action)
      (start hostId gadgetId) session) :
    session.cable.arrived ++ session.cable.underway crc32 <+ session.given := by
  induction hreaches with
  | refl => exact List.Sublist.refl _
  | tail action hearlier hclean hstep ih =>
      obtain ⟨cable, hcable, rfl⟩ := Option.map_eq_some_iff.mp hstep
      have hmoved := (Cable.underway_step (ready_of_reaches hearlier) hclean hcable).1
      exact hmoved.trans (ih.append_right _)

theorem arrived_eq
    (hreaches : Run.Reaches (step crc32) (fun session action ↦ session.cable.SmoothDown action)
      (start hostId gadgetId) session) :
    session.cable.arrived ++ session.cable.underway crc32 = session.given := by
  induction hreaches with
  | refl => rfl
  | tail action hearlier hsmooth hstep ih =>
      obtain ⟨cable, hcable, rfl⟩ := Option.map_eq_some_iff.mp hstep
      have hready := ready_of_reaches (hearlier.weaken fun _ _ hsmooth ↦ hsmooth.clean)
      have hmoved := (Cable.underway_step hready hsmooth.clean hcable).2
      rw [hmoved hsmooth, ih]

/-- Two payloads are given to the host, and a heartbeat is sent between them. The gadget hands over
the first one. -/
def downRun : List Cable.Action :=
  [[.host (.send [0x48]), .host (.send [0x69])], List.replicate 3 (.host .txStep),
    [.host .hbStep, .host .hbStep, .host (.txWrite .success), .host (.hbWrite .success),
      .gadgetRead], List.replicate 3 (.gadget .rxStep),
    [.gadgetRead], List.replicate 3 (.host .txStep)].flatten

theorem readyUp_of_reaches
    (hreaches : Run.Reaches (step crc32) (fun session action ↦ session.cable.WholeUp action)
      (start hostId gadgetId) session) : session.cable.ReadyUp crc32 := by
  apply hreaches.invariant (Cable.readyUp_start hostId gadgetId)
  intro state action next hready hwhole hstep
  obtain ⟨cable, hcable, rfl⟩ := Option.map_eq_some_iff.mp hstep
  exact Cable.readyUp_step hready hwhole hcable

theorem answers_sublist
    (hreaches : Run.Reaches (step crc32) (fun session action ↦ session.cable.WholeUp action)
      (start hostId gadgetId) session) :
    session.cable.answers ++ session.cable.returning crc32 <+ session.posted := by
  induction hreaches with
  | refl => exact List.Sublist.refl _
  | tail action hearlier hwhole hstep ih =>
      obtain ⟨cable, hcable, rfl⟩ := Option.map_eq_some_iff.mp hstep
      have hmoved := (Cable.returning_step (readyUp_of_reaches hearlier) hwhole hcable).1
      exact hmoved.trans (ih.append_right _)

theorem answers_eq
    (hreaches : Run.Reaches (step crc32) (fun session action ↦ session.cable.SmoothUp action)
      (start hostId gadgetId) session) :
    session.cable.answers ++ session.cable.returning crc32 = session.posted := by
  induction hreaches with
  | refl => rfl
  | tail action hearlier hsmooth hstep ih =>
      obtain ⟨cable, hcable, rfl⟩ := Option.map_eq_some_iff.mp hstep
      have hready := readyUp_of_reaches (hearlier.weaken fun _ _ hsmooth ↦ hsmooth.1)
      have hmoved := (Cable.returning_step hready hsmooth.1 hcable).2
      rw [hmoved hsmooth.2, ih]

/-- **Messages come up in order.** As long as on both ways the payloads have room in the reader's
buffer, and a transfer is completed or moves nothing, the messages on the host's receive queue are
some of those that calls of `GadgetDaemon.send` have put on the transmit queue, in their order and
each at most once. As long as in addition no write of the gadget fails, those that have not arrived
are on their way. -/
theorem messages_up (hostId gadgetId : ℤ) :
    (∀ session, Run.Reaches (step crc32) (fun session action ↦ session.cable.WholeUp action)
      (start hostId gadgetId) session → session.cable.answers <+ session.posted) ∧
    ∀ session, Run.Reaches (step crc32) (fun session action ↦ session.cable.SmoothUp action)
      (start hostId gadgetId) session →
        session.cable.answers ++ session.cable.returning crc32 = session.posted := by
  refine ⟨?_, fun _ hreaches ↦ answers_eq hreaches⟩
  intro session hreaches
  exact (List.sublist_append_left _ _).trans (answers_sublist hreaches)

/-- The gadget sends two messages with a heartbeat between them, and the host reads the first
one. -/
def upRun : List Cable.Action :=
  [.gadget (.send 1 [0x48]), .gadget (.sendPut 0), .gadget .hbStep, .gadget .hbStep,
    .gadget (.send 5 [0x69]), .gadget (.sendPut 0), .gadget .txGet, .gadget (.txWrite 36),
    .hostRead .success, .gadget .txFinish, .gadget .txGet, .gadget (.txWrite 20)] ++
    List.replicate 3 .hostStep

theorem messages_up_upRun :
    ∃ session, Run.Reaches (step Crc32.checksum)
        (fun session action ↦ session.cable.SmoothUp action) (start 1 2) session ∧
      session.cable.answers = [(1, [0x48])] ∧ session.cable.answers <+ session.posted ∧
      session.cable.answers ++ session.cable.returning Crc32.checksum = session.posted := by
  have hrun : (Run.attempt (step Crc32.checksum)
      (fun session action ↦ session.cable.SmoothUp action) (start 1 2) upRun).map
        (·.cable.answers) = some [(1, [0x48])] := by
    decide +kernel
  obtain ⟨session, hreaches, hanswers⟩ := Run.exists_of_attempt hrun
  obtain ⟨hsome, hall⟩ := @messages_up Crc32.checksum 1 2
  refine ⟨session, hreaches, hanswers, hsome session ?_, hall session hreaches⟩
  exact hreaches.weaken fun _ _ hsmooth ↦ hsmooth.1

end Session

end UsbDirectFabric.Daemon
