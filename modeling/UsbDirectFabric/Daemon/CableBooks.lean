import UsbDirectFabric.Daemon.CableDelivery

/-!
# The statistics at both ends of a cable

`UDFHost` counts the frames and bytes that libusb has taken over and those it has received, and
`GadgetDaemon` counts its own. No lock is held while the host counts, so another thread can run
between a transfer and each of the statements that count it. What one end has counted and the other
has not yet is on the cable or in the hands of a loop.
-/

namespace UsbDirectFabric.Daemon

open Wire

def volume (items : List Bytes) : ℕ := (items.map List.length).sum

@[simp] theorem volume_nil : volume [] = 0 := rfl

@[simp] theorem volume_cons (data : Bytes) (items : List Bytes) :
    volume (data :: items) = data.length + volume items := by
  simp only [volume, List.map_cons, List.sum_cons]

@[simp] theorem volume_append (front back : List Bytes) :
    volume (front ++ back) = volume front + volume back := by
  simp only [volume, List.map_append, List.sum_append]

variable {crc32 : Bytes → UInt32}

theorem ne_nil_of_unpack {data : Bytes} {frame : Frame} (hunpack : unpack crc32 data = .ok frame) :
    data ≠ [] := by
  rintro rfl
  cases hunpack

/-! ## The host -/

namespace UDFHost

variable {host next : UDFHost} {action : Action} {passed : List Bytes}

/-- The frame that a thread has passed on and not counted. -/
def Thread.uncounted {job : Type} : Thread job → ℕ
  | .counting _ => 1
  | .idle | .taken _ | .numbered _ _ | .packed _ _ | .sizing _ | .dead => 0

/-- The bytes that a thread has passed on and not counted. -/
def Thread.unsized {job : Type} : Thread job → ℕ
  | .counting length | .sizing length => length
  | .idle | .taken _ | .numbered _ _ | .packed _ _ | .dead => 0

def uncounted (host : UDFHost) : ℕ := host.tx.uncounted + host.hb.uncounted

def unsized (host : UDFHost) : ℕ := host.tx.unsized + host.hb.unsized

/-- The counters after a write, where the thread still has to count what it has passed on. -/
theorem counts_bulkWrite {job : Type} {wrote : UDFHost} {packet : Bytes} {outcome : Outcome}
    {thread : Thread job} (hwrites : host.bulkWrite packet outcome = (wrote, thread, passed)) :
    wrote.txFrames = host.txFrames ∧ wrote.txBytes = host.txBytes ∧ wrote.tx = host.tx ∧
      wrote.hb = host.hb ∧ thread.uncounted = passed.length ∧ thread.unsized = volume passed := by
  cases outcome with
  | success | timeout | failure =>
      cases hwrites
      exact ⟨rfl, rfl, rfl, rfl, rfl, rfl⟩

/-- The host counts what it passes to libusb. -/
theorem counts_step (hstep : host.step crc32 action = some (next, passed)) :
    next.txFrames + next.uncounted = host.txFrames + host.uncounted + passed.length ∧
      next.txBytes + next.unsized = host.txBytes + host.unsized + volume passed := by
  cases step_moves hstep with
  | send => exact ⟨rfl, rfl⟩
  | txGet hstands | txNumber hstands | txPack hstands | txDie hstands | hbNumber hstands
  | hbPack hstands | hbDie hstands =>
      simp [uncounted, unsized, hstands, Thread.uncounted, Thread.unsized]
  | txCount hstands | txSize hstands | hbCount hstands | hbSize hstands =>
      simp [uncounted, unsized, hstands, Thread.uncounted, Thread.unsized]
      omega
  | txWrite outcome hstands hwrites =>
      obtain ⟨hframes, hbytes, -, hother, hone, hlength⟩ := counts_bulkWrite hwrites
      have hnone : host.tx.uncounted = 0 ∧ host.tx.unsized = 0 := by
        rw [hstands]
        exact ⟨rfl, rfl⟩
      simp only [uncounted, unsized, hframes, hbytes, hother, hone, hlength, hnone]
      omega
  | hbWrite outcome hstands hwrites =>
      obtain ⟨hframes, hbytes, hother, -, hone, hlength⟩ := counts_bulkWrite hwrites
      have hnone : host.hb.uncounted = 0 ∧ host.hb.unsized = 0 := by
        rw [hstands]
        exact ⟨rfl, rfl⟩
      simp only [uncounted, unsized, hframes, hbytes, hother, hone, hlength, hnone]
      omega

/-- No transfer down the cable is empty. -/
theorem ne_nil_of_passed (hready : host.Ready crc32)
    (hstep : host.step crc32 action = some (next, passed)) : ∀ data ∈ passed, data ≠ [] := by
  intro data hdata
  cases step_moves hstep with
  | send | txGet | txNumber | txPack | txDie | txCount | txSize | hbNumber | hbPack | hbDie
  | hbCount | hbSize => cases hdata
  | txWrite outcome hstands hwrites =>
      obtain ⟨frame, -, hunpack, -⟩ := hready.tx _ _ hstands
      rw [mem_bulkWrite hwrites hdata]
      exact ne_nil_of_unpack hunpack
  | hbWrite outcome hstands hwrites =>
      obtain ⟨frame, hunpack, -⟩ := hready.hb _ _ hstands
      rw [mem_bulkWrite hwrites hdata]
      exact ne_nil_of_unpack hunpack

end UDFHost

namespace HostReceiver

variable {receiver next : HostReceiver} {thread after : RxThread}

/-- The transfer that `_rx_loop` has read and not counted as a frame or an error. -/
def RxThread.uncounted : RxThread → ℕ
  | .received _ => 1
  | .reading | .counted _ _ | .sized _ | .dead => 0

def RxThread.unsized : RxThread → ℕ
  | .received data | .counted data _ => data.length
  | .reading | .sized _ | .dead => 0

/-- The frame that `_rx_loop` has counted and not put anywhere. -/
def RxThread.unsorted : RxThread → ℕ
  | .counted _ _ | .sized _ => 1
  | .reading | .received _ | .dead => 0

/-- Every transfer is counted as a frame or as an error. -/
theorem counts_step (hstep : receiver.rxStep crc32 thread = some (next, after)) :
    next.rxFrames + next.crcErrors + after.uncounted =
      receiver.rxFrames + receiver.crcErrors + thread.uncounted := by
  cases rxStep_moves hstep with
  | reject | count =>
      simp [RxThread.uncounted]
      omega
  | size | heartbeat | queue => rfl

/-- Every frame that has been counted is a heartbeat, on the queue or in the hands of the loop. -/
def Sorted (receiver : HostReceiver) (thread : RxThread) : Prop :=
  receiver.rxFrames = receiver.rxHb + receiver.rxQueue.length + thread.unsorted

theorem Sorted.step (hsorted : receiver.Sorted thread)
    (hstep : receiver.rxStep crc32 thread = some (next, after)) : next.Sorted after := by
  unfold Sorted at *
  cases rxStep_moves hstep with
  | reject | size => exact hsorted
  | count | heartbeat | queue =>
      simp only [RxThread.unsorted, List.length_append, List.length_singleton] at hsorted ⊢
      omega

/-- A transfer that holds a frame is no error. -/
theorem bytes_step (hfit : ∀ data, thread = .received data → Fit crc32 data)
    (hstep : receiver.rxStep crc32 thread = some (next, after)) :
    next.crcErrors = receiver.crcErrors ∧
      next.rxBytes + after.unsized = receiver.rxBytes + thread.unsized := by
  cases rxStep_moves hstep with
  | @reject data error hreject =>
      obtain ⟨frame, hunpack⟩ := (hfit data rfl).unpack
      rw [hunpack] at hreject
      cases hreject
  | count | heartbeat | queue => exact ⟨rfl, rfl⟩
  | size =>
      simp [RxThread.unsized]

end HostReceiver

/-! ## The gadget -/

namespace GadgetDaemon

variable {daemon next : GadgetDaemon} {effect : Effect}

/-- The transfer that `_rx_loop` has read and not counted as a frame or an error. -/
def RxThread.uncounted : RxThread → ℕ
  | .received _ _ | .sized _ _ => 1
  | .waiting | .accounted _ _ | .numbered _ _ _ | .dead => 0

def RxThread.unsized : RxThread → ℕ
  | .received _ data => data.length
  | .waiting | .sized _ _ | .accounted _ _ | .numbered _ _ _ | .dead => 0

/-- The frame that `_tx_loop` has written and not counted. -/
def TxThread.uncounted : TxThread → ℕ
  | .sent _ => 1
  | .waiting | .writing _ _ _ => 0

def TxThread.unsized : TxThread → ℕ
  | .sent length => length
  | .waiting | .writing _ _ _ => 0

/-- A step of the gadget counts what it has read and reads nothing. -/
theorem received_step {number : ℕ} {action : Action}
    (hstep : daemon.step crc32 number action = some (next, effect)) :
    next.framesRx + next.crcErrors + next.rx.uncounted =
        daemon.framesRx + daemon.crcErrors + daemon.rx.uncounted ∧
      next.bytesRx + next.rx.unsized = daemon.bytesRx + daemon.rx.unsized := by
  cases step_moves hstep with
  | size hrx => simp [hrx, RxThread.uncounted, RxThread.unsized]
  | account hrx =>
      simp [account_eq, hrx, RxThread.uncounted, RxThread.unsized]
      omega
  | reject hrx =>
      simp [hrx, RxThread.uncounted, RxThread.unsized]
      omega
  | deliver hrx | number hrx | drop hrx | forward hrx | rxDie hrx =>
      simp [hrx, RxThread.uncounted, RxThread.unsized]
  | txGet | txWhole | txPiece | txFail | txFinish | txFinishPieces | hbNumber | hbPut | hbDie | send
  | sendPut | sendRaise => exact ⟨rfl, rfl⟩

theorem received_read {tag : Tag} {data : Bytes} (hdata : data ≠ [])
    (hread : daemon.read tag data = some (next, effect)) :
    next.framesRx + next.crcErrors + next.rx.uncounted =
        daemon.framesRx + daemon.crcErrors + daemon.rx.uncounted + 1 ∧
      next.bytesRx + next.rx.unsized =
        daemon.bytesRx + daemon.rx.unsized + (data.take readSize).length := by
  obtain ⟨hwaiting, ⟨hempty, -, -⟩ | ⟨-, rfl, -⟩⟩ := read_cases hread
  · exact absurd hempty hdata
  · simp [hwaiting, RxThread.uncounted, RxThread.unsized]

/-- A gadget that has read a frame finds no error. -/
theorem crcErrors_step {number : ℕ} {action : Action} (hfrom : daemon.rx.FromHost crc32)
    (hstep : daemon.step crc32 number action = some (next, effect)) :
    next.crcErrors = daemon.crcErrors := by
  cases step_moves hstep with
  | reject hrx hreject =>
      rw [hrx] at hfrom
      obtain ⟨frame, hunpack, -⟩ := hfrom
      rw [hunpack] at hreject
      cases hreject
  | account => rw [account_eq]
  | size | deliver | number | drop | forward | rxDie | txGet | txWhole | txPiece | txFail | txFinish
  | txFinishPieces | hbNumber | hbPut | hbDie | send | sendPut | sendRaise => rfl

theorem crcErrors_read {tag : Tag} {data : Bytes}
    (hread : daemon.read tag data = some (next, effect)) :
    next.crcErrors = daemon.crcErrors ∧ next.framesTx = daemon.framesTx ∧
      next.bytesTx = daemon.bytesTx := by
  obtain ⟨-, ⟨-, rfl, -⟩ | ⟨-, rfl, -⟩⟩ := read_cases hread
  · exact ⟨rfl, rfl, rfl⟩
  · exact ⟨rfl, rfl, rfl⟩

/-- As long as no frame is cut, the gadget counts what it writes. -/
theorem sent_step {number : ℕ} {action : Action} (hfits : daemon.Fits crc32)
    (hwhole : daemon.Whole action)
    (hstep : daemon.step crc32 number action = some (next, effect)) :
    next.framesTx + next.tx.uncounted =
        daemon.framesTx + daemon.tx.uncounted + effect.passed.length ∧
      next.bytesTx + next.tx.unsized =
        daemon.bytesTx + daemon.tx.unsized + volume effect.passed := by
  cases step_moves hstep with
  | size | reject | deliver | number | drop | forward | rxDie | hbNumber | hbPut | hbDie | send
  | sendPut | sendRaise => exact ⟨rfl, rfl⟩
  | account =>
      rw [account_eq]
      exact ⟨rfl, rfl⟩
  | txGet hstands | txWhole hstands | txFail hstands | txFinish hstands =>
      simp [hstands, TxThread.uncounted, TxThread.unsized, Effect.passed]
  | txPiece hstands hroom hpart =>
      simp only [Whole, hstands] at hwhole
      exact absurd hwhole hpart
  | txFinishPieces hstands =>
      obtain ⟨hzero, hfit⟩ := hfits.sending _ _ _ hstands
      exact absurd (List.length_eq_zero_iff.mp hzero) hfit.ne_nil

end GadgetDaemon

/-! ## Both ends -/

namespace Cable

variable {cable next : Cable} {action : Action}

/-! ### Whatever happens -/

variable (crc32) in
/-- What the host has passed on the gadget has counted, or it is on the way; and what the host has
received it has sorted, or it is in the hands of its receive loop. -/
structure Counted (cable : Cable) : Prop where
  host : cable.host.Ready crc32
  solid : ∀ data ∈ cable.down.whole, data ≠ []
  down : cable.host.txFrames + cable.host.uncounted ≤ cable.gadget.framesRx +
    cable.gadget.crcErrors + cable.gadget.rx.uncounted + cable.down.whole.length
  sorted : cable.receiver.Sorted cable.rx

theorem counted_start (hostId gadgetId : ℤ) : (start hostId gadgetId).Counted crc32 where
  host := UDFHost.ready_start hostId
  solid := by simp [start, TransferPipe.empty]
  down := le_rfl
  sorted := rfl

/-- A read of the gadget counts one transfer, and takes at most one off the cable. -/
theorem counted_gadgetRead (hcounted : cable.Counted crc32)
    (hstep : cable.step crc32 .gadgetRead = some next) : next.Counted crc32 := by
  obtain ⟨hhost, hsolid, hdown, hsorted⟩ := hcounted
  simp only [step] at hstep
  split at hstep
  · cases hstep
  · rename_i data hfront
    obtain ⟨⟨gadget, effect⟩, hread, rfl⟩ := Option.map_eq_some_iff.mp hstep
    obtain ⟨first, later, hwhole, rfl⟩ := TransferPipe.front_eq_some hfront
    have hfirst : first ≠ [] := hsolid first (by simp [hwhole])
    have hdata : first.take readSize ≠ [] := by
      rw [ne_eq, List.take_eq_nil_iff]
      exact fun hnone ↦ hnone.elim (by decide) hfirst
    obtain ⟨hframes, -⟩ := GadgetDaemon.received_read hdata hread
    have hshorter : cable.down.whole.length ≤ (cable.down.take readSize).whole.length + 1 :=
      TransferPipe.length_whole_take
    refine ⟨hhost, ?_, ?_, hsorted⟩
    · intro item hitem
      exact (TransferPipe.mem_whole_take hitem).elim (hsolid item)
        TransferPipe.ne_nil_of_mem_remains
    · simp only [hframes]
      omega

/-- Every step keeps the count. -/
theorem counted_step (hcounted : cable.Counted crc32)
    (hstep : cable.step crc32 action = some next) : next.Counted crc32 := by
  have hapart (hapart : cable.Apart next) (hframes : next.gadget.framesRx = cable.gadget.framesRx)
      (herrors : next.gadget.crcErrors = cable.gadget.crcErrors)
      (hsorted : next.receiver.Sorted next.rx) : next.Counted crc32 := by
    obtain ⟨⟨timeouts, hhost⟩, hdown, hrx, -⟩ := hapart
    refine ⟨?_, hdown ▸ hcounted.solid, ?_, hsorted⟩
    · rw [hhost]
      exact ⟨hcounted.host.tx, hcounted.host.hb⟩
    · rw [hhost, hframes, herrors, hrx, hdown]
      exact hcounted.down
  cases action with
  | host action =>
      obtain ⟨hhost, hsolid, hdown, hsorted⟩ := hcounted
      obtain ⟨⟨host, passed⟩, hmove, rfl⟩ := Option.map_eq_some_iff.mp hstep
      have hpassed := UDFHost.ne_nil_of_passed hhost hmove
      obtain ⟨hframes, -⟩ := UDFHost.counts_step hmove
      set begun := cable.down.breakOff (cable.host.broken action) with hbegun
      have hsame : begun.whole = cable.down.whole := rfl
      have hbefore : ∀ data ∈ begun.whole, data ≠ [] := hsolid
      have hlength := begun.length_whole_writes passed
      have hnone : ∀ data ∈ (begun.writes passed).whole, data ≠ [] :=
        TransferPipe.ne_nil_of_mem_writes hbefore hpassed
      refine ⟨UDFHost.ready_step hhost hmove, hnone, ?_, hsorted⟩
      simp only [hframes, hlength, hsame]
      omega
  | gadget action =>
      obtain ⟨hhost, hsolid, hdown, hsorted⟩ := hcounted
      obtain ⟨⟨gadget, effect⟩, hmove, rfl⟩ := Option.map_eq_some_iff.mp hstep
      obtain ⟨hframes, -⟩ := GadgetDaemon.received_step hmove
      refine ⟨hhost, hsolid, ?_, hsorted⟩
      simp only [hframes]
      exact hdown
  | gadgetRead => exact counted_gadgetRead hcounted hstep
  | hostRead outcome =>
      obtain ⟨hbefore, -, -, hreceiver, hgadget, -, -, hcases⟩ := hostRead_cases hstep
      have hsorted := hcounted.sorted
      rw [hbefore] at hsorted
      refine hapart (apart_hostRead hstep) (by rw [hgadget]) (by rw [hgadget]) ?_
      rw [hreceiver]
      rcases hcases with ⟨-, data, -, hnext⟩ | ⟨-, hnext⟩
      · rw [hnext]
        exact hsorted
      · rw [hnext]
        exact hsorted
  | hostStep =>
      have hframe := apart_hostStep hstep
      obtain ⟨⟨receiver, rx⟩, hmove, rfl⟩ := Option.map_eq_some_iff.mp hstep
      exact hapart hframe rfl rfl (hcounted.sorted.step hmove)
  | gadgetBreak accepted =>
      have hframe := apart_gadgetBreak hstep
      obtain ⟨tx, up, rfl⟩ := gadgetBreak_cases hstep
      exact hapart hframe rfl rfl hcounted.sorted

/-! ### Down -/

variable (crc32) in
/-- The books of the way down in a run in which all that is written is frames. -/
structure BooksDown (cable : Cable) : Prop where
  ready : cable.Ready crc32
  errors : cable.gadget.crcErrors = 0
  frames : cable.host.txFrames + cable.host.uncounted =
    cable.gadget.framesRx + cable.gadget.rx.uncounted + cable.down.whole.length
  bytes : cable.host.txBytes + cable.host.unsized =
    cable.gadget.bytesRx + cable.gadget.rx.unsized + volume cable.down.whole

theorem booksDown_start (hostId gadgetId : ℤ) : (start hostId gadgetId).BooksDown crc32 where
  ready := ready_start hostId gadgetId
  errors := rfl
  frames := rfl
  bytes := rfl

theorem BooksDown.apart (hbooks : cable.BooksDown crc32) (hready : next.Ready crc32)
    (hapart : cable.Apart next) (hframes : next.gadget.framesRx = cable.gadget.framesRx)
    (hbytes : next.gadget.bytesRx = cable.gadget.bytesRx)
    (herrors : next.gadget.crcErrors = cable.gadget.crcErrors) : next.BooksDown crc32 := by
  obtain ⟨⟨timeouts, hhost⟩, hdown, hrx, -⟩ := hapart
  refine ⟨hready, herrors.trans hbooks.errors, ?_, ?_⟩
  · rw [hhost, hframes, hrx, hdown]
    exact hbooks.frames
  · rw [hhost, hbytes, hrx, hdown]
    exact hbooks.bytes

theorem booksDown_step (hbooks : cable.BooksDown crc32) (hclean : CleanDown action)
    (hstep : cable.step crc32 action = some next) : next.BooksDown crc32 := by
  have hnext := ready_step hbooks.ready hclean hstep
  cases action with
  | host action =>
      obtain ⟨hready, herrors, hframes, hbytes⟩ := hbooks
      obtain ⟨host, passed, hmove, rfl, -, hwhole, -⟩ := host_cases hready hclean hstep
      obtain ⟨hcount, hlength⟩ := UDFHost.counts_step hmove
      refine ⟨hnext, herrors, ?_, ?_⟩
      · simp only [hcount, hframes, hwhole, List.length_append]
        omega
      · simp only [hlength, hbytes, hwhole, volume_append]
        omega
  | gadget action =>
      obtain ⟨hready, herrors, hframes, hbytes⟩ := hbooks
      obtain ⟨⟨gadget, effect⟩, hmove, rfl⟩ := Option.map_eq_some_iff.mp hstep
      have hnone := GadgetDaemon.crcErrors_step hready.rx hmove
      obtain ⟨hcount, hlength⟩ := GadgetDaemon.received_step hmove
      refine ⟨hnext, hnone.trans herrors, ?_, ?_⟩
      · simp only [hframes]
        omega
      · simp only [hbytes, hlength]
  | gadgetRead =>
      obtain ⟨hready, herrors, hframes, hbytes⟩ := hbooks
      obtain ⟨data, gadget, effect, down, hread, rfl, hwhole, -⟩ := gadgetRead_cases hready hstep
      have hfit : Fit crc32 data := (hready.down data (by simp [hwhole])).1
      obtain ⟨hcount, hlength⟩ := GadgetDaemon.received_read hfit.ne_nil hread
      obtain ⟨hnone, -⟩ := GadgetDaemon.crcErrors_read hread
      rw [List.take_of_length_le hfit.length_le] at hlength
      refine ⟨hnext, hnone.trans herrors, ?_, ?_⟩
      · simp only [hframes, hwhole, List.length_cons]
        omega
      · simp only [hbytes, hlength, hwhole, volume_cons]
        omega
  | hostRead outcome =>
      obtain ⟨-, -, -, -, hgadget, -⟩ := hostRead_cases hstep
      exact hbooks.apart hnext (apart_hostRead hstep) (by rw [hgadget]) (by rw [hgadget])
        (by rw [hgadget])
  | hostStep =>
      have hframe := apart_hostStep hstep
      obtain ⟨_, -, rfl⟩ := Option.map_eq_some_iff.mp hstep
      exact hbooks.apart hnext hframe rfl rfl rfl
  | gadgetBreak accepted =>
      have hframe := apart_gadgetBreak hstep
      obtain ⟨tx, up, rfl⟩ := gadgetBreak_cases hstep
      exact hbooks.apart hnext hframe rfl rfl rfl

/-! ### Up -/

variable (crc32) in
/-- The books of the way up in a run in which all that is written is frames. -/
structure BooksUp (cable : Cable) : Prop where
  ready : cable.ReadyUp crc32
  errors : cable.receiver.crcErrors = 0
  frames : cable.gadget.framesTx + cable.gadget.tx.uncounted =
    cable.receiver.rxFrames + cable.rx.uncounted + cable.up.whole.length
  bytes : cable.gadget.bytesTx + cable.gadget.tx.unsized =
    cable.receiver.rxBytes + cable.rx.unsized + volume cable.up.whole

theorem booksUp_start (hostId gadgetId : ℤ) : (start hostId gadgetId).BooksUp crc32 where
  ready := readyUp_start hostId gadgetId
  errors := rfl
  frames := rfl
  bytes := rfl

theorem booksUp_step (hbooks : cable.BooksUp crc32) (hwhole : cable.WholeUp action)
    (hstep : cable.step crc32 action = some next) : next.BooksUp crc32 := by
  have hnext := readyUp_step hbooks.ready hwhole hstep
  obtain ⟨hready, herrors, hframes, hbytes⟩ := hbooks
  cases action with
  | host action =>
      obtain ⟨_, -, rfl⟩ := Option.map_eq_some_iff.mp hstep
      exact ⟨hnext, herrors, hframes, hbytes⟩
  | gadget action =>
      obtain ⟨gadget, effect, hmove, rfl, -, -, hup, -⟩ := gadget_cases_up hready hwhole hstep
      obtain ⟨hcount, hlength⟩ := GadgetDaemon.sent_step hready.gadget hwhole hmove
      refine ⟨hnext, herrors, ?_, ?_⟩
      · simp only [hcount, hframes, hup, List.length_append]
        omega
      · simp only [hlength, hbytes, hup, volume_append]
        omega
  | gadgetRead =>
      obtain ⟨data, gadget, effect, down, hread, rfl, -, -⟩ := gadgetRead_cases hready.down hstep
      obtain ⟨-, hcount, hlength⟩ := GadgetDaemon.crcErrors_read hread
      obtain ⟨-, htx⟩ := GadgetDaemon.up_read hread
      refine ⟨hnext, herrors, ?_, ?_⟩
      · simp only [hcount, htx, hframes]
      · simp only [hlength, htx, hbytes]
  | hostRead outcome =>
      obtain ⟨hbefore, hreceiver, hgadget, -, hcases⟩ := hostRead_cases_up hready hwhole hstep
      rw [hbefore] at hframes hbytes
      refine ⟨hnext, hreceiver ▸ herrors, ?_, ?_⟩
      · rw [hgadget, hframes, hreceiver]
        rcases hcases with ⟨hreading, hup⟩ | ⟨data, hreceived, hup⟩
        · rw [hreading, hup]
        · simp only [hreceived, hup, HostReceiver.RxThread.uncounted, List.length_cons]
          omega
      · rw [hgadget, hbytes, hreceiver]
        rcases hcases with ⟨hreading, hup⟩ | ⟨data, hreceived, hup⟩
        · rw [hreading, hup]
        · simp only [hreceived, hup, HostReceiver.RxThread.unsized, volume_cons]
          omega
  | hostStep =>
      obtain ⟨⟨receiver, rx⟩, hmove, rfl⟩ := Option.map_eq_some_iff.mp hstep
      have hcount := HostReceiver.counts_step hmove
      obtain ⟨hnone, hlength⟩ := HostReceiver.bytes_step hready.rx hmove
      refine ⟨hnext, hnone.trans herrors, ?_, ?_⟩
      · simp only [hframes]
        omega
      · simp only [hbytes, hlength]
  | gadgetBreak accepted => exact hwhole.elim

/-! ## Whole runs -/

/-- A payload and a heartbeat go down, and a message comes up, with nothing left on the cable. -/
def bookRun : List Action :=
  [[.host (.send [0x48])], List.replicate 3 (.host .txStep),
    [.host .hbStep, .host .hbStep, .host (.txWrite .success), .host (.hbWrite .success)],
    List.replicate 2 (.host .txStep), List.replicate 2 (.host .hbStep), [.gadgetRead],
    List.replicate 3 (.gadget .rxStep), [.gadgetRead], List.replicate 2 (.gadget .rxStep),
    [.gadget (.send 1 [0x69]), .gadget (.sendPut 0), .gadget .txGet, .gadget (.txWrite 36),
      .gadget .txFinish, .hostRead .success], List.replicate 3 .hostStep].flatten

end Cable

end UsbDirectFabric.Daemon
