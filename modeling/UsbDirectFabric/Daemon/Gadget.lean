import UsbDirectFabric.Daemon.Effect

/-!
# The gadget daemon, `gadget/udf_gadget.py`

The threads of `GadgetDaemon` and any number of application threads inside `send`. One step is one
critical section, one queue operation or one system call. The endpoint is written by `_tx_loop`
alone and read by `_rx_loop` alone; what a read returns is an argument of `read`.
-/

namespace UsbDirectFabric.Daemon

open Wire

namespace GadgetDaemon

inductive RxThread
  | waiting
  | received (tag : Tag) (data : Bytes)
  | sized (tag : Tag) (data : Bytes)
  | accounted (tag : Tag) (frame : Frame)
  | numbered (tag : Tag) (frame : Frame) (seq : ℕ)
  | dead
deriving DecidableEq, Repr

/-- Where `_tx_loop` stands: `writing` counts the bytes the endpoint has accepted in pieces. -/
inductive TxThread
  | waiting
  | writing (tag : Tag) (data : Bytes) (written : ℕ)
  | sent (length : ℕ)
deriving DecidableEq, Repr

inductive HbThread
  | sleeping
  | numbered (seq : ℕ)
  | dead
deriving DecidableEq, Repr

/-- An application thread inside `send`, after it took its number. -/
structure Sender where
  dst : ℤ
  payload : Bytes
  seq : ℕ
deriving DecidableEq, Repr

inductive Action
  | rxStep
  | txGet
  | txWrite (accepted : ℕ)
  | txFail
  | txFinish
  | hbStep
  | send (dst : ℤ) (payload : Bytes)
  | sendPut (sender : ℕ)
deriving DecidableEq, Repr

end GadgetDaemon

/-- The attributes of `GadgetDaemon` and the positions of its threads. -/
structure GadgetDaemon where
  nodeId : ℤ
  txQueue : List (Tag × Bytes)
  rxQueue : List (Tag × Frame)
  framesRx : ℕ
  framesTx : ℕ
  bytesRx : ℕ
  bytesTx : ℕ
  crcErrors : ℕ
  seqGaps : ℕ
  expectedSeq : ℕ
  txSeq : ℕ
  rx : GadgetDaemon.RxThread
  tx : GadgetDaemon.TxThread
  hb : GadgetDaemon.HbThread
  senders : List GadgetDaemon.Sender
deriving DecidableEq, Repr

namespace GadgetDaemon

/-- `__init__`, with all threads at the head of their loops. -/
def start (nodeId : ℤ) : GadgetDaemon where
  nodeId := nodeId
  txQueue := []
  rxQueue := []
  framesRx := 0
  framesTx := 0
  bytesRx := 0
  bytesTx := 0
  crcErrors := 0
  seqGaps := 0
  expectedSeq := 0
  txSeq := 0
  rx := .waiting
  tx := .waiting
  hb := .sleeping
  senders := []

variable (crc32 : Bytes → UInt32)

/-- `_next_seq`; the mask `& 0xFFFFFFFF` is the remainder modulo `2 ^ 32`. -/
def nextSeq (daemon : GadgetDaemon) : ℕ × GadgetDaemon :=
  (daemon.txSeq, { daemon with txSeq := (daemon.txSeq + 1) % 2 ^ 32 })

/-! ## `_rx_loop` -/

/-- `os.read(self.ep2_fd, buf_size)` returned `data`; an empty transfer is skipped. -/
def read (daemon : GadgetDaemon) (tag : Tag) (data : Bytes) : Option (GadgetDaemon × Effect) :=
  if daemon.rx = .waiting then
    if data = [] then some (daemon, .ended .discarded tag)
    else some ({ daemon with rx := .received tag (data.take readSize) }, .silent)
  else none

/-- The locked block after a successful `unpack`. -/
def account (daemon : GadgetDaemon) (frame : Frame) : GadgetDaemon :=
  let counted := { daemon with framesRx := daemon.framesRx + 1 }
  if frame.seq.toNat > counted.expectedSeq then
    { counted with seqGaps := counted.seqGaps + 1, expectedSeq := frame.seq.toNat + 1 }
  else if frame.seq.toNat = counted.expectedSeq then
    { counted with expectedSeq := counted.expectedSeq + 1 }
  else counted

/-- The rest of one iteration, one step at a time. -/
def rxStep (daemon : GadgetDaemon) : Option (GadgetDaemon × Effect) :=
  match daemon.rx with
  | .waiting => none
  | .received tag data =>
      some ({ daemon with bytesRx := daemon.bytesRx + data.length, rx := .sized tag data }, .silent)
  | .sized tag data =>
      match unpack crc32 data with
      | .ok frame => some ({ daemon.account frame with rx := .accounted tag frame }, .silent)
      | .error (.valueError _) =>
          some ({ daemon with crcErrors := daemon.crcErrors + 1, rx := .waiting },
            .ended .discarded tag)
      | .error _ => some ({ daemon with rx := .dead }, .ended .discarded tag)
  | .accounted tag frame =>
      if Addressed daemon.nodeId frame then
        some ({ daemon with rxQueue := daemon.rxQueue ++ [(tag, frame)], rx := .waiting }, .silent)
      else if frame.hop.toNat < hopLimit then
        let (seq, daemon) := daemon.nextSeq
        some ({ daemon with rx := .numbered tag frame seq }, .silent)
      else some ({ daemon with rx := .waiting }, .ended .discarded tag)
  | .numbered tag frame seq =>
      match repack crc32 frame seq with
      | .ok data =>
          some ({ daemon with txQueue := daemon.txQueue ++ [(tag.forward, data)], rx := .waiting },
            .silent)
      | .error _ => some ({ daemon with rx := .dead }, .ended .discarded tag)
  | .dead => none

/-- `rxStep` where the loop can go on, nothing where it waits for data or has died. -/
def rxAdvance (daemon : GadgetDaemon) : GadgetDaemon :=
  ((daemon.rxStep crc32).map Prod.fst).getD daemon

/-- One undisturbed iteration of `_rx_loop`: a read and the four steps that may follow it. -/
def iteration (daemon : GadgetDaemon) (data : Bytes) : GadgetDaemon :=
  (rxAdvance crc32)^[4] (((daemon.read (.fresh 0) data).map Prod.fst).getD daemon)

/-! ## `_tx_loop` -/

def txGet (daemon : GadgetDaemon) : Option (GadgetDaemon × Effect) :=
  match daemon.tx, daemon.txQueue with
  | .waiting, (tag, data) :: rest =>
      some ({ daemon with txQueue := rest, tx := .writing tag data 0 }, .silent)
  | _, _ => none

/-- `os.write(self.ep1_fd, data[written:])` accepted some bytes. Anything but the whole frame in one
write reaches the other side in pieces. That each piece is a transfer of its own is an assumption: a
piece that is a multiple of the packet size merges with the one after it. -/
def txWrite (daemon : GadgetDaemon) (accepted : ℕ) : Option (GadgetDaemon × Effect) :=
  match daemon.tx with
  | .writing tag data written =>
      if written < data.length ∧ written + accepted ≤ data.length then
        if written = 0 ∧ accepted = data.length then
          some ({ daemon with tx := .sent data.length }, .wrote tag data)
        else
          some ({ daemon with tx := .writing tag data (written + accepted) },
            .tore ((data.drop written).take accepted) none)
      else none
  | _ => none

/-- `os.write` raised an `OSError` other than `BlockingIOError`, which is just retried. -/
def txFail (daemon : GadgetDaemon) : Option (GadgetDaemon × Effect) :=
  match daemon.tx with
  | .writing tag data written =>
      if written < data.length then
        some ({ daemon with tx := .waiting }, .ended .discarded tag)
      else none
  | _ => none

/-- The locked block after `written == len(data)`. -/
def txFinish (daemon : GadgetDaemon) : Option (GadgetDaemon × Effect) :=
  match daemon.tx with
  | .sent length =>
      some ({ daemon with framesTx := daemon.framesTx + 1, bytesTx := daemon.bytesTx + length,
                          tx := .waiting }, .silent)
  | .writing tag data written =>
      if written = data.length then
        some ({ daemon with framesTx := daemon.framesTx + 1,
                            bytesTx := daemon.bytesTx + data.length, tx := .waiting },
          .ended .discarded tag)
      else none
  | .waiting => none

/-! ## `_hb_loop` and `send` -/

/-- `_hb_loop`: take a number, then pack and enqueue a broadcast heartbeat with it. -/
def hbStep (daemon : GadgetDaemon) (number : ℕ) : Option (GadgetDaemon × Effect) :=
  match daemon.hb with
  | .sleeping =>
      let (seq, daemon) := daemon.nextSeq
      some ({ daemon with hb := .numbered seq }, .silent)
  | .numbered seq =>
      match makeHeartbeat crc32 daemon.nodeId seq broadcast with
      | .ok data =>
          some ({ daemon with txQueue := daemon.txQueue ++ [(.fresh number, data)],
                              hb := .sleeping }, .created .heartbeat data)
      | .error _ => some ({ daemon with hb := .dead }, .silent)
  | .dead => none

/-- `send` takes its number. -/
def send (daemon : GadgetDaemon) (dst : ℤ) (payload : Bytes) : Option (GadgetDaemon × Effect) :=
  let (seq, daemon) := daemon.nextSeq
  some ({ daemon with senders := ⟨dst, payload, seq⟩ :: daemon.senders }, .silent)

/-- `send` packs and enqueues the frame; an exception of `pack` reaches the caller. -/
def sendPut (daemon : GadgetDaemon) (number index : ℕ) : Option (GadgetDaemon × Effect) :=
  match daemon.senders[index]? with
  | none => none
  | some sender =>
      let daemon := { daemon with senders := daemon.senders.eraseIdx index }
      match pack crc32 daemon.nodeId sender.dst sender.seq sender.payload 0 0 with
      | .ok data =>
          some ({ daemon with txQueue := daemon.txQueue ++ [(.fresh number, data)] },
            .created (.send sender.dst sender.payload) data)
      | .error _ => some (daemon, .silent)

/-- One step of some thread; `number` tags the frame that the step may create. -/
def step (number : ℕ) (daemon : GadgetDaemon) : Action → Option (GadgetDaemon × Effect)
  | .rxStep => daemon.rxStep crc32
  | .txGet => daemon.txGet
  | .txWrite accepted => daemon.txWrite accepted
  | .txFail => daemon.txFail
  | .txFinish => daemon.txFinish
  | .hbStep => daemon.hbStep crc32 number
  | .send dst payload => daemon.send dst payload
  | .sendPut sender => daemon.sendPut crc32 number sender

def RxThread.isFree : RxThread → Bool
  | .waiting | .dead => true
  | .received _ _ | .sized _ _ | .accounted _ _ | .numbered _ _ _ => false

def TxThread.isFree : TxThread → Bool
  | .waiting | .sent _ => true
  | .writing _ _ _ => false

/-- Whether no frame is queued for transmission and none is in a thread. -/
def isIdle (daemon : GadgetDaemon) : Bool :=
  daemon.txQueue.isEmpty && daemon.tx.isFree && daemon.rx.isFree

/-! ## The accounting -/

/-- What `_rx_loop` keeps about the frames it has received. -/
def accounting (daemon : GadgetDaemon) : ℕ × ℕ × ℕ :=
  (daemon.framesRx, daemon.seqGaps, daemon.expectedSeq)

/-- The accounting block in one expression. -/
theorem account_eq (daemon : GadgetDaemon) (frame : Frame) :
    daemon.account frame =
      { daemon with
        framesRx := daemon.framesRx + 1
        seqGaps := daemon.seqGaps + if daemon.expectedSeq < frame.seq.toNat then 1 else 0
        expectedSeq :=
          if daemon.expectedSeq ≤ frame.seq.toNat then frame.seq.toNat + 1
          else daemon.expectedSeq } := by
  simp only [account]
  split
  · rename_i hgap
    simp [le_of_lt hgap]
  · rename_i hnone
    have hnone := Nat.not_lt.mp hnone
    split
    · rename_i hequal
      simp [hequal]
    · rename_i hother
      have hbefore : ¬daemon.expectedSeq ≤ frame.seq.toNat := fun hle ↦
        hother (Nat.le_antisymm hnone hle)
      simp [hbefore]

/-- The frame with the expected number is counted and the next one expected. -/
theorem accounting_account {daemon : GadgetDaemon} {frame : Frame}
    (hseq : frame.seq.toNat = daemon.expectedSeq) :
    (daemon.account frame).accounting =
      (daemon.framesRx + 1, daemon.seqGaps, daemon.expectedSeq + 1) := by
  simp [account_eq, accounting, hseq]

variable {crc32}

/-! ## What one step can do -/

inductive Move (crc32 : Bytes → UInt32) (number : ℕ) (daemon : GadgetDaemon) :
    Action → GadgetDaemon → Effect → Prop
  | size {tag : Tag} {data : Bytes} (stands : daemon.rx = .received tag data) :
      Move crc32 number daemon .rxStep
        { daemon with bytesRx := daemon.bytesRx + data.length, rx := .sized tag data } .silent
  | account {tag : Tag} {data : Bytes} {frame : Frame} (stands : daemon.rx = .sized tag data)
      (unpacks : unpack crc32 data = .ok frame) :
      Move crc32 number daemon .rxStep
        { daemon.account frame with rx := .accounted tag frame } .silent
  | reject {tag : Tag} {data : Bytes} {message : String} (stands : daemon.rx = .sized tag data)
      (rejects : unpack crc32 data = .error (.valueError message)) :
      Move crc32 number daemon .rxStep
        { daemon with crcErrors := daemon.crcErrors + 1, rx := .waiting } (.ended .discarded tag)
  | deliver {tag : Tag} {frame : Frame} (stands : daemon.rx = .accounted tag frame)
      (addressed : Addressed daemon.nodeId frame) :
      Move crc32 number daemon .rxStep
        { daemon with rxQueue := daemon.rxQueue ++ [(tag, frame)], rx := .waiting } .silent
  | number {tag : Tag} {frame : Frame} (stands : daemon.rx = .accounted tag frame)
      (other : ¬Addressed daemon.nodeId frame) (limit : frame.hop.toNat < hopLimit) :
      Move crc32 number daemon .rxStep
        { daemon with txSeq := (daemon.txSeq + 1) % 2 ^ 32,
                      rx := .numbered tag frame daemon.txSeq } .silent
  | drop {tag : Tag} {frame : Frame} (stands : daemon.rx = .accounted tag frame)
      (other : ¬Addressed daemon.nodeId frame) (limit : ¬frame.hop.toNat < hopLimit) :
      Move crc32 number daemon .rxStep { daemon with rx := .waiting } (.ended .discarded tag)
  | forward {tag : Tag} {frame : Frame} {seq : ℕ} {data : Bytes}
      (stands : daemon.rx = .numbered tag frame seq) (packs : repack crc32 frame seq = .ok data) :
      Move crc32 number daemon .rxStep
        { daemon with txQueue := daemon.txQueue ++ [(tag.forward, data)], rx := .waiting } .silent
  | rxDie {tag : Tag} {frame : Frame} {seq : ℕ} {error : PyError}
      (stands : daemon.rx = .numbered tag frame seq)
      (raises : repack crc32 frame seq = .error error) :
      Move crc32 number daemon .rxStep { daemon with rx := .dead } (.ended .discarded tag)
  | txGet {tag : Tag} {data : Bytes} {rest : List (Tag × Bytes)} (stands : daemon.tx = .waiting)
      (waits : daemon.txQueue = (tag, data) :: rest) :
      Move crc32 number daemon .txGet
        { daemon with txQueue := rest, tx := .writing tag data 0 } .silent
  | txWhole {tag : Tag} {data : Bytes} (stands : daemon.tx = .writing tag data 0)
      (room : 0 < data.length) :
      Move crc32 number daemon (.txWrite data.length)
        { daemon with tx := .sent data.length } (.wrote tag data)
  | txPiece {tag : Tag} {data : Bytes} {written accepted : ℕ}
      (stands : daemon.tx = .writing tag data written)
      (room : written < data.length ∧ written + accepted ≤ data.length)
      (part : ¬(written = 0 ∧ accepted = data.length)) :
      Move crc32 number daemon (.txWrite accepted)
        { daemon with tx := .writing tag data (written + accepted) }
        (.tore ((data.drop written).take accepted) none)
  | txFail {tag : Tag} {data : Bytes} {written : ℕ} (stands : daemon.tx = .writing tag data written)
      (room : written < data.length) :
      Move crc32 number daemon .txFail { daemon with tx := .waiting } (.ended .discarded tag)
  | txFinish {length : ℕ} (stands : daemon.tx = .sent length) :
      Move crc32 number daemon .txFinish
        { daemon with framesTx := daemon.framesTx + 1, bytesTx := daemon.bytesTx + length,
                      tx := .waiting } .silent
  | txFinishPieces {tag : Tag} {data : Bytes} (stands : daemon.tx = .writing tag data data.length) :
      Move crc32 number daemon .txFinish
        { daemon with framesTx := daemon.framesTx + 1, bytesTx := daemon.bytesTx + data.length,
                      tx := .waiting } (.ended .discarded tag)
  | hbNumber (stands : daemon.hb = .sleeping) :
      Move crc32 number daemon .hbStep
        { daemon with txSeq := (daemon.txSeq + 1) % 2 ^ 32, hb := .numbered daemon.txSeq } .silent
  | hbPut {seq : ℕ} {data : Bytes} (stands : daemon.hb = .numbered seq)
      (packs : makeHeartbeat crc32 daemon.nodeId seq broadcast = .ok data) :
      Move crc32 number daemon .hbStep
        { daemon with txQueue := daemon.txQueue ++ [(.fresh number, data)], hb := .sleeping }
        (.created .heartbeat data)
  | hbDie {seq : ℕ} {error : PyError} (stands : daemon.hb = .numbered seq)
      (raises : makeHeartbeat crc32 daemon.nodeId seq broadcast = .error error) :
      Move crc32 number daemon .hbStep { daemon with hb := .dead } .silent
  | send (dst : ℤ) (payload : Bytes) :
      Move crc32 number daemon (.send dst payload)
        { daemon with txSeq := (daemon.txSeq + 1) % 2 ^ 32,
                      senders := ⟨dst, payload, daemon.txSeq⟩ :: daemon.senders } .silent
  | sendPut {index : ℕ} {sender : Sender} {data : Bytes}
      (stands : daemon.senders[index]? = some sender)
      (packs : pack crc32 daemon.nodeId sender.dst sender.seq sender.payload 0 0 = .ok data) :
      Move crc32 number daemon (.sendPut index)
        { daemon with senders := daemon.senders.eraseIdx index,
                      txQueue := daemon.txQueue ++ [(.fresh number, data)] }
        (.created (.send sender.dst sender.payload) data)
  | sendRaise {index : ℕ} {sender : Sender} {error : PyError}
      (stands : daemon.senders[index]? = some sender)
      (raises : pack crc32 daemon.nodeId sender.dst sender.seq sender.payload 0 0 =
        .error error) :
      Move crc32 number daemon (.sendPut index)
        { daemon with senders := daemon.senders.eraseIdx index } .silent

variable {daemon next : GadgetDaemon} {effect : Effect}

/-- A step of `_rx_loop` is one of eight moves: `unpack` raises nothing but `ValueError`. -/
theorem rxStep_moves {number : ℕ} (hstep : daemon.rxStep crc32 = some (next, effect)) :
    Move crc32 number daemon .rxStep next effect := by
  cases hrx : daemon.rx with
  | waiting => simp [rxStep, hrx] at hstep
  | dead => simp [rxStep, hrx] at hstep
  | received tag data =>
      simp only [rxStep, hrx] at hstep
      cases hstep
      exact .size hrx
  | sized tag data =>
      simp only [rxStep, hrx] at hstep
      split at hstep
      · rename_i hunpack
        cases hstep
        exact .account hrx hunpack
      · rename_i hunpack
        cases hstep
        exact .reject hrx hunpack
      · rename_i error hother hunpack
        obtain ⟨message, hvalue⟩ := unpack_error crc32 hunpack
        exact absurd hvalue (hother message)
  | accounted tag frame =>
      simp only [rxStep, hrx, nextSeq] at hstep
      split at hstep
      · rename_i haddressed
        cases hstep
        exact .deliver hrx haddressed
      · rename_i hother
        split at hstep
        · rename_i hlimit
          cases hstep
          exact .number hrx hother hlimit
        · rename_i hlimit
          cases hstep
          exact .drop hrx hother hlimit
  | numbered tag frame seq =>
      simp only [rxStep, hrx] at hstep
      split at hstep
      · rename_i hrepack
        cases hstep
        exact .forward hrx hrepack
      · rename_i hrepack
        cases hstep
        exact .rxDie hrx hrepack

/-- A step of `_tx_loop` is one of the moves of this loop. -/
theorem txWrite_moves {number accepted : ℕ}
    (hstep : daemon.txWrite accepted = some (next, effect)) :
    Move crc32 number daemon (.txWrite accepted) next effect := by
  cases htx : daemon.tx with
  | waiting => simp [txWrite, htx] at hstep
  | sent length => simp [txWrite, htx] at hstep
  | writing tag data written =>
      simp only [txWrite, htx] at hstep
      split at hstep
      · rename_i hroom
        split at hstep
        · rename_i hwhole
          obtain ⟨rfl, rfl⟩ := hwhole
          cases hstep
          exact .txWhole htx hroom.1
        · rename_i hpart
          cases hstep
          exact .txPiece htx hroom hpart
      · cases hstep

theorem txFinish_moves {number : ℕ} (hstep : daemon.txFinish = some (next, effect)) :
    Move crc32 number daemon .txFinish next effect := by
  cases htx : daemon.tx with
  | waiting => simp [txFinish, htx] at hstep
  | sent length =>
      simp only [txFinish, htx] at hstep
      cases hstep
      exact .txFinish htx
  | writing tag data written =>
      simp only [txFinish, htx] at hstep
      split at hstep
      · rename_i hall
        subst hall
        cases hstep
        exact .txFinishPieces htx
      · cases hstep

theorem hbStep_moves {number : ℕ} (hstep : daemon.hbStep crc32 number = some (next, effect)) :
    Move crc32 number daemon .hbStep next effect := by
  cases hhb : daemon.hb with
  | dead => simp [hbStep, hhb] at hstep
  | sleeping =>
      simp only [hbStep, hhb, nextSeq] at hstep
      cases hstep
      exact .hbNumber hhb
  | numbered seq =>
      simp only [hbStep, hhb] at hstep
      split at hstep
      · rename_i hpack
        cases hstep
        exact .hbPut hhb hpack
      · rename_i hpack
        cases hstep
        exact .hbDie hhb hpack

theorem sendPut_moves {number index : ℕ}
    (hstep : daemon.sendPut crc32 number index = some (next, effect)) :
    Move crc32 number daemon (.sendPut index) next effect := by
  cases hsender : daemon.senders[index]? with
  | none => simp [sendPut, hsender] at hstep
  | some sender =>
      simp only [sendPut, hsender] at hstep
      split at hstep
      · rename_i hpack
        cases hstep
        exact .sendPut hsender hpack
      · rename_i hpack
        cases hstep
        exact .sendRaise hsender hpack

theorem step_moves {number : ℕ} {action : Action}
    (hstep : daemon.step crc32 number action = some (next, effect)) :
    Move crc32 number daemon action next effect := by
  cases action with
  | rxStep => exact rxStep_moves hstep
  | txGet =>
      simp only [step, txGet] at hstep
      split at hstep <;> cases hstep
      rename_i hwaiting hqueue
      exact .txGet hwaiting hqueue
  | txWrite accepted => exact txWrite_moves hstep
  | txFail =>
      simp only [step, txFail] at hstep
      split at hstep
      · rename_i hwriting
        split at hstep <;> cases hstep
        rename_i hroom
        exact .txFail hwriting hroom
      · cases hstep
  | txFinish => exact txFinish_moves hstep
  | hbStep => exact hbStep_moves hstep
  | send dst payload =>
      cases hstep
      exact .send dst payload
  | sendPut index => exact sendPut_moves hstep

/-! ## What the steps leave alone -/

/-- The id of a gadget never changes, it counts no frame as dropped, and only `_rx_loop` moves
itself or touches its accounting. -/
theorem step_frame {number : ℕ} {action : Action}
    (hstep : daemon.step crc32 number action = some (next, effect)) :
    next.nodeId = daemon.nodeId ∧ effect.drops = 0 ∧
      (action ≠ .rxStep → next.accounting = daemon.accounting ∧ next.rx = daemon.rx) := by
  cases step_moves hstep with
  | account stands unpacks =>
      rw [account_eq]
      exact ⟨rfl, rfl, fun haction ↦ absurd rfl haction⟩
  | size | reject | deliver | number | drop | forward | rxDie =>
      exact ⟨rfl, rfl, fun haction ↦ absurd rfl haction⟩
  | txGet | txWhole | txPiece | txFail | txFinish | txFinishPieces | hbNumber | hbPut | hbDie | send
  | sendPut | sendRaise => exact ⟨rfl, rfl, fun _ ↦ ⟨rfl, rfl⟩⟩

/-- A read skips an empty transfer and hands any other one to `_rx_loop`. -/
theorem read_cases {tag : Tag} {data : Bytes}
    (hread : daemon.read tag data = some (next, effect)) :
    daemon.rx = .waiting ∧
      (data = [] ∧ next = daemon ∧ effect = .ended .discarded tag ∨
        data ≠ [] ∧ next = { daemon with rx := .received tag (data.take readSize) } ∧
          effect = .silent) := by
  unfold read at hread
  split at hread
  · rename_i hwaiting
    refine ⟨hwaiting, ?_⟩
    split at hread
    · rename_i hempty
      cases hread
      exact .inl ⟨hempty, rfl, rfl⟩
    · rename_i hdata
      cases hread
      exact .inr ⟨hdata, rfl, rfl⟩
  · cases hread

theorem read_frame {tag : Tag} {data : Bytes}
    (hread : daemon.read tag data = some (next, effect)) :
    next.nodeId = daemon.nodeId ∧ effect.drops = 0 := by
  obtain ⟨-, ⟨-, rfl, rfl⟩ | ⟨-, rfl, rfl⟩⟩ := read_cases hread
  · exact ⟨rfl, rfl⟩
  · exact ⟨rfl, rfl⟩

/-- The transfer that has been read and not been accounted for. -/
def RxThread.pending : RxThread → List Bytes
  | .received _ data => [data]
  | .sized _ data => [data]
  | _ => []

/-- A step of `_rx_loop` either settles the pending transfer, doing the locked accounting exactly if
it unpacks, or leaves both the transfer and the accounting alone. -/
theorem rxStep_cases (hstep : daemon.rxStep crc32 = some (next, effect)) :
    (next.rx.pending = daemon.rx.pending ∧ next.accounting = daemon.accounting) ∨
      ∃ data, daemon.rx.pending = [data] ∧ next.rx.pending = [] ∧
        ∀ frame, unpack crc32 data = .ok frame →
          next.accounting = (daemon.account frame).accounting := by
  have hmove : Move crc32 0 daemon .rxStep next effect := rxStep_moves hstep
  cases hmove with
  | size hrx | deliver hrx | number hrx | drop hrx | forward hrx | rxDie hrx =>
      rw [hrx]
      exact .inl ⟨rfl, rfl⟩
  | @account tag data frame hrx hunpack =>
      rw [hrx]
      refine .inr ⟨data, rfl, rfl, ?_⟩
      intro other hother
      rw [hunpack] at hother
      cases hother
      rfl
  | @reject tag data message hrx hunpack =>
      rw [hrx]
      refine .inr ⟨data, rfl, rfl, ?_⟩
      intro frame hframe
      rw [hunpack] at hframe
      cases hframe

end GadgetDaemon

end UsbDirectFabric.Daemon
