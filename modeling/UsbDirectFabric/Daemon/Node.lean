import UsbDirectFabric.Daemon.Effect

/-!
# The dual-cable node, `common/node.py`

The threads of a started `UDFNode` and any number of application threads inside `send`. One step is
one critical section, one queue operation or one system call. Both receive loops run the same code
on endpoints of their own; everything the node sends leaves through `_host_tx_loop`.
-/

namespace UsbDirectFabric.Daemon

open Wire

inductive RxLoop
  | gadgetRx
  | hostRx
deriving DecidableEq, Repr

namespace UDFNode

/-- Where a receive loop stands; `queued` is inside `forward`, before the count of forwards. -/
inductive RxThread
  | waiting
  | received (tag : Tag) (data : Bytes)
  | unpacked (tag : Tag) (frame : Frame)
  | numbered (tag : Tag) (frame : Frame) (seq : ℕ)
  | queued
  | dead
deriving DecidableEq, Repr

inductive TxThread
  | waiting
  | holding (tag : Tag) (raw : Bytes)
deriving DecidableEq, Repr

inductive HbThread
  | sleeping
  | numbered (seq : ℕ)
  | dead
deriving DecidableEq, Repr

/-- An application thread inside `send`: before it packs, or before it counts. -/
inductive Sender
  | numbered (dst : ℤ) (payload : Bytes) (seq : ℕ)
  | queued (length : ℕ)
deriving DecidableEq, Repr

inductive Action
  | send (dst : ℤ) (payload : Bytes)
  | sendStep (sender : ℕ)
  | recv
  | rxStep (loop : RxLoop)
  | txGet
  | txWrite (accepted : ℕ)
  | txFail
  | txSkip
  | hbStep
deriving DecidableEq, Repr

end UDFNode

/-- The attributes of `UDFNode` and the positions of its threads. An endpoint is represented by
whether it could be opened. `taken` records what `recv` has handed out. -/
structure UDFNode where
  nodeId : ℤ
  gadgetEpOut : Bool
  hostFd : Bool
  rxQueue : List (Tag × Frame)
  taken : List (Tag × Frame)
  txQueue : List (Tag × Bytes)
  seqHostTx : ℕ
  framesRx : ℕ
  framesTx : ℕ
  bytesRx : ℕ
  bytesTx : ℕ
  forwarded : ℕ
  dropped : ℕ
  gadgetRx : UDFNode.RxThread
  hostRx : UDFNode.RxThread
  hostTx : UDFNode.TxThread
  heartbeat : UDFNode.HbThread
  senders : List UDFNode.Sender
deriving DecidableEq, Repr

namespace UDFNode

/-- A node after `__init__` and `start`, with all threads at the head of their loops. -/
def start (nodeId : ℤ) (gadgetEpOut hostFd : Bool) : UDFNode where
  nodeId := nodeId
  gadgetEpOut := gadgetEpOut
  hostFd := hostFd
  rxQueue := []
  taken := []
  txQueue := []
  seqHostTx := 0
  framesRx := 0
  framesTx := 0
  bytesRx := 0
  bytesTx := 0
  forwarded := 0
  dropped := 0
  gadgetRx := .waiting
  hostRx := .waiting
  hostTx := .waiting
  heartbeat := .sleeping
  senders := []

variable (crc32 : Bytes → UInt32)

/-! ## `send` and `recv` -/

/-- `send` takes its number. -/
def send (node : UDFNode) (dst : ℤ) (payload : Bytes) : Option (UDFNode × Effect) :=
  some ({ node with seqHostTx := node.seqHostTx + 1,
                    senders := .numbered dst payload node.seqHostTx :: node.senders }, .silent)

/-- `send` packs and enqueues the frame, then counts it; an exception of `pack` reaches the
caller. -/
def sendStep (node : UDFNode) (number index : ℕ) : Option (UDFNode × Effect) :=
  match node.senders[index]? with
  | none => none
  | some (.numbered dst payload seq) =>
      let node := { node with senders := node.senders.eraseIdx index }
      match pack crc32 node.nodeId dst seq payload 0 0 with
      | .ok raw =>
          some ({ node with txQueue := node.txQueue ++ [(.fresh number, raw)],
                            senders := .queued payload.length :: node.senders },
            .created (.send dst payload) raw)
      | .error _ => some (node, .silent)
  | some (.queued length) =>
      some ({ node with framesTx := node.framesTx + 1, bytesTx := node.bytesTx + length,
                        senders := node.senders.eraseIdx index }, .silent)

def recv (node : UDFNode) : Option (UDFNode × Effect) :=
  match node.rxQueue with
  | [] => none
  | item :: rest => some ({ node with rxQueue := rest, taken := node.taken ++ [item] }, .silent)

/-! ## The receive loops -/

def rx (node : UDFNode) : RxLoop → RxThread
  | .gadgetRx => node.gadgetRx
  | .hostRx => node.hostRx

def withRx (node : UDFNode) (thread : RxThread) : RxLoop → UDFNode
  | .gadgetRx => { node with gadgetRx := thread }
  | .hostRx => { node with hostRx := thread }

def isOpen (node : UDFNode) : RxLoop → Bool
  | .gadgetRx => node.gadgetEpOut
  | .hostRx => node.hostFd

/-- `os.read(fd, 16388)` returned `data`; an empty transfer is skipped. -/
def read (node : UDFNode) (loop : RxLoop) (tag : Tag) (data : Bytes) :
    Option (UDFNode × Effect) :=
  if node.isOpen loop ∧ node.rx loop = .waiting then
    if data = [] then some (node, .ended .discarded tag)
    else some (node.withRx (.received tag (data.take readSize)) loop, .silent)
  else none

/-- `forward` up to the allocation of a number. -/
def forward (node : UDFNode) (loop : RxLoop) (tag : Tag) (frame : Frame) : UDFNode × Effect :=
  if (frame.dst.toNat : ℤ) = node.nodeId then (node.withRx .waiting loop, .ended .discarded tag)
  else if frame.hop.toNat ≥ hopLimit then
    let node := node.withRx .waiting loop
    ({ node with dropped := node.dropped + 1 }, .ended .dropped tag)
  else
    let node := node.withRx (.numbered tag frame node.seqHostTx) loop
    ({ node with seqHostTx := node.seqHostTx + 1 }, .silent)

/-- The rest of one iteration of a receive loop, one step at a time. Only `OSError` and `ValueError`
are caught; any other exception ends the thread. -/
def rxStep (node : UDFNode) (loop : RxLoop) : Option (UDFNode × Effect) :=
  match node.rx loop with
  | .waiting => none
  | .received tag data =>
      match unpack crc32 data with
      | .ok frame =>
          let node := node.withRx (.unpacked tag frame) loop
          some ({ node with framesRx := node.framesRx + 1,
                            bytesRx := node.bytesRx + frame.payload.length }, .silent)
      | .error (.valueError _) => some (node.withRx .waiting loop, .ended .discarded tag)
      | .error _ => some (node.withRx .dead loop, .ended .discarded tag)
  | .unpacked tag frame =>
      if Addressed node.nodeId frame then
        let node := node.withRx .waiting loop
        some ({ node with rxQueue := node.rxQueue ++ [(tag, frame)] }, .silent)
      else some (node.forward loop tag frame)
  | .numbered tag frame seq =>
      match repack crc32 frame seq with
      | .ok raw =>
          let node := node.withRx .queued loop
          some ({ node with txQueue := node.txQueue ++ [(tag.forward, raw)] }, .silent)
      | .error (.valueError _) => some (node.withRx .waiting loop, .ended .discarded tag)
      | .error _ => some (node.withRx .dead loop, .ended .discarded tag)
  | .queued =>
      let node := node.withRx .waiting loop
      some ({ node with forwarded := node.forwarded + 1 }, .silent)
  | .dead => none

def gadgetRxLoop (node : UDFNode) : Option (UDFNode × Effect) :=
  node.rxStep crc32 .gadgetRx

def hostRxLoop (node : UDFNode) : Option (UDFNode × Effect) :=
  node.rxStep crc32 .hostRx

/-! ## `_host_tx_loop` and `_heartbeat_loop` -/

def txGet (node : UDFNode) : Option (UDFNode × Effect) :=
  match node.hostTx, node.txQueue with
  | .waiting, (tag, raw) :: rest =>
      some ({ node with txQueue := rest, hostTx := .holding tag raw }, .silent)
  | _, _ => none

/-- `os.write(self._host_fd, raw)`. The number of accepted bytes is ignored: after a short write the
rest of the frame is given up. -/
def txWrite (node : UDFNode) (accepted : ℕ) : Option (UDFNode × Effect) :=
  match node.hostTx with
  | .holding tag raw =>
      if node.hostFd ∧ accepted ≤ raw.length then
        if accepted = raw.length then some ({ node with hostTx := .waiting }, .wrote tag raw)
        else some ({ node with hostTx := .waiting }, .tore (raw.take accepted) (some tag))
      else none
  | .waiting => none

def txFail (node : UDFNode) : Option (UDFNode × Effect) :=
  match node.hostTx with
  | .holding tag _ =>
      if node.hostFd then
        some ({ node with hostTx := .waiting, dropped := node.dropped + 1 }, .ended .dropped tag)
      else none
  | .waiting => none

/-- Without a host device the frame is not written anywhere. -/
def txSkip (node : UDFNode) : Option (UDFNode × Effect) :=
  match node.hostTx with
  | .holding tag _ =>
      if node.hostFd then none
      else some ({ node with hostTx := .waiting }, .ended .discarded tag)
  | .waiting => none

/-- `_heartbeat_loop` takes a number and calls `frame.pack_heartbeat`. The module `frame` defines no
such function, so the call raises `AttributeError`, which nothing catches. -/
def hbStep (node : UDFNode) : Option (UDFNode × Effect) :=
  match node.heartbeat with
  | .sleeping =>
      some ({ node with seqHostTx := node.seqHostTx + 1, heartbeat := .numbered node.seqHostTx },
        .silent)
  | .numbered _ => some ({ node with heartbeat := .dead }, .silent)
  | .dead => none

/-- One step of some thread; `number` tags the frame that the step may create. -/
def step (number : ℕ) (node : UDFNode) : Action → Option (UDFNode × Effect)
  | .send dst payload => node.send dst payload
  | .sendStep sender => node.sendStep crc32 number sender
  | .recv => node.recv
  | .rxStep .gadgetRx => node.gadgetRxLoop crc32
  | .rxStep .hostRx => node.hostRxLoop crc32
  | .txGet => node.txGet
  | .txWrite accepted => node.txWrite accepted
  | .txFail => node.txFail
  | .txSkip => node.txSkip
  | .hbStep => node.hbStep

/-- Both receive loops run the same code. -/
theorem step_rxStep (number : ℕ) (node : UDFNode) (loop : RxLoop) :
    node.step crc32 number (.rxStep loop) = node.rxStep crc32 loop := by
  cases loop <;> rfl

/-! ## What a step that packs nothing can do -/

/-- One step of `recv`, `_host_tx_loop` or `_heartbeat_loop`, with the state and the effect it leads
to. -/
inductive PlainMove (node : UDFNode) : Action → UDFNode → Effect → Prop
  | recv {item : Tag × Frame} {rest : List (Tag × Frame)} (waits : node.rxQueue = item :: rest) :
      PlainMove node .recv { node with rxQueue := rest, taken := node.taken ++ [item] } .silent
  | txGet {tag : Tag} {raw : Bytes} {rest : List (Tag × Bytes)} (stands : node.hostTx = .waiting)
      (waits : node.txQueue = (tag, raw) :: rest) :
      PlainMove node .txGet { node with txQueue := rest, hostTx := .holding tag raw } .silent
  | txWhole {tag : Tag} {raw : Bytes} (stands : node.hostTx = .holding tag raw)
      (opened : node.hostFd = true) :
      PlainMove node (.txWrite raw.length) { node with hostTx := .waiting } (.wrote tag raw)
  | txShort {tag : Tag} {raw : Bytes} {accepted : ℕ} (stands : node.hostTx = .holding tag raw)
      (opened : node.hostFd = true) (short : accepted < raw.length) :
      PlainMove node (.txWrite accepted) { node with hostTx := .waiting }
        (.tore (raw.take accepted) (some tag))
  | txFail {tag : Tag} {raw : Bytes} (stands : node.hostTx = .holding tag raw)
      (opened : node.hostFd = true) :
      PlainMove node .txFail { node with hostTx := .waiting, dropped := node.dropped + 1 }
        (.ended .dropped tag)
  | txSkip {tag : Tag} {raw : Bytes} (stands : node.hostTx = .holding tag raw)
      (closed : node.hostFd = false) :
      PlainMove node .txSkip { node with hostTx := .waiting } (.ended .discarded tag)
  | hbNumber (stands : node.heartbeat = .sleeping) :
      PlainMove node .hbStep
        { node with seqHostTx := node.seqHostTx + 1, heartbeat := .numbered node.seqHostTx } .silent
  | hbDie {seq : ℕ} (stands : node.heartbeat = .numbered seq) :
      PlainMove node .hbStep { node with heartbeat := .dead } .silent

section PlainMove

variable {node next : UDFNode} {effect : Effect}

theorem recv_moves (hstep : node.recv = some (next, effect)) :
    PlainMove node .recv next effect := by
  unfold recv at hstep
  split at hstep <;> cases hstep
  rename_i hwaits
  exact .recv hwaits

theorem txGet_moves (hstep : node.txGet = some (next, effect)) :
    PlainMove node .txGet next effect := by
  unfold txGet at hstep
  split at hstep <;> cases hstep
  rename_i hstands hwaits
  exact .txGet hstands hwaits

theorem txWrite_moves {accepted : ℕ} (hstep : node.txWrite accepted = some (next, effect)) :
    PlainMove node (.txWrite accepted) next effect := by
  unfold txWrite at hstep
  split at hstep
  · rename_i hstands
    split at hstep
    · rename_i hopened
      split at hstep
      · rename_i hwhole
        subst hwhole
        cases hstep
        exact .txWhole hstands hopened.1
      · rename_i hpart
        cases hstep
        exact .txShort hstands hopened.1 (Nat.lt_of_le_of_ne hopened.2 hpart)
    · cases hstep
  · cases hstep

theorem txFail_moves (hstep : node.txFail = some (next, effect)) :
    PlainMove node .txFail next effect := by
  unfold txFail at hstep
  split at hstep
  · rename_i hstands
    split at hstep <;> cases hstep
    rename_i hopened
    exact .txFail hstands hopened
  · cases hstep

theorem txSkip_moves (hstep : node.txSkip = some (next, effect)) :
    PlainMove node .txSkip next effect := by
  unfold txSkip at hstep
  split at hstep
  · rename_i hstands
    split at hstep <;> cases hstep
    rename_i hclosed
    exact .txSkip hstands (Bool.eq_false_of_not_eq_true hclosed)
  · cases hstep

theorem hbStep_moves (hstep : node.hbStep = some (next, effect)) :
    PlainMove node .hbStep next effect := by
  unfold hbStep at hstep
  split at hstep <;> cases hstep
  · rename_i hstands
    exact .hbNumber hstands
  · rename_i hstands
    exact .hbDie hstands

/-- Id and senders stay, and `dropped` counts the copies whose end says so. -/
theorem PlainMove.frame {action : Action} (hmove : PlainMove node action next effect) :
    next.nodeId = node.nodeId ∧ next.dropped = node.dropped + effect.drops ∧
      next.senders = node.senders := by
  cases hmove <;> exact ⟨rfl, rfl, rfl⟩

end PlainMove

/-! ## What a step of `send` or of a receive loop can do -/

/-- One step of a thread inside `send`, with the state and the effect it leads to. -/
inductive SenderMove (number index : ℕ) (node : UDFNode) : UDFNode → Effect → Prop
  | put {dst : ℤ} {payload : Bytes} {seq : ℕ} {raw : Bytes}
      (stands : node.senders[index]? = some (.numbered dst payload seq))
      (packs : pack crc32 node.nodeId dst seq payload 0 0 = .ok raw) :
      SenderMove number index node { node with
        txQueue := node.txQueue ++ [(.fresh number, raw)]
        senders := .queued payload.length :: node.senders.eraseIdx index }
        (.created (.send dst payload) raw)
  | fail {dst : ℤ} {payload : Bytes} {seq : ℕ} {error : PyError}
      (stands : node.senders[index]? = some (.numbered dst payload seq))
      (raises : pack crc32 node.nodeId dst seq payload 0 0 = .error error) :
      SenderMove number index node { node with senders := node.senders.eraseIdx index } .silent
  | count {length : ℕ} (stands : node.senders[index]? = some (.queued length)) :
      SenderMove number index node { node with
        framesTx := node.framesTx + 1
        bytesTx := node.bytesTx + length
        senders := node.senders.eraseIdx index } .silent

theorem sendStep_moves {node next : UDFNode} {effect : Effect} {number index : ℕ}
    (hstep : node.sendStep crc32 number index = some (next, effect)) :
    SenderMove crc32 number index node next effect := by
  unfold sendStep at hstep
  split at hstep
  · cases hstep
  · rename_i hsender
    simp only at hstep
    split at hstep
    · rename_i hpack
      cases hstep
      exact .put hsender hpack
    · rename_i hpack
      cases hstep
      exact .fail hsender hpack
  · rename_i hsender
    cases hstep
    exact .count hsender

/-- One step of a receive loop, with the state and the effect it leads to. -/
inductive LoopMove (node : UDFNode) (loop : RxLoop) : UDFNode → Effect → Prop
  | reject {tag : Tag} {data : Bytes} {message : String}
      (stands : node.rx loop = .received tag data)
      (raises : unpack crc32 data = .error (.valueError message)) :
      LoopMove node loop (node.withRx .waiting loop) (.ended .discarded tag)
  | count {tag : Tag} {data : Bytes} {frame : Frame} (stands : node.rx loop = .received tag data)
      (unpacks : unpack crc32 data = .ok frame) :
      LoopMove node loop { node.withRx (.unpacked tag frame) loop with
        framesRx := (node.withRx (.unpacked tag frame) loop).framesRx + 1
        bytesRx := (node.withRx (.unpacked tag frame) loop).bytesRx + frame.payload.length } .silent
  | deliver {tag : Tag} {frame : Frame} (stands : node.rx loop = .unpacked tag frame)
      (addressed : Addressed node.nodeId frame) :
      LoopMove node loop { node.withRx .waiting loop with
        rxQueue := (node.withRx .waiting loop).rxQueue ++ [(tag, frame)] } .silent
  | drop {tag : Tag} {frame : Frame} (stands : node.rx loop = .unpacked tag frame)
      (other : ¬Addressed node.nodeId frame) (expired : frame.hop.toNat ≥ hopLimit) :
      LoopMove node loop { node.withRx .waiting loop with
        dropped := (node.withRx .waiting loop).dropped + 1 } (.ended .dropped tag)
  | number {tag : Tag} {frame : Frame} (stands : node.rx loop = .unpacked tag frame)
      (other : ¬Addressed node.nodeId frame) (hop : frame.hop.toNat < hopLimit) :
      LoopMove node loop { node.withRx (.numbered tag frame node.seqHostTx) loop with
        seqHostTx := (node.withRx (.numbered tag frame node.seqHostTx) loop).seqHostTx + 1 } .silent
  | put {tag : Tag} {frame : Frame} {seq : ℕ} {raw : Bytes}
      (stands : node.rx loop = .numbered tag frame seq) (packs : repack crc32 frame seq = .ok raw) :
      LoopMove node loop { node.withRx .queued loop with
        txQueue := (node.withRx .queued loop).txQueue ++ [(tag.forward, raw)] } .silent
  | fail {tag : Tag} {frame : Frame} {seq : ℕ} {message : String}
      (stands : node.rx loop = .numbered tag frame seq)
      (raises : repack crc32 frame seq = .error (.valueError message)) :
      LoopMove node loop (node.withRx .waiting loop) (.ended .discarded tag)
  | die {tag : Tag} {frame : Frame} {seq : ℕ} {error : PyError}
      (stands : node.rx loop = .numbered tag frame seq)
      (raises : repack crc32 frame seq = .error error) :
      LoopMove node loop (node.withRx .dead loop) (.ended .discarded tag)
  | finish (stands : node.rx loop = .queued) :
      LoopMove node loop { node.withRx .waiting loop with
        forwarded := (node.withRx .waiting loop).forwarded + 1 } .silent

/-- `unpack` raises nothing but `ValueError`, and `forward` is called for no frame of the node. -/
theorem rxStep_moves {node next : UDFNode} {effect : Effect} {loop : RxLoop}
    (hstep : node.rxStep crc32 loop = some (next, effect)) :
    LoopMove crc32 node loop next effect := by
  cases hrx : node.rx loop with
  | waiting => simp [rxStep, hrx] at hstep
  | dead => simp [rxStep, hrx] at hstep
  | queued =>
      simp only [rxStep, hrx] at hstep
      cases hstep
      exact .finish hrx
  | received tag data =>
      simp only [rxStep, hrx] at hstep
      split at hstep
      · rename_i hunpack
        cases hstep
        exact .count hrx hunpack
      · rename_i hunpack
        cases hstep
        exact .reject hrx hunpack
      · rename_i error herror hunpack
        obtain ⟨message, rfl⟩ := unpack_error crc32 hunpack
        exact absurd rfl (herror message)
  | unpacked tag frame =>
      simp only [rxStep, hrx] at hstep
      split at hstep
      · rename_i haddressed
        cases hstep
        exact .deliver hrx haddressed
      · rename_i hother
        unfold forward at hstep
        rw [if_neg fun hself ↦ hother (Or.inl hself)] at hstep
        split at hstep
        · rename_i hexpired
          cases hstep
          exact .drop hrx hother hexpired
        · rename_i hhop
          cases hstep
          exact .number hrx hother (Nat.lt_of_not_le hhop)
  | numbered tag frame seq =>
      simp only [rxStep, hrx] at hstep
      split at hstep
      · rename_i hrepack
        cases hstep
        exact .put hrx hrepack
      · rename_i hrepack
        cases hstep
        exact .fail hrx hrepack
      · rename_i hrepack
        cases hstep
        exact .die hrx hrepack

/-- One step of a node: a call of `send`, or a step of a sender, of a receive loop or of one of the
other threads. -/
inductive Move (number : ℕ) (node : UDFNode) : Action → UDFNode → Effect → Prop
  | send (dst : ℤ) (payload : Bytes) :
      Move number node (.send dst payload) { node with
        seqHostTx := node.seqHostTx + 1
        senders := .numbered dst payload node.seqHostTx :: node.senders } .silent
  | sender {index : ℕ} {next : UDFNode} {effect : Effect}
      (move : SenderMove crc32 number index node next effect) :
      Move number node (.sendStep index) next effect
  | loop {loop : RxLoop} {next : UDFNode} {effect : Effect}
      (move : LoopMove crc32 node loop next effect) : Move number node (.rxStep loop) next effect
  | plain {action : Action} {next : UDFNode} {effect : Effect}
      (move : PlainMove node action next effect) : Move number node action next effect

theorem step_moves {node next : UDFNode} {effect : Effect} {number : ℕ} {action : Action}
    (hstep : node.step crc32 number action = some (next, effect)) :
    Move crc32 number node action next effect := by
  cases action with
  | send dst payload =>
      cases hstep
      exact .send dst payload
  | sendStep index => exact .sender (sendStep_moves crc32 hstep)
  | recv => exact .plain (recv_moves hstep)
  | rxStep loop =>
      rw [step_rxStep] at hstep
      exact .loop (rxStep_moves crc32 hstep)
  | txGet => exact .plain (txGet_moves hstep)
  | txWrite accepted => exact .plain (txWrite_moves hstep)
  | txFail => exact .plain (txFail_moves hstep)
  | txSkip => exact .plain (txSkip_moves hstep)
  | hbStep => exact .plain (hbStep_moves hstep)

/-! ## What the steps leave alone -/

def Held (node : UDFNode) (seq : ℕ) : Prop :=
  ∃ dst payload, .numbered dst payload seq ∈ node.senders

/-- A receive loop changes its own position only. -/
theorem withRx_frame (node : UDFNode) (thread : RxThread) (loop : RxLoop) :
    (node.withRx thread loop).nodeId = node.nodeId ∧
      (node.withRx thread loop).dropped = node.dropped ∧
      (node.withRx thread loop).senders = node.senders := by
  cases loop <;> exact ⟨rfl, rfl, rfl⟩

variable {crc32} {node next : UDFNode} {effect : Effect}

theorem LoopMove.frame {loop : RxLoop} (hmove : LoopMove crc32 node loop next effect) :
    next.nodeId = node.nodeId ∧ next.dropped = node.dropped + effect.drops ∧
      next.senders = node.senders := by
  cases hmove <;> simp [withRx_frame, Effect.drops]

theorem SenderMove.frame {number index : ℕ}
    (hmove : SenderMove crc32 number index node next effect) :
    next.nodeId = node.nodeId ∧ next.dropped = node.dropped + effect.drops ∧
      ∀ dst payload seq, .numbered dst payload seq ∈ next.senders →
        .numbered dst payload seq ∈ node.senders := by
  cases hmove with
  | put =>
      refine ⟨rfl, rfl, ?_⟩
      intro dst payload seq hsender
      have hold := (List.mem_cons.mp hsender).resolve_left (by simp)
      exact List.mem_of_mem_eraseIdx hold
  | fail => exact ⟨rfl, rfl, fun _ _ _ hsender ↦ List.mem_of_mem_eraseIdx hsender⟩
  | count => exact ⟨rfl, rfl, fun _ _ _ hsender ↦ List.mem_of_mem_eraseIdx hsender⟩

/-- The id of a node never changes, `dropped` counts the copies whose end says so, and a sender that
newly holds a number has just entered `send` and taken it from the counter. -/
theorem step_frame {number : ℕ} {action : Action}
    (hstep : node.step crc32 number action = some (next, effect)) :
    next.nodeId = node.nodeId ∧ next.dropped = node.dropped + effect.drops ∧
      ∀ dst payload seq, .numbered dst payload seq ∈ next.senders →
        .numbered dst payload seq ∈ node.senders ∨
          action = .send dst payload ∧ seq = node.seqHostTx := by
  cases step_moves crc32 hstep with
  | send dst payload =>
      refine ⟨rfl, rfl, ?_⟩
      intro other contents seq hsender
      rcases List.mem_cons.mp hsender with hnew | hold
      · cases hnew
        exact .inr ⟨rfl, rfl⟩
      · exact .inl hold
  | sender hmove =>
      obtain ⟨hid, hdropped, hsenders⟩ := hmove.frame
      exact ⟨hid, hdropped, fun dst payload seq hsender ↦ .inl (hsenders dst payload seq hsender)⟩
  | loop hmove =>
      obtain ⟨hid, hdropped, hsenders⟩ := hmove.frame
      exact ⟨hid, hdropped, fun _ _ _ hsender ↦ .inl (hsenders ▸ hsender)⟩
  | plain hmove =>
      obtain ⟨hid, hdropped, hsenders⟩ := hmove.frame
      exact ⟨hid, hdropped, fun _ _ _ hsender ↦ .inl (hsenders ▸ hsender)⟩

/-- A read skips an empty transfer and hands any other one to the receive loop. -/
theorem read_cases {loop : RxLoop} {tag : Tag} {data : Bytes}
    (hread : node.read loop tag data = some (next, effect)) :
    node.isOpen loop ∧ node.rx loop = .waiting ∧
      (data = [] ∧ next = node ∧ effect = .ended .discarded tag ∨
        data ≠ [] ∧ next = node.withRx (.received tag (data.take readSize)) loop ∧
          effect = .silent) := by
  unfold read at hread
  split at hread
  · rename_i henabled
    refine ⟨henabled.1, henabled.2, ?_⟩
    split at hread
    · rename_i hempty
      cases hread
      exact .inl ⟨hempty, rfl, rfl⟩
    · rename_i hdata
      cases hread
      exact .inr ⟨hdata, rfl, rfl⟩
  · cases hread

theorem read_frame {loop : RxLoop} {tag : Tag} {data : Bytes}
    (hread : node.read loop tag data = some (next, effect)) :
    next.nodeId = node.nodeId ∧ next.dropped = node.dropped + effect.drops ∧
      next.senders = node.senders := by
  obtain ⟨-, -, ⟨-, rfl, rfl⟩ | ⟨-, rfl, rfl⟩⟩ := read_cases hread
  · exact ⟨rfl, rfl, rfl⟩
  · exact withRx_frame _ _ _

/-- A `send` whose arguments fit their fields puts a frame on the transmit queue. -/
theorem sendStep_creates {number index : ℕ} {dst : ℤ} {payload : Bytes} {seq : ℕ}
    (hsender : node.senders[index]? = some (.numbered dst payload seq)) (hseq : seq < 2 ^ 32)
    (hid : 0 ≤ node.nodeId ∧ node.nodeId < 256) (hdst : 0 ≤ dst ∧ dst < 256)
    (hpayload : payload.length ≤ maxPayload) :
    ∃ next data,
      node.sendStep crc32 number index = some (next, .created (.send dst payload) data) := by
  have hlength : payload.length < 65536 := lt_of_le_of_lt hpayload (by decide)
  have hrange : 0 ≤ (seq : ℤ) ∧ (seq : ℤ) < 2 ^ 32 :=
    ⟨Int.natCast_nonneg seq, by exact_mod_cast hseq⟩
  have hzero : 0 ≤ (0 : ℤ) ∧ (0 : ℤ) < 256 := by decide
  obtain ⟨data, hpack⟩ := pack_of_range crc32 hid hdst hrange hzero hzero hlength
  simp only [sendStep, hsender, hpack]
  exact ⟨_, data, rfl⟩

/-- Whether the transmit loop writes all of the frame that it holds. -/
def WritesAll : Action → TxThread → Prop
  | .txWrite accepted, .holding _ raw => accepted = raw.length
  | .txFail, _ => False
  | .txSkip, _ => False
  | _, _ => True

instance : ∀ action thread, Decidable (WritesAll action thread)
  | .txWrite accepted, .holding _ raw => inferInstanceAs (Decidable (accepted = raw.length))
  | .txFail, _ | .txSkip, _ => isFalse id
  | .txWrite _, .waiting | .send _ _, _ | .sendStep _, _ | .recv, _ | .rxStep _, _ | .txGet, _
  | .hbStep, _ => isTrue trivial

/-- A step that takes at most a number of 32 bits and gives up no frame it should write. -/
def Faultless (node : UDFNode) (action : Action) : Prop :=
  node.seqHostTx < 2 ^ 32 ∧ WritesAll action node.hostTx

instance (node : UDFNode) (action : Action) : Decidable (node.Faultless action) :=
  inferInstanceAs (Decidable (_ ∧ _))

def RxThread.isFree : RxThread → Bool
  | .waiting | .queued | .dead => true
  | .received _ _ | .unpacked _ _ | .numbered _ _ _ => false

def TxThread.isFree : TxThread → Bool
  | .waiting => true
  | .holding _ _ => false

/-- Whether no frame is queued for transmission and none is in a thread. -/
def isIdle (node : UDFNode) : Bool :=
  node.txQueue.isEmpty && node.hostTx.isFree && node.gadgetRx.isFree && node.hostRx.isFree

end UDFNode

end UsbDirectFabric.Daemon
