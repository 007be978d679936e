import UsbDirectFabric.Foundation.Crc32
import UsbDirectFabric.Foundation.Run
import UsbDirectFabric.Daemon.Node

/-!
# Calls of a node, one after the other

`send`, `forward` and an iteration of a receive loop as whole operations: what the thread steps come
to when nothing runs in between. The counter `_seq_host_tx` is an integer without a bound, while the
field it is packed into has 32 bits. Once the counter has left the field every call that gets as far
as `frame.pack` raises `struct.error`, and the receive loops catch only `OSError` and `ValueError`.
-/

namespace UsbDirectFabric.Daemon.UDFNode

open Wire

/-- A call of `send` or `forward`, or a transfer that a receive loop handles. -/
inductive Call
  | send (dst : ℤ) (payload : Bytes)
  | forward (frame : Frame)
  | receive (loop : RxLoop) (data : Bytes)
deriving DecidableEq, Repr

/-- Destination ids and payloads within their bounds. -/
def Call.Valid : Call → Prop
  | .send dst payload => (0 ≤ dst ∧ dst < 256) ∧ payload.length ≤ maxPayload
  | .forward frame => frame.payload.length ≤ maxPayload
  | .receive _ _ => True

variable (crc32 : Bytes → UInt32)

/-- `send`: the node afterwards, with the packed frame or the exception that the caller sees. -/
def sendCall (node : UDFNode) (tag : Tag) (dst : ℤ) (payload : Bytes) :
    UDFNode × Except PyError (List Bytes) :=
  let numbered := { node with seqHostTx := node.seqHostTx + 1 }
  match pack crc32 node.nodeId dst node.seqHostTx payload 0 0 with
  | .error error => (numbered, .error error)
  | .ok raw =>
      ({ numbered with txQueue := numbered.txQueue ++ [(tag, raw)]
                       framesTx := numbered.framesTx + 1
                       bytesTx := numbered.bytesTx + payload.length }, .ok [raw])

def forwardCall (node : UDFNode) (tag : Tag) (frame : Frame) :
    UDFNode × Except PyError (List Bytes) :=
  if (frame.dst.toNat : ℤ) = node.nodeId then (node, .ok [])
  else if frame.hop.toNat ≥ hopLimit then ({ node with dropped := node.dropped + 1 }, .ok [])
  else
    let numbered := { node with seqHostTx := node.seqHostTx + 1 }
    match repack crc32 frame node.seqHostTx with
    | .error error => (numbered, .error error)
    | .ok raw =>
        ({ numbered with txQueue := numbered.txQueue ++ [(tag.forward, raw)]
                         forwarded := numbered.forwarded + 1 }, .ok [raw])

/-- The locked block of a receive loop after a successful `unpack`. -/
def count (node : UDFNode) (frame : Frame) : UDFNode :=
  { node with framesRx := node.framesRx + 1, bytesRx := node.bytesRx + frame.payload.length }

/-- The body of the `try` statement of a receive loop. -/
def handle (node : UDFNode) (tag : Tag) (data : Bytes) : UDFNode × Except PyError (List Bytes) :=
  match unpack crc32 data with
  | .error error => (node, .error error)
  | .ok frame =>
      let node := node.count frame
      if Addressed node.nodeId frame then
        ({ node with rxQueue := node.rxQueue ++ [(tag, frame)] }, .ok [])
      else node.forwardCall crc32 tag frame

/-- The `except (OSError, ValueError)` of a receive loop: any other exception ends the thread. -/
def guarded (loop : RxLoop) :
    UDFNode × Except PyError (List Bytes) → UDFNode × Except PyError (List Bytes)
  | (node, .ok packed) => (node, .ok packed)
  | (node, .error (.valueError _)) => (node, .ok [])
  | (node, .error error) => (node.withRx .dead loop, .error error)

/-- One iteration of a receive loop whose read returns `data`. -/
def receiveCall (node : UDFNode) (tag : Tag) (loop : RxLoop) (data : Bytes) :
    UDFNode × Except PyError (List Bytes) :=
  if node.isOpen loop ∧ node.rx loop = .waiting ∧ data ≠ [] then
    guarded loop (node.handle crc32 tag (data.take readSize))
  else (node, .ok [])

def perform (node : UDFNode) (tag : Tag) : Call → UDFNode × Except PyError (List Bytes)
  | .send dst payload => node.sendCall crc32 tag dst payload
  | .forward frame => node.forwardCall crc32 tag frame
  | .receive loop data => node.receiveCall crc32 tag loop data

def Relays (node : UDFNode) (frame : Frame) : Prop :=
  (frame.dst.toNat : ℤ) ≠ node.nodeId ∧ frame.hop.toNat < hopLimit

def Passes (node : UDFNode) (loop : RxLoop) (data : Bytes) (frame : Frame) : Prop :=
  node.isOpen loop ∧ node.rx loop = .waiting ∧ data ≠ [] ∧
    unpack crc32 (data.take readSize) = .ok frame ∧ ¬Addressed node.nodeId frame

/-- If the call packs a frame then the counter fits its field, and so does the node's own id if the
frame is one of its own. -/
def Fits (node : UDFNode) : Call → Prop
  | .send _ _ => node.seqHostTx < 2 ^ 32 ∧ 0 ≤ node.nodeId ∧ node.nodeId < 256
  | .forward frame => node.Relays frame → node.seqHostTx < 2 ^ 32
  | .receive loop data =>
      ∀ frame, node.Passes crc32 loop data frame → node.Relays frame → node.seqHostTx < 2 ^ 32

/-! ## One call -/

/-- What a call comes to: nothing, one frame with the current number, or `struct.error`. -/
inductive Served (crc32 : Bytes → UInt32) (seq : ℕ) (fits : Prop) :
    UDFNode × Except PyError (List Bytes) → Prop
  | quiet {next : UDFNode} (fine : fits) (counter : next.seqHostTx = seq) :
      Served crc32 seq fits (next, .ok [])
  | packed {next : UDFNode} {raw : Bytes} (fine : fits) (small : seq < 2 ^ 32)
      (carries : seqOf crc32 raw = some seq) (counter : next.seqHostTx = seq + 1) :
      Served crc32 seq fits (next, .ok [raw])
  | raised {next : UDFNode} (unfit : ¬fits) : Served crc32 seq fits (next, .error .structError)

variable {crc32} {node : UDFNode} {tag : Tag}

theorem served_send {dst : ℤ} {payload : Bytes} (hdst : 0 ≤ dst ∧ dst < 256)
    (hpayload : payload.length ≤ maxPayload) :
    Served crc32 node.seqHostTx (node.Fits crc32 (.send dst payload))
      (node.sendCall crc32 tag dst payload) := by
  unfold sendCall
  cases hpack : pack crc32 node.nodeId dst node.seqHostTx payload 0 0 with
  | ok raw =>
      obtain ⟨hid, -, hseq, -⟩ := (pack_eq_ok_iff crc32).mp ⟨raw, hpack⟩
      have hsmall : node.seqHostTx < 2 ^ 32 := by exact_mod_cast hseq.2
      exact .packed ⟨hsmall, hid⟩ hsmall (seqOf_of_pack crc32 hpack) rfl
  | error error =>
      cases pack_error crc32 hpack
      refine .raised ?_
      rintro ⟨hsmall, hid⟩
      have hseq : 0 ≤ (node.seqHostTx : ℤ) ∧ (node.seqHostTx : ℤ) < 2 ^ 32 :=
        ⟨Int.natCast_nonneg _, by exact_mod_cast hsmall⟩
      have hlength : payload.length < 65536 := lt_of_le_of_lt hpayload (by decide)
      have hzero : 0 ≤ (0 : ℤ) ∧ (0 : ℤ) < 256 := by decide
      obtain ⟨raw, hraw⟩ := pack_of_range crc32 hid hdst hseq hzero hzero hlength
      rw [hpack] at hraw
      cases hraw

theorem served_forward {frame : Frame} (hlength : frame.payload.length < 65536) :
    Served crc32 node.seqHostTx (node.Fits crc32 (.forward frame))
      (node.forwardCall crc32 tag frame) := by
  unfold forwardCall
  split
  · rename_i hself
    exact .quiet (fun hrelays ↦ absurd hself hrelays.1) rfl
  split
  · rename_i hlimit
    exact .quiet (fun hrelays ↦ absurd hrelays.2 (Nat.not_lt.mpr hlimit)) rfl
  rename_i hself hlimit
  cases hrepack : repack crc32 frame node.seqHostTx with
  | ok raw =>
      obtain ⟨-, -, hseq, -⟩ := (pack_eq_ok_iff crc32).mp ⟨raw, hrepack⟩
      have hsmall : node.seqHostTx < 2 ^ 32 := by exact_mod_cast hseq.2
      exact .packed (fun _ ↦ hsmall) hsmall (seqOf_of_pack crc32 hrepack) rfl
  | error error =>
      cases pack_error crc32 hrepack
      refine .raised ?_
      intro hfits
      have hhop := Nat.lt_of_not_le hlimit
      rw [repack_eq_ok crc32 hhop hlength (hfits ⟨hself, hhop⟩)] at hrepack
      cases hrepack

/-- `struct.error` passes through the `except` of a receive loop. -/
theorem Served.guarded {seq : ℕ} {fits : Prop} {loop : RxLoop}
    {result : UDFNode × Except PyError (List Bytes)} (hserved : Served crc32 seq fits result) :
    Served crc32 seq fits (guarded loop result) := by
  cases hserved with
  | quiet hfine hcounter => exact .quiet hfine hcounter
  | packed hfine hsmall hcarries hcounter => exact .packed hfine hsmall hcarries hcounter
  | raised hunfit => exact .raised hunfit

theorem served_receive {loop : RxLoop} {data : Bytes} :
    Served crc32 node.seqHostTx (node.Fits crc32 (.receive loop data))
      (node.receiveCall crc32 tag loop data) := by
  unfold receiveCall
  split
  · rename_i henabled
    obtain ⟨hopen, hwaiting, hdata⟩ := henabled
    unfold handle
    cases hunpack : unpack crc32 (data.take readSize) with
    | error error =>
        obtain ⟨message, rfl⟩ := unpack_error crc32 hunpack
        refine .quiet ?_ rfl
        rintro frame ⟨-, -, -, hframe, -⟩
        rw [hunpack] at hframe
        cases hframe
    | ok frame =>
        have hfits : node.Fits crc32 (.receive loop data) ↔
            ¬Addressed node.nodeId frame → node.Fits crc32 (.forward frame) := by
          constructor
          · intro hall haway
            exact hall frame ⟨hopen, hwaiting, hdata, hunpack, haway⟩
          · rintro hforward other ⟨-, -, -, hother, haway⟩
            rw [hunpack] at hother
            cases hother
            exact hforward haway
        rw [hfits]
        simp only
        split
        · rename_i haddressed
          exact .quiet (fun haway ↦ absurd haddressed haway) rfl
        · rename_i haway
          have hremote : ¬Addressed node.nodeId frame := haway
          rw [imp_iff_right hremote]
          have hserved : Served crc32 (node.count frame).seqHostTx
              ((node.count frame).Fits crc32 (.forward frame))
              ((node.count frame).forwardCall crc32 tag frame) :=
            served_forward (length_payload_of_unpack crc32 hunpack).2
          exact hserved.guarded
  · rename_i hidle
    refine .quiet ?_ rfl
    rintro frame ⟨hopen, hwaiting, hdata, -⟩
    exact absurd ⟨hopen, hwaiting, hdata⟩ hidle

theorem served_perform {call : Call} (hvalid : call.Valid) :
    Served crc32 node.seqHostTx (node.Fits crc32 call) (node.perform crc32 tag call) := by
  cases call with
  | send dst payload => exact served_send hvalid.1 hvalid.2
  | forward frame => exact served_forward (lt_of_le_of_lt hvalid (by decide))
  | receive loop data => exact served_receive

/-! ## Calls as thread steps -/

/-- One step of a thread, without its effect. -/
def threadStep (crc32 : Bytes → UInt32) (number : ℕ) (node : UDFNode) (action : Action) :
    Option UDFNode :=
  (node.step crc32 number action).map Prod.fst

/-- A call of `send` is what an application thread does when it is not interrupted. -/
theorem sendCall_reachable (crc32 : Bytes → UInt32) (number : ℕ) (node : UDFNode) (dst : ℤ)
    (payload : Bytes) :
    Run.Reachable (threadStep crc32 number) node
      (node.sendCall crc32 (.fresh number) dst payload).1 := by
  let numbered : UDFNode :=
    { node with seqHostTx := node.seqHostTx + 1
                senders := .numbered dst payload node.seqHostTx :: node.senders }
  have hnumbered : Run.Reachable (threadStep crc32 number) node numbered :=
    .tail (.send dst payload) .refl trivial rfl
  unfold sendCall
  cases hpack : pack crc32 node.nodeId dst node.seqHostTx payload 0 0 with
  | error error =>
      refine .tail (.sendStep 0) hnumbered trivial ?_
      simp [threadStep, step, sendStep, numbered, hpack]
  | ok raw =>
      let queued : UDFNode :=
        { node with seqHostTx := node.seqHostTx + 1
                    txQueue := node.txQueue ++ [(.fresh number, raw)]
                    senders := .queued payload.length :: node.senders }
      have hqueued : Run.Reachable (threadStep crc32 number) node queued := by
        refine .tail (.sendStep 0) hnumbered trivial ?_
        simp [threadStep, step, sendStep, numbered, queued, hpack]
      exact .tail (.sendStep 0) hqueued trivial rfl

/-- A receive loop that does not move stays as it is. -/
theorem withRx_rx (node : UDFNode) (loop : RxLoop) : node.withRx (node.rx loop) loop = node := by
  cases loop <;> rfl

theorem threadStep_rxStep (crc32 : Bytes → UInt32) (number : ℕ) (node : UDFNode) (loop : RxLoop) :
    threadStep crc32 number node (.rxStep loop) = (node.rxStep crc32 loop).map Prod.fst := by
  rw [threadStep, step_rxStep]

/-- What a loop at rest does to a frame for another node. -/
theorem forwardCall_reachable (crc32 : Bytes → UInt32) (number : ℕ) {node : UDFNode} {tag : Tag}
    {loop : RxLoop} {frame : Frame} (hwaiting : node.rx loop = .waiting)
    (haway : ¬Addressed node.nodeId frame) :
    Run.Reachable (threadStep crc32 number) (node.withRx (.unpacked tag frame) loop)
      (guarded loop (node.forwardCall crc32 tag frame)).1 := by
  have hrest : node.withRx .waiting loop = node := by rw [← hwaiting, withRx_rx]
  have hother : (frame.dst.toNat : ℤ) ≠ node.nodeId := fun hself ↦ haway (.inl hself)
  rw [forwardCall, if_neg hother]
  split
  · rename_i hlimit
    refine .tail (.rxStep loop) .refl trivial ?_
    rw [← hrest, threadStep_rxStep]
    cases loop <;> simp [rxStep, forward, withRx, rx, guarded, haway, hother, hlimit]
  rename_i hlimit
  let numbered : UDFNode := { node with seqHostTx := node.seqHostTx + 1 }
  have hnumbered : Run.Reachable (threadStep crc32 number)
      (node.withRx (.unpacked tag frame) loop)
      (numbered.withRx (.numbered tag frame node.seqHostTx) loop) := by
    refine .tail (.rxStep loop) .refl trivial ?_
    rw [threadStep_rxStep]
    cases loop <;> simp [rxStep, forward, withRx, rx, numbered, haway, hother, hlimit]
  cases hrepack : repack crc32 frame node.seqHostTx with
  | error error =>
      cases pack_error crc32 hrepack
      refine .tail (.rxStep loop) hnumbered trivial ?_
      rw [threadStep_rxStep]
      cases loop <;> simp [rxStep, withRx, rx, numbered, guarded, hrepack]
  | ok raw =>
      let queued : UDFNode :=
        { numbered with txQueue := numbered.txQueue ++ [(tag.forward, raw)] }
      have hqueued : Run.Reachable (threadStep crc32 number)
          (node.withRx (.unpacked tag frame) loop) (queued.withRx .queued loop) := by
        refine .tail (.rxStep loop) hnumbered trivial ?_
        rw [threadStep_rxStep]
        cases loop <;> simp [rxStep, withRx, rx, numbered, queued, hrepack]
      refine .tail (.rxStep loop) hqueued trivial ?_
      rw [← hrest, threadStep_rxStep]
      cases loop <;> simp [rxStep, withRx, rx, numbered, queued, guarded]

/-- What a loop at rest does to a transfer, if it is not interrupted. -/
theorem receiveCall_reachable (crc32 : Bytes → UInt32) (number : ℕ) {node : UDFNode} {tag : Tag}
    {loop : RxLoop} {data : Bytes} (hopen : node.isOpen loop) (hwaiting : node.rx loop = .waiting)
    (hdata : data ≠ []) :
    ∃ read, node.read loop tag data = some (read, .silent) ∧
      Run.Reachable (threadStep crc32 number) read (node.receiveCall crc32 tag loop data).1 := by
  have hrest : node.withRx .waiting loop = node := by rw [← hwaiting, withRx_rx]
  refine ⟨node.withRx (.received tag (data.take readSize)) loop, ?_, ?_⟩
  · simp [read, hopen, hwaiting, hdata]
  rw [receiveCall, if_pos ⟨hopen, hwaiting, hdata⟩, handle]
  cases hunpack : unpack crc32 (data.take readSize) with
  | error error =>
      obtain ⟨message, rfl⟩ := unpack_error crc32 hunpack
      refine .tail (.rxStep loop) .refl trivial ?_
      rw [← hrest, threadStep_rxStep]
      cases loop <;> simp [rxStep, withRx, rx, guarded, hunpack]
  | ok frame =>
      have hunpacked : Run.Reachable (threadStep crc32 number)
          (node.withRx (.received tag (data.take readSize)) loop)
          ((node.count frame).withRx (.unpacked tag frame) loop) := by
        refine .tail (.rxStep loop) .refl trivial ?_
        rw [threadStep_rxStep]
        cases loop <;> simp [rxStep, withRx, rx, count, hunpack]
      simp only
      split
      · rename_i haddressed
        have hlocal : Addressed node.nodeId frame := haddressed
        refine .tail (.rxStep loop) hunpacked trivial ?_
        rw [← hrest, threadStep_rxStep]
        cases loop <;> simp [rxStep, withRx, rx, count, guarded, hlocal]
      · rename_i haway
        have hcounted : (node.count frame).rx loop = .waiting := by cases loop <;> exact hwaiting
        exact hunpacked.trans (forwardCall_reachable crc32 number hcounted haway)

/-! ## Runs of calls -/

/-- A node, the frames that its calls have packed and the exceptions that have got out of them. -/
structure Session where
  node : UDFNode
  packed : List Bytes
  raised : List PyError
  calls : ℕ
deriving DecidableEq, Repr

namespace Session

def start (nodeId : ℤ) (gadgetEpOut hostFd : Bool) : Session where
  node := UDFNode.start nodeId gadgetEpOut hostFd
  packed := []
  raised := []
  calls := 0

variable (crc32)

def step (session : Session) (call : Call) : Session :=
  let (node, outcome) := session.node.perform crc32 (.fresh session.calls) call
  match outcome with
  | .ok packed =>
      { session with node, packed := session.packed ++ packed, calls := session.calls + 1 }
  | .error error =>
      { session with node, raised := session.raised ++ [error], calls := session.calls + 1 }

/-- No call has raised, and the frames carry the numbers 0, 1, … modulo `2 ^ 32`. -/
def Numbered (session : Session) : Prop :=
  session.raised = [] ∧
    session.packed.map (seqOf crc32) =
      (List.range session.packed.length).map fun index ↦ some (index % 2 ^ 32)

/-- Unless a call has raised, the counter counts the packed frames. -/
def Counted (session : Session) : Prop :=
  session.raised = [] → session.node.seqHostTx = session.packed.length

/-- A call adds nothing, adds a frame with the current number, or raises. -/
inductive Move (session : Session) (call : Call) (next : Session) : Prop
  | quiet (fits : session.node.Fits crc32 call) (raised : next.raised = session.raised)
      (packed : next.packed = session.packed)
      (counter : next.node.seqHostTx = session.node.seqHostTx)
  | packed {raw : Bytes} (fits : session.node.Fits crc32 call)
      (small : session.node.seqHostTx < 2 ^ 32)
      (carries : seqOf crc32 raw = some session.node.seqHostTx)
      (raised : next.raised = session.raised) (packed : next.packed = session.packed ++ [raw])
      (counter : next.node.seqHostTx = session.node.seqHostTx + 1)
  | raised (unfit : ¬session.node.Fits crc32 call) (raises : next.raised ≠ [])

variable {crc32} {session : Session} {call : Call}

theorem move_step (hvalid : call.Valid) : Move crc32 session call (session.step crc32 call) := by
  have hserved : Served crc32 session.node.seqHostTx (session.node.Fits crc32 call)
      (session.node.perform crc32 (.fresh session.calls) call) := served_perform hvalid
  unfold step
  generalize session.node.perform crc32 (.fresh session.calls) call = result at hserved
  cases hserved with
  | quiet hfits hcounter => exact .quiet hfits rfl (List.append_nil _) hcounter
  | packed hfits hsmall hcarries hcounter => exact .packed hfits hsmall hcarries rfl rfl hcounter
  | raised hunfit => exact .raised hunfit (by simp)

theorem counted_start (nodeId : ℤ) (gadgetEpOut hostFd : Bool) :
    Counted (start nodeId gadgetEpOut hostFd) :=
  fun _ ↦ rfl

theorem numbered_start (nodeId : ℤ) (gadgetEpOut hostFd : Bool) :
    Numbered crc32 (start nodeId gadgetEpOut hostFd) :=
  ⟨rfl, rfl⟩

theorem counted_step (hcounted : Counted session) (hvalid : call.Valid) :
    Counted (session.step crc32 call) := by
  intro hnone
  have hmove : Move crc32 session call (session.step crc32 call) := move_step hvalid
  cases hmove with
  | quiet _ hraised hpacked hcounter =>
      rw [hcounter, hpacked]
      exact hcounted (hraised.symm.trans hnone)
  | packed _ _ _ hraised hpacked hcounter =>
      rw [hcounter, hpacked, hcounted (hraised.symm.trans hnone), List.length_append]
      rfl
  | raised _ hraises => exact absurd hnone hraises

/-- A call keeps the numbering exactly if the counter fits its field where the call packs. -/
theorem numbered_step_iff (hcounted : Counted session) (hvalid : call.Valid)
    (hnumbered : Numbered crc32 session) :
    Numbered crc32 (session.step crc32 call) ↔ session.node.Fits crc32 call := by
  obtain ⟨hnone, hnumbers⟩ := hnumbered
  have hmove : Move crc32 session call (session.step crc32 call) := move_step hvalid
  cases hmove with
  | quiet hfits hraised hpacked hcounter =>
      refine iff_of_true ⟨hraised.trans hnone, ?_⟩ hfits
      rw [hpacked]
      exact hnumbers
  | @packed raw hfits hsmall hcarries hraised hpacked hcounter =>
      refine iff_of_true ⟨hraised.trans hnone, ?_⟩ hfits
      rw [hcounted hnone] at hsmall hcarries
      have hlength : (session.step crc32 call).packed.length = session.packed.length + 1 := by
        rw [hpacked, List.length_append, List.length_singleton]
      calc
        (session.step crc32 call).packed.map (seqOf crc32) =
            session.packed.map (seqOf crc32) ++ [some session.packed.length] := by
          rw [hpacked, List.map_append, List.map_singleton, hcarries]
        _ = (List.range (session.packed.length + 1)).map fun index ↦ some (index % 2 ^ 32) := by
          rw [hnumbers, List.range_succ, List.map_append, List.map_singleton,
            Nat.mod_eq_of_lt hsmall]
        _ = (List.range (session.step crc32 call).packed.length).map
            fun index ↦ some (index % 2 ^ 32) := by rw [hlength]
  | raised hunfit hraises => exact iff_of_false (fun hafter ↦ hraises hafter.1) hunfit

/-- **Sequence numbers of a node.** In every run of calls the frames carry the numbers 0, 1, …
modulo `2 ^ 32` and nothing raises, if and only if the counter is below `2 ^ 32` at every call that
packs a frame (and the node's own id is a byte if it sends). -/
theorem numbered_run_iff {nodeId : ℤ} {gadgetEpOut hostFd : Bool} {calls : List Call}
    (hvalid : ∀ call ∈ calls, call.Valid) :
    Run.Always (step crc32) (Numbered crc32) (start nodeId gadgetEpOut hostFd) calls ↔
      Run.Each (step crc32) (fun session call ↦ session.node.Fits crc32 call)
        (start nodeId gadgetEpOut hostFd) calls :=
  Run.always_iff_each Call.Valid (fun _ _ ↦ counted_step)
    (fun _ _ ↦ numbered_step_iff) (counted_start nodeId gadgetEpOut hostFd)
    (numbered_start nodeId gadgetEpOut hostFd) hvalid

def relay : List Call :=
  [.send 2 [0x48], .forward ⟨0, 3, 7, 2, 3, [0x69]⟩,
    .receive .hostRx (encode Crc32.checksum ⟨0, 0, 0, 2, 3, [0x48, 0x69]⟩)]

theorem numbered_run_iff_relay :
    (∀ call ∈ relay, call.Valid) ∧
      (Run.Always (step Crc32.checksum) (Numbered Crc32.checksum) (start 1 true true) relay ↔
        Run.Each (step Crc32.checksum) (fun session call ↦ session.node.Fits Crc32.checksum call)
          (start 1 true true) relay) := by
  have hvalid : ∀ call ∈ relay, call.Valid := by
    simp [relay, Call.Valid, maxPayload]
  exact ⟨hvalid, numbered_run_iff hvalid⟩

/-- Every `send` moves the counter, whether it raises or not. -/
theorem seqHostTx_sends (crc32 : Bytes → UInt32) (session : Session) (dst : ℤ) (payload : Bytes)
    (count : ℕ) :
    ((List.replicate count (.send dst payload)).foldl (step crc32) session).node.seqHostTx =
      session.node.seqHostTx + count := by
  induction count with
  | zero => rfl
  | succ count ih =>
      rw [List.replicate_succ', List.foldl_append, List.foldl_cons, List.foldl_nil, ← add_assoc,
        ← ih]
      generalize (List.replicate count (Call.send dst payload)).foldl (step crc32) session = before
      simp only [step, perform, sendCall]
      cases pack crc32 before.node.nodeId dst before.node.seqHostTx payload 0 0 <;> rfl

/-- Once the counter has left its field the next `send` breaks the numbering. -/
theorem not_numbered_of_sends {crc32 : Bytes → UInt32} {nodeId dst : ℤ} {payload : Bytes}
    {count : ℕ} (hdst : 0 ≤ dst ∧ dst < 256) (hpayload : payload.length ≤ maxPayload)
    (hcount : 2 ^ 32 ≤ count) :
    ¬Run.Always (step crc32) (Numbered crc32) (start nodeId true true)
      (List.replicate (count + 1) (.send dst payload)) := by
  intro hall
  have hlast := Run.always_iff_forall_prefix.mp hall _ (List.prefix_refl _)
  rw [List.replicate_succ', List.foldl_append, List.foldl_cons, List.foldl_nil] at hlast
  have hcounter := seqHostTx_sends crc32 (start nodeId true true) dst payload count
  generalize (List.replicate count (Call.send dst payload)).foldl (step crc32)
    (start nodeId true true) = before at hlast hcounter
  have hmove : Move crc32 before (.send dst payload) (before.step crc32 (.send dst payload)) :=
    move_step ⟨hdst, hpayload⟩
  have hsmall : ¬before.node.seqHostTx < 2 ^ 32 := by
    rw [hcounter]
    exact Nat.not_lt.mpr (le_add_left hcount)
  cases hmove with
  | quiet hfits => exact hsmall hfits.1
  | packed _ hfits => exact hsmall hfits
  | raised _ hraises => exact hraises hlast.1

/-- The call after `2 ^ 32` calls of `send` raises. -/
theorem not_numbered_sends :
    ¬Run.Always (step Crc32.checksum) (Numbered Crc32.checksum) (start 1 true true)
      (List.replicate (2 ^ 32 + 1) (.send 2 [0x48])) :=
  not_numbered_of_sends (by decide) (by decide) le_rfl

end Session

end UsbDirectFabric.Daemon.UDFNode
