import UsbDirectFabric.Foundation.Run
import UsbDirectFabric.Daemon.Node

/-!
# Histories of a node

A node together with what it has done: the frames that `_host_tx_loop` has taken from `_tx_queue`,
what the heartbeat loop has written, and the events so far. No step reads the history. The frames
ever put on `_tx_queue`, in order, are those already taken followed by those still queued.
-/

namespace UsbDirectFabric.Daemon

open Wire

namespace UDFNode

inductive Event
  | act (action : Action)
  | transfer (loop : RxLoop) (data : Bytes)
deriving DecidableEq, Repr

/-- A call of `os.write` by `_host_tx_loop` that returned. -/
def Event.isWrite : Event → Bool
  | .act (.txWrite _) => true
  | _ => false

/-- An iteration of `_host_tx_loop` that took a frame but found no host device. -/
def Event.isSkip : Event → Bool
  | .act .txSkip => true
  | _ => false

structure History where
  node : UDFNode
  drained : List (Tag × Bytes)
  direct : List Bytes
  past : List Event
deriving DecidableEq, Repr

def taking (node : UDFNode) : Event → List (Tag × Bytes)
  | .act .txGet => node.txQueue.take 1
  | _ => []

/-- What the heartbeat loop itself writes in an event. -/
def writing : Event → Effect → List Bytes
  | .act .hbStep, .wrote _ data => [data]
  | _, _ => []

namespace History

def start (nodeId : ℤ) (gadgetEpOut hostFd : Bool) : History where
  node := UDFNode.start nodeId gadgetEpOut hostFd
  drained := []
  direct := []
  past := []

def InRange (history : History) : Prop :=
  history.node.seqHostTx < 2 ^ 32

instance (history : History) : Decidable history.InRange :=
  inferInstanceAs (Decidable (_ < _))

/-- The frames ever put on `_tx_queue`, in order. -/
def put (history : History) : List (Tag × Bytes) :=
  history.drained ++ history.node.txQueue

def written (history : History) : ℕ :=
  history.past.countP Event.isWrite

/-- How many frames `_host_tx_loop` has taken without a host device to write them to. -/
def skipped (history : History) : ℕ :=
  history.past.countP Event.isSkip

variable (crc32 : Bytes → UInt32)

/-- The node's part of an event; frames are tagged with the number of the event. -/
def react (history : History) : Event → Option (UDFNode × Effect)
  | .act action => history.node.step crc32 history.past.length action
  | .transfer loop data => history.node.read loop (.fresh history.past.length) data

def step (history : History) (event : Event) : Option History :=
  (history.react crc32 event).map fun (node, effect) ↦
    { node
      drained := history.drained ++ history.node.taking event
      direct := history.direct ++ writing event effect
      past := history.past ++ [event] }

variable {crc32} {history next : History} {event : Event}

theorem step_eq_some (hstep : history.step crc32 event = some next) :
    ∃ effect, history.react crc32 event = some (next.node, effect) ∧
      next.drained = history.drained ++ history.node.taking event ∧
      next.direct = history.direct ++ writing event effect ∧
      next.past = history.past ++ [event] := by
  obtain ⟨⟨node, effect⟩, hreact, rfl⟩ := Option.map_eq_some_iff.mp hstep
  exact ⟨effect, hreact, rfl, rfl, rfl⟩

theorem written_step (hpast : next.past = history.past ++ [event]) :
    next.written = history.written + if event.isWrite then 1 else 0 := by
  simp [written, hpast, List.countP_append, List.countP_singleton]

theorem skipped_step (hpast : next.past = history.past ++ [event]) :
    next.skipped = history.skipped + if event.isSkip then 1 else 0 := by
  simp [skipped, hpast, List.countP_append, List.countP_singleton]

end History

/-! ## Packable frames -/

variable {crc32 : Bytes → UInt32} {node next : UDFNode} {effect : Effect}

/-- The frame that a receive loop is forwarding can be packed again. -/
def RxThread.Packable : RxThread → Prop
  | .unpacked _ frame => frame.payload.length < 65536
  | .numbered _ frame seq =>
      frame.payload.length < 65536 ∧ frame.hop.toNat < hopLimit ∧ seq < 2 ^ 32
  | _ => True

def Packable (node : UDFNode) : Prop :=
  ∀ loop, (node.rx loop).Packable

theorem rx_withRx (node : UDFNode) (thread : RxThread) (loop other : RxLoop) :
    (node.withRx thread loop).rx other = if other = loop then thread else node.rx other := by
  cases loop <;> cases other <;> rfl

/-- Moving one loop to a packable position keeps both packable. -/
theorem Packable.withRx (hpackable : node.Packable) (thread : RxThread) (hthread : thread.Packable)
    (loop : RxLoop) : (node.withRx thread loop).Packable := by
  intro other
  rw [rx_withRx]
  split
  · exact hthread
  · exact hpackable other

/-- Packing again the frame that a packable receive loop forwards does not fail. -/
theorem Packable.repack_ne_error (hpackable : node.Packable) {loop : RxLoop} {tag : Tag}
    {frame : Frame} {seq : ℕ} (hrx : node.rx loop = .numbered tag frame seq) (error : PyError) :
    repack crc32 frame seq ≠ .error error := by
  have hfits := hpackable loop
  rw [hrx] at hfits
  obtain ⟨hlength, hhop, hseq⟩ := hfits
  rw [repack_eq_ok crc32 hhop hlength hseq]
  intro herror
  cases herror

theorem LoopMove.packable {loop : RxLoop} (hmove : LoopMove crc32 node loop next effect)
    (hpackable : node.Packable) (hseq : node.seqHostTx < 2 ^ 32) : next.Packable := by
  cases hmove with
  | reject => exact hpackable.withRx .waiting trivial loop
  | count _ hunpack =>
      have hlength := (length_payload_of_unpack crc32 hunpack).2
      exact hpackable.withRx (.unpacked _ _) hlength loop
  | deliver => exact hpackable.withRx .waiting trivial loop
  | drop => exact hpackable.withRx .waiting trivial loop
  | number hrx _ hhop =>
      have hlength := hpackable loop
      rw [hrx] at hlength
      exact hpackable.withRx (.numbered _ _ _) ⟨hlength, hhop, hseq⟩ loop
  | put => exact hpackable.withRx .queued trivial loop
  | fail => exact hpackable.withRx .waiting trivial loop
  | die => exact hpackable.withRx .dead trivial loop
  | finish => exact hpackable.withRx .waiting trivial loop

theorem Packable.read {loop : RxLoop} {tag : Tag} {data : Bytes} (hpackable : node.Packable)
    (hread : node.read loop tag data = some (next, effect)) : next.Packable := by
  obtain ⟨-, -, ⟨-, rfl, -⟩ | ⟨-, rfl, -⟩⟩ := read_cases hread
  · exact hpackable
  · exact hpackable.withRx (.received _ _) trivial loop

/-- While the counter fits 32 bits no step makes a receive loop hold an unpackable frame. -/
theorem Packable.step {number : ℕ} {action : Action} (hpackable : node.Packable)
    (hseq : node.seqHostTx < 2 ^ 32)
    (hstep : node.step crc32 number action = some (next, effect)) : next.Packable := by
  cases step_moves crc32 hstep with
  | send => exact hpackable
  | sender hmove => cases hmove <;> exact hpackable
  | loop hmove => exact hmove.packable hpackable hseq
  | plain hmove => cases hmove <;> exact hpackable

/-- No step writes for the heartbeat loop: it dies before its first write. -/
theorem writing_step {number : ℕ} {action : Action}
    (hstep : node.step crc32 number action = some (next, effect)) :
    writing (.act action) effect = [] := by
  cases step_moves crc32 hstep with
  | send => rfl
  | sender => rfl
  | loop => rfl
  | plain hmove => cases hmove <;> rfl

end UDFNode

end UsbDirectFabric.Daemon
