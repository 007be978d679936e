import UsbDirectFabric.Foundation.Crc32
import UsbDirectFabric.Daemon.NodeHistory

/-!
# No silent loss in a node

Every frame that a node counts in `frames_tx` or `frames_rx` is delivered to the application, still
queued, written to the host device or counted in `dropped`. The one branch that accounts for nothing
is that of `_host_tx_loop` without a host device: it takes frames from the queue and forgets them.
-/

namespace UsbDirectFabric.Daemon

open Wire

namespace UDFNode

/-- Whether a receive loop holds a frame that it has counted and not yet passed on. -/
def RxThread.inHand : RxThread → ℕ
  | .unpacked _ _ | .numbered _ _ _ => 1
  | _ => 0

def TxThread.inHand : TxThread → ℕ
  | .holding _ _ => 1
  | .waiting => 0

/-- A sender that has put its frame on the queue and not yet counted it. -/
def Sender.isQueued : Sender → Bool
  | .queued _ => true
  | .numbered _ _ _ => false

def incoming (node : UDFNode) : ℕ :=
  node.framesTx + node.framesRx + node.senders.countP Sender.isQueued

def outgoing (node : UDFNode) : ℕ :=
  (node.taken ++ node.rxQueue).length + node.txQueue.length + node.dropped +
    (node.gadgetRx.inHand + node.hostRx.inHand + node.hostTx.inHand)

/-- The frames that leave a node in an event, over the wire or not. -/
def Event.leaving (event : Event) : ℕ :=
  (if event.isWrite then 1 else 0) + if event.isSkip then 1 else 0

variable {crc32 : Bytes → UInt32} {node next : UDFNode} {effect : Effect}

theorem countP_eraseIdx {α : Type*} {items : List α} {index : ℕ} {item : α} (property : α → Bool)
    (hitem : items[index]? = some item) :
    items.countP property =
      (items.eraseIdx index).countP property + if property item then 1 else 0 := by
  obtain ⟨hindex, rfl⟩ := List.getElem?_eq_some_iff.mp hitem
  rw [← (List.getElem_cons_eraseIdx_perm hindex).countP_eq, List.countP_cons]

/-- A receive loop passes on or drops what it has counted, unless it fails to pack it again. -/
theorem LoopMove.balance {loop : RxLoop} (hmove : LoopMove crc32 node loop next effect)
    (hpackable : node.Packable) :
    next.incoming + node.outgoing = node.incoming + next.outgoing := by
  cases hmove with
  | fail hstands hraises | die hstands hraises =>
      exact absurd hraises (hpackable.repack_ne_error hstands _)
  | reject hstands | count hstands | deliver hstands | drop hstands | number hstands
  | put hstands | finish hstands =>
      cases loop <;>
        simp_all only [rx, incoming, outgoing, withRx, RxThread.inHand, List.length_append,
          List.length_singleton] <;>
        omega

/-- A sender puts a frame on the queue before it counts it. -/
theorem SenderMove.balance {number index : ℕ}
    (hmove : SenderMove crc32 number index node next effect) :
    next.incoming + node.outgoing = node.incoming + next.outgoing := by
  cases hmove with
  | put hsender =>
      have herase := countP_eraseIdx Sender.isQueued hsender
      simp only [Sender.isQueued, Bool.false_eq_true, if_false] at herase
      simp only [incoming, outgoing, List.countP_cons, Sender.isQueued, if_true, herase,
        List.length_append, List.length_singleton]
      omega
  | fail hsender =>
      have herase := countP_eraseIdx Sender.isQueued hsender
      simp only [Sender.isQueued, Bool.false_eq_true, if_false] at herase
      simp only [incoming, outgoing, herase]
      omega
  | count hsender =>
      have herase := countP_eraseIdx Sender.isQueued hsender
      simp only [Sender.isQueued, if_true] at herase
      simp only [incoming, outgoing, herase]
      omega

theorem PlainMove.balance {action : Action} (hmove : PlainMove node action next effect) :
    next.incoming + node.outgoing = node.incoming + next.outgoing + (Event.act action).leaving := by
  cases hmove with
  | recv hwaits => simp [incoming, outgoing, hwaits, Event.leaving, Event.isWrite, Event.isSkip]
  | txGet htx hwaits =>
      simp [incoming, outgoing, htx, hwaits, TxThread.inHand, Event.leaving, Event.isWrite,
        Event.isSkip]
      omega
  | txWhole htx | txShort htx | txFail htx | txSkip htx =>
      simp [incoming, outgoing, htx, TxThread.inHand, Event.leaving, Event.isWrite, Event.isSkip]
      omega
  | hbNumber | hbDie => rfl

/-- A step changes what comes in and what goes out alike, up to the frames that leave the node. -/
theorem balance_step {number : ℕ} {action : Action} (hpackable : node.Packable)
    (hstep : node.step crc32 number action = some (next, effect)) :
    next.incoming + node.outgoing = node.incoming + next.outgoing + (Event.act action).leaving := by
  cases step_moves crc32 hstep with
  | send =>
      simp [incoming, outgoing, Sender.isQueued, Event.leaving, Event.isWrite, Event.isSkip]
  | sender hmove => exact hmove.balance
  | loop hmove => exact hmove.balance hpackable
  | plain hmove => exact hmove.balance

/-- A transfer that is read is not counted yet. -/
theorem balance_read {loop : RxLoop} {tag : Tag} {data : Bytes}
    (hread : node.read loop tag data = some (next, effect)) :
    next.incoming = node.incoming ∧ next.outgoing = node.outgoing := by
  obtain ⟨-, hwaiting, ⟨-, rfl, -⟩ | ⟨-, rfl, -⟩⟩ := read_cases hread
  · exact ⟨rfl, rfl⟩
  · cases loop with
    | gadgetRx =>
        have hrx : node.gadgetRx = .waiting := hwaiting
        simp [incoming, outgoing, withRx, hrx, RxThread.inHand]
    | hostRx =>
        have hrx : node.hostRx = .waiting := hwaiting
        simp [incoming, outgoing, withRx, hrx, RxThread.inHand]

/-- What a step does to the host device and to the frame that `_host_tx_loop` holds: without a host
device every frame that is taken is skipped. -/
structure TxFrame (node next : UDFNode) (event : Event) : Prop where
  hostFd_eq : next.hostFd = node.hostFd
  skip_closed : event.isSkip → node.hostFd = false
  inHand_closed : node.hostFd = false →
    next.hostTx.inHand + (if event.isSkip then 1 else 0) =
      node.hostTx.inHand + (node.taking event).length

theorem TxFrame.of_eq {event : Event} (hhostFd : next.hostFd = node.hostFd)
    (hhostTx : next.hostTx = node.hostTx) (hskip : event.isSkip = false)
    (htaking : node.taking event = []) : TxFrame node next event := by
  refine ⟨hhostFd, ?_, ?_⟩
  · rw [hskip]
    exact fun h ↦ absurd h Bool.false_ne_true
  · intro _
    rw [hhostTx, hskip, htaking]
    rfl

theorem LoopMove.txFrame {loop : RxLoop} (hmove : LoopMove crc32 node loop next effect) :
    TxFrame node next (.act (.rxStep loop)) := by
  apply TxFrame.of_eq _ _ rfl rfl
  · cases loop <;> cases hmove <;> rfl
  · cases loop <;> cases hmove <;> rfl

theorem PlainMove.txFrame {action : Action} (hmove : PlainMove node action next effect) :
    TxFrame node next (.act action) := by
  cases hmove with
  | recv | hbNumber | hbDie => exact .of_eq rfl rfl rfl rfl
  | txGet htx hwaits =>
      exact ⟨rfl, by simp [Event.isSkip],
        by simp [taking, hwaits, htx, TxThread.inHand, Event.isSkip]⟩
  | txWhole _ hopen | txShort _ hopen | txFail _ hopen =>
      exact ⟨rfl, by simp [Event.isSkip], fun hclosed ↦ by simp [hclosed] at hopen⟩
  | txSkip htx hclosed =>
      exact ⟨rfl, fun _ ↦ hclosed, fun _ ↦ by simp [taking, htx, TxThread.inHand, Event.isSkip]⟩

theorem txFrame_step {number : ℕ} {action : Action}
    (hstep : node.step crc32 number action = some (next, effect)) :
    TxFrame node next (.act action) := by
  cases step_moves crc32 hstep with
  | send => exact .of_eq rfl rfl rfl rfl
  | sender hmove => cases hmove <;> exact .of_eq rfl rfl rfl rfl
  | loop hmove => exact hmove.txFrame
  | plain hmove => exact hmove.txFrame

theorem txFrame_read {loop : RxLoop} {tag : Tag} {data : Bytes}
    (hread : node.read loop tag data = some (next, effect)) :
    TxFrame node next (.transfer loop data) := by
  obtain ⟨-, -, ⟨-, rfl, -⟩ | ⟨-, rfl, -⟩⟩ := read_cases hread
  · exact .of_eq rfl rfl rfl rfl
  · cases loop <;> exact .of_eq rfl rfl rfl rfl

/-! ## Whole runs -/

/-- Whether a receive loop is between two iterations. -/
def RxThread.isResting : RxThread → Bool
  | .waiting | .dead => true
  | _ => false

theorem RxThread.inHand_eq_zero {thread : RxThread} (hresting : thread.isResting) :
    thread.inHand = 0 := by
  cases thread <;> first | rfl | cases hresting

def Quiet (node : UDFNode) : Prop :=
  node.senders = [] ∧ node.gadgetRx.isResting ∧ node.hostRx.isResting ∧ node.hostTx = .waiting

instance (node : UDFNode) : Decidable node.Quiet :=
  inferInstanceAs (Decidable (_ ∧ _ ∧ _ ∧ _))

namespace History

/-- Every frame counted on its way in has been delivered, waits, was written or was counted as
dropped. -/
def Conserved (history : History) : Prop :=
  history.node.framesTx + history.node.framesRx =
    (history.node.taken ++ history.node.rxQueue).length + history.node.txQueue.length +
      history.written + history.node.dropped

instance (history : History) : Decidable history.Conserved :=
  inferInstanceAs (Decidable (_ = _))

/-- The books of a node whose host device is or is not open. -/
structure Ledger (hostFd : Bool) (history : History) : Prop where
  packable : history.node.Packable
  hostFd_eq : history.node.hostFd = hostFd
  balance : history.node.incoming = history.node.outgoing + history.written + history.skipped
  skipped_open : hostFd = true → history.skipped = 0
  skipped_closed : hostFd = false →
    history.skipped + history.node.hostTx.inHand = history.drained.length

theorem ledger_start (nodeId : ℤ) (gadgetEpOut hostFd : Bool) :
    Ledger hostFd (start nodeId gadgetEpOut hostFd) where
  packable loop := by cases loop <;> trivial
  hostFd_eq := rfl
  balance := rfl
  skipped_open _ := rfl
  skipped_closed _ := rfl

variable {hostFd : Bool} {history next : History} {event : Event}

theorem ledger_step (hledger : Ledger hostFd history) (hrange : history.InRange)
    (hstep : history.step crc32 event = some next) : Ledger hostFd next := by
  obtain ⟨effect, hreact, hdrained, -, hpast⟩ := step_eq_some hstep
  have hwritten := written_step hpast
  have hskipped := skipped_step hpast
  have hnode : next.node.Packable ∧ TxFrame history.node next.node event ∧
      next.node.incoming + history.node.outgoing =
        history.node.incoming + next.node.outgoing + event.leaving := by
    cases event with
    | act action =>
        exact ⟨hledger.packable.step hrange hreact, txFrame_step hreact,
          balance_step hledger.packable hreact⟩
    | transfer loop data =>
        have hbalance := balance_read hreact
        refine ⟨hledger.packable.read hreact, txFrame_read hreact, ?_⟩
        rw [hbalance.1, hbalance.2]
        rfl
  obtain ⟨hpackable, hframe, hbalance⟩ := hnode
  have hold := hledger.balance
  refine ⟨hpackable, hframe.hostFd_eq.trans hledger.hostFd_eq, ?_, ?_, ?_⟩
  · rw [hwritten, hskipped]
    unfold Event.leaving at hbalance
    omega
  · intro hopen
    have hnoskip : event.isSkip = false := by
      by_contra hskip
      have hclosed := hframe.skip_closed (Bool.eq_true_of_not_eq_false hskip)
      rw [hledger.hostFd_eq, hopen] at hclosed
      exact absurd hclosed (by decide)
    rw [hskipped, hnoskip, hledger.skipped_open hopen]
    rfl
  · intro hclosed
    have hinHand := hframe.inHand_closed (hledger.hostFd_eq.trans hclosed)
    have hbefore := hledger.skipped_closed hclosed
    rw [hskipped, hdrained, List.length_append]
    omega

/-- **No silent loss.** While the sequence counter fits 32 bits, frames are conserved in a state in
which no thread is inside an operation exactly when the host device is open or `_host_tx_loop` has
not taken a frame yet. -/
theorem conserved_iff {nodeId : ℤ} {gadgetEpOut : Bool}
    (hreaches : Run.Reaches (step crc32) (fun history _ ↦ history.InRange)
      (start nodeId gadgetEpOut hostFd) history)
    (hquiet : history.node.Quiet) :
    history.Conserved ↔ hostFd = true ∨ history.drained = [] := by
  have hledger : Ledger hostFd history :=
    hreaches.invariant (ledger_start nodeId gadgetEpOut hostFd)
      fun _ _ _ hledger hrange hstep ↦ ledger_step hledger hrange hstep
  obtain ⟨hsenders, hgadget, hhost, hhostTx⟩ := hquiet
  have htx : history.node.hostTx.inHand = 0 := by
    rw [hhostTx]
    rfl
  have hbalance := hledger.balance
  have hlost : history.Conserved ↔ history.skipped = 0 := by
    unfold incoming outgoing at hbalance
    rw [hsenders, List.countP_nil, RxThread.inHand_eq_zero hgadget,
      RxThread.inHand_eq_zero hhost, htx] at hbalance
    unfold Conserved
    omega
  rw [hlost]
  cases hostFd with
  | true => exact iff_of_true (hledger.skipped_open rfl) (Or.inl rfl)
  | false =>
      have hclosed := hledger.skipped_closed rfl
      rw [htx, Nat.add_zero] at hclosed
      rw [hclosed, List.length_eq_zero_iff]
      simp

/-- One frame is sent and written, another one is received. -/
def bothWays : List Event :=
  [.act (.send 2 [0x48, 0x69]), .act (.sendStep 0), .act (.sendStep 0), .act .txGet,
    .act (.txWrite 36), .transfer .gadgetRx (encode Crc32.checksum ⟨0, 0, 0, 2, 1, [0x48, 0x69]⟩),
    .act (.rxStep .gadgetRx), .act (.rxStep .gadgetRx)]

theorem conserved_iff_bothWays :
    ∃ history, Run.Reaches (step Crc32.checksum) (fun history _ ↦ history.InRange)
        (start 1 true true) history ∧
      history.node.framesTx + history.node.framesRx = 2 ∧
      (history.Conserved ↔ true = true ∨ history.drained = []) := by
  have hrun : (Run.attempt (step Crc32.checksum) (fun history _ ↦ history.InRange)
      (start 1 true true) bothWays).map (fun history ↦
        (history.node.framesTx + history.node.framesRx, decide history.node.Quiet)) =
      some (2, true) := by
    decide +kernel
  obtain ⟨history, hreaches, hstate⟩ := Run.exists_of_attempt hrun
  obtain ⟨hframes, hquiet⟩ := Prod.mk.inj hstate
  exact ⟨history, hreaches, hframes, conserved_iff hreaches (of_decide_eq_true hquiet)⟩

/-- A node without a host device takes a frame from the queue. -/
def nowhere : List Event :=
  [.act (.send 2 [0x48, 0x69]), .act (.sendStep 0), .act (.sendStep 0), .act .txGet, .act .txSkip]

/-- The frame is counted in `frames_tx` and is nowhere: neither queued nor written nor dropped. -/
theorem not_conserved_nowhere :
    ∃ history, Run.Reaches (step Crc32.checksum) (fun history _ ↦ history.InRange)
        (start 1 true false) history ∧ history.node.Quiet ∧ ¬ history.Conserved := by
  have hrun : (Run.attempt (step Crc32.checksum) (fun history _ ↦ history.InRange)
      (start 1 true false) nowhere).map (fun history ↦
        (decide history.node.Quiet, decide history.Conserved)) = some (true, false) := by
    decide +kernel
  obtain ⟨history, hreaches, hstate⟩ := Run.exists_of_attempt hrun
  obtain ⟨hquiet, hlost⟩ := Prod.mk.inj hstate
  exact ⟨history, hreaches, of_decide_eq_true hquiet, of_decide_eq_false hlost⟩

end History

end UDFNode

end UsbDirectFabric.Daemon
