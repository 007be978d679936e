import Mathlib.Algebra.Order.Group.Multiset
import Mathlib.Data.Multiset.Range
import Mathlib.Tactic.Abel
import UsbDirectFabric.Foundation.Crc32
import UsbDirectFabric.Daemon.NodeHistory

/-!
# The numbers that a node uses up

`send`, `forward` and the heartbeat loop take numbers from one counter. The first two put exactly
one frame on `_tx_queue` for every number they take. The heartbeat loop takes its number first and
then fails to build a frame, since the module `frame` has no function `pack_heartbeat`.
-/

namespace UsbDirectFabric.Daemon

open Wire

namespace UDFNode

/-- The number that an application thread has taken and not yet used. -/
def Sender.numbers : Sender → Multiset ℕ
  | .numbered _ _ seq => {seq}
  | .queued _ => 0

def RxThread.numbers : RxThread → Multiset ℕ
  | .numbered _ _ seq => {seq}
  | _ => 0

def HbThread.numbers : HbThread → Multiset ℕ
  | .numbered seq => {seq}
  | _ => 0

/-- How many numbers the heartbeat loop has taken for nothing. -/
def HbThread.wasted : HbThread → ℕ
  | .dead => 1
  | _ => 0

def numbers (node : UDFNode) : Multiset ℕ :=
  (node.senders.map Sender.numbers).sum + node.gadgetRx.numbers + node.hostRx.numbers +
    node.heartbeat.numbers

variable (crc32 : Bytes → UInt32)

/-- What an event does to the counter, to the numbers in use and to the frames put on the queue. -/
inductive Numbering (node next : UDFNode) (event : Event) : Prop
  | keep (counter : next.seqHostTx = node.seqHostTx) (numbers : next.numbers = node.numbers)
      (wasted : next.heartbeat.wasted = node.heartbeat.wasted)
      (queue : node.taking event ++ next.txQueue = node.txQueue)
  | allocate (counter : next.seqHostTx = node.seqHostTx + 1)
      (numbers : next.numbers = node.numbers + {node.seqHostTx})
      (wasted : next.heartbeat.wasted = node.heartbeat.wasted)
      (queue : node.taking event ++ next.txQueue = node.txQueue)
  | emit {seq : ℕ} {tag : Tag} {raw : Bytes} (carries : seqOf crc32 raw = some seq)
      (counter : next.seqHostTx = node.seqHostTx) (numbers : node.numbers = next.numbers + {seq})
      (wasted : next.heartbeat.wasted = node.heartbeat.wasted)
      (queue : node.taking event ++ next.txQueue = node.txQueue ++ [(tag, raw)])
  | waste {seq : ℕ} (counter : next.seqHostTx = node.seqHostTx)
      (numbers : node.numbers = next.numbers + {seq})
      (wasted : next.heartbeat.wasted = node.heartbeat.wasted + 1)
      (queue : node.taking event ++ next.txQueue = node.txQueue)

variable {crc32} {node next : UDFNode} {effect : Effect}

/-- The numbers of the senders, one of them apart. -/
theorem sum_numbers_eraseIdx {senders : List Sender} {index : ℕ} {sender : Sender}
    (hsender : senders[index]? = some sender) :
    (senders.map Sender.numbers).sum =
      sender.numbers + ((senders.eraseIdx index).map Sender.numbers).sum := by
  obtain ⟨hindex, rfl⟩ := List.getElem?_eq_some_iff.mp hsender
  rw [← List.sum_cons, ← List.map_cons]
  exact ((List.getElem_cons_eraseIdx_perm hindex).symm.map _).sum_eq

/-- Moving a receive loop exchanges the numbers it holds. -/
theorem numbers_withRx (node : UDFNode) (thread : RxThread) (loop : RxLoop) :
    (node.withRx thread loop).numbers + (node.rx loop).numbers = node.numbers + thread.numbers := by
  cases loop <;> simp only [withRx, numbers, rx] <;> abel

/-- A receive loop that neither takes nor uses a number leaves them as they are. -/
theorem numbers_withRx_of_eq {loop : RxLoop} {thread before : RxThread}
    (hrx : node.rx loop = before) (hsame : thread.numbers = before.numbers) :
    (node.withRx thread loop).numbers = node.numbers := by
  have hexchange := numbers_withRx node thread loop
  rw [hrx, hsame] at hexchange
  exact add_right_cancel hexchange

/-- What the position of a receive loop has no influence on. -/
theorem withRx_same (node : UDFNode) (thread : RxThread) (loop : RxLoop) :
    (node.withRx thread loop).seqHostTx = node.seqHostTx ∧
      (node.withRx thread loop).heartbeat.wasted = node.heartbeat.wasted ∧
      (node.withRx thread loop).txQueue = node.txQueue := by
  cases loop <;> exact ⟨rfl, rfl, rfl⟩

theorem LoopMove.numbering {loop : RxLoop} (hmove : LoopMove crc32 node loop next effect)
    (hpackable : node.Packable) : Numbering crc32 node next (.act (.rxStep loop)) := by
  cases hmove with
  | reject hrx =>
      obtain ⟨hcounter, hwasted, hqueue⟩ := withRx_same node .waiting loop
      exact .keep hcounter (numbers_withRx_of_eq hrx rfl) hwasted hqueue
  | @count tag _ frame hrx =>
      obtain ⟨hcounter, hwasted, hqueue⟩ := withRx_same node (.unpacked tag frame) loop
      exact .keep hcounter (numbers_withRx_of_eq hrx rfl) hwasted hqueue
  | deliver hrx =>
      obtain ⟨hcounter, hwasted, hqueue⟩ := withRx_same node .waiting loop
      exact .keep hcounter (numbers_withRx_of_eq hrx rfl) hwasted hqueue
  | drop hrx =>
      obtain ⟨hcounter, hwasted, hqueue⟩ := withRx_same node .waiting loop
      exact .keep hcounter (numbers_withRx_of_eq hrx rfl) hwasted hqueue
  | @number tag frame hrx =>
      obtain ⟨hcounter, hwasted, hqueue⟩ :=
        withRx_same node (.numbered tag frame node.seqHostTx) loop
      have hexchange := numbers_withRx node (.numbered tag frame node.seqHostTx) loop
      simp only [hrx, RxThread.numbers, add_zero] at hexchange
      exact .allocate (congrArg (· + 1) hcounter) hexchange hwasted hqueue
  | @put tag frame seq raw hrx hrepack =>
      obtain ⟨hcounter, hwasted, hqueue⟩ := withRx_same node .queued loop
      have hexchange := numbers_withRx node .queued loop
      simp only [hrx, RxThread.numbers, add_zero] at hexchange
      exact .emit (seqOf_of_pack crc32 hrepack) hcounter hexchange.symm hwasted
        (congrArg (· ++ [(tag.forward, raw)]) hqueue)
  | fail hrx hraises => exact absurd hraises (hpackable.repack_ne_error hrx _)
  | die hrx hraises => exact absurd hraises (hpackable.repack_ne_error hrx _)
  | finish hrx =>
      obtain ⟨hcounter, hwasted, hqueue⟩ := withRx_same node .waiting loop
      exact .keep hcounter (numbers_withRx_of_eq hrx rfl) hwasted hqueue

/-- The arguments of every application thread inside `send` are such that `pack` accepts them. -/
def Acceptable (crc32 : Bytes → UInt32) (node : UDFNode) : Prop :=
  ∀ dst payload (seq : ℕ), .numbered dst payload seq ∈ node.senders →
    (pack crc32 node.nodeId dst seq payload 0 0).isOk

theorem SenderMove.numbering {number index : ℕ}
    (hmove : SenderMove crc32 number index node next effect)
    (hacceptable : node.Acceptable crc32) :
    Numbering crc32 node next (.act (.sendStep index)) := by
  cases hmove with
  | @put dst payload seq raw hsender hpack =>
      have hsum := sum_numbers_eraseIdx hsender
      refine .emit (seqOf_of_pack crc32 hpack) rfl ?_ rfl rfl
      simp only [numbers, hsum, Sender.numbers, List.map_cons, List.sum_cons]
      abel
  | @fail dst payload seq error hsender hpack =>
      have haccepts := hacceptable dst payload seq (List.mem_of_getElem? hsender)
      rw [hpack] at haccepts
      cases haccepts
  | @count length hsender =>
      have hsum := sum_numbers_eraseIdx hsender
      refine .keep rfl ?_ rfl rfl
      simp only [numbers, hsum, Sender.numbers, zero_add]

theorem PlainMove.numbering {action : Action} (hmove : PlainMove node action next effect) :
    Numbering crc32 node next (.act action) := by
  cases hmove with
  | txGet _ hwaits => exact .keep rfl rfl rfl (by simp [taking, hwaits])
  | recv | txWhole | txShort | txFail | txSkip => exact .keep rfl rfl rfl rfl
  | hbNumber hheartbeat =>
      refine .allocate rfl ?_ ?_ rfl
      · simp [numbers, hheartbeat, HbThread.numbers]
      · simp [hheartbeat, HbThread.wasted]
  | @hbDie seq hheartbeat =>
      have hnumbers : node.numbers = { node with heartbeat := .dead }.numbers + {seq} := by
        simp [numbers, hheartbeat, HbThread.numbers]
      refine .waste rfl hnumbers ?_ rfl
      simp [hheartbeat, HbThread.wasted]

theorem numbering_step {number : ℕ} {action : Action} (hpackable : node.Packable)
    (hacceptable : node.Acceptable crc32)
    (hstep : node.step crc32 number action = some (next, effect)) :
    Numbering crc32 node next (.act action) := by
  cases step_moves crc32 hstep with
  | send dst payload =>
      refine .allocate rfl ?_ rfl rfl
      simp only [numbers, List.map_cons, List.sum_cons, Sender.numbers]
      abel
  | sender hmove => exact hmove.numbering hacceptable
  | loop hmove => exact hmove.numbering hpackable
  | plain hmove => exact hmove.numbering

theorem numbering_read {loop : RxLoop} {tag : Tag} {data : Bytes}
    (hread : node.read loop tag data = some (next, effect)) :
    Numbering crc32 node next (.transfer loop data) := by
  obtain ⟨-, hwaiting, ⟨-, rfl, -⟩ | ⟨-, rfl, -⟩⟩ := read_cases hread
  · exact .keep rfl rfl rfl rfl
  · obtain ⟨hcounter, hwasted, hqueue⟩ :=
      withRx_same node (.received tag (data.take readSize)) loop
    exact .keep hcounter (numbers_withRx_of_eq hwaiting rfl) hwasted hqueue

/-! ## Whole runs -/

namespace History

/-- The counter fits its field, and `send` is called with arguments that `pack` accepts. -/
def Accepts (crc32 : Bytes → UInt32) (history : History) (event : Event) : Prop :=
  history.InRange ∧
    match event with
    | .act (.send dst payload) =>
        (pack crc32 history.node.nodeId dst history.node.seqHostTx payload 0 0).isOk
    | _ => True

instance (history : History) : ∀ event, Decidable (history.Accepts crc32 event)
  | .act (.send dst payload) => inferInstanceAs (Decidable (_ ∧
      (pack crc32 history.node.nodeId dst history.node.seqHostTx payload 0 0).isOk))
  | .transfer _ _ | .act (.sendStep _) | .act .recv | .act (.rxStep _) | .act .txGet
  | .act (.txWrite _) | .act .txFail | .act .txSkip | .act .hbStep =>
      inferInstanceAs (Decidable (_ ∧ True))

/-- The frames that a node has put on its queue or written directly. -/
def emitted (history : History) : List Bytes :=
  history.put.map Prod.snd ++ history.direct

/-- Every number below the counter was emitted once, is in use or was taken for nothing. -/
structure Accounted (crc32 : Bytes → UInt32) (history : History) : Prop where
  packable : history.node.Packable
  acceptable : history.node.Acceptable crc32
  numbers : ∃ lost : Multiset ℕ, lost.card = history.node.heartbeat.wasted ∧
    (history.emitted.map (seqOf crc32) : Multiset (Option ℕ)) +
        (history.node.numbers + lost).map some =
      (Multiset.range history.node.seqHostTx).map some

theorem accounted_start (nodeId : ℤ) (gadgetEpOut hostFd : Bool) :
    Accounted crc32 (start nodeId gadgetEpOut hostFd) where
  packable loop := by cases loop <;> trivial
  acceptable dst payload seq hsender := by cases hsender
  numbers := ⟨0, rfl, rfl⟩

variable {history next : History} {event : Event}

/-- What is put on the queue is emitted, and what is taken from it stays so. -/
theorem emitted_step {items : List (Tag × Bytes)}
    (hdrained : next.drained = history.drained ++ history.node.taking event)
    (hdirect : next.direct = history.direct)
    (hqueue : history.node.taking event ++ next.node.txQueue = history.node.txQueue ++ items) :
    (next.emitted.map (seqOf crc32) : Multiset (Option ℕ)) =
      history.emitted.map (seqOf crc32) + items.map fun item ↦ seqOf crc32 item.2 := by
  have hput : next.put = history.put ++ items := by
    rw [put, put, hdrained, List.append_assoc, hqueue, List.append_assoc]
  simp only [emitted, hput, hdirect, List.map_append, List.map_map, ← Multiset.coe_add,
    Function.comp_def]
  abel

theorem acceptable_step (hacceptable : history.node.Acceptable crc32)
    (haccepts : history.Accepts crc32 event) {effect : Effect}
    (hreact : history.react crc32 event = some (next.node, effect)) :
    next.node.Acceptable crc32 := by
  intro dst payload seq hsender
  cases event with
  | act action =>
      obtain ⟨hnodeId, -, hsenders⟩ := step_frame hreact
      rw [hnodeId]
      rcases hsenders dst payload seq hsender with hold | ⟨rfl, rfl⟩
      · exact hacceptable dst payload seq hold
      · exact haccepts.2
  | transfer loop data =>
      obtain ⟨hnodeId, -, hsenders⟩ := read_frame hreact
      rw [hsenders] at hsender
      rw [hnodeId]
      exact hacceptable dst payload seq hsender

/-- Every event keeps the numbers accounted for. -/
theorem accounted_step (haccounted : Accounted crc32 history)
    (haccepts : history.Accepts crc32 event) (hstep : history.step crc32 event = some next) :
    Accounted crc32 next := by
  obtain ⟨effect, hreact, hdrained, hdirect, -⟩ := step_eq_some hstep
  have hnode : next.node.Packable ∧ Numbering crc32 history.node next.node event ∧
      writing event effect = [] := by
    cases event with
    | act action =>
        exact ⟨haccounted.packable.step haccepts.1 hreact,
          numbering_step haccounted.packable haccounted.acceptable hreact, writing_step hreact⟩
    | transfer loop data =>
        exact ⟨haccounted.packable.read hreact, numbering_read hreact, rfl⟩
  obtain ⟨hpackable, hnumbering, hwriting⟩ := hnode
  rw [hwriting, List.append_nil] at hdirect
  refine ⟨hpackable, acceptable_step haccounted.acceptable haccepts hreact, ?_⟩
  obtain ⟨lost, hlost, hnumbers⟩ := haccounted.numbers
  cases hnumbering with
  | keep hcounter hsame hwasted hqueue =>
      refine ⟨lost, hlost.trans hwasted.symm, ?_⟩
      rw [emitted_step hdrained hdirect (hqueue.trans (List.append_nil _).symm), hsame, hcounter,
        ← hnumbers]
      simp
  | allocate hcounter htaken hwasted hqueue =>
      refine ⟨lost, hlost.trans hwasted.symm, ?_⟩
      rw [emitted_step hdrained hdirect (hqueue.trans (List.append_nil _).symm), htaken, hcounter,
        Multiset.range_succ, Multiset.map_cons, ← hnumbers, ← Multiset.singleton_add]
      simp only [Multiset.map_add, Multiset.map_singleton, List.map_nil, Multiset.coe_nil]
      abel
  | @emit seq tag raw hcarries hcounter hused hwasted hqueue =>
      refine ⟨lost, hlost.trans hwasted.symm, ?_⟩
      rw [emitted_step hdrained hdirect hqueue, hcounter, ← hnumbers, hused]
      simp only [Multiset.map_add, Multiset.map_singleton, List.map_singleton, hcarries,
        Multiset.coe_singleton]
      abel
  | @waste seq hcounter hused hwasted hqueue =>
      refine ⟨lost + {seq}, ?_, ?_⟩
      · rw [hwasted, Multiset.card_add, Multiset.card_singleton, hlost]
      · rw [emitted_step hdrained hdirect (hqueue.trans (List.append_nil _).symm), hcounter,
          ← hnumbers, hused]
        simp only [Multiset.map_add, Multiset.map_singleton, List.map_nil, Multiset.coe_nil]
        abel

/-- **No number without a frame.** In a state in which no thread is between taking a number and
emitting its frame, the numbers of the emitted frames are exactly those below the counter, each
once, if and only if the heartbeat loop has not begun an iteration. -/
theorem emitted_perm_range_iff {nodeId : ℤ} {gadgetEpOut hostFd : Bool}
    (hreaches : Run.Reaches (step crc32) (fun history event ↦ history.Accepts crc32 event)
      (start nodeId gadgetEpOut hostFd) history)
    (hidle : history.node.numbers = 0) :
    (history.emitted.map (seqOf crc32)).Perm ((List.range history.node.seqHostTx).map some) ↔
      history.node.heartbeat = .sleeping := by
  have haccounted : Accounted crc32 history :=
    hreaches.invariant (accounted_start nodeId gadgetEpOut hostFd)
      fun _ _ _ haccounted haccepts hstep ↦ accounted_step haccounted haccepts hstep
  obtain ⟨lost, hlost, hnumbers⟩ := haccounted.numbers
  rw [hidle, zero_add] at hnumbers
  have hperm : (history.emitted.map (seqOf crc32)).Perm
      ((List.range history.node.seqHostTx).map some) ↔ lost = 0 := by
    have hrange : (((List.range history.node.seqHostTx).map some : List (Option ℕ)) :
        Multiset (Option ℕ)) = (Multiset.range history.node.seqHostTx).map some := rfl
    rw [← Multiset.coe_eq_coe, hrange, ← hnumbers, left_eq_add, Multiset.map_eq_zero]
  rw [hperm, ← Multiset.card_eq_zero, hlost]
  cases hheartbeat : history.node.heartbeat with
  | sleeping => exact iff_of_true rfl rfl
  | numbered seq =>
      have hbusy : seq ∈ history.node.numbers := by simp [numbers, hheartbeat, HbThread.numbers]
      rw [hidle] at hbusy
      cases hbusy
  | dead => exact iff_of_false (by decide) (by decide)

/-- Two application threads send, in the opposite order of their numbers. -/
def crossing : List Event :=
  [.act (.send 2 [0x48]), .act (.send 3 [0x69]), .act (.sendStep 0), .act (.sendStep 1)]

theorem emitted_perm_range_iff_crossing :
    ∃ history, Run.Reaches (step Crc32.checksum)
        (fun history event ↦ history.Accepts Crc32.checksum event) (start 1 true true) history ∧
      history.node.seqHostTx = 2 ∧
      ((history.emitted.map (seqOf Crc32.checksum)).Perm
          ((List.range history.node.seqHostTx).map some) ↔
        history.node.heartbeat = .sleeping) := by
  have hrun : (Run.attempt (step Crc32.checksum)
      (fun history event ↦ history.Accepts Crc32.checksum event) (start 1 true true) crossing).map
        (fun history ↦ (history.node.seqHostTx, decide (history.node.numbers = 0))) =
      some (2, true) := by
    decide +kernel
  obtain ⟨history, hreaches, hstate⟩ := Run.exists_of_attempt hrun
  obtain ⟨hcounter, hidle⟩ := Prod.mk.inj hstate
  exact ⟨history, hreaches, hcounter, emitted_perm_range_iff hreaches (of_decide_eq_true hidle)⟩

/-- The first iteration of the heartbeat loop of a node with an open host device takes number 0 and
emits nothing. -/
theorem not_emitted_perm_range_heartbeat :
    ∃ history, Run.Reaches (step Crc32.checksum)
        (fun history event ↦ history.Accepts Crc32.checksum event) (start 1 true true) history ∧
      history.node.numbers = 0 ∧
      ¬ (history.emitted.map (seqOf Crc32.checksum)).Perm
        ((List.range history.node.seqHostTx).map some) := by
  have hrun : (Run.attempt (step Crc32.checksum)
      (fun history event ↦ history.Accepts Crc32.checksum event) (start 1 true true)
        [.act .hbStep, .act .hbStep]).map (fun history ↦
          (history.emitted, history.node.seqHostTx, decide (history.node.numbers = 0))) =
      some ([], 1, true) := by
    decide +kernel
  obtain ⟨history, hreaches, hstate⟩ := Run.exists_of_attempt hrun
  simp only [Prod.mk.injEq] at hstate
  obtain ⟨hemitted, hcounter, hidle⟩ := hstate
  refine ⟨history, hreaches, of_decide_eq_true hidle, ?_⟩
  rw [hemitted, hcounter]
  decide

end History

end UDFNode

end UsbDirectFabric.Daemon
