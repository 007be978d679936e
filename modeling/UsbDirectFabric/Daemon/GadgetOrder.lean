import Mathlib.Data.List.Range
import UsbDirectFabric.Foundation.Crc32
import UsbDirectFabric.Foundation.Run
import UsbDirectFabric.Daemon.Gadget

/-!
# The order of the gadget daemon's frames

The forwarding loop, the heartbeat loop and the callers of `send` take a number under the lock of
`_next_seq`, give the lock up, and put the frame with that number on `tx_queue` later. The queue is
in the order of the numbers as long as nobody overtakes: whoever puts a frame on the queue holds the
earliest number that has been taken and not yet used.
-/

namespace UsbDirectFabric.Daemon.GadgetDaemon

open Wire

inductive Event
  | act (action : Action)
  | transfer (data : Bytes)
deriving DecidableEq, Repr

/-- A daemon, the frames that `_tx_loop` has taken from `tx_queue`, the numbers that have been taken
and not used, earliest first, and how many events there were. -/
structure History where
  daemon : GadgetDaemon
  drained : List Bytes
  outstanding : List ℕ
  clock : ℕ
deriving DecidableEq, Repr

def taking (daemon : GadgetDaemon) : Event → List (Tag × Bytes)
  | .act .txGet => daemon.txQueue.take 1
  | _ => []

/-- The number with which an event goes to the queue. -/
def presented (daemon : GadgetDaemon) : Event → Option ℕ
  | .act .rxStep =>
      match daemon.rx with
      | .numbered _ _ seq => some seq
      | _ => none
  | .act .hbStep =>
      match daemon.hb with
      | .numbered seq => some seq
      | _ => none
  | .act (.sendPut index) => daemon.senders[index]?.map Sender.seq
  | _ => none

variable (crc32 : Bytes → UInt32)

/-- Whether `pack` accepts what the heartbeat loop or a caller of `send` is about to pack. -/
def accepts (daemon : GadgetDaemon) : Event → Bool
  | .act .hbStep =>
      match daemon.hb with
      | .numbered seq => (makeHeartbeat crc32 daemon.nodeId seq broadcast).isOk
      | _ => true
  | .act (.sendPut index) =>
      match daemon.senders[index]? with
      | some sender => (pack crc32 daemon.nodeId sender.dst sender.seq sender.payload 0 0).isOk
      | none => true
  | _ => true

namespace History

def start (nodeId : ℤ) : History where
  daemon := GadgetDaemon.start nodeId
  drained := []
  outstanding := []
  clock := 0

/-- The frames ever put on `tx_queue`, in order. -/
def put (history : History) : List Bytes :=
  history.drained ++ history.daemon.txQueue.map Prod.snd

/-- Whether no event goes to the queue ahead of one with an earlier number. -/
def inTurn (history : History) (event : Event) : Bool :=
  match history.daemon.presented event with
  | some seq => history.outstanding.head? = some seq
  | none => true

def react (history : History) : Event → Option (GadgetDaemon × Effect)
  | .act action => history.daemon.step crc32 history.clock action
  | .transfer data => history.daemon.read (.fresh history.clock) data

/-- The numbers outstanding after an event: a number is taken when the counter moves. -/
def settle (history : History) (event : Event) (next : GadgetDaemon) : List ℕ :=
  let kept := match history.daemon.presented event with
    | some seq => history.outstanding.erase seq
    | none => history.outstanding
  if next.txSeq = history.daemon.txSeq then kept else kept ++ [history.daemon.txSeq]

def step (history : History) (event : Event) : Option History :=
  (history.react crc32 event).map fun (next, _) ↦
    { daemon := next
      drained := history.drained ++ (history.daemon.taking event).map Prod.snd
      outstanding := history.settle event next
      clock := history.clock + 1 }

/-- Every frame on the queue has the number after the one before it, modulo `2 ^ 32`. -/
def Consecutive (history : History) : Prop :=
  ∃ numbers : List ℕ, history.put.map (seqOf crc32) = numbers.map some ∧
    numbers.IsChain fun earlier later ↦ later = (earlier + 1) % 2 ^ 32

end History

/-! ## What the steps of the threads do -/

variable {crc32} {daemon next : GadgetDaemon} {event : Event} {effect : Effect}

/-- The frame that `_rx_loop` is forwarding can be packed again. -/
def RxThread.Packable : RxThread → Prop
  | .accounted _ frame => frame.payload.length < 65536
  | .numbered _ frame seq =>
      frame.payload.length < 65536 ∧ frame.hop.toNat < hopLimit ∧ seq < 2 ^ 32
  | _ => True

/-- An event leaves counter and queue alone, takes a number, or uses one for a new frame. -/
inductive Turn (crc32 : Bytes → UInt32) (daemon next : GadgetDaemon) (event : Event) : Prop
  | keep (counter : next.txSeq = daemon.txSeq) (presents : daemon.presented event = none)
      (queue : daemon.taking event ++ next.txQueue = daemon.txQueue)
  | allocate (counter : next.txSeq = (daemon.txSeq + 1) % 2 ^ 32)
      (presents : daemon.presented event = none)
      (queue : daemon.taking event ++ next.txQueue = daemon.txQueue)
  | use {seq : ℕ} {tag : Tag} {raw : Bytes} (carries : seqOf crc32 raw = some seq)
      (counter : next.txSeq = daemon.txSeq) (presents : daemon.presented event = some seq)
      (queue : daemon.taking event ++ next.txQueue = daemon.txQueue ++ [(tag, raw)])

theorem turn_rxStep (hpackable : daemon.rx.Packable) (hseq : daemon.txSeq < 2 ^ 32)
    (hstep : daemon.rxStep crc32 = some (next, effect)) :
    Turn crc32 daemon next (.act .rxStep) ∧ next.rx.Packable := by
  have hmove : Move crc32 0 daemon .rxStep next effect := rxStep_moves hstep
  cases hmove with
  | size hrx | reject hrx | deliver hrx | drop hrx =>
      exact ⟨.keep rfl (by simp [presented, hrx]) rfl, trivial⟩
  | account hrx hunpack =>
      rw [account_eq]
      exact ⟨.keep rfl (by simp [presented, hrx]) rfl, (length_payload_of_unpack crc32 hunpack).2⟩
  | number hrx hother hhop =>
      rw [hrx] at hpackable
      exact ⟨.allocate rfl (by simp [presented, hrx]) rfl, hpackable, hhop, hseq⟩
  | forward hrx hrepack =>
      exact ⟨.use (seqOf_of_pack crc32 hrepack) rfl (by simp [presented, hrx]) rfl, trivial⟩
  | rxDie hrx hrepack =>
      rw [hrx] at hpackable
      obtain ⟨hlength, hhop, hfits⟩ := hpackable
      rw [repack_eq_ok crc32 hhop hlength hfits] at hrepack
      cases hrepack

/-- With packable frames and accepted arguments every number that is used makes a frame. -/
theorem turn_step {number : ℕ} {action : Action} (hpackable : daemon.rx.Packable)
    (hseq : daemon.txSeq < 2 ^ 32) (haccepts : daemon.accepts crc32 (.act action))
    (hstep : daemon.step crc32 number action = some (next, effect)) :
    Turn crc32 daemon next (.act action) ∧ next.rx.Packable := by
  by_cases haction : action = .rxStep
  · subst haction
    exact turn_rxStep hpackable hseq hstep
  · refine ⟨?_, ((step_frame hstep).2.2 haction).2 ▸ hpackable⟩
    cases step_moves hstep with
    | size | account | reject | deliver | number | drop | forward | rxDie =>
        exact absurd rfl haction
    | txGet htx hqueue => exact .keep rfl rfl (by simp [taking, hqueue])
    | txWhole | txPiece | txFail | txFinish | txFinishPieces => exact .keep rfl rfl rfl
    | hbNumber hhb => exact .allocate rfl (by simp [presented, hhb]) rfl
    | hbPut hhb hpack => exact .use (seqOf_of_pack crc32 hpack) rfl (by simp [presented, hhb]) rfl
    | hbDie hhb hpack =>
        simp only [accepts, hhb, hpack] at haccepts
        cases haccepts
    | send => exact .allocate rfl rfl rfl
    | sendPut hsender hpack =>
        exact .use (seqOf_of_pack crc32 hpack) rfl (by simp [presented, hsender]) rfl
    | sendRaise hsender hpack =>
        simp only [accepts, hsender, hpack] at haccepts
        cases haccepts

theorem turn_read {tag : Tag} {data : Bytes} (hpackable : daemon.rx.Packable)
    (hread : daemon.read tag data = some (next, effect)) :
    Turn crc32 daemon next (.transfer data) ∧ next.rx.Packable := by
  obtain ⟨-, ⟨-, rfl, rfl⟩ | ⟨-, rfl, rfl⟩⟩ := read_cases hread
  · exact ⟨.keep rfl rfl rfl, hpackable⟩
  · exact ⟨.keep rfl rfl rfl, trivial⟩

/-! ## Whole runs -/

namespace History

variable {history after : History}

/-- The frames on the queue carry the first numbers taken, and the rest of them is outstanding. -/
structure InOrder (crc32 : Bytes → UInt32) (history : History) : Prop where
  packable : history.daemon.rx.Packable
  numbers : ∃ count : ℕ, history.daemon.txSeq = count % 2 ^ 32 ∧
    history.put.map (seqOf crc32) ++ history.outstanding.map some =
      ((List.range count).map (· % 2 ^ 32)).map some

theorem inOrder_start (nodeId : ℤ) : InOrder crc32 (start nodeId) where
  packable := trivial
  numbers := ⟨0, rfl, rfl⟩

theorem turn_react (horder : InOrder crc32 history)
    (haccepts : history.daemon.accepts crc32 event)
    (hreact : history.react crc32 event = some (next, effect)) :
    Turn crc32 history.daemon next event ∧ next.rx.Packable := by
  obtain ⟨count, hcounter, -⟩ := horder.numbers
  have hseq : history.daemon.txSeq < 2 ^ 32 := by
    rw [hcounter]
    exact Nat.mod_lt _ (by decide)
  cases event with
  | act action => exact turn_step horder.packable hseq haccepts hreact
  | transfer data => exact turn_read horder.packable hreact

/-- What is put on the queue comes after all that was put there before. -/
theorem put_step {items : List (Tag × Bytes)}
    (hdrained : after.drained = history.drained ++ (history.daemon.taking event).map Prod.snd)
    (hqueue : history.daemon.taking event ++ after.daemon.txQueue =
      history.daemon.txQueue ++ items) : after.put = history.put ++ items.map Prod.snd := by
  calc
    after.put = history.drained ++
        (history.daemon.taking event ++ after.daemon.txQueue).map Prod.snd := by
      rw [put, hdrained, List.append_assoc, List.map_append]
    _ = history.drained ++ (history.daemon.txQueue ++ items).map Prod.snd := by rw [hqueue]
    _ = history.put ++ items.map Prod.snd := by rw [put, List.map_append, List.append_assoc]

/-- An event in its turn keeps the order. -/
theorem inOrder_step (horder : InOrder crc32 history)
    (haccepts : history.daemon.accepts crc32 event) (hturn : history.inTurn event)
    (hstep : history.step crc32 event = some after) : InOrder crc32 after := by
  obtain ⟨⟨next, effect⟩, hreact, rfl⟩ := Option.map_eq_some_iff.mp hstep
  obtain ⟨hmove, hpackable⟩ := turn_react horder haccepts hreact
  refine ⟨hpackable, ?_⟩
  obtain ⟨count, hcounter, hnumbers⟩ := horder.numbers
  cases hmove with
  | keep hsame hpresents hqueue =>
      refine ⟨count, hsame.trans hcounter, ?_⟩
      rw [put_step rfl (hqueue.trans (List.append_nil _).symm), List.map_nil, List.append_nil]
      simp only [settle, hpresents, hsame, if_true]
      exact hnumbers
  | allocate hnext hpresents hqueue =>
      have hmoved : next.txSeq ≠ history.daemon.txSeq := by
        rw [hnext, hcounter]
        omega
      refine ⟨count + 1, ?_, ?_⟩
      · rw [hnext, hcounter, Nat.mod_add_mod]
      · rw [put_step rfl (hqueue.trans (List.append_nil _).symm), List.map_nil, List.append_nil]
        simp only [settle, hpresents, if_neg hmoved]
        calc
          history.put.map (seqOf crc32) ++
                (history.outstanding ++ [history.daemon.txSeq]).map some =
              ((List.range count).map (· % 2 ^ 32)).map some ++ [some (count % 2 ^ 32)] := by
            rw [List.map_append, ← List.append_assoc, hnumbers, hcounter]
            rfl
          _ = ((List.range (count + 1)).map (· % 2 ^ 32)).map some := by
            rw [List.range_succ, List.map_append, List.map_append]
            rfl
  | @use seq tag raw hcarries hsame hpresents hqueue =>
      have hhead : history.outstanding.head? = some seq := by
        simpa [inTurn, hpresents] using hturn
      obtain ⟨rest, hrest⟩ := List.head?_eq_some_iff.mp hhead
      refine ⟨count, hsame.trans hcounter, ?_⟩
      rw [put_step rfl hqueue]
      simp only [settle, hpresents, hsame, if_true, hrest, List.erase_cons_head]
      rw [← hnumbers, hrest]
      simp [hcarries]

/-- The numbers that the counter gives out are consecutive. -/
theorem isChain_range_mod (count : ℕ) :
    ((List.range count).map (· % 2 ^ 32)).IsChain
      fun earlier later ↦ later = (earlier + 1) % 2 ^ 32 := by
  rw [List.isChain_map, List.isChain_range]
  intro number _
  exact (Nat.mod_add_mod number (2 ^ 32) 1).symm

/-- **Transmission in order.** In every run in which each frame is put on the queue by the holder of
the earliest outstanding number, the frames have consecutive numbers in every state. -/
theorem consecutive_of_inTurn {nodeId : ℤ}
    (hreaches : Run.Reaches (step crc32)
      (fun history event ↦ history.daemon.accepts crc32 event ∧ history.inTurn event)
      (start nodeId) history) : history.Consecutive crc32 := by
  have horder : InOrder crc32 history :=
    hreaches.invariant (inOrder_start nodeId)
      fun _ _ _ horder hallowed hstep ↦ inOrder_step horder hallowed.1 hallowed.2 hstep
  obtain ⟨count, -, hnumbers⟩ := horder.numbers
  obtain ⟨numbers, rest, hsplit, hput, -⟩ := List.map_eq_append_iff.mp hnumbers.symm
  refine ⟨numbers, hput.symm, ?_⟩
  have hchain := isChain_range_mod count
  rw [hsplit] at hchain
  exact hchain.left_of_append

/-- The forwarding loop, the heartbeat loop and two callers of `send` take a number each before the
first of them puts its frame on the queue. -/
def crowd : List Event :=
  [.transfer (encode Crc32.checksum ⟨0, 0, 0, 9, 5, [0x48, 0x69]⟩), .act .rxStep, .act .rxStep,
    .act (.send 2 [0x48]), .act .rxStep, .act .hbStep, .act (.send 3 [0x69]), .act (.sendPut 1),
    .act .rxStep, .act .txGet, .act .hbStep, .act (.sendPut 0)]

theorem consecutive_of_inTurn_crowd :
    ∃ history, Run.Reaches (step Crc32.checksum)
        (fun history event ↦
          history.daemon.accepts Crc32.checksum event ∧ history.inTurn event)
        (start 1) history ∧
      history.put.length = 4 ∧ history.Consecutive Crc32.checksum := by
  have hrun : (Run.attempt (step Crc32.checksum)
      (fun history event ↦ history.daemon.accepts Crc32.checksum event ∧ history.inTurn event)
      (start 1) crowd).map (fun history ↦ history.put.length) = some 4 := by
    decide +kernel
  obtain ⟨history, hreaches, hlength⟩ := Run.exists_of_attempt hrun
  exact ⟨history, hreaches, hlength, consecutive_of_inTurn hreaches⟩

/-- A caller of `send` takes number 0 and is overtaken by the heartbeat loop with number 1. -/
def overtaken : List Event :=
  [.act (.send 2 [0x48]), .act .hbStep, .act .hbStep, .act (.sendPut 0)]

theorem not_consecutive_overtaken :
    ∃ history, Run.Reaches (step Crc32.checksum)
        (fun history event ↦ history.daemon.accepts Crc32.checksum event) (start 1) history ∧
      ¬ history.Consecutive Crc32.checksum := by
  have hrun : (Run.attempt (step Crc32.checksum)
      (fun history event ↦ history.daemon.accepts Crc32.checksum event) (start 1) overtaken).map
        (fun history ↦ history.put.map (seqOf Crc32.checksum)) = some [some 1, some 0] := by
    decide +kernel
  obtain ⟨history, hreaches, hput⟩ := Run.exists_of_attempt hrun
  refine ⟨history, hreaches, ?_⟩
  rintro ⟨numbers, hnumbers, hchain⟩
  rw [hput] at hnumbers
  have horder : numbers = [1, 0] :=
    List.map_injective_iff.mpr (Option.some_injective ℕ) hnumbers.symm
  rw [horder] at hchain
  revert hchain
  decide

end History

end UsbDirectFabric.Daemon.GadgetDaemon
