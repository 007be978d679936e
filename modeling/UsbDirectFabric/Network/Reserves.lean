import UsbDirectFabric.Daemon.NodeHistory
import UsbDirectFabric.Network.Dues

/-!
# The numbers a network still needs

A frame takes one sequence number each time it is forwarded, so the hops it has left bound how many
it can still take. In a node with open endpoints whose counter stays below 32 bits every frame can
be packed again and no receive loop dies, and what the counter gains is taken out of the reserve.
-/

namespace UsbDirectFabric

open Wire Daemon Network

namespace Network

variable (crc32 : Bytes → UInt32)

/-- How many numbers the frames in transfers can still take. -/
def itemsReserve (items : List (Tag × Bytes)) : ℕ :=
  (items.map fun item ↦ hopsIn crc32 item.2).sum

@[simp] theorem itemsReserve_nil : itemsReserve crc32 [] = 0 := rfl

@[simp] theorem itemsReserve_cons (tag : Tag) (data : Bytes) (items : List (Tag × Bytes)) :
    itemsReserve crc32 ((tag, data) :: items) = hopsIn crc32 data + itemsReserve crc32 items := by
  simp only [itemsReserve, List.map_cons, List.sum_cons]

@[simp] theorem itemsReserve_append (front back : List (Tag × Bytes)) :
    itemsReserve crc32 (front ++ back) =
      itemsReserve crc32 front + itemsReserve crc32 back := by
  simp only [itemsReserve, List.map_append, List.sum_append]

/-- A sum over a list, one element apart. -/
theorem sum_map_eraseIdx {α : Type*} (value : α → ℕ) {items : List α} {index : ℕ} {item : α}
    (hitem : items[index]? = some item) :
    (items.map value).sum = value item + ((items.eraseIdx index).map value).sum := by
  obtain ⟨hindex, rfl⟩ := List.getElem?_eq_some_iff.mp hitem
  rw [← List.sum_cons, ← List.map_cons]
  exact ((List.getElem_cons_eraseIdx_perm hindex).symm.map value).sum_eq

theorem itemsReserve_eraseIdx {items : List (Tag × Bytes)} {index : ℕ} {tag : Tag} {data : Bytes}
    (hitem : items[index]? = some (tag, data)) :
    itemsReserve crc32 items =
      hopsIn crc32 data + itemsReserve crc32 (items.eraseIdx index) :=
  sum_map_eraseIdx (fun item : Tag × Bytes ↦ hopsIn crc32 item.2) hitem

variable {crc32}

/-- What `send` packs has all its hops left. -/
theorem hopsIn_of_send {src dst seq : ℤ} {payload data : Bytes}
    (hpack : pack crc32 src dst seq payload 0 0 = .ok data) : hopsIn crc32 data = hopLimit := by
  obtain ⟨frame, -, -, -, rfl, -, hhop, hlength, rfl⟩ := pack_eq_ok crc32 hpack
  have hzero : frame.hop.toNat = 0 := by exact_mod_cast hhop.symm
  rw [hopsIn_of_unpack (unpack_encode crc32 frame hlength), hopsLeft, hzero, Nat.sub_zero]

end Network

namespace Daemon.UDFNode

/-! ## Nodes whose threads stay alive -/

/-- Both endpoints are open, both receive loops run, and the frames they hold can be packed. -/
structure Sturdy (node : UDFNode) : Prop where
  opened : ∀ loop, node.isOpen loop
  alive : ∀ loop, node.rx loop ≠ .dead
  packable : node.Packable

variable {crc32 : Bytes → UInt32} {node next : UDFNode} {effect : Effect} {number : ℕ}

theorem sturdy_start (nodeId : ℤ) : (start nodeId true true).Sturdy where
  opened := fun loop ↦ by cases loop <;> rfl
  alive := fun loop ↦ by cases loop <;> simp [rx, start]
  packable := fun loop ↦ by cases loop <;> trivial

theorem isOpen_withRx (node : UDFNode) (thread : RxThread) (loop other : RxLoop) :
    (node.withRx thread loop).isOpen other = node.isOpen other := by
  cases loop <;> cases other <;> rfl

/-- Moving a receive loop on leaves both loops running. -/
theorem alive_withRx (halive : ∀ loop, node.rx loop ≠ .dead) {thread : RxThread}
    (hthread : thread ≠ .dead) (loop other : RxLoop) :
    (node.withRx thread loop).rx other ≠ .dead := by
  rw [rx_withRx]
  split
  · exact hthread
  · exact halive other

/-- No step of a receive loop with packable frames leads to its end. -/
theorem LoopMove.alive {loop : RxLoop} (hmove : LoopMove crc32 node loop next effect)
    (hpackable : node.Packable) (halive : ∀ loop, node.rx loop ≠ .dead) (other : RxLoop) :
    next.rx other ≠ .dead := by
  have hmoved (thread : RxThread) (hthread : thread ≠ .dead) :
      (node.withRx thread loop).rx other ≠ .dead :=
    alive_withRx halive hthread loop other
  cases hmove with
  | reject | deliver | drop | finish => exact hmoved .waiting (by simp)
  | @count tag data frame => exact hmoved (.unpacked tag frame) (by simp)
  | @number tag frame => exact hmoved (.numbered tag frame node.seqHostTx) (by simp)
  | put => exact hmoved .queued (by simp)
  | fail hrx hraises | die hrx hraises =>
      exact absurd hraises (hpackable.repack_ne_error hrx _)

/-- While the counter fits 32 bits a node stays sturdy. -/
theorem Sturdy.step {action : Action} (hsturdy : node.Sturdy) (hseq : node.seqHostTx < 2 ^ 32)
    (hstep : node.step crc32 number action = some (next, effect)) : next.Sturdy := by
  obtain ⟨hopened, halive, hpackable⟩ := hsturdy
  have hkept := hpackable.step hseq hstep
  cases step_moves crc32 hstep with
  | send => exact ⟨hopened, halive, hkept⟩
  | sender hmove => cases hmove <;> exact ⟨hopened, halive, hkept⟩
  | @loop loop _ _ hmove =>
      refine ⟨?_, hmove.alive hpackable halive, hkept⟩
      intro other
      rw [← hopened other]
      cases hmove <;> exact isOpen_withRx node _ loop other
  | plain hmove => cases hmove <;> exact ⟨hopened, halive, hkept⟩

theorem Sturdy.read {loop : RxLoop} {tag : Tag} {data : Bytes} (hsturdy : node.Sturdy)
    (hread : node.read loop tag data = some (next, effect)) : next.Sturdy := by
  have hkept := hsturdy.packable.read hread
  obtain ⟨-, -, ⟨-, rfl, -⟩ | ⟨-, rfl, -⟩⟩ := read_cases hread
  · exact hsturdy
  · refine ⟨?_, alive_withRx hsturdy.alive (by simp) loop, hkept⟩
    intro other
    rw [isOpen_withRx, hsturdy.opened other]

/-! ## The reserve of a node -/

variable (crc32) in
def RxThread.reserve : RxThread → ℕ
  | .received _ data => hopsIn crc32 data
  | .unpacked _ frame => hopsLeft frame
  | .numbered _ frame _ => hopsLeft frame - 1
  | .waiting | .queued | .dead => 0

variable (crc32) in
def TxThread.reserve : TxThread → ℕ
  | .holding _ raw => hopsIn crc32 raw
  | .waiting => 0

/-- The heartbeat takes one number before it dies. -/
def HbThread.reserve : HbThread → ℕ
  | .sleeping => 1
  | .numbered _ | .dead => 0

def Sender.reserve : Sender → ℕ
  | .numbered _ _ _ => hopLimit
  | .queued _ => 0

variable (crc32) in
/-- How many numbers the frames and the heartbeat of a node can still take, here or elsewhere. -/
def reserve (node : UDFNode) : ℕ :=
  itemsReserve crc32 node.txQueue + node.hostTx.reserve crc32 +
    (node.gadgetRx.reserve crc32 + node.hostRx.reserve crc32) +
    (node.senders.map Sender.reserve).sum + node.heartbeat.reserve

variable (crc32) in
/-- Moving a receive loop exchanges the reserve of its position. -/
theorem reserve_withRx (node : UDFNode) (thread : RxThread) (loop : RxLoop) :
    (node.withRx thread loop).reserve crc32 + (node.rx loop).reserve crc32 =
      node.reserve crc32 + thread.reserve crc32 := by
  cases loop <;> simp only [reserve, withRx, rx] <;> omega

theorem seqHostTx_withRx (node : UDFNode) (thread : RxThread) (loop : RxLoop) :
    (node.withRx thread loop).seqHostTx = node.seqHostTx := by
  cases loop <;> rfl

theorem reserve_enqueue (node : UDFNode) (tag : Tag) (data : Bytes) :
    { node with txQueue := node.txQueue ++ [(tag, data)] }.reserve crc32 =
      node.reserve crc32 + hopsIn crc32 data := by
  simp only [reserve, itemsReserve_append, itemsReserve_cons, itemsReserve_nil]
  omega

variable (crc32) in
/-- The counter takes what it gains out of the reserve of the node, and what the node writes has its
own part of it. -/
structure Spends (written : List (Tag × Bytes)) (node next : UDFNode) : Prop where
  total : next.seqHostTx + (next.reserve crc32 + itemsReserve crc32 written) ≤
    node.seqHostTx + node.reserve crc32
  counter : node.seqHostTx ≤ next.seqHostTx

theorem Spends.of_taken {written : List (Tag × Bytes)} (taken : ℕ)
    (hseq : next.seqHostTx = node.seqHostTx + taken)
    (hreserve : next.reserve crc32 + itemsReserve crc32 written + taken ≤ node.reserve crc32) :
    Spends crc32 written node next where
  total := by omega
  counter := by omega

/-- A receive loop that moves on without a number. -/
theorem spends_withRx (thread : RxThread) {loop : RxLoop} {source : RxThread}
    (hstands : node.rx loop = source) (hless : thread.reserve crc32 ≤ source.reserve crc32)
    (hseq : next.seqHostTx = (node.withRx thread loop).seqHostTx)
    (hreserve : next.reserve crc32 = (node.withRx thread loop).reserve crc32) :
    Spends crc32 [] node next := by
  have hexchange := reserve_withRx crc32 node thread loop
  rw [hstands] at hexchange
  apply Spends.of_taken 0
  · rw [hseq, seqHostTx_withRx]
    rfl
  · rw [hreserve, itemsReserve_nil]
    omega

theorem LoopMove.spends {loop : RxLoop} (hmove : LoopMove crc32 node loop next effect) :
    Spends crc32 (written number effect) node next := by
  cases hmove with
  | reject hstands => exact spends_withRx .waiting hstands (Nat.zero_le _) rfl rfl
  | @count tag data frame hstands hunpack =>
      have hsame : hopsLeft frame ≤ hopsIn crc32 data := le_of_eq (hopsIn_of_unpack hunpack).symm
      exact spends_withRx (.unpacked tag frame) hstands hsame rfl rfl
  | deliver hstands => exact spends_withRx .waiting hstands (Nat.zero_le _) rfl rfl
  | drop hstands => exact spends_withRx .waiting hstands (Nat.zero_le _) rfl rfl
  | @number tag frame hstands _ hlimit =>
      have hleft : 0 < hopsLeft frame := Nat.sub_pos_of_lt hlimit
      have hexchange : (node.withRx (.numbered tag frame node.seqHostTx) loop).reserve crc32 +
          (node.rx loop).reserve crc32 = node.reserve crc32 + (hopsLeft frame - 1) :=
        reserve_withRx crc32 node _ loop
      rw [hstands, show (RxThread.unpacked tag frame).reserve crc32 = hopsLeft frame from rfl]
        at hexchange
      have htaken : (node.withRx (.numbered tag frame node.seqHostTx) loop).reserve crc32 + 0 + 1 ≤
          node.reserve crc32 := by
        omega
      exact .of_taken 1 (congrArg (· + 1) (seqHostTx_withRx node _ loop)) htaken
  | @put tag frame seq raw hstands hrepack =>
      have hexchange : (node.withRx .queued loop).reserve crc32 + (node.rx loop).reserve crc32 =
          node.reserve crc32 + 0 :=
        reserve_withRx crc32 node .queued loop
      rw [hstands,
        show (RxThread.numbered tag frame seq).reserve crc32 = hopsLeft frame - 1 from rfl,
        ← hopsIn_of_repack hrepack] at hexchange
      apply Spends.of_taken 0
      · exact seqHostTx_withRx node .queued loop
      · rw [reserve_enqueue]
        exact le_of_eq hexchange
  | fail hstands => exact spends_withRx .waiting hstands (Nat.zero_le _) rfl rfl
  | die hstands => exact spends_withRx .dead hstands (Nat.zero_le _) rfl rfl
  | finish hstands => exact spends_withRx .waiting hstands (Nat.zero_le _) rfl rfl

theorem SenderMove.spends {index : ℕ} (hmove : SenderMove crc32 number index node next effect) :
    Spends crc32 (written number effect) node next := by
  cases hmove with
  | @put dst payload seq raw hstands hpack =>
      refine .of_taken 0 rfl ?_
      simp only [reserve, itemsReserve_append, itemsReserve_cons, itemsReserve_nil, written,
        hopsIn_of_send hpack, sum_map_eraseIdx Sender.reserve hstands, Sender.reserve,
        List.map_cons, List.sum_cons]
      omega
  | @fail dst payload seq error hstands =>
      refine .of_taken 0 rfl ?_
      simp only [reserve, itemsReserve_nil, written, sum_map_eraseIdx Sender.reserve hstands]
      omega
  | @count length hstands =>
      refine .of_taken 0 rfl ?_
      simp only [reserve, itemsReserve_nil, written, sum_map_eraseIdx Sender.reserve hstands]
      omega

/-- A whole write takes its frame's part along. -/
theorem PlainMove.spends {action : Action} (hmove : PlainMove node action next effect)
    (hwhole : WritesAll action node.hostTx) : Spends crc32 (written number effect) node next := by
  cases hmove with
  | recv => exact .of_taken 0 rfl (le_of_eq rfl)
  | @txGet tag raw rest hstands hwaits =>
      refine .of_taken 0 rfl ?_
      simp only [reserve, hstands, hwaits, TxThread.reserve, itemsReserve_cons, itemsReserve_nil,
        written]
      omega
  | @txWhole tag raw hstands =>
      refine .of_taken 0 rfl ?_
      simp only [reserve, hstands, TxThread.reserve, itemsReserve_cons, itemsReserve_nil, written]
      omega
  | @txShort tag raw accepted hstands _ hshort =>
      rw [hstands] at hwhole
      exact absurd hwhole (Nat.ne_of_lt hshort)
  | txFail => exact hwhole.elim
  | txSkip => exact hwhole.elim
  | hbNumber hstands =>
      refine .of_taken 1 rfl ?_
      simp only [reserve, hstands, HbThread.reserve, itemsReserve_nil, written]
      omega
  | hbDie hstands =>
      refine .of_taken 0 rfl ?_
      simp only [reserve, hstands, HbThread.reserve, itemsReserve_nil, written]
      omega

/-- Without new calls of `send` and without faults, each number comes out of the reserve. -/
theorem step_spends {action : Action} (hproceeds : Proceeds action)
    (hfaultless : node.Faultless action)
    (hstep : node.step crc32 number action = some (next, effect)) :
    Spends crc32 (written number effect) node next := by
  cases step_moves crc32 hstep with
  | send => exact hproceeds.elim
  | sender hmove => exact hmove.spends
  | loop hmove => exact hmove.spends
  | plain hmove => exact hmove.spends hfaultless.2

/-- What is read may be cut, which leaves it no more hops than before. -/
theorem read_spends {loop : RxLoop} {tag : Tag} {data : Bytes}
    (hread : node.read loop tag data = some (next, effect)) :
    next.seqHostTx = node.seqHostTx ∧
      next.reserve crc32 + itemsReserve crc32 (written number effect) ≤
        node.reserve crc32 + hopsIn crc32 data := by
  obtain ⟨-, hwaiting, ⟨-, rfl, rfl⟩ | ⟨-, rfl, rfl⟩⟩ := read_cases hread
  · exact ⟨rfl, Nat.le_add_right _ _⟩
  · refine ⟨seqHostTx_withRx node _ loop, ?_⟩
    have hexchange : (node.withRx (.received tag (data.take readSize)) loop).reserve crc32 +
        (node.rx loop).reserve crc32 = node.reserve crc32 + hopsIn crc32 (data.take readSize) :=
      reserve_withRx crc32 node _ loop
    rw [hwaiting, show RxThread.waiting.reserve crc32 = 0 from rfl, add_zero] at hexchange
    rw [hexchange]
    exact Nat.add_le_add_left (hopsIn_take_le data readSize) _

end Daemon.UDFNode

end UsbDirectFabric
