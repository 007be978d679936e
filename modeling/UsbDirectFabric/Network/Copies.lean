import UsbDirectFabric.Network.FabricRefinement
import Mathlib.Algebra.Order.BigOperators.Group.Finset

/-!
# The copies of a frame in a reached network

What holds in every state that a network reaches: each frame that was ever created has exactly one
copy, which is where a journey has taken it, the `dropped` statistics count the copies that have
ended as dropped, and in a run without faults no call of `send` comes to nothing.
-/

namespace UsbDirectFabric.Network.Fabric

open Wire Daemon Tokens

variable {ι : Type} [DecidableEq ι] {crc32 : Bytes → UInt32}
  {wiring : ι → Option (ι × RxLoop)} {fabric next : Fabric ι}

/-! ## What the steps leave alone -/

/-- A field that a new state of one daemon does not change is unchanged everywhere. -/
theorem field_update {α : Type*} (field : Peer → α) {peers : ι → Peer} {node : ι} {peer : Peer}
    (hfield : field peer = field (peers node)) :
    (fun other ↦ field (Function.update peers node peer other)) =
      fun other ↦ field (peers other) := by
  funext other
  by_cases hother : other = node
  · rw [hother, Function.update_self, hfield]
  · rw [Function.update_of_ne hother]

/-- A daemon's step keeps the topology if it keeps the daemon's id and kind. -/
theorem topology_commit (fabric : Fabric ι) {node : ι} {peer : Peer} {effect : Effect}
    (hid : peer.nodeId = (fabric.peers node).nodeId)
    (hlimit : peer.limitFate = (fabric.peers node).limitFate) :
    (fabric.commit node peer effect).topology wiring = fabric.topology wiring := by
  simp only [topology, commit, field_update Peer.nodeId hid, field_update Peer.limitFate hlimit]

theorem step_topology {action : Action ι} (hstep : fabric.step crc32 wiring action = some next) :
    next.topology wiring = fabric.topology wiring := by
  cases step_move hstep with
  | peer hpeer =>
      have hframe := Peer.step_frame hpeer
      exact topology_commit fabric hframe.1 hframe.2.1
  | read _ _ hread =>
      have hframe := Peer.read_frame hread
      exact topology_commit (fabric.unlink _ _) hframe.1 hframe.2.1
  | lose => rfl
  | inject => rfl

variable {boot : ι → Boot} {condition : Fabric ι → Action ι → Prop}

/-- The topology of a reached network is the one it was started with. -/
theorem topology_of_reaches
    (hreaches : Run.Reaches (step crc32 wiring) condition (start boot) fabric) :
    fabric.topology wiring = (start boot).topology wiring := by
  apply hreaches.invariant
  · rfl
  · intro state action next htopology _ hstep
    exact (step_topology hstep).trans htopology

def drops (fabric : Fabric ι) (node : ι) : ℕ :=
  fabric.gone.countP fun entry ↦ entry.1 = node ∧ entry.2.1 = .dropped

theorem countP_ended (node other : ι) (effect : Effect) :
    (ended other effect).countP (fun entry ↦ entry.1 = node ∧ entry.2.1 = .dropped) =
      if other = node then effect.drops else 0 := by
  cases effect with
  | silent => simp [ended, Effect.drops]
  | created source data => simp [ended, Effect.drops]
  | wrote tag data => simp [ended, Effect.drops]
  | tore piece abandoned => cases abandoned <;> simp [ended, Effect.drops]
  | ended fate tag => cases fate <;> simp [ended, Effect.drops, List.countP_cons]

/-- A daemon's step keeps the `dropped` statistics right. -/
theorem dropped_commit (fabric : Fabric ι) {node : ι} {peer : Peer} {effect : Effect}
    (hdropped : peer.dropped = (fabric.peers node).dropped + effect.drops)
    (hdrops : ∀ other, (fabric.peers other).dropped = fabric.drops other) (other : ι) :
    ((fabric.commit node peer effect).peers other).dropped =
      (fabric.commit node peer effect).drops other := by
  simp only [drops, commit, List.countP_append, countP_ended]
  by_cases hother : other = node
  · rw [hother, Function.update_self, if_pos rfl, hdropped, hdrops]
    rfl
  · rw [Function.update_of_ne hother, if_neg (Ne.symm hother), hdrops]
    rfl

theorem step_dropped {action : Action ι} (hstep : fabric.step crc32 wiring action = some next)
    (hdrops : ∀ node, (fabric.peers node).dropped = fabric.drops node) (node : ι) :
    (next.peers node).dropped = next.drops node := by
  cases step_move hstep with
  | peer hpeer => exact dropped_commit fabric (Peer.step_frame hpeer).2.2 hdrops _
  | read _ _ hread =>
      exact dropped_commit (fabric.unlink _ _) (Peer.read_frame hread).2.2 hdrops _
  | lose =>
      simp only [drops, List.countP_append, unlink, hdrops]
      simp
  | inject => exact hdrops node

/-- In every reached network each daemon's `dropped` is the number of copies it has dropped. -/
theorem dropped_eq_drops (hreaches : Run.Reaches (step crc32 wiring) condition (start boot) fabric)
    (node : ι) : (fabric.peers node).dropped = fabric.drops node := by
  revert node
  apply hreaches.invariant
  · intro node
    cases hboot : boot node <;> simp [start, Boot.peer, hboot, drops] <;> rfl
  · intro state action next hdrops _ hstep node
    exact step_dropped hstep hdrops node

/-! ## Every send creates its frame -/

theorem held_update {peers : ι → Peer} {node location : ι} {peer : Peer} {seq : ℕ}
    (hpeer : peer.Held seq → (peers node).Held seq ∨ seq < 2 ^ 32)
    (hheld : (Function.update peers node peer location).Held seq) :
    (peers location).Held seq ∨ seq < 2 ^ 32 := by
  by_cases hlocation : location = node
  · rw [hlocation, Function.update_self] at hheld
    rw [hlocation]
    exact hpeer hheld
  · rw [Function.update_of_ne hlocation] at hheld
    exact .inl hheld

/-- The numbers that calls of `send` hold in a run without faults fit 32 bits. -/
theorem held_lt (hreaches : Run.Reaches (step crc32 wiring) Faultless (start boot) fabric)
    {location : ι} {seq : ℕ} (hheld : (fabric.peers location).Held seq) : seq < 2 ^ 32 := by
  induction hreaches generalizing location with
  | refl =>
      cases hboot : boot location with
      | udfNode nodeId gadgetEpOut hostFd =>
          simp only [start, hboot, Boot.peer] at hheld
          obtain ⟨_, _, hsender⟩ := hheld
          cases hsender
      | gadgetDaemon nodeId =>
          simp only [start, hboot, Boot.peer] at hheld
          cases hheld
  | @tail state next action hearlier hallowed hstep ih =>
      cases step_move hstep with
      | peer hpeer => exact (held_update (Peer.held_step hallowed hpeer) hheld).elim ih id
      | read _ _ hread =>
          exact (held_update (fun hseq ↦ .inl (Peer.held_read hread hseq)) hheld).elim ih id
      | lose => exact hallowed.elim
      | inject => exact hallowed.elim

/-- A call of `send` whose number and arguments fit their fields puts its frame on the transmit
queue as soon as its thread goes on. -/
theorem send_creates_of_lt {location : ι} {node : UDFNode}
    (hnode : fabric.peers location = .udfNode node)
    {index : ℕ} {dst : ℤ} {payload : Bytes} {seq : ℕ}
    (hsender : node.senders[index]? = some (.numbered dst payload seq)) (hseq : seq < 2 ^ 32)
    (hid : 0 ≤ node.nodeId ∧ node.nodeId < 256) (hdst : 0 ≤ dst ∧ dst < 256)
    (hpayload : payload.length ≤ maxPayload) :
    ∃ next data,
      fabric.step crc32 wiring (.peer location (.udfNode (.sendStep index))) = some next ∧
      next.origins = fabric.origins ++ [⟨location, some (.send dst payload), data⟩] := by
  obtain ⟨next, data, hstep⟩ : ∃ next data, node.sendStep crc32 fabric.origins.length index =
      some (next, .created (.send dst payload) data) :=
    UDFNode.sendStep_creates hsender hseq hid hdst hpayload
  refine ⟨fabric.commit location (.udfNode next) (.created (.send dst payload) data), data, ?_, rfl⟩
  simp only [step, hnode, Peer.step, UDFNode.step, hstep, Option.map_some]

/-- In a run without faults every call of `send` holds a number that fits. -/
theorem send_creates (hreaches : Run.Reaches (step crc32 wiring) Faultless (start boot) fabric)
    {location : ι} {node : UDFNode} (hnode : fabric.peers location = .udfNode node)
    {index : ℕ} {dst : ℤ} {payload : Bytes} {seq : ℕ}
    (hsender : node.senders[index]? = some (.numbered dst payload seq))
    (hid : 0 ≤ node.nodeId ∧ node.nodeId < 256) (hdst : 0 ≤ dst ∧ dst < 256)
    (hpayload : payload.length ≤ maxPayload) :
    ∃ next data,
      fabric.step crc32 wiring (.peer location (.udfNode (.sendStep index))) = some next ∧
      next.origins = fabric.origins ++ [⟨location, some (.send dst payload), data⟩] := by
  have hheld : (fabric.peers location).Held seq := by
    rw [hnode]
    exact ⟨dst, payload, List.mem_of_getElem? hsender⟩
  exact send_creates_of_lt hnode hsender (held_lt hreaches hheld) hid hdst hpayload

/-! ## Every frame has one copy -/

variable [Fintype ι] {faulty : Prop}

omit [DecidableEq ι] in
theorem tokens_start (boot : ι → Boot) : (start boot).tokens = 0 := by
  have hpeer (node : ι) : (boot node).peer.tokens node = 0 := by
    cases boot node <;> rfl
  simp [tokens, start, hpeer]

/-- **Soundness.** Every copy in a reached network has got to its place by a journey, without faults
if the run had none. -/
theorem sound_of_reaches
    (hreaches : Run.Reaches (step crc32 wiring) condition (start boot) fabric)
    (hcondition : ∀ state action, condition state action → faulty ∨ state.Faultless action) :
    Sound Origin.place (Origin.Genuine crc32 ((start boot).topology wiring).ids)
      (Step crc32 ((start boot).topology wiring) faulty) fabric.position := by
  induction hreaches with
  | refl =>
      rw [position, tokens_start]
      exact sound_start
  | tail action hearlier hallowed hstep ih =>
      have hmoves := step_moves (hcondition _ action hallowed) hstep
      rw [topology_of_reaches hearlier] at hmoves
      exact ih.plays hmoves

/-- The copies of the frame with the given number: in queues, in threads, on links, delivered, or
in the log of ended ones. -/
def copies (fabric : Fabric ι) (number : ℕ) : Multiset (Copy ι) :=
  (fabric.tokens.filter fun token ↦ token.1 = number).map Prod.snd

omit [DecidableEq ι] in
theorem mem_tokens_of_peer {node : ι} {one : ℕ × Copy ι}
    (hone : one ∈ (fabric.peers node).tokens node) : one ∈ fabric.tokens := by
  simp only [tokens, Multiset.mem_add]
  exact .inl (.inl (Multiset.mem_sum.mpr ⟨node, Finset.mem_univ node, hone⟩))

/-- Every frame that was ever created has exactly one copy, wherever its journey has taken it. -/
theorem exists_copy (hreaches : Run.Reaches (step crc32 wiring) condition (start boot) fabric)
    (hcondition : ∀ state action, condition state action → faulty ∨ state.Faultless action)
    {number : ℕ} {origin : Origin ι} (horigin : fabric.origins[number]? = some origin) :
    ∃ copy, fabric.copies number = {copy} ∧
      Journey crc32 ((start boot).topology wiring) faulty origin.place copy := by
  obtain ⟨copy, htokens, hjourney⟩ :=
    (sound_of_reaches hreaches hcondition).existsUnique_token horigin
  have htokens : fabric.tokens.filter (fun token ↦ token.1 = number) = {(number, copy)} := htokens
  refine ⟨copy, ?_, hjourney⟩
  rw [copies, htokens, Multiset.map_singleton]

end UsbDirectFabric.Network.Fabric

namespace UsbDirectFabric.Network

open Wire Daemon Tokens

variable {ι : Type}

/-! ## Quiescence -/

/-- Whether a daemon has no frame queued for transmission and none in its threads. -/
def Peer.isIdle : Peer → Bool
  | udfNode node => node.isIdle
  | gadgetDaemon daemon => daemon.isIdle

def Fabric.Quiescent (fabric : Fabric ι) : Prop :=
  ∀ node, fabric.links node = [] ∧ (fabric.peers node).isIdle

instance [Fintype ι] (fabric : Fabric ι) : Decidable fabric.Quiescent :=
  inferInstanceAs (Decidable (∀ node, fabric.links node = [] ∧ (fabric.peers node).isIdle))

def Spot.Settled : Spot ι → Prop
  | .delivered _ _ | .gone _ _ => True
  | _ => False

/-- What a daemon has put on its receive queue, with what `recv` has handed out of it. -/
def Peer.accepted : Peer → List (Tag × Frame)
  | udfNode node => node.taken ++ node.rxQueue
  | gadgetDaemon daemon => daemon.rxQueue

/-- All copies in an idle daemon have been delivered. -/
theorem Peer.tokens_of_isIdle (location : ι) {peer : Peer} (hidle : peer.isIdle) :
    peer.tokens location = deliveredTokens location peer.accepted := by
  cases peer with
  | udfNode node => exact UDFNode.tokens_of_isIdle location hidle
  | gadgetDaemon daemon => exact GadgetDaemon.tokens_of_isIdle location hidle

/-- In a quiescent network every copy is on a receive queue or in the log of ended ones. -/
theorem Fabric.Quiescent.cases [Fintype ι] {fabric : Fabric ι} (hquiescent : fabric.Quiescent)
    {number : ℕ} {copy : Copy ι} (hcopy : copy ∈ fabric.copies number) :
    (∃ node, ∃ item ∈ (fabric.peers node).accepted, item.1.origin = number ∧
      copy = (item.1.forwards, .delivered node item.2)) ∨
    ∃ entry ∈ fabric.gone, entry.2.2.origin = number ∧
      copy = (entry.2.2.forwards, .gone entry.1 entry.2.1) := by
  obtain ⟨token, htoken, rfl⟩ := Multiset.mem_map.mp hcopy
  have hlinks (link : ι) : linkTokens link (fabric.links link) = 0 := by
    rw [(hquiescent link).1]
    rfl
  obtain ⟨hmem, hnumber⟩ := Multiset.mem_filter.mp htoken
  simp only [tokens, hlinks, Finset.sum_const_zero, add_zero] at hmem
  rcases Multiset.mem_add.mp hmem with hpeer | hgone
  · obtain ⟨node, _, hnode⟩ := Multiset.mem_sum.mp hpeer
    rw [Peer.tokens_of_isIdle node (hquiescent node).2] at hnode
    obtain ⟨item, hitem, rfl⟩ := mem_places.mp hnode
    exact .inl ⟨node, item, hitem, hnumber, rfl⟩
  · obtain ⟨entry, hentry, rfl⟩ := mem_places.mp hgone
    exact .inr ⟨entry, hentry, hnumber, rfl⟩

theorem Fabric.Quiescent.settled [Fintype ι] {fabric : Fabric ι} (hquiescent : fabric.Quiescent)
    {number : ℕ} {copy : Copy ι} (hcopy : copy ∈ fabric.copies number) : copy.2.Settled := by
  rcases hquiescent.cases hcopy with ⟨node, item, _, _, rfl⟩ | ⟨entry, _, _, rfl⟩
  · trivial
  · trivial

/-! ## The receive queues -/

/-- The frames with the given number that a daemon has put on its receive queue. -/
def Fabric.received (fabric : Fabric ι) (number : ℕ) (node : ι) : List Frame :=
  ((fabric.peers node).accepted.filter fun item ↦ item.1.origin = number).map Prod.snd

variable [Fintype ι] {fabric : Fabric ι} {number : ℕ} {node : ι}

/-- In a quiescent network the receive queues hold exactly the delivered copies. -/
theorem Fabric.Quiescent.mem_received (hquiescent : fabric.Quiescent) {frame : Frame} :
    frame ∈ fabric.received number node ↔
      ∃ forwards, (forwards, .delivered node frame) ∈ fabric.copies number := by
  have hpeer : (fabric.peers node).tokens node =
      deliveredTokens node (fabric.peers node).accepted :=
    Peer.tokens_of_isIdle node (hquiescent node).2
  constructor
  · intro hframe
    obtain ⟨⟨tag, other⟩, hitem, rfl⟩ := List.mem_map.mp hframe
    obtain ⟨haccepted, hnumber⟩ := List.mem_filter.mp hitem
    have htoken : token tag (.delivered node other) ∈ (fabric.peers node).tokens node := by
      rw [hpeer]
      exact mem_places.mpr ⟨(tag, other), haccepted, rfl⟩
    exact ⟨tag.forwards, Multiset.mem_map.mpr ⟨token tag (.delivered node other),
      Multiset.mem_filter.mpr ⟨mem_tokens_of_peer htoken, of_decide_eq_true hnumber⟩, rfl⟩⟩
  · rintro ⟨forwards, hcopy⟩
    rcases hquiescent.cases hcopy with ⟨_, item, hitem, hnumber, heq⟩ | ⟨_, _, _, heq⟩
    · cases heq
      exact List.mem_map.mpr ⟨item, List.mem_filter.mpr ⟨hitem, decide_eq_true hnumber⟩, rfl⟩
    · cases heq

/-- No frame is delivered more often than there are copies of it. -/
theorem Fabric.Quiescent.length_received_le (hquiescent : fabric.Quiescent) :
    (fabric.received number node).length ≤ (fabric.copies number).card := by
  have hpeer : (fabric.peers node).tokens node =
      deliveredTokens node (fabric.peers node).accepted :=
    Peer.tokens_of_isIdle node (hquiescent node).2
  have htokens : (fabric.peers node).tokens node ≤ fabric.tokens := by
    have hnode : (fabric.peers node).tokens node ≤ ∑ other, (fabric.peers other).tokens other :=
      Finset.single_le_sum_of_canonicallyOrdered
        (f := fun other ↦ (fabric.peers other).tokens other) (Finset.mem_univ node)
    rw [tokens, add_assoc]
    exact hnode.trans (Multiset.le_add_right _ _)
  calc
    (fabric.received number node).length =
        (((fabric.peers node).tokens node).filter fun one ↦ one.1 = number).card := by
      rw [hpeer, card_filter_places, received, List.length_map]
    _ ≤ (fabric.tokens.filter fun one ↦ one.1 = number).card :=
      Multiset.card_le_card (Multiset.filter_le_filter _ htokens)
    _ = (fabric.copies number).card := by rw [copies, Multiset.card_map]

/-- A delivered frame is on the receive queue of one daemon, once. -/
theorem Fabric.Quiescent.received_eq [DecidableEq ι] (hquiescent : fabric.Quiescent) {place : ι}
    {forwards : ℕ} {frame : Frame}
    (hcopies : fabric.copies number = {(forwards, .delivered place frame)}) :
    fabric.received number node = if node = place then [frame] else [] := by
  have hmem {other : Frame} (hother : other ∈ fabric.received number node) :
      node = place ∧ other = frame := by
    obtain ⟨_, hcopy⟩ := hquiescent.mem_received.mp hother
    rw [hcopies] at hcopy
    cases Multiset.mem_singleton.mp hcopy
    exact ⟨rfl, rfl⟩
  split
  · rename_i hplace
    have hframe : frame ∈ fabric.received number node :=
      hquiescent.mem_received.mpr ⟨forwards, by simp [hcopies, hplace]⟩
    have hlength : (fabric.received number node).length ≤ 1 := by
      calc
        (fabric.received number node).length ≤ (fabric.copies number).card :=
          hquiescent.length_received_le
        _ = 1 := by rw [hcopies, Multiset.card_singleton]
    obtain ⟨other, hother⟩ :=
      List.length_eq_one_iff.mp (le_antisymm hlength (List.length_pos_of_mem hframe))
    have hsingle : other ∈ fabric.received number node := by
      rw [hother]
      exact List.mem_singleton_self other
    rw [hother, (hmem hsingle).2]
  · rename_i hplace
    exact List.eq_nil_iff_forall_not_mem.mpr fun other hother ↦ hplace (hmem hother).1

end UsbDirectFabric.Network
