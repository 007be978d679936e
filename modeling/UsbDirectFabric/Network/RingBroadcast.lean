import UsbDirectFabric.Network.RingDelivery

/-!
# Broadcasts in a ring of nodes

A receive loop puts a broadcast on the receive queue and does nothing else with it, so the tour of a
broadcast ends at the node after its sender. In a ring of two nodes that is everybody else; in a
larger ring the other nodes never see it.
-/

namespace UsbDirectFabric.Daemon.UDFNode

open Wire Network Tokens

variable {ι : Type} {crc32 : Bytes → UInt32} {topology : Topology ι} {location : ι}
  {node next : UDFNode} {effect : Effect}

theorem mem_tokens_of_rx {loop : RxLoop} {one : ℕ × Copy ι}
    (hone : one ∈ rxTokens location (node.rx loop)) : one ∈ node.tokens location := by
  unfold tokens
  apply Multiset.mem_add.mpr
  left
  apply Multiset.mem_add.mpr
  right
  apply Multiset.mem_add.mpr
  cases loop with
  | gadgetRx =>
      left
      exact hone
  | hostRx =>
      right
      exact hone

/-- A copy that ends in a step of a receive loop was in the loop. -/
theorem mem_ended_loop {loop : RxLoop} (hid : topology.ids location = node.nodeId)
    (hlimit : topology.limitFate location = .dropped)
    (hmove : LoopMove crc32 node loop next effect) {entry : ι × Fate × Tag}
    (hentry : entry ∈ ended location effect) :
    ∃ spot, token entry.2.2 spot ∈ node.tokens location ∧
      Step crc32 topology False (entry.2.2.forwards, spot)
        (entry.2.2.forwards, .gone entry.1 entry.2.1) := by
  have hthread {tag : Tag} {spot : Spot ι} {thread : RxThread} (hrx : node.rx loop = thread)
      (hspot : rxTokens location thread = {token tag spot}) :
      token tag spot ∈ node.tokens location := by
    have hmem : token tag spot ∈ rxTokens location (node.rx loop) := by
      rw [hrx, hspot]
      exact Multiset.mem_singleton_self _
    exact mem_tokens_of_rx hmem
  cases hmove with
  | count => cases hentry
  | deliver => cases hentry
  | number => cases hentry
  | put => cases hentry
  | finish => cases hentry
  | @reject tag data message hrx hunpack =>
      cases List.mem_singleton.mp hentry
      exact ⟨.received location data, hthread hrx rfl, .reject tag.forwards location hunpack⟩
  | @drop tag frame hrx hother hexpired =>
      have hnot : ¬Addressed (topology.ids location) frame := hid ▸ hother
      cases List.mem_singleton.mp hentry
      exact ⟨.unpacked location frame, hthread hrx rfl,
        hlimit ▸ Step.expire tag.forwards location hnot hexpired⟩
  | @fail tag frame seq message hrx hrepack =>
      cases List.mem_singleton.mp hentry
      exact ⟨.numbered location frame seq, hthread hrx rfl, .fail tag.forwards location hrepack⟩
  | @die tag frame seq error hrx hrepack =>
      cases List.mem_singleton.mp hentry
      exact ⟨.numbered location frame seq, hthread hrx rfl, .fail tag.forwards location hrepack⟩

/-- As long as the transmit loop writes what it takes, copies end in the receive loops only. -/
theorem mem_ended_step {number : ℕ} {action : Action}
    (hid : topology.ids location = node.nodeId) (hlimit : topology.limitFate location = .dropped)
    (hwrites : WritesAll action node.hostTx)
    (hstep : node.step crc32 number action = some (next, effect)) {entry : ι × Fate × Tag}
    (hentry : entry ∈ ended location effect) :
    ∃ spot, token entry.2.2 spot ∈ node.tokens location ∧
      Step crc32 topology False (entry.2.2.forwards, spot)
        (entry.2.2.forwards, .gone entry.1 entry.2.1) := by
  cases step_moves crc32 hstep with
  | send => cases hentry
  | sender hmove => cases hmove <;> cases hentry
  | loop hmove => exact mem_ended_loop hid hlimit hmove hentry
  | plain hmove =>
      cases hmove with
      | txShort hholding _ hshort =>
          rw [hholding] at hwrites
          exact absurd hwrites (Nat.ne_of_lt hshort)
      | txFail | txSkip => exact hwrites.elim
      | recv | txGet | txWhole | hbNumber | hbDie => cases hentry

end UsbDirectFabric.Daemon.UDFNode

namespace UsbDirectFabric.Network

open Wire Daemon Tokens

/-! ## Links that lose nothing -/

/-- A step of a node in which the transmit loop, if it writes, writes all of its frame. -/
def Peer.Lossless : Peer → Peer.Action → Prop
  | udfNode node, .udfNode action => UDFNode.WritesAll action node.hostTx
  | _, _ => False

instance : ∀ (peer : Peer) (action : Peer.Action), Decidable (peer.Lossless action)
  | .udfNode node, .udfNode action =>
      inferInstanceAs (Decidable (UDFNode.WritesAll action node.hostTx))
  | .udfNode _, .gadgetDaemon _ => isFalse id
  | .gadgetDaemon _, _ => isFalse id

/-- A read ends only an empty transfer. -/
theorem Peer.mem_ended_read {ι : Type} {location : ι} {peer next : Peer} {loop : RxLoop} {tag : Tag}
    {data : Bytes} {effect : Effect} (hread : peer.read loop tag data = some (next, effect))
    {entry : ι × Fate × Tag} (hentry : entry ∈ ended location effect) :
    data = [] ∧ entry = (location, .discarded, tag) := by
  cases read_takes hread with
  | udfNode hnode =>
      obtain ⟨-, -, ⟨hempty, -, hended⟩ | ⟨-, -, hsilent⟩⟩ := UDFNode.read_cases hnode
      · rw [hended] at hentry
        exact ⟨hempty, List.mem_singleton.mp hentry⟩
      · rw [hsilent] at hentry
        cases hentry
  | gadgetDaemon hdaemon =>
      obtain ⟨-, ⟨hempty, -, hended⟩ | ⟨-, -, hsilent⟩⟩ := GadgetDaemon.read_cases hdaemon
      · rw [hended] at hentry
        exact ⟨hempty, List.mem_singleton.mp hentry⟩
      · rw [hsilent] at hentry
        cases hentry

namespace Fabric

variable {ι : Type}

/-- A step of a node that writes whole frames, or a read. -/
def Lossless (fabric : Fabric ι) : Action ι → Prop
  | .peer node action => (fabric.peers node).Lossless action
  | .read _ _ => True
  | .lose _ _ | .inject _ _ => False

instance (fabric : Fabric ι) : ∀ action, Decidable (fabric.Lossless action)
  | .peer node action => inferInstanceAs (Decidable ((fabric.peers node).Lossless action))
  | .read _ _ => isTrue trivial
  | .lose _ _ | .inject _ _ => isFalse id

variable [Fintype ι] [DecidableEq ι] {crc32 : Bytes → UInt32} {wiring : ι → Option (ι × RxLoop)}
  {fabric next : Fabric ι}

theorem mem_tokens_of_link {link : ι} {index : ℕ} {tag : Tag} {data : Bytes}
    (hitem : (fabric.links link)[index]? = some (tag, data)) :
    token tag (.onLink link data) ∈ fabric.tokens := by
  rw [tokens_unlink hitem]
  exact Multiset.mem_add.mpr (.inr (Multiset.mem_singleton_self _))

/-- Without losses a copy ends only where its journey can end without faults. -/
theorem mem_gone_step {action : Action ι} (hlossless : fabric.Lossless action)
    (hstep : fabric.step crc32 wiring action = some next) {entry : ι × Fate × Tag}
    (hentry : entry ∈ next.gone) :
    entry ∈ fabric.gone ∨ ∃ spot, token entry.2.2 spot ∈ fabric.tokens ∧
      Step crc32 (fabric.topology wiring) False (entry.2.2.forwards, spot)
        (entry.2.2.forwards, .gone entry.1 entry.2.1) := by
  cases step_move hstep with
  | @peer node action peer effect hpeer =>
      apply (List.mem_append.mp hentry).imp_right
      intro hended
      simp only [Lossless] at hlossless
      generalize hnode : fabric.peers node = before at hlossless hpeer
      cases Peer.step_moves hpeer with
      | gadgetDaemon => exact hlossless.elim
      | @udfNode here _ _ _ hhere =>
          have hid : (fabric.topology wiring).ids node = here.nodeId := by
            simp only [topology, hnode, Peer.nodeId]
          have hlimit : (fabric.topology wiring).limitFate node = .dropped := by
            simp only [topology, hnode, Peer.limitFate]
          obtain ⟨spot, hspot, hend⟩ := UDFNode.mem_ended_step hid hlimit hlossless hhere hended
          have hmem : token entry.2.2 spot ∈ (fabric.peers node).tokens node := by
            rw [hnode]
            exact hspot
          exact ⟨spot, mem_tokens_of_peer hmem, hend⟩
  | @read link reader _ _ tag _ _ _ hwired hitem hread =>
      apply (List.mem_append.mp hentry).imp_right
      intro hended
      have hnext : (fabric.topology wiring).next link = some reader := by
        simp only [topology, hwired, Option.map_some]
      obtain ⟨rfl, rfl⟩ := Peer.mem_ended_read hread hended
      exact ⟨.onLink link [], mem_tokens_of_link hitem, .skip tag.forwards link reader hnext⟩
  | lose => exact hlossless.elim
  | inject => exact hlossless.elim

omit [Fintype ι] in
/-- No step forgets how a frame came into being. -/
theorem origins_prefix {action : Action ι} (hstep : fabric.step crc32 wiring action = some next) :
    fabric.origins <+: next.origins := by
  cases step_move hstep with
  | peer => exact List.prefix_append _ _
  | read => exact List.prefix_append _ _
  | lose => exact List.prefix_rfl
  | inject => exact List.prefix_append _ _

end Fabric

/-! ## The tour of a broadcast -/

variable {N : ℕ} {crc32 : Bytes → UInt32} {ids : ZMod N → ℤ} {start : ZMod N} {faulty : Prop}

/-- Where a broadcast of `start` can be that is not lost: on its way to the next node, or there. -/
def Tour (start : ZMod N) : Copy (ZMod N) → Prop
  | (forwards, .outgoing node _) => node = start ∧ forwards = 0
  | (forwards, .onLink node _) => node = start ∧ forwards = 0
  | (forwards, .received node _) => node = start + 1 ∧ forwards = 0
  | (forwards, .unpacked node _) => node = start + 1 ∧ forwards = 0
  | (forwards, .delivered node _) => node = start + 1 ∧ forwards = 0
  | _ => False

/-- A broadcast is never forwarded: it keeps to its tour unless a fault ends it. -/
theorem Tour.step {original : Frame} (hdst : (original.dst.toNat : ℤ) = broadcast)
    {copy next : Copy (ZMod N)} (hfaithful : Faithful crc32 original copy)
    (htour : Tour start copy) (hstep : Step crc32 (ringTopology ids) faulty copy next) :
    Tour start next ∨ faulty ∧ ∃ node fate, next.2 = .gone node fate := by
  cases hstep with
  | write forwards node data => exact .inl htour
  | abandon forwards node data fate hfault => exact .inr ⟨hfault, node, fate, rfl⟩
  | lose forwards node data hfault => exact .inr ⟨hfault, node, .discarded, rfl⟩
  | read forwards node reader data hwired =>
      obtain ⟨rfl, hforwards⟩ := htour
      exact .inl ⟨(Option.some.inj hwired).symm, hforwards⟩
  | skip forwards node reader =>
      obtain ⟨frame, hframe, _⟩ := hfaithful.shows.resolve_left (by simp)
      cases hframe
  | unpack forwards node => exact .inl htour
  | reject forwards node hrejected =>
      obtain ⟨frame, hframe, _⟩ := hfaithful.shows.resolve_left (by simp)
      simp only [Spot.content, hrejected] at hframe
      cases hframe
  | deliver forwards node => exact .inl htour
  | expire forwards node hother =>
      exact absurd (.inr (by rw [(hfaithful.relayed rfl).dst, hdst])) hother
  | number forwards node seq hother =>
      exact absurd (.inr (by rw [(hfaithful.relayed rfl).dst, hdst])) hother
  | forward forwards node => exact htour.elim
  | fail forwards node => exact htour.elim

/-- A broadcast is on its tour or has been lost. -/
theorem Journey.tour {original : Frame} {payload data : Bytes} {copy : Copy (ZMod N)}
    (hjourney : Journey crc32 (ringTopology ids) faulty
      (Origin.mk start (some (.send broadcast payload)) data).place copy)
    (hframe : unpack crc32 data = .ok original) (hdst : (original.dst.toNat : ℤ) = broadcast)
    (hpayload : original.payload.length ≤ maxPayload) :
    Tour start copy ∨ ∃ node fate, copy.2 = .gone node fate := by
  have hboth : Faithful crc32 original copy ∧
      (Tour start copy ∨ ∃ node fate, copy.2 = .gone node fate) := by
    apply hjourney.invariant fun copy ↦ Faithful crc32 original copy ∧
      (Tour start copy ∨ ∃ node fate, copy.2 = .gone node fate)
    · exact ⟨.place hframe, .inl ⟨rfl, rfl⟩⟩
    · rintro copy next ⟨hfaithful, htour | ⟨node, fate, hgone⟩⟩ hstep
      · exact ⟨hfaithful.step hpayload hstep,
          (Tour.step hdst hfaithful htour hstep).imp_right And.right⟩
      · obtain ⟨forwards, spot⟩ := copy
        cases hgone
        cases hstep
  exact hboth.2

variable [NeZero N] {fabric : Fabric (ZMod N)}

/-- What the origin of a token in a reached ring says about where the token is. -/
theorem Fabric.journey_of_mem
    (hreaches : Run.Reaches (Fabric.step crc32 ringWiring) Fabric.Lossless
      (Fabric.start (ringBoot ids)) fabric) {one : ℕ × Copy (ZMod N)} (hone : one ∈ fabric.tokens) :
    ∃ origin, fabric.origins[one.1]? = some origin ∧ origin.Genuine crc32 ids ∧
      Journey crc32 (ringTopology ids) True origin.place one.2 := by
  have hsound := Fabric.sound_of_reaches hreaches fun _ _ _ ↦ Or.inl trivial
  obtain ⟨origin, horigin, hjourney⟩ := hsound.path one hone
  exact ⟨origin, horigin, hsound.born origin (List.mem_of_getElem? horigin), hjourney⟩

/-- Without losses a broadcast does not end before it is delivered. -/
theorem Fabric.origin_ne_of_gone
    (hreaches : Run.Reaches (Fabric.step crc32 ringWiring) Fabric.Lossless
      (Fabric.start (ringBoot ids)) fabric) {number : ℕ} {payload data : Bytes}
    (horigin : fabric.origins[number]? = some ⟨start, some (.send broadcast payload), data⟩)
    (hpayload : payload.length ≤ maxPayload) :
    ∀ entry ∈ fabric.gone, entry.2.2.origin ≠ number := by
  induction hreaches with
  | refl => cases horigin
  | @tail state next action hearlier hlossless hstep ih =>
      have hsame {one : ℕ × Copy (ZMod N)} (hone : one ∈ state.tokens) (hnumber : one.1 = number) :
          state.origins[number]? = some ⟨start, some (.send broadcast payload), data⟩ ∧
            (Origin.mk start (some (.send broadcast payload)) data).Genuine crc32 ids ∧
            Journey crc32 (ringTopology ids) True
              (Origin.mk start (some (.send broadcast payload)) data).place one.2 := by
        obtain ⟨origin, hbirth, hgenuine, hjourney⟩ := Fabric.journey_of_mem hearlier hone
        rw [hnumber] at hbirth
        obtain ⟨later, hlater⟩ := Fabric.origins_prefix hstep
        have hindex : number < state.origins.length := (List.getElem?_eq_some_iff.mp hbirth).1
        rw [← hlater, List.getElem?_append_left hindex, hbirth] at horigin
        cases horigin
        exact ⟨hbirth, hgenuine, hjourney⟩
      intro entry hentry hnumber
      rcases Fabric.mem_gone_step hlossless hstep hentry with hold | ⟨spot, hspot, hend⟩
      · have hgone : token entry.2.2 (.gone entry.1 entry.2.1) ∈ state.tokens :=
          Multiset.mem_add.mpr (.inr (mem_places.mpr ⟨entry, hold, rfl⟩))
        exact ih (hsame hgone hnumber).1 entry hold hnumber
      · obtain ⟨_, hgenuine, hjourney⟩ := hsame hspot hnumber
        obtain ⟨original, hframe, _, hdst, rfl, _⟩ := hgenuine.exists_frame
        rw [Fabric.topology_of_reaches hearlier, topology_start_ringBoot] at hend
        rcases hjourney.tour hframe hdst hpayload with htour | ⟨node, fate, hgone⟩
        · rcases Tour.step hdst (hjourney.faithful hframe hpayload) htour hend with hnot | hnot
          · exact hnot
          · exact hnot.1
        · cases (show spot = .gone node fate from hgone)
          cases hend

/-- In a quiescent state a broadcast has been delivered at the node after its sender and nowhere
else. -/
theorem Fabric.exists_delivered_broadcast
    (hreaches : Run.Reaches (Fabric.step crc32 ringWiring) Fabric.Lossless
      (Fabric.start (ringBoot ids)) fabric) {number : ℕ} {payload data : Bytes}
    (horigin : fabric.origins[number]? = some ⟨start, some (.send broadcast payload), data⟩)
    (hpayload : payload.length ≤ maxPayload) (hquiescent : fabric.Quiescent) :
    ∃ frame, fabric.copies number = {(0, .delivered (start + 1) frame)} ∧
      (frame.src.toNat : ℤ) = ids start ∧ (frame.dst.toNat : ℤ) = broadcast ∧
      frame.payload = payload := by
  have hcondition (state : Fabric (ZMod N)) (action : Fabric.Action (ZMod N))
      (_ : state.Lossless action) : True ∨ state.Faultless action := .inl trivial
  have hgenuine := (Fabric.sound_of_reaches hreaches hcondition).born _
    (List.mem_of_getElem? horigin)
  obtain ⟨copy, hcopies, hjourney⟩ := Fabric.exists_copy hreaches hcondition horigin
  rw [topology_start_ringBoot] at hgenuine hjourney
  obtain ⟨original, hframe, hsrc, hdst, rfl, _⟩ := hgenuine.exists_frame
  have hcopy : copy ∈ fabric.copies number := by simp [hcopies]
  rcases hquiescent.cases hcopy with ⟨node, item, _, _, rfl⟩ | ⟨entry, hentry, hnumber, _⟩
  · rcases hjourney.tour hframe hdst hpayload with htour | ⟨_, _, hgone⟩
    · obtain ⟨rfl, hforwards⟩ := htour
      have hrelayed := (hjourney.faithful hframe hpayload).relayed rfl
      refine ⟨item.2, ?_, ?_, ?_, hrelayed.payload⟩
      · rw [hcopies, hforwards]
      · rw [hrelayed.src, hsrc, ringTopology]
      · rw [hrelayed.dst, hdst]
    · cases hgone
  · exact absurd hnumber (Fabric.origin_ne_of_gone hreaches horigin hpayload entry hentry)

variable (ids start) in
/-- Every other node has put the broadcast with the given number on its receive queue once. -/
def ReachesAll (fabric : Fabric (ZMod N)) (number : ℕ) (payload : Bytes) : Prop :=
  ∀ node, node ≠ start → ∃ frame, fabric.received number node = [frame] ∧
    (frame.src.toNat : ℤ) = ids start ∧ (frame.dst.toNat : ℤ) = broadcast ∧
    frame.payload = payload

omit [NeZero N] in
/-- Two steps away from a node of a larger ring is a third node. -/
theorem add_two_ne (htwo : 2 < N) (start : ZMod N) :
    start + 2 ≠ start ∧ start + 2 ≠ start + 1 := by
  have hone : (1 : ZMod N) ≠ 0 := by
    intro hzero
    have hdvd := (ZMod.natCast_eq_zero_iff 1 N).mp (by exact_mod_cast hzero)
    exact absurd (Nat.le_of_dvd (by decide) hdvd) (by omega)
  have htwo' : (2 : ZMod N) ≠ 0 := by
    intro hzero
    have hdvd := (ZMod.natCast_eq_zero_iff 2 N).mp (by exact_mod_cast hzero)
    exact absurd (Nat.le_of_dvd (by decide) hdvd) (by omega)
  constructor
  · intro hsame
    exact htwo' (add_eq_left.mp hsame)
  · intro hsame
    have hnext : (1 : ZMod N) + 1 = 1 := by
      rw [one_add_one_eq_two]
      exact add_left_cancel hsame
    exact hone (add_eq_left.mp hnext)

omit [NeZero N] in
/-- A call of `send` whose arguments fit their fields creates its frame exactly if its number does
too. -/
theorem send_creates_iff {node : UDFNode} (hnode : fabric.peers start = .udfNode node) {index : ℕ}
    {dst : ℤ} {payload : Bytes} {seq : ℕ}
    (hsender : node.senders[index]? = some (.numbered dst payload seq))
    (hid : 0 ≤ node.nodeId ∧ node.nodeId < 256) (hdst : 0 ≤ dst ∧ dst < 256)
    (hpayload : payload.length ≤ maxPayload) :
    (∃ next data,
      fabric.step crc32 ringWiring (.peer start (.udfNode (.sendStep index))) = some next ∧
      next.origins = fabric.origins ++ [⟨start, some (.send dst payload), data⟩]) ↔
        seq < 2 ^ 32 := by
  constructor
  · rintro ⟨next, data, hstep, horigins⟩
    cases hpack : pack crc32 node.nodeId dst seq payload 0 0 with
    | ok raw =>
        obtain ⟨frame, -, -, hseq, -⟩ := pack_eq_ok crc32 hpack
        have hbound := frame.seq.toNat_lt
        omega
    | error error =>
        simp only [Fabric.step, hnode, Peer.step, UDFNode.step, UDFNode.sendStep, hsender, hpack,
          Option.map_some, Option.some.injEq] at hstep
        rw [← hstep] at horigins
        simp [Fabric.commit, births] at horigins
  · intro hseq
    exact Fabric.send_creates_of_lt hnode hsender hseq hid hdst hpayload

/-- **Broadcast.** In every state of a ring that loses nothing, a call of `send` creates its
broadcast exactly if its number fits; and once nothing is queued or in flight, a broadcast has
reached every other node exactly if the ring has two nodes. -/
theorem broadcast_ring_iff (hids : ∀ node, 1 ≤ ids node ∧ ids node ≤ 254) (hsize : 2 ≤ N)
    (hreaches : Run.Reaches (Fabric.step crc32 ringWiring) Fabric.Lossless
      (Fabric.start (ringBoot ids)) fabric)
    {payload : Bytes} (hpayload : payload.length ≤ maxPayload) :
    (∀ node index seq, fabric.peers start = .udfNode node →
      node.senders[index]? = some (.numbered broadcast payload seq) →
      ((∃ next data,
        fabric.step crc32 ringWiring (.peer start (.udfNode (.sendStep index))) = some next ∧
        next.origins = fabric.origins ++ [⟨start, some (.send broadcast payload), data⟩]) ↔
          seq < 2 ^ 32)) ∧
    ∀ number data, fabric.origins[number]? = some ⟨start, some (.send broadcast payload), data⟩ →
      fabric.Quiescent → (ReachesAll ids start fabric number payload ↔ N = 2) := by
  constructor
  · intro node index seq hnode hsender
    have hid := nodeId_of_reaches hreaches hnode
    have hrange := hids start
    exact send_creates_iff hnode hsender (by omega) (by decide) hpayload
  · intro number data horigin hquiescent
    obtain ⟨frame, hcopies, hcontents⟩ :=
      Fabric.exists_delivered_broadcast hreaches horigin hpayload hquiescent
    constructor
    · intro hall
      by_contra hlarge
      obtain ⟨hsender, hnext⟩ := add_two_ne (N := N) (by omega) start
      obtain ⟨other, hother, -⟩ := hall (start + 2) hsender
      rw [hquiescent.received_eq hcopies, if_neg hnext] at hother
      cases hother
    · rintro rfl node hnode
      have hsuccessor : ∀ node sender : ZMod 2, node ≠ sender → node = sender + 1 := by decide
      refine ⟨frame, ?_, hcontents⟩
      rw [hquiescent.received_eq hcopies, if_pos (hsuccessor node start hnode)]

/-- Node 1 broadcasts, and its successor reads the frame. -/
def broadcastRun {N : ℕ} : List (Fabric.Action (ZMod N)) :=
  [.peer 0 (.udfNode (.send broadcast [0x48, 0x69])), .peer 0 (.udfNode (.sendStep 0)),
    .peer 0 (.udfNode .txGet), .peer 0 (.udfNode (.txWrite 36)), .read 0 0,
    .peer 1 (.udfNode (.rxStep .gadgetRx)), .peer 1 (.udfNode (.rxStep .gadgetRx))]

theorem broadcast_ring_pairRun :
    ∃ fabric, Run.Reaches (Fabric.step Crc32.checksum ringWiring) Fabric.Lossless
        (Fabric.start (ringBoot pairIds)) fabric ∧ fabric.Quiescent ∧
      ReachesAll pairIds 0 fabric 0 [0x48, 0x69] := by
  have hrun : (Run.attempt (Fabric.step Crc32.checksum ringWiring) Fabric.Lossless
      (Fabric.start (ringBoot pairIds)) broadcastRun).map
        (fun fabric ↦ (fabric.origins, decide fabric.Quiescent)) =
          some ([⟨0, some (.send broadcast [0x48, 0x69]),
            encode Crc32.checksum ⟨0, 0, 0, 1, 0xFF, [0x48, 0x69]⟩⟩], true) := by
    decide +kernel
  obtain ⟨fabric, hreaches, hpair⟩ := Run.exists_of_attempt hrun
  obtain ⟨horigins, hquiescent⟩ := Prod.mk.inj hpair
  have horigin : fabric.origins[0]? = some ⟨0, some (.send broadcast [0x48, 0x69]),
      encode Crc32.checksum ⟨0, 0, 0, 1, 0xFF, [0x48, 0x69]⟩⟩ := by
    rw [horigins]
    rfl
  have hiff := (broadcast_ring_iff pairIds_range (by decide) hreaches (by decide)).2 0 _ horigin
    (of_decide_eq_true hquiescent)
  exact ⟨fabric, hreaches, of_decide_eq_true hquiescent, hiff.mpr rfl⟩

def tripleIds (node : ZMod 3) : ℤ :=
  if node = 0 then 1 else if node = 1 then 2 else 3

/-- Node 3 of a ring of three never gets the broadcast of node 1. -/
theorem not_reachesAll_triple :
    ∃ fabric data, Run.Reaches (Fabric.step Crc32.checksum ringWiring) Fabric.Lossless
        (Fabric.start (ringBoot tripleIds)) fabric ∧ fabric.Quiescent ∧
      fabric.origins[0]? = some ⟨0, some (.send broadcast [0x48, 0x69]), data⟩ ∧
      ¬ReachesAll tripleIds 0 fabric 0 [0x48, 0x69] := by
  have hrun : (Run.attempt (Fabric.step Crc32.checksum ringWiring) Fabric.Lossless
      (Fabric.start (ringBoot tripleIds)) broadcastRun).map
        (fun fabric ↦ (fabric.origins, decide fabric.Quiescent, fabric.received 0 2)) =
          some ([⟨0, some (.send broadcast [0x48, 0x69]),
            encode Crc32.checksum ⟨0, 0, 0, 1, 0xFF, [0x48, 0x69]⟩⟩], true, []) := by
    decide +kernel
  obtain ⟨fabric, hreaches, htriple⟩ := Run.exists_of_attempt hrun
  obtain ⟨horigins, hpair⟩ := Prod.mk.inj htriple
  obtain ⟨hquiescent, hreceived⟩ := Prod.mk.inj hpair
  have horigin : fabric.origins[0]? = some ⟨0, some (.send broadcast [0x48, 0x69]),
      encode Crc32.checksum ⟨0, 0, 0, 1, 0xFF, [0x48, 0x69]⟩⟩ := by
    rw [horigins]
    rfl
  refine ⟨fabric, _, hreaches, of_decide_eq_true hquiescent, horigin, ?_⟩
  intro hall
  obtain ⟨frame, hframe, -⟩ := hall 2 (by decide)
  rw [hreceived] at hframe
  cases hframe

end UsbDirectFabric.Network
