import UsbDirectFabric.Network.Reserves
import UsbDirectFabric.Network.RingBroadcast
import UsbDirectFabric.Network.Settling

/-!
# Total correctness of delivery in a ring

Exactly-once delivery speaks about rings in which nothing is queued or in flight any more. Here it
is shown that this comes about: as long as the counters have room for the hops that the frames can
still take, a ring of nodes in which nothing fails does not stop before all calls of `send` have
packed their frames and every frame has come to its end.
-/

namespace UsbDirectFabric

open Wire Daemon

namespace Daemon.UDFNode

variable {crc32 : Bytes → UInt32} {node next : UDFNode} {effect : Effect} {number : ℕ}

/-- A node without faults that cannot go on has nothing left to do but to read. -/
theorem Sturdy.idle (hsturdy : node.Sturdy) (hseq : node.seqHostTx < 2 ^ 32)
    (hrest : ∀ action, Proceeds action → node.Faultless action →
      node.step crc32 number action = none) :
    node.isIdle ∧ node.senders = [] ∧ ∀ loop, node.rx loop = .waiting := by
  have hrx (loop : RxLoop) : node.rx loop = .waiting := by
    have hstop := hrest (.rxStep loop) trivial ⟨hseq, trivial⟩
    rw [step_rxStep] at hstop
    exact (rx_of_rest hstop).resolve_right (hsturdy.alive loop)
  have hgadget : node.gadgetRx = .waiting := hrx .gadgetRx
  have hhost : node.hostRx = .waiting := hrx .hostRx
  have htx : node.hostTx = .waiting := by
    cases htx : node.hostTx with
    | waiting => rfl
    | holding tag raw =>
        have hopened : node.hostFd = true := hsturdy.opened .hostRx
        have hwhole : node.Faultless (.txWrite raw.length) := by
          refine ⟨hseq, ?_⟩
          rw [htx]
          rfl
        have hstop : node.txWrite raw.length = none := hrest (.txWrite raw.length) trivial hwhole
        simp [txWrite, htx, hopened] at hstop
  have hqueue : node.txQueue = [] := by
    cases hqueue : node.txQueue with
    | nil => rfl
    | cons item rest =>
        have hstop : node.txGet = none := hrest .txGet trivial ⟨hseq, trivial⟩
        simp [txGet, htx, hqueue] at hstop
  refine ⟨?_, ?_, hrx⟩
  · simp only [isIdle, hqueue, htx, hgadget, hhost]
    rfl
  · cases hsenders : node.senders with
    | nil => rfl
    | cons sender rest =>
        have hstop : node.sendStep crc32 number 0 = none :=
          hrest (.sendStep 0) trivial ⟨hseq, trivial⟩
        cases sender with
        | numbered dst payload seq =>
            simp only [sendStep, hsenders, List.getElem?_cons_zero] at hstop
            split at hstop <;> cases hstop
        | queued length => simp [sendStep, hsenders] at hstop

/-- An application thread inside `send` stays there until it has packed its frame, if it can. -/
theorem sender_stays {action : Action} {dst : ℤ} {payload : Bytes} {seq : ℕ} {data : Bytes}
    (hstep : node.step crc32 number action = some (next, effect))
    (hpack : pack crc32 node.nodeId dst seq payload 0 0 = .ok data)
    (hsender : .numbered dst payload seq ∈ node.senders) :
    .numbered dst payload seq ∈ next.senders ∨ effect = .created (.send dst payload) data := by
  cases step_moves crc32 hstep with
  | send => exact .inl (List.mem_cons_of_mem _ hsender)
  | @sender index _ _ hmove =>
      have hsplit {one : Sender} (hone : node.senders[index]? = some one) :
          .numbered dst payload seq = one ∨
            .numbered dst payload seq ∈ node.senders.eraseIdx index := by
        obtain ⟨hindex, rfl⟩ := List.getElem?_eq_some_iff.mp hone
        exact List.mem_cons.mp ((List.getElem_cons_eraseIdx_perm hindex).mem_iff.mpr hsender)
      cases hmove with
      | put hone hpacked =>
          rcases hsplit hone with hself | hother
          · cases hself
            rw [hpack] at hpacked
            cases hpacked
            exact .inr rfl
          · exact .inl (List.mem_cons_of_mem _ hother)
      | fail hone hraised =>
          rcases hsplit hone with hself | hother
          · cases hself
            rw [hpack] at hraised
            cases hraised
          · exact .inl hother
      | count hone =>
          rcases hsplit hone with hself | hother
          · cases hself
          · exact .inl hother
  | loop hmove | plain hmove =>
      rw [hmove.frame.2.2]
      exact .inl hsender

end Daemon.UDFNode

namespace Network

variable {ι : Type} {crc32 : Bytes → UInt32}

namespace Peer

variable {peer next : Peer} {effect : Effect} {number : ℕ}

def Sturdy : Peer → Prop
  | udfNode node => node.Sturdy
  | gadgetDaemon _ => False

def counter : Peer → ℕ
  | udfNode node => node.seqHostTx
  | gadgetDaemon daemon => daemon.txSeq

/-- The reserve of a node. Gadgets are left out, their counters wrap. -/
def reserve (crc32 : Bytes → UInt32) : Peer → ℕ
  | udfNode node => node.reserve crc32
  | gadgetDaemon _ => 0

theorem Sturdy.step {action : Action} (hsturdy : peer.Sturdy) (hfaultless : peer.Faultless action)
    (hstep : peer.step crc32 number action = some (next, effect)) : next.Sturdy := by
  cases step_moves hstep with
  | udfNode hnode => exact UDFNode.Sturdy.step hsturdy hfaultless.1 hnode
  | gadgetDaemon => exact hsturdy.elim

theorem Sturdy.read {loop : RxLoop} {tag : Tag} {data : Bytes} (hsturdy : peer.Sturdy)
    (hread : peer.read loop tag data = some (next, effect)) : next.Sturdy := by
  cases read_takes hread with
  | udfNode hnode => exact UDFNode.Sturdy.read hsturdy hnode
  | gadgetDaemon => exact hsturdy.elim

/-- A node that takes numbers takes them out of the reserve. -/
theorem step_spends {action : Action} (hsturdy : peer.Sturdy) (hproceeds : Proceeds action)
    (hfaultless : peer.Faultless action)
    (hstep : peer.step crc32 number action = some (next, effect)) :
    next.counter + (next.reserve crc32 + itemsReserve crc32 (written number effect)) ≤
        peer.counter + peer.reserve crc32 ∧ peer.counter ≤ next.counter := by
  cases step_moves hstep with
  | udfNode hnode =>
      obtain ⟨htotal, hcounter⟩ := UDFNode.step_spends hproceeds hfaultless hnode
      exact ⟨htotal, hcounter⟩
  | gadgetDaemon => exact hsturdy.elim

theorem read_spends {loop : RxLoop} {tag : Tag} {data : Bytes} (hsturdy : peer.Sturdy)
    (hread : peer.read loop tag data = some (next, effect)) :
    next.counter = peer.counter ∧
      next.reserve crc32 + itemsReserve crc32 (written number effect) ≤
        peer.reserve crc32 + hopsIn crc32 data := by
  cases read_takes hread with
  | udfNode hnode => exact UDFNode.read_spends hnode
  | gadgetDaemon => exact hsturdy.elim

/-- A sturdy node without faults that cannot go on is idle, and all calls of `send` have packed. -/
theorem Sturdy.idle (hsturdy : peer.Sturdy) (hcounter : peer.counter < 2 ^ 32)
    (hrest : ∀ action, Proceeds action → peer.Faultless action →
      peer.step crc32 number action = none) :
    peer.isIdle ∧ (∀ seq, ¬peer.Held seq) ∧ ∀ loop tag data, peer.read loop tag data ≠ none := by
  cases peer with
  | gadgetDaemon daemon => exact hsturdy.elim
  | udfNode node =>
      have hstep (action : UDFNode.Action) (hproceeds : UDFNode.Proceeds action)
          (hfaultless : node.Faultless action) : node.step crc32 number action = none :=
        Option.map_eq_none_iff.mp (hrest (.udfNode action) hproceeds hfaultless)
      obtain ⟨hidle, hsenders, hwaiting⟩ := UDFNode.Sturdy.idle hsturdy hcounter hstep
      refine ⟨hidle, ?_, ?_⟩
      · rintro seq ⟨dst, payload, hsender⟩
        rw [hsenders] at hsender
        cases hsender
      · intro loop tag data
        have hopened := hsturdy.opened loop
        by_cases hdata : data = [] <;>
          simp [Peer.read, UDFNode.read, hopened, hwaiting loop, hdata]

end Peer

namespace Fabric

variable [DecidableEq ι] {wiring : ι → Option (ι × RxLoop)} {fabric next : Fabric ι}

def Sturdy (fabric : Fabric ι) : Prop :=
  ∀ node, (fabric.peers node).Sturdy

/-- A step without a fault that brings in no new call of `send`. -/
def Steady (fabric : Fabric ι) (action : Action ι) : Prop :=
  fabric.Faultless action ∧ Carries action

/-- Without faults a network of sturdy nodes remains one. -/
theorem Sturdy.step {action : Action ι} (hsturdy : fabric.Sturdy)
    (hfaultless : fabric.Faultless action)
    (hstep : fabric.step crc32 wiring action = some next) : next.Sturdy := by
  have hcommit (mover : ι) {peer : Peer} (hpeer : peer.Sturdy) (node : ι) :
      (Function.update fabric.peers mover peer node).Sturdy := by
    by_cases hmover : node = mover
    · rw [hmover, Function.update_self]
      exact hpeer
    · rw [Function.update_of_ne hmover]
      exact hsturdy node
  cases step_move hstep with
  | peer hpeer => exact hcommit _ ((hsturdy _).step hfaultless hpeer)
  | read _ _ hread => exact hcommit _ ((hsturdy _).read hread)
  | lose => exact hfaultless.elim
  | inject => exact hfaultless.elim

/-! ## What the counters can still gain -/

variable [Fintype ι]

def reserve (crc32 : Bytes → UInt32) (fabric : Fabric ι) : ℕ :=
  ∑ node, (fabric.peers node).reserve crc32 + ∑ link, itemsReserve crc32 (fabric.links link)

/-- Every counter stays within 32 bits, whoever forwards the frames. -/
def Room (crc32 : Bytes → UInt32) (fabric : Fabric ι) : Prop :=
  ∀ node, (fabric.peers node).counter + fabric.reserve crc32 < 2 ^ 32

instance (fabric : Fabric ι) : Decidable (fabric.Room crc32) :=
  inferInstanceAs (Decidable (∀ _, _ < 2 ^ 32))

variable (crc32) in
theorem reserve_commit (fabric : Fabric ι) (node : ι) (peer : Peer) (effect : Effect) :
    (fabric.commit node peer effect).reserve crc32 + (fabric.peers node).reserve crc32 =
      fabric.reserve crc32 +
        (peer.reserve crc32 + itemsReserve crc32 (written fabric.origins.length effect)) := by
  obtain ⟨daemons, hpeers, hdaemons⟩ := exists_others (Peer.reserve crc32) fabric.peers node
  obtain ⟨links, hitems, hlinks⟩ := exists_others (itemsReserve crc32) fabric.links node
  simp only [reserve, commit, hdaemons, hlinks, hpeers, hitems, itemsReserve_append]
  omega

theorem reserve_unlink {link : ι} {index : ℕ} {tag : Tag} {data : Bytes}
    (hwaits : (fabric.links link)[index]? = some (tag, data)) :
    fabric.reserve crc32 = (fabric.unlink link index).reserve crc32 + hopsIn crc32 data := by
  obtain ⟨links, hitems, hlinks⟩ := exists_others (itemsReserve crc32) fabric.links link
  simp only [reserve, unlink, hlinks, hitems, itemsReserve_eraseIdx crc32 hwaits]
  omega

/-- A step of one node, also with the hops of a frame that it takes up, serves every counter. -/
theorem commit_spends (fabric : Fabric ι) {mover : ι} {peer : Peer} {effect : Effect}
    (taken : ℕ) (htotal : peer.counter +
        (peer.reserve crc32 + itemsReserve crc32 (written fabric.origins.length effect)) ≤
      (fabric.peers mover).counter + ((fabric.peers mover).reserve crc32 + taken))
    (hcounter : (fabric.peers mover).counter ≤ peer.counter) (node : ι) :
    ((fabric.commit mover peer effect).peers node).counter +
        (fabric.commit mover peer effect).reserve crc32 ≤
      (fabric.peers node).counter + (fabric.reserve crc32 + taken) := by
  have hreserve := reserve_commit crc32 fabric mover peer effect
  by_cases hmover : node = mover
  · have hself : (fabric.commit mover peer effect).peers node = peer := by
      rw [hmover]
      exact Function.update_self mover peer fabric.peers
    rw [hself, hmover]
    omega
  · have hother : (fabric.commit mover peer effect).peers node = fabric.peers node := by
      simp only [commit, Function.update_of_ne hmover]
    rw [hother]
    omega

/-- A counter and the reserve together never grow. -/
theorem step_spends {action : Action ι} (hsturdy : fabric.Sturdy) (hsteady : fabric.Steady action)
    (hstep : fabric.step crc32 wiring action = some next) (node : ι) :
    (next.peers node).counter + next.reserve crc32 ≤
      (fabric.peers node).counter + fabric.reserve crc32 := by
  cases step_move hstep with
  | @peer mover _ peer effect hpeer =>
      obtain ⟨htotal, hcounter⟩ :=
        Peer.step_spends (hsturdy mover) hsteady.2 hsteady.1 hpeer
      exact commit_spends fabric 0 htotal hcounter node
  | @read link reader index loop tag data peer effect hwired hwaits hread =>
      obtain ⟨hcounter, hless⟩ : peer.counter = (fabric.peers reader).counter ∧
          peer.reserve crc32 + itemsReserve crc32 (written fabric.origins.length effect) ≤
            (fabric.peers reader).reserve crc32 + hopsIn crc32 data :=
        Peer.read_spends (hsturdy reader) hread
      rw [reserve_unlink hwaits]
      exact commit_spends (fabric.unlink link index) (hopsIn crc32 data)
        (Nat.add_le_add (le_of_eq hcounter) hless) (le_of_eq hcounter.symm) node
  | lose => exact hsteady.2.elim
  | inject => exact hsteady.2.elim

theorem Room.step {action : Action ι} (hroom : fabric.Room crc32) (hsturdy : fabric.Sturdy)
    (hsteady : fabric.Steady action) (hstep : fabric.step crc32 wiring action = some next) :
    next.Room crc32 :=
  fun node ↦ lt_of_le_of_lt (step_spends hsturdy hsteady hstep node) (hroom node)

/-! ## Where such a network stops -/

omit [Fintype ι] in
/-- A network without faults that cannot go on: its nodes are idle, and nothing is on a link that is
read. -/
theorem idle_of_rest (hsturdy : fabric.Sturdy)
    (hcounters : ∀ node, (fabric.peers node).counter < 2 ^ 32)
    (hrest : Drain.AtRest (step crc32 wiring) Steady fabric) :
    (∀ node, (fabric.peers node).isIdle ∧ ∀ seq, ¬(fabric.peers node).Held seq) ∧
      ∀ link, wiring link ≠ none → fabric.links link = [] := by
  have hidle (node : ι) : (fabric.peers node).isIdle ∧ (∀ seq, ¬(fabric.peers node).Held seq) ∧
      ∀ loop tag data, (fabric.peers node).read loop tag data ≠ none := by
    have hstep (action : Peer.Action) (hproceeds : Peer.Proceeds action)
        (hfaultless : (fabric.peers node).Faultless action) :
        (fabric.peers node).step crc32 fabric.origins.length action = none :=
      Option.map_eq_none_iff.mp (hrest (.peer node action) ⟨hfaultless, hproceeds⟩)
    exact (hsturdy node).idle (hcounters node) hstep
  refine ⟨fun node ↦ ⟨(hidle node).1, (hidle node).2.1⟩, ?_⟩
  intro link hwired
  obtain ⟨⟨reader, loop⟩, hreader⟩ := Option.ne_none_iff_exists'.mp hwired
  cases hlink : fabric.links link with
  | nil => rfl
  | cons item rest =>
      obtain ⟨tag, data⟩ := item
      have hread := hrest (.read link 0) ⟨trivial, trivial⟩
      simp only [step, hreader, hlink, List.getElem?_cons_zero, Option.map_eq_none_iff] at hread
      exact absurd hread ((hidle reader).2.2 loop tag data)

/-- A call of `send` is going on, or its frame has been created. -/
def Pending (crc32 : Bytes → UInt32) (fabric : Fabric ι) (start : ι) (dst : ℤ) (payload : Bytes)
    (seq : ℕ) (data : Bytes) : Prop :=
  (∃ node, fabric.peers start = .udfNode node ∧ .numbered dst payload seq ∈ node.senders ∧
    pack crc32 node.nodeId dst seq payload 0 0 = .ok data) ∨
  ⟨start, some (.send dst payload), data⟩ ∈ fabric.origins

omit [Fintype ι] in
/-- No step makes a call of `send` come to nothing. -/
theorem Pending.step {action : Action ι} {start : ι} {dst : ℤ} {payload : Bytes} {seq : ℕ}
    {data : Bytes} (hpending : fabric.Pending crc32 start dst payload seq data)
    (hstep : fabric.step crc32 wiring action = some next) :
    next.Pending crc32 start dst payload seq data := by
  rcases hpending with ⟨node, hnode, hsender, hpack⟩ | horigin
  · have hstays {mover : ι} (peer : Peer) (hmover : mover ≠ start) :
        Function.update fabric.peers mover peer start = .udfNode node := by
      rw [Function.update_of_ne hmover.symm, hnode]
    cases step_move hstep with
    | @peer mover _ peer effect hpeer =>
        by_cases hmover : mover = start
        · subst hmover
          rw [hnode] at hpeer
          cases Peer.step_moves hpeer with
          | @udfNode _ after _ _ hmoved =>
              rcases UDFNode.sender_stays hmoved hpack hsender with hsender | rfl
              · refine .inl ⟨after, Function.update_self mover _ fabric.peers, hsender, ?_⟩
                rw [(UDFNode.step_frame hmoved).1]
                exact hpack
              · exact .inr (List.mem_append_right _ (List.mem_singleton_self _))
        · exact .inl ⟨node, hstays peer hmover, hsender, hpack⟩
    | @read link reader index loop tag data peer effect hwired hwaits hread =>
        by_cases hreader : reader = start
        · subst hreader
          rw [hnode] at hread
          cases Peer.read_takes hread with
          | @udfNode _ after _ hmoved =>
              obtain ⟨hid, -, hsenders⟩ := UDFNode.read_frame hmoved
              refine .inl ⟨after, Function.update_self reader _ fabric.peers, ?_, ?_⟩
              · rw [hsenders]
                exact hsender
              · rw [hid]
                exact hpack
        · exact .inl ⟨node, hstays peer hreader, hsender, hpack⟩
    | lose => exact .inl ⟨node, hnode, hsender, hpack⟩
    | inject => exact .inl ⟨node, hnode, hsender, hpack⟩
  · have hkept := origins_prefix hstep
    exact .inr (hkept.subset horigin)

omit [DecidableEq ι] [Fintype ι] in
/-- In a network that has come to rest the call has created its frame. -/
theorem Pending.created {start : ι} {dst : ℤ} {payload : Bytes} {seq : ℕ} {data : Bytes}
    (hpending : fabric.Pending crc32 start dst payload seq data)
    (hnone : ¬(fabric.peers start).Held seq) :
    ⟨start, some (.send dst payload), data⟩ ∈ fabric.origins := by
  rcases hpending with ⟨node, hnode, hsender, -⟩ | horigin
  · rw [hnode] at hnone
    exact absurd ⟨dst, payload, hsender⟩ hnone
  · exact horigin

end Fabric

/-! ## The ring -/

variable {N : ℕ} [NeZero N] {ids : ZMod N → ℤ} {fabric last : Fabric (ZMod N)}

omit [NeZero N] in
theorem sturdy_of_reaches
    (hreaches : Run.Reaches (Fabric.step crc32 ringWiring) Fabric.Faultless
      (Fabric.start (ringBoot ids)) fabric) : fabric.Sturdy := by
  apply hreaches.invariant
  · exact fun node ↦ UDFNode.sturdy_start (ids node)
  · intro state action next hsturdy hfaultless hstep
    exact hsturdy.step hfaultless hstep

/-- A ring that has room goes on until it is quiescent and all calls of `send` have packed. -/
theorem quiescent_of_rest
    (hreaches : Run.Reaches (Fabric.step crc32 ringWiring) Fabric.Faultless
      (Fabric.start (ringBoot ids)) fabric) (hroom : fabric.Room crc32)
    (hlater : Run.Reaches (Fabric.step crc32 ringWiring) Fabric.Steady fabric last)
    (hrest : Drain.AtRest (Fabric.step crc32 ringWiring) Fabric.Steady last) :
    last.Quiescent ∧ ∀ node seq, ¬(last.peers node).Held seq := by
  have hboth : last.Sturdy ∧ last.Room crc32 := by
    apply hlater.invariant
    · exact ⟨sturdy_of_reaches hreaches, hroom⟩
    · rintro state action next ⟨hsturdy, hroom⟩ hsteady hstep
      exact ⟨hsturdy.step hsteady.1 hstep, hroom.step hsturdy hsteady hstep⟩
  have hcounters (node : ZMod N) : (last.peers node).counter < 2 ^ 32 :=
    lt_of_le_of_lt (Nat.le_add_right _ _) (hboth.2 node)
  obtain ⟨hidle, hlinks⟩ := Fabric.idle_of_rest hboth.1 hcounters hrest
  refine ⟨fun node ↦ ⟨hlinks node ?_, (hidle node).1⟩, fun node ↦ (hidle node).2⟩
  intro hnone
  cases hnone

/-- A frame that was sent in a ring without faults has come to the right end once the ring is
quiescent. -/
theorem outcome_of_quiescent
    (hreaches : Run.Reaches (Fabric.step crc32 ringWiring) Fabric.Faultless
      (Fabric.start (ringBoot ids)) fabric) (hquiescent : fabric.Quiescent)
    {number : ℕ} {start : ZMod N} {dst : ℤ} {payload data : Bytes} (hbroadcast : dst ≠ broadcast)
    (hpayload : payload.length ≤ maxPayload)
    (horigin : fabric.origins[number]? = some ⟨start, some (.send dst payload), data⟩) :
    ∃ copy, fabric.copies number = {copy} ∧ Outcome ids start dst payload copy := by
  have hcondition (state : Fabric (ZMod N)) (action : Fabric.Action (ZMod N))
      (hfaultless : state.Faultless action) : False ∨ state.Faultless action := .inr hfaultless
  have hgenuine := (Fabric.sound_of_reaches hreaches hcondition).born _
    (List.mem_of_getElem? horigin)
  obtain ⟨copy, hcopies, hjourney⟩ := Fabric.exists_copy hreaches hcondition horigin
  rw [topology_start_ringBoot] at hgenuine hjourney
  obtain ⟨original, hframe, hsrc, hdst, rfl, hhop⟩ := hgenuine.exists_frame
  have hcopy : copy ∈ fabric.copies number := by
    rw [hcopies]
    exact Multiset.mem_singleton_self copy
  exact ⟨copy, hcopies, (hjourney.course hframe hhop hdst hbroadcast hpayload).outcome
    (hjourney.faithful hframe hpayload) hsrc hdst hhop (hquiescent.settled hcopy)⟩

/-- **Every frame arrives.** From every state that a ring of nodes reaches without faults, and whose
counters have room for all hops that are left, some run without faults leads to rest; and wherever
such a run comes to rest, nothing is queued or in flight, every call of `send` that was going on has
created its frame, and every frame that was ever sent has exactly one copy, with the nearest
addressee or dropped at the hop limit. -/
theorem settles_ring (hids : ∀ node, 1 ≤ ids node ∧ ids node ≤ 254)
    (hreaches : Run.Reaches (Fabric.step crc32 ringWiring) Fabric.Faultless
      (Fabric.start (ringBoot ids)) fabric) (hroom : fabric.Room crc32) :
    (∃ last, Run.Reaches (Fabric.step crc32 ringWiring) Fabric.Steady fabric last ∧
      Drain.AtRest (Fabric.step crc32 ringWiring) Fabric.Steady last) ∧
    ∀ last, Run.Reaches (Fabric.step crc32 ringWiring) Fabric.Steady fabric last →
      Drain.AtRest (Fabric.step crc32 ringWiring) Fabric.Steady last →
      last.Quiescent ∧
      (∀ start node dst payload (seq : ℕ), fabric.peers start = .udfNode node →
        .numbered dst payload seq ∈ node.senders → 0 ≤ dst ∧ dst < 256 →
        payload.length ≤ maxPayload →
        ∃ data, pack crc32 (ids start) dst seq payload 0 0 = .ok data ∧
          ⟨start, some (.send dst payload), data⟩ ∈ last.origins) ∧
      ∀ number start dst payload data, dst ≠ broadcast → payload.length ≤ maxPayload →
        last.origins[number]? = some ⟨start, some (.send dst payload), data⟩ →
        ∃ copy, last.copies number = {copy} ∧ Outcome ids start dst payload copy := by
  constructor
  · apply Drain.exists_atRest Fabric.rank_wellFounded
    intro state action next hsteady hstep
    exact Fabric.step_pays hsteady.2.proceeds hstep
  · intro last hlater hrest
    have hlast : Run.Reaches (Fabric.step crc32 ringWiring) Fabric.Faultless
        (Fabric.start (ringBoot ids)) last :=
      hreaches.trans (hlater.weaken fun _ _ hsteady ↦ hsteady.1)
    obtain ⟨hquiescent, hnone⟩ := quiescent_of_rest hreaches hroom hlater hrest
    refine ⟨hquiescent, ?_, ?_⟩
    · intro start node dst payload seq hnode hsender hdst hpayload
      have hid := nodeId_of_reaches hreaches hnode
      have hrange := hids start
      have hheld : (fabric.peers start).Held seq := by
        rw [hnode]
        exact ⟨dst, payload, hsender⟩
      have hseq := Fabric.held_lt hreaches hheld
      obtain ⟨data, hpack⟩ : ∃ data, pack crc32 (ids start) dst seq payload 0 0 = .ok data :=
        pack_of_range crc32 (by omega) hdst (by omega) (by decide) (by decide)
          (lt_of_le_of_lt hpayload (by decide))
      have hpending : last.Pending crc32 start dst payload seq data := by
        apply hlater.invariant
        · exact .inl ⟨node, hnode, hsender, by rw [hid, hpack]⟩
        · intro state action next hpending _ hstep
          exact hpending.step hstep
      exact ⟨data, hpack, hpending.created (hnone start seq)⟩
    · intro number start dst payload data hbroadcast hpayload horigin
      exact outcome_of_quiescent hlast hquiescent hbroadcast hpayload horigin

/-- Node 1 has called `send` and taken its number. Wherever the ring stops, node 2 has the frame. -/
theorem settles_ring_pair :
    ∃ fabric last, Run.Reaches (Fabric.step Crc32.checksum ringWiring) Fabric.Faultless
        (Fabric.start (ringBoot pairIds)) fabric ∧
      Run.Reaches (Fabric.step Crc32.checksum ringWiring) Fabric.Steady fabric last ∧
      last.Quiescent ∧ ∃ number frame, last.copies number = {(0, .delivered 1 frame)} ∧
        frame.payload = [0x48, 0x69] := by
  have hrun : (Run.attempt (Fabric.step Crc32.checksum ringWiring) Fabric.Faultless
      (Fabric.start (ringBoot pairIds)) (pairRun.take 1)).map
        (fun fabric ↦ (decide (fabric.Room Crc32.checksum), fabric.peers 0)) =
          some (true, .udfNode { UDFNode.start 1 true true with
            seqHostTx := 1
            senders := [.numbered 2 [0x48, 0x69] 0] }) := by
    decide +kernel
  obtain ⟨fabric, hreaches, hobserved⟩ := Run.exists_of_attempt hrun
  obtain ⟨hroom, hnode⟩ := Prod.mk.inj hobserved
  obtain ⟨⟨last, hlater, hrest⟩, hsettled⟩ :=
    settles_ring pairIds_range hreaches (of_decide_eq_true hroom)
  obtain ⟨hquiescent, hcreated, houtcome⟩ := hsettled last hlater hrest
  obtain ⟨data, -, horigin⟩ := hcreated 0 _ 2 [0x48, 0x69] 0 hnode (List.mem_singleton_self _)
    (by decide) (by decide)
  obtain ⟨number, horigin⟩ := List.mem_iff_getElem?.mp horigin
  obtain ⟨copy, hcopies, hnear, -⟩ :=
    houtcome number 0 2 [0x48, 0x69] data (by decide) (by decide) horigin
  have hleast : IsLeast (Distances pairIds 0 2) 1 :=
    ⟨⟨le_refl 1, by decide⟩, fun distance hdistance ↦ hdistance.1⟩
  obtain ⟨frame, rfl, _, _, hcontents, _⟩ := hnear 1 hleast (by decide)
  exact ⟨fabric, last, hreaches, hlater, hquiescent, number, frame, hcopies, hcontents⟩

end Network

end UsbDirectFabric
