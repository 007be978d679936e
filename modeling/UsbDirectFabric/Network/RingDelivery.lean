import UsbDirectFabric.Network.Forwarding
import Mathlib.Algebra.Field.ZMod
import Mathlib.Order.Bounds.Basic

/-!
# Delivery in a ring of nodes

In a ring each node's host side feeds the gadget side of the next one. A frame sent by a node visits
the nodes after it one by one, so where it is determines how often it has been forwarded, and no
node before that has the id it is addressed to. The hop limit is tested before the increment, so a
frame is forwarded 15 times and the sixteenth node still looks at it.
-/

namespace UsbDirectFabric.Network

open Wire Daemon

variable {N : ℕ}

/-- Each node writes to the gadget endpoint of its successor. -/
def ringWiring (node : ZMod N) : Option (ZMod N × RxLoop) :=
  some (node + 1, .gadgetRx)

def ringBoot (ids : ZMod N → ℤ) (node : ZMod N) : Boot :=
  .udfNode (ids node) true true

def ringTopology (ids : ZMod N → ℤ) : Topology (ZMod N) where
  ids := ids
  next := fun node ↦ some (node + 1)
  limitFate := fun _ ↦ .dropped

theorem topology_start_ringBoot (ids : ZMod N → ℤ) :
    (Fabric.start (ringBoot ids)).topology ringWiring = ringTopology ids :=
  rfl

variable (ids : ZMod N → ℤ) (start : ZMod N) (dst : ℤ)

/-- None of the first nodes after `start` has the id `dst`. -/
def Passed (hops : ℕ) : Prop :=
  ∀ distance : ℕ, 1 ≤ distance → distance ≤ hops → ids (start + distance) ≠ dst

/-- How far from `start` a node with the id `dst` is. -/
def Distances : Set ℕ :=
  {distance | 1 ≤ distance ∧ ids (start + distance) = dst}

/-- Where a copy that has been forwarded so many times can be: on the way out of one node or on the
way into the next one, with no addressee passed. -/
def Course : Copy (ZMod N) → Prop
  | (hops, .outgoing node _) => node = start + hops ∧ Passed ids start dst hops
  | (hops, .onLink node _) => node = start + hops ∧ Passed ids start dst hops
  | (hops, .received node _) => node = start + (hops + 1 : ℕ) ∧ Passed ids start dst hops
  | (hops, .unpacked node _) => node = start + (hops + 1 : ℕ) ∧ Passed ids start dst hops
  | (hops, .numbered node _ seq) =>
      node = start + (hops + 1 : ℕ) ∧ Passed ids start dst (hops + 1) ∧ seq < 2 ^ 32
  | (hops, .delivered node _) =>
      node = start + (hops + 1 : ℕ) ∧ Passed ids start dst hops ∧ ids node = dst
  | (hops, .gone _ fate) =>
      fate = .dropped ∧ hops = hopLimit ∧ Passed ids start dst (hopLimit + 1)

variable {ids start dst}

theorem passed_zero : Passed ids start dst 0 := by
  intro distance hpositive hle
  omega

theorem Passed.succ {hops : ℕ} (hpassed : Passed ids start dst hops)
    (hnext : ids (start + (hops + 1 : ℕ)) ≠ dst) : Passed ids start dst (hops + 1) := by
  intro distance hpositive hle
  rcases Nat.lt_or_ge hops distance with hlast | hearlier
  · obtain rfl : distance = hops + 1 := by omega
    exact hnext
  · exact hpassed distance hpositive hearlier

/-- A node with the id right after the passed ones is the nearest. -/
theorem Passed.isLeast {hops : ℕ} (hpassed : Passed ids start dst hops)
    (hnext : ids (start + (hops + 1 : ℕ)) = dst) :
    IsLeast (Distances ids start dst) (hops + 1) := by
  refine ⟨⟨Nat.succ_le_succ (Nat.zero_le hops), hnext⟩, ?_⟩
  rintro distance ⟨hpositive, hdistance⟩
  by_contra hless
  exact hpassed distance hpositive (by omega) hdistance

/-- The nearest addressee lies beyond all passed nodes. -/
theorem Passed.lt {hops distance : ℕ} (hpassed : Passed ids start dst hops)
    (hleast : IsLeast (Distances ids start dst) distance) : hops < distance := by
  by_contra hle
  exact hpassed distance hleast.1.1 (by omega) hleast.1.2

variable {crc32 : Bytes → UInt32}

theorem Faithful.relayed {ι : Type} {original frame : Frame} {forwards : ℕ} {spot : Spot ι}
    (hfaithful : Faithful crc32 original (forwards, spot))
    (hcontent : spot.content crc32 = some frame) : Relayed original forwards frame := by
  rcases hfaithful.shows with ⟨node, fate, hgone⟩ | ⟨other, hother, hrelayed⟩
  · rw [show spot = .gone node fate from hgone] at hcontent
    cases hcontent
  · rw [show spot.content crc32 = some other from hother] at hcontent
    cases hcontent
    exact hrelayed

/-- In a ring without faults a frame keeps to its course, and only the hop limit ends it early. -/
theorem Course.step {original : Frame} (hhop : original.hop.toNat = 0)
    (hdst : (original.dst.toNat : ℤ) = dst) (hbroadcast : dst ≠ broadcast)
    (hpayload : original.payload.length ≤ maxPayload) {copy next : Copy (ZMod N)}
    (hfaithful : Faithful crc32 original copy) (hcourse : Course ids start dst copy)
    (hstep : Step crc32 (ringTopology ids) False copy next) : Course ids start dst next := by
  cases hstep with
  | write hops node data => exact hcourse
  | abandon hops node data fate fault => exact fault.elim
  | lose hops node data fault => exact fault.elim
  | read hops node reader data wired =>
      obtain ⟨rfl, hpassed⟩ := hcourse
      obtain rfl := Option.some.inj wired
      refine ⟨?_, hpassed⟩
      push_cast
      ring
  | skip hops node reader =>
      obtain ⟨frame, hframe, _⟩ := hfaithful.shows.resolve_left (by simp)
      cases hframe
  | unpack hops node => exact hcourse
  | reject hops node hrejected =>
      obtain ⟨frame, hframe, _⟩ := hfaithful.shows.resolve_left (by simp)
      simp only [Spot.content, hrejected] at hframe
      cases hframe
  | @deliver hops node frame haddressed =>
      obtain ⟨hnode, hpassed⟩ := hcourse
      have hframe : (frame.dst.toNat : ℤ) = dst := by rw [(hfaithful.relayed rfl).dst, hdst]
      refine ⟨hnode, hpassed, ?_⟩
      rcases haddressed with hown | hall
      · exact hown.symm.trans hframe
      · exact absurd (hframe.symm.trans hall) hbroadcast
  | @expire hops node frame hother hlimit =>
      obtain ⟨rfl, hpassed⟩ := hcourse
      have hrelayed := hfaithful.relayed rfl
      have hbound : hops ≤ hopLimit - original.hop.toNat := hfaithful.bound
      have hhops : hops = hopLimit := by
        rw [hrelayed.hop] at hlimit
        omega
      refine ⟨rfl, hhops, ?_⟩
      rw [← hhops]
      apply hpassed.succ
      intro hid
      exact hother (.inl (by rw [hrelayed.dst, hdst]; exact hid.symm))
  | @number hops node frame seq hother hlimit hfits =>
      obtain ⟨rfl, hpassed⟩ := hcourse
      refine ⟨rfl, hpassed.succ ?_, hfits.resolve_right id⟩
      intro hid
      exact hother (.inl (by rw [(hfaithful.relayed rfl).dst, hdst]; exact hid.symm))
  | forward hops node => exact ⟨hcourse.1, hcourse.2.1⟩
  | @fail hops node frame seq error hunpackable =>
      obtain ⟨_, _, hseq⟩ := hcourse
      have hlength : frame.payload.length < 65536 := by
        rw [(hfaithful.relayed rfl).payload]
        exact lt_of_le_of_lt hpayload (by decide)
      rw [repack_eq_ok crc32 (hfaithful.below node frame seq rfl) hlength hseq] at hunpackable
      cases hunpackable

/-- What `send` created starts its course as a frame with the given arguments and no hops. -/
theorem Origin.Genuine.exists_frame {payload data : Bytes}
    (hgenuine : (Origin.mk start (some (.send dst payload)) data).Genuine crc32 ids) :
    ∃ frame : Frame, unpack crc32 data = .ok frame ∧ (frame.src.toNat : ℤ) = ids start ∧
      (frame.dst.toNat : ℤ) = dst ∧ frame.payload = payload ∧ frame.hop.toNat = 0 := by
  obtain ⟨seq, hpack⟩ := hgenuine dst payload rfl
  obtain ⟨frame, hsrc, hdst, _, rfl, _, hhop, hlength, rfl⟩ := pack_eq_ok crc32 hpack
  exact ⟨frame, unpack_encode crc32 frame hlength, hsrc.symm, hdst.symm, rfl,
    Int.natCast_eq_zero.mp hhop.symm⟩

/-- Every journey from a `send` keeps to its course. -/
theorem Journey.course {original : Frame} {payload data : Bytes} {copy : Copy (ZMod N)}
    (hjourney : Journey crc32 (ringTopology ids) False
      (Origin.mk start (some (.send dst payload)) data).place copy)
    (hframe : unpack crc32 data = .ok original) (hhop : original.hop.toNat = 0)
    (hdst : (original.dst.toNat : ℤ) = dst) (hbroadcast : dst ≠ broadcast)
    (hpayload : original.payload.length ≤ maxPayload) : Course ids start dst copy := by
  have hboth : Faithful crc32 original copy ∧ Course ids start dst copy := by
    apply hjourney.invariant fun copy ↦ Faithful crc32 original copy ∧ Course ids start dst copy
    · refine ⟨.place hframe, ?_, passed_zero⟩
      rw [Nat.cast_zero, add_zero]
    · rintro copy next ⟨hfaithful, hcourse⟩ hstep
      exact ⟨hfaithful.step hpayload hstep,
        hcourse.step hhop hdst hbroadcast hpayload hfaithful hstep⟩
  exact hboth.2

variable (ids start dst) in
/-- How the journey of a sent frame ends: with delivery to the nearest addressee if that is at most
16 nodes away, counted as dropped by one node otherwise. -/
def Outcome (payload : Bytes) (copy : Copy (ZMod N)) : Prop :=
  (∀ distance, IsLeast (Distances ids start dst) distance → distance ≤ 16 →
    ∃ frame, copy = (distance - 1, .delivered (start + distance) frame) ∧
      (frame.src.toNat : ℤ) = ids start ∧ (frame.dst.toNat : ℤ) = dst ∧
      frame.payload = payload ∧ frame.hop.toNat = distance - 1) ∧
  ((∀ distance, IsLeast (Distances ids start dst) distance → 16 < distance) →
    ∃ node, copy = (15, .gone node .dropped))

/-- A copy on its course that is settled has come to the right end. -/
theorem Course.outcome {original : Frame} {copy : Copy (ZMod N)}
    (hcourse : Course ids start dst copy) (hfaithful : Faithful crc32 original copy)
    (hsrc : (original.src.toNat : ℤ) = ids start) (hdst : (original.dst.toNat : ℤ) = dst)
    (hhop : original.hop.toNat = 0) (hsettled : copy.2.Settled) :
    Outcome ids start dst original.payload copy := by
  obtain ⟨hops, spot⟩ := copy
  cases spot with
  | delivered node frame =>
      obtain ⟨rfl, hpassed, hid⟩ := hcourse
      have hleast := hpassed.isLeast hid
      have hrelayed := hfaithful.relayed rfl
      have hbound : hops ≤ hopLimit - original.hop.toNat := hfaithful.bound
      rw [hhop] at hbound
      constructor
      · intro distance hdistance _
        obtain rfl := hleast.unique hdistance
        refine ⟨frame, rfl, ?_, ?_, hrelayed.payload, ?_⟩
        · rw [hrelayed.src, hsrc]
        · rw [hrelayed.dst, hdst]
        · rw [hrelayed.hop, hhop, Nat.zero_add, Nat.add_sub_cancel]
      · intro hfar
        have hlimit : 16 < hops + 1 := hfar (hops + 1) hleast
        unfold hopLimit at hbound
        omega
  | gone node fate =>
      obtain ⟨rfl, rfl, hpassed⟩ := hcourse
      constructor
      · intro distance hdistance hnear
        have hbeyond : 16 < distance := hpassed.lt hdistance
        omega
      · intro _
        exact ⟨node, rfl⟩
  | outgoing node data => exact hsettled.elim
  | onLink node data => exact hsettled.elim
  | received node data => exact hsettled.elim
  | unpacked node frame => exact hsettled.elim
  | numbered node frame seq => exact hsettled.elim

/-- No node of a ring ever changes its id. -/
theorem nodeId_of_reaches {condition : Fabric (ZMod N) → Fabric.Action (ZMod N) → Prop}
    {fabric : Fabric (ZMod N)}
    (hreaches : Run.Reaches (Fabric.step crc32 ringWiring) condition
      (Fabric.start (ringBoot ids)) fabric)
    {node : UDFNode} (hnode : fabric.peers start = .udfNode node) : node.nodeId = ids start := by
  calc
    node.nodeId = (fabric.topology ringWiring).ids start := by
      simp only [Fabric.topology, hnode, Peer.nodeId]
    _ = ids start := by
      rw [Fabric.topology_of_reaches hreaches, topology_start_ringBoot, ringTopology]

variable [NeZero N]

/-- **Exactly-once delivery.** In every state that a ring of nodes reaches without losses, and with
counters of 32 bits: a call of `send` creates its frame as soon as its thread goes on; each created
frame has exactly one copy; once nothing is queued or in flight, the copy is on the receive queue of
the nearest addressee or has been dropped by one node; and `dropped` counts the dropped copies. -/
theorem exactlyOnce_ring (hids : ∀ node, 1 ≤ ids node ∧ ids node ≤ 254) {fabric : Fabric (ZMod N)}
    (hreaches : Run.Reaches (Fabric.step crc32 ringWiring) Fabric.Faultless
      (Fabric.start (ringBoot ids)) fabric)
    {payload : Bytes} (hbroadcast : dst ≠ broadcast) (hpayload : payload.length ≤ maxPayload) :
    (∀ node index seq, fabric.peers start = .udfNode node →
      node.senders[index]? = some (.numbered dst payload seq) → 0 ≤ dst ∧ dst < 256 →
      ∃ next data,
        fabric.step crc32 ringWiring (.peer start (.udfNode (.sendStep index))) = some next ∧
        next.origins = fabric.origins ++ [⟨start, some (.send dst payload), data⟩]) ∧
    (∀ number data, fabric.origins[number]? = some ⟨start, some (.send dst payload), data⟩ →
      ∃ copy, fabric.copies number = {copy} ∧
        (copy.2.Settled → Outcome ids start dst payload copy) ∧
        (fabric.Quiescent → copy.2.Settled)) ∧
    ∀ node, (fabric.peers node).dropped = fabric.drops node := by
  refine ⟨?_, ?_, Fabric.dropped_eq_drops hreaches⟩
  · intro node index seq hnode hsender hdst
    have hid := nodeId_of_reaches hreaches hnode
    have hrange := hids start
    exact Fabric.send_creates hreaches hnode hsender (by omega) hdst hpayload
  · intro number data horigin
    have hcondition (state : Fabric (ZMod N)) (action : Fabric.Action (ZMod N))
        (hfaultless : state.Faultless action) : False ∨ state.Faultless action := .inr hfaultless
    have hgenuine := (Fabric.sound_of_reaches hreaches hcondition).born _
      (List.mem_of_getElem? horigin)
    obtain ⟨copy, hcopies, hjourney⟩ := Fabric.exists_copy hreaches hcondition horigin
    rw [topology_start_ringBoot] at hgenuine hjourney
    obtain ⟨original, hframe, hsrc, hdst, rfl, hhop⟩ := hgenuine.exists_frame
    have hcourse := hjourney.course hframe hhop hdst hbroadcast hpayload
    refine ⟨copy, hcopies, ?_, ?_⟩
    · exact hcourse.outcome (hjourney.faithful hframe hpayload) hsrc hdst hhop
    · intro hquiescent
      have hcopy : copy ∈ fabric.copies number := by simp [hcopies]
      exact hquiescent.settled hcopy

def pairIds (node : ZMod 2) : ℤ :=
  if node = 0 then 1 else 2

theorem pairIds_range (node : ZMod 2) : 1 ≤ pairIds node ∧ pairIds node ≤ 254 := by
  unfold pairIds
  split <;> decide

/-- Node 1 sends to node 2, which is its successor. -/
def pairRun : List (Fabric.Action (ZMod 2)) :=
  [.peer 0 (.udfNode (.send 2 [0x48, 0x69])), .peer 0 (.udfNode (.sendStep 0)),
    .peer 0 (.udfNode .txGet), .peer 0 (.udfNode (.txWrite 36)), .read 0 0,
    .peer 1 (.udfNode (.rxStep .gadgetRx)), .peer 1 (.udfNode (.rxStep .gadgetRx))]

theorem exactlyOnce_ring_pairRun :
    ∃ fabric frame, Run.Reaches (Fabric.step Crc32.checksum ringWiring) Fabric.Faultless
        (Fabric.start (ringBoot pairIds)) fabric ∧
      fabric.copies 0 = {(0, .delivered 1 frame)} ∧ frame.payload = [0x48, 0x69] := by
  have hrun : (Run.attempt (Fabric.step Crc32.checksum ringWiring) Fabric.Faultless
      (Fabric.start (ringBoot pairIds)) pairRun).map
        (fun fabric ↦ (fabric.origins, decide fabric.Quiescent)) =
          some ([⟨0, some (.send 2 [0x48, 0x69]),
            encode Crc32.checksum ⟨0, 0, 0, 1, 2, [0x48, 0x69]⟩⟩], true) := by
    decide +kernel
  obtain ⟨fabric, hreaches, hpair⟩ := Run.exists_of_attempt hrun
  obtain ⟨horigins, hquiescent⟩ := Prod.mk.inj hpair
  have hpayload : ([0x48, 0x69] : Bytes).length ≤ maxPayload := by decide
  have horigin : fabric.origins[0]? = some ⟨0, some (.send 2 [0x48, 0x69]),
      encode Crc32.checksum ⟨0, 0, 0, 1, 2, [0x48, 0x69]⟩⟩ := by
    rw [horigins]
    rfl
  obtain ⟨copy, hcopies, houtcome, hsettled⟩ :=
    (exactlyOnce_ring pairIds_range hreaches (by decide) hpayload).2.1 0 _ horigin
  have hleast : IsLeast (Distances pairIds 0 2) 1 :=
    ⟨⟨le_refl 1, by decide⟩, fun distance hdistance ↦ hdistance.1⟩
  obtain ⟨frame, rfl, _, _, hcontents, _⟩ :=
    (houtcome (hsettled (of_decide_eq_true hquiescent))).1 1 hleast (by decide)
  exact ⟨fabric, frame, hreaches, hcopies, hcontents⟩

end UsbDirectFabric.Network
