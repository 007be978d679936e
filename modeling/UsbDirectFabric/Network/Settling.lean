import UsbDirectFabric.Network.Dues
import UsbDirectFabric.Network.FlowOrder

/-!
# Networks come to rest

However a network is wired, loops and torn frames included, its daemons cannot go on forever without
new frames: every step that brings in no frame pays one of the network's dues. When nothing is left
to do, every frame has been delivered, has ended, or lies on a link that nobody reads.
-/

namespace UsbDirectFabric

open Wire Daemon Tokens Relation

namespace Daemon

/-! ## What a daemon at rest looks like -/

namespace UDFNode

variable {crc32 : Bytes → UInt32} {node : UDFNode}

/-- A receive loop that cannot go on waits for a transfer or has died. -/
theorem rx_of_rest {loop : RxLoop} (hrest : node.rxStep crc32 loop = none) :
    node.rx loop = .waiting ∨ node.rx loop = .dead := by
  cases hrx : node.rx loop with
  | waiting => exact .inl rfl
  | dead => exact .inr rfl
  | queued => simp [rxStep, hrx] at hrest
  | received tag data =>
      simp only [rxStep, hrx] at hrest
      split at hrest <;> cases hrest
  | unpacked tag frame =>
      simp only [rxStep, hrx] at hrest
      split at hrest <;> cases hrest
  | numbered tag frame seq =>
      simp only [rxStep, hrx] at hrest
      split at hrest <;> cases hrest

theorem isFree_of_rest {loop : RxLoop} (hrest : node.rxStep crc32 loop = none) :
    (node.rx loop).isFree := by
  rcases rx_of_rest hrest with hrx | hrx
  · rw [hrx]
    rfl
  · rw [hrx]
    rfl

/-- A transmit loop at rest holds no frame, and none is queued. -/
theorem tx_of_rest (hget : node.txGet = none) (hfail : node.txFail = none)
    (hskip : node.txSkip = none) : node.hostTx = .waiting ∧ node.txQueue = [] := by
  cases htx : node.hostTx with
  | holding tag raw =>
      cases hfd : node.hostFd with
      | true => simp [txFail, htx, hfd] at hfail
      | false => simp [txSkip, htx, hfd] at hskip
  | waiting =>
      refine ⟨rfl, ?_⟩
      cases hqueue : node.txQueue with
      | nil => rfl
      | cons item rest => simp [txGet, htx, hqueue] at hget

/-- A transmit loop that can write has a frame and a host device. -/
theorem holding_of_write (hwrites : node.txFail ≠ none ∨ ∃ accepted, node.txWrite accepted ≠ none) :
    ∃ tag raw, node.hostTx = .holding tag raw ∧ node.hostFd = true := by
  cases htx : node.hostTx with
  | waiting => simp [txFail, txWrite, htx] at hwrites
  | holding tag raw =>
      refine ⟨tag, raw, rfl, ?_⟩
      by_contra hclosed
      simp [txFail, txWrite, htx, hclosed] at hwrites

end UDFNode

namespace GadgetDaemon

variable {crc32 : Bytes → UInt32} {daemon next : GadgetDaemon} {effect : Effect}

theorem rx_of_rest (hrest : daemon.rxStep crc32 = none) :
    daemon.rx = .waiting ∨ daemon.rx = .dead := by
  cases hrx : daemon.rx with
  | waiting => exact .inl rfl
  | dead => exact .inr rfl
  | received tag data => simp [rxStep, hrx] at hrest
  | sized tag data =>
      simp only [rxStep, hrx] at hrest
      split at hrest <;> cases hrest
  | accounted tag frame =>
      simp only [rxStep, hrx] at hrest
      split at hrest
      · cases hrest
      · split at hrest <;> cases hrest
  | numbered tag frame seq =>
      simp only [rxStep, hrx] at hrest
      split at hrest <;> cases hrest

/-- The endpoint never accepts more bytes than the frame has. -/
def Fitting (daemon : GadgetDaemon) : Prop :=
  ∀ tag data written, daemon.tx = .writing tag data written → written ≤ data.length

theorem Fitting.step {number : ℕ} {action : Action} (hfitting : daemon.Fitting)
    (hstep : daemon.step crc32 number action = some (next, effect)) : next.Fitting := by
  cases step_moves hstep with
  | account => rw [account_eq]; exact hfitting
  | txGet =>
      intro tag data written hwriting
      cases hwriting
      exact Nat.zero_le _
  | txPiece _ hroom =>
      intro tag data written hwriting
      cases hwriting
      exact hroom.2
  | txWhole | txFail | txFinish | txFinishPieces =>
      intro tag data written hwriting
      cases hwriting
  | size | reject | deliver | number | drop | forward | rxDie | hbNumber | hbPut | hbDie | send
  | sendPut | sendRaise => exact hfitting

theorem tx_of_rest (hfitting : daemon.Fitting) (hget : daemon.txGet = none)
    (hfail : daemon.txFail = none) (hfinish : daemon.txFinish = none) :
    daemon.tx = .waiting ∧ daemon.txQueue = [] := by
  cases htx : daemon.tx with
  | sent length => simp [txFinish, htx] at hfinish
  | writing tag data written =>
      rcases Nat.lt_or_eq_of_le (hfitting tag data written htx) with hless | hall
      · simp [txFail, htx, hless] at hfail
      · simp [txFinish, htx, hall] at hfinish
  | waiting =>
      refine ⟨rfl, ?_⟩
      cases hqueue : daemon.txQueue with
      | nil => rfl
      | cons item rest => simp [txGet, htx, hqueue] at hget

/-- A transmit loop that can write has some of a frame left. -/
theorem writing_of_write
    (hwrites : daemon.txFail ≠ none ∨ ∃ accepted, daemon.txWrite accepted ≠ none) :
    ∃ tag data written, daemon.tx = .writing tag data written ∧ written < data.length := by
  cases htx : daemon.tx with
  | waiting | sent => simp [txFail, txWrite, htx] at hwrites
  | writing tag data written =>
      refine ⟨tag, data, written, rfl, ?_⟩
      by_contra hall
      simp [txFail, txWrite, htx, hall] at hwrites

end GadgetDaemon

end Daemon

namespace Network

variable {ι : Type} {crc32 : Bytes → UInt32}

namespace Peer

variable {peer next : Peer} {effect : Effect} {number : ℕ}

def dues (crc32 : Bytes → UInt32) : Peer → Multiset Rank
  | udfNode node => node.dues crc32
  | gadgetDaemon daemon => daemon.dues crc32

/-- A step that needs neither an application nor a timer. -/
def Proceeds : Action → Prop
  | .udfNode action => UDFNode.Proceeds action
  | .gadgetDaemon action => GadgetDaemon.Proceeds action

theorem step_pays {action : Action} (hproceeds : Proceeds action)
    (hstep : peer.step crc32 number action = some (next, effect)) :
    Pays crc32 number effect (peer.dues crc32) (next.dues crc32) := by
  cases step_moves hstep with
  | udfNode hnode => exact UDFNode.step_pays hproceeds hnode
  | gadgetDaemon hdaemon => exact GadgetDaemon.step_pays hproceeds hdaemon

theorem read_pays {loop : RxLoop} {tag : Tag} {data : Bytes}
    (hread : peer.read loop tag data = some (next, effect)) :
    Pays crc32 number effect (peer.dues crc32 + {dataRank crc32 5 data}) (next.dues crc32) := by
  cases read_takes hread with
  | udfNode hnode => exact UDFNode.read_pays hnode
  | gadgetDaemon hdaemon => exact GadgetDaemon.read_pays hdaemon

/-- A receive loop that can read: its endpoint is open, and no exception has ended its thread. -/
def Listens (loop : RxLoop) : Peer → Prop
  | udfNode node => node.isOpen loop ∧ node.rx loop ≠ .dead
  | gadgetDaemon daemon => daemon.rx ≠ .dead

def Fitting : Peer → Prop
  | udfNode _ => True
  | gadgetDaemon daemon => daemon.Fitting

theorem Fitting.step {action : Action} (hfitting : peer.Fitting)
    (hstep : peer.step crc32 number action = some (next, effect)) : next.Fitting := by
  cases step_moves hstep with
  | udfNode => trivial
  | gadgetDaemon hdaemon => exact GadgetDaemon.Fitting.step hfitting hdaemon

theorem Fitting.read {loop : RxLoop} {tag : Tag} {data : Bytes} (hfitting : peer.Fitting)
    (hread : peer.read loop tag data = some (next, effect)) : next.Fitting := by
  cases read_takes hread with
  | udfNode => trivial
  | gadgetDaemon hdaemon =>
      obtain ⟨-, ⟨-, rfl, -⟩ | ⟨-, rfl, -⟩⟩ := GadgetDaemon.read_cases hdaemon
      · exact hfitting
      · exact hfitting

/-- A write passes all that is left of its frame. A node without a host device does not write. -/
def Completes : Peer → Action → Prop
  | udfNode node, .udfNode (.txWrite accepted) =>
      ∀ tag raw, node.hostTx = .holding tag raw → accepted = raw.length
  | gadgetDaemon daemon, .gadgetDaemon (.txWrite accepted) =>
      ∀ tag data written, daemon.tx = .writing tag data written → written + accepted = data.length
  | _, .udfNode .txFail | _, .gadgetDaemon .txFail => False
  | _, _ => True

theorem exists_complete_udfNode {node : UDFNode}
    (hwrites : node.txFail ≠ none ∨ ∃ accepted, node.txWrite accepted ≠ none) :
    ∃ action, Proceeds action ∧ (udfNode node).Completes action ∧
      (udfNode node).step crc32 number action ≠ none := by
  obtain ⟨tag, raw, hholding, hopen⟩ := UDFNode.holding_of_write hwrites
  refine ⟨.udfNode (.txWrite raw.length), trivial, ?_, ?_⟩
  · intro _ _ hother
    rw [hholding] at hother
    cases hother
    rfl
  · simp [step, UDFNode.step, UDFNode.txWrite, hholding, hopen]

theorem exists_complete_gadgetDaemon {daemon : GadgetDaemon}
    (hwrites : daemon.txFail ≠ none ∨ ∃ accepted, daemon.txWrite accepted ≠ none) :
    ∃ action, Proceeds action ∧ (gadgetDaemon daemon).Completes action ∧
      (gadgetDaemon daemon).step crc32 number action ≠ none := by
  obtain ⟨tag, data, written, hwriting, hless⟩ := GadgetDaemon.writing_of_write hwrites
  have hall : written + (data.length - written) = data.length := by omega
  refine ⟨.gadgetDaemon (.txWrite (data.length - written)), ?_, ?_, ?_⟩
  · exact Nat.sub_ne_zero_of_lt hless
  · intro _ _ _ hother
    rw [hwriting] at hother
    cases hother
    exact hall
  · simp only [step, GadgetDaemon.step, GadgetDaemon.txWrite, hwriting, hall, le_refl,
      and_true, if_pos hless]
    split <;> simp

/-- Where a write can fail or cut its frame, one can complete it. -/
theorem exists_complete {action : Action} (hproceeds : Proceeds action)
    (hstep : peer.step crc32 number action ≠ none) :
    ∃ other, Proceeds other ∧ peer.Completes other ∧ peer.step crc32 number other ≠ none := by
  cases peer with
  | udfNode node =>
      cases action with
      | gadgetDaemon action => exact absurd rfl hstep
      | udfNode action =>
          have hnode : node.step crc32 number action ≠ none := mt Option.map_eq_none_iff.mpr hstep
          cases action with
          | txWrite accepted => exact exists_complete_udfNode (.inr ⟨accepted, hnode⟩)
          | txFail => exact exists_complete_udfNode (.inl hnode)
          | send | sendStep | recv | rxStep | txGet | txSkip | hbStep =>
              exact ⟨_, hproceeds, trivial, hstep⟩
  | gadgetDaemon daemon =>
      cases action with
      | udfNode action => exact absurd rfl hstep
      | gadgetDaemon action =>
          have hdaemon : daemon.step crc32 number action ≠ none :=
            mt Option.map_eq_none_iff.mpr hstep
          cases action with
          | txWrite accepted => exact exists_complete_gadgetDaemon (.inr ⟨accepted, hdaemon⟩)
          | txFail => exact exists_complete_gadgetDaemon (.inl hdaemon)
          | rxStep | txGet | txFinish | hbStep | send | sendPut =>
              exact ⟨_, hproceeds, trivial, hstep⟩

/-- A daemon that cannot go on has nothing in its threads and in its transmit queue, and whoever of
its receive loops listens is waiting. -/
theorem isIdle_of_rest (hfitting : peer.Fitting)
    (hrest : ∀ action, Proceeds action → peer.step crc32 number action = none) :
    peer.isIdle ∧ ∀ loop, peer.Listens loop → ∀ tag data, peer.read loop tag data ≠ none := by
  cases peer with
  | udfNode node =>
      have hstep (action : UDFNode.Action) (hproceeds : UDFNode.Proceeds action) :
          node.step crc32 number action = none :=
        Option.map_eq_none_iff.mp (hrest (.udfNode action) hproceeds)
      have hrx (loop : RxLoop) : node.rxStep crc32 loop = none := by
        rw [← UDFNode.step_rxStep crc32 number node loop]
        exact hstep (.rxStep loop) trivial
      obtain ⟨htx, hqueue⟩ := UDFNode.tx_of_rest (hstep .txGet trivial) (hstep .txFail trivial)
        (hstep .txSkip trivial)
      have hgadget : node.gadgetRx.isFree := UDFNode.isFree_of_rest (hrx .gadgetRx)
      have hhost : node.hostRx.isFree := UDFNode.isFree_of_rest (hrx .hostRx)
      refine ⟨?_, ?_⟩
      · simp only [isIdle, UDFNode.isIdle, htx, hqueue, hgadget, hhost]
        rfl
      · intro loop hlistens tag data
        have hwaiting := (UDFNode.rx_of_rest (hrx loop)).resolve_right hlistens.2
        by_cases hdata : data = [] <;> simp [read, UDFNode.read, hlistens.1, hwaiting, hdata]
  | gadgetDaemon daemon =>
      have hstep (action : GadgetDaemon.Action) (hproceeds : GadgetDaemon.Proceeds action) :
          daemon.step crc32 number action = none :=
        Option.map_eq_none_iff.mp (hrest (.gadgetDaemon action) hproceeds)
      have hrx := GadgetDaemon.rx_of_rest (hstep .rxStep trivial)
      obtain ⟨htx, hqueue⟩ := GadgetDaemon.tx_of_rest hfitting (hstep .txGet trivial)
        (hstep .txFail trivial) (hstep .txFinish trivial)
      refine ⟨?_, ?_⟩
      · rcases hrx with hrx | hrx
        · simp only [isIdle, GadgetDaemon.isIdle, htx, hqueue, hrx]
          rfl
        · simp only [isIdle, GadgetDaemon.isIdle, htx, hqueue, hrx]
          rfl
      · intro loop hlistens tag data
        have hwaiting := hrx.resolve_right hlistens
        by_cases hdata : data = [] <;> simp [read, GadgetDaemon.read, hwaiting, hdata]

end Peer

namespace Fabric

variable [DecidableEq ι] {wiring : ι → Option (ι × RxLoop)} {fabric next : Fabric ι}

/-- A step that brings in no new frame: of a daemon by itself, a read or a loss. -/
def Proceeds : Action ι → Prop
  | .peer _ action => Peer.Proceeds action
  | .read _ _ | .lose _ _ => True
  | .inject _ _ => False

/-- Such a step that loses no transfer on a link; a write may fail, cut its frame or be skipped. -/
def Carries : Action ι → Prop
  | .lose _ _ => False
  | action => Proceeds action

omit [DecidableEq ι] in
theorem Carries.proceeds {action : Action ι} (hcarries : Carries action) : Proceeds action := by
  cases action with
  | peer | read | inject => exact hcarries
  | lose => exact hcarries.elim

/-- In addition every write passes all that is left of its frame. -/
def Careful (fabric : Fabric ι) : Action ι → Prop
  | .peer node action => Peer.Proceeds action ∧ (fabric.peers node).Completes action
  | .read _ _ => True
  | .lose _ _ | .inject _ _ => False

omit [DecidableEq ι] in
theorem Careful.carries {action : Action ι} (hcareful : fabric.Careful action) :
    Carries action := by
  cases action with
  | peer => exact hcareful.1
  | read => trivial
  | lose | inject => exact hcareful.elim

/-! ## Every such step pays -/

section Pays

variable [Fintype ι]

def dues (crc32 : Bytes → UInt32) (fabric : Fabric ι) : Multiset Rank :=
  ∑ node, (fabric.peers node).dues crc32 + ∑ link, linkDues crc32 (fabric.links link)

/-- A sum without one term, which is the same whatever that term is changed to. -/
theorem exists_others {α M : Type*} [AddCommMonoid M] (field : α → M) (values : ι → α) (node : ι) :
    ∃ others, ∑ other, field (values other) = field (values node) + others ∧ ∀ value,
      ∑ other, field (Function.update values node value other) = field value + others := by
  have hchanged (value : α) : ∑ other, field (Function.update values node value other) =
      field value + ∑ other ∈ Finset.univ.erase node, field (values other) := by
    rw [← Finset.add_sum_erase _ _ (Finset.mem_univ node), Function.update_self]
    congr 1
    refine Finset.sum_congr rfl fun other hother ↦ ?_
    rw [Function.update_of_ne (Finset.ne_of_mem_erase hother)]
  refine ⟨_, ?_, hchanged⟩
  rw [← hchanged, Function.update_eq_self]

/-- A step of a daemon pays for the network, also when it takes up a due of a link. -/
theorem commit_pays (fabric : Fabric ι) {node : ι} {peer : Peer} {effect : Effect}
    {taken : Multiset Rank}
    (hpays : Pays crc32 fabric.origins.length effect ((fabric.peers node).dues crc32 + taken)
      (peer.dues crc32)) :
    CutExpand Rank.Less ((fabric.commit node peer effect).dues crc32)
      (fabric.dues crc32 + taken) := by
  obtain ⟨daemons, hpeers, hdaemons⟩ := exists_others (Peer.dues crc32) fabric.peers node
  obtain ⟨links, hitems, hlinks⟩ := exists_others (linkDues crc32) fabric.links node
  have hafter : (fabric.commit node peer effect).dues crc32 =
      peer.dues crc32 + linkDues crc32 (written fabric.origins.length effect) +
        (daemons + (linkDues crc32 (fabric.links node) + links)) := by
    simp only [dues, commit, hdaemons, hlinks, places_append]
    abel
  have hbefore : fabric.dues crc32 + taken = (fabric.peers node).dues crc32 + taken +
      (daemons + (linkDues crc32 (fabric.links node) + links)) := by
    rw [dues, hpeers, hitems]
    abel
  rw [hafter, hbefore]
  exact (cutExpand_add_right _).mpr hpays

/-- A transfer that leaves its link takes its due with it. -/
theorem dues_unlink {link : ι} {index : ℕ} {tag : Tag} {data : Bytes}
    (hwaits : (fabric.links link)[index]? = some (tag, data)) :
    fabric.dues crc32 = (fabric.unlink link index).dues crc32 + {dataRank crc32 5 data} := by
  obtain ⟨links, hitems, hlinks⟩ := exists_others (linkDues crc32) fabric.links link
  have hfirst := places_eraseIdx (fun item : Tag × Bytes ↦ dataRank crc32 5 item.2) hwaits
  simp only [dues, unlink, hlinks, hitems, linkDues]
  rw [hfirst]
  abel

/-- Whatever happens in a network without new frames, some due is paid. -/
theorem step_pays {action : Action ι} (hproceeds : Proceeds action)
    (hstep : fabric.step crc32 wiring action = some next) :
    CutExpand Rank.Less (next.dues crc32) (fabric.dues crc32) := by
  cases step_move hstep with
  | @peer node _ peer effect hpeer =>
      have hpays : Pays crc32 fabric.origins.length effect ((fabric.peers node).dues crc32 + 0)
          (peer.dues crc32) := by
        rw [add_zero]
        exact Peer.step_pays hproceeds hpeer
      simpa only [add_zero] using commit_pays fabric hpays
  | read hwired hwaits hread =>
      rw [dues_unlink hwaits]
      exact commit_pays (fabric.unlink _ _) (Peer.read_pays hread)
  | lose hwaits => exact Drain.pay _ (dues_unlink hwaits)
  | inject => exact hproceeds.elim

theorem rank_wellFounded : WellFounded Rank.Less :=
  WellFounded.prod_lex Nat.lt_wfRel.wf Nat.lt_wfRel.wf

end Pays

/-! ## Networks at rest -/

/-- No daemon can go on, and no transfer can be read. -/
abbrev AtRest (crc32 : Bytes → UInt32) (wiring : ι → Option (ι × RxLoop)) (fabric : Fabric ι) :
    Prop :=
  Drain.AtRest (step crc32 wiring) (fun _ action ↦ Carries action) fabric

/-- Where careful steps end, all end. -/
theorem atRest_of_careful (hrest : Drain.AtRest (step crc32 wiring) Careful fabric) :
    fabric.AtRest crc32 wiring := by
  intro action hcarries
  cases action with
  | read link index => exact hrest (.read link index) trivial
  | lose | inject => exact hcarries.elim
  | peer node action =>
      by_contra hstep
      have hpeer : (fabric.peers node).step crc32 fabric.origins.length action ≠ none :=
        fun hnone ↦ hstep (Option.map_eq_none_iff.mpr hnone)
      obtain ⟨other, hproceeds, hcompletes, hother⟩ := Peer.exists_complete hcarries hpeer
      exact hother (Option.map_eq_none_iff.mp (hrest (.peer node other) ⟨hproceeds, hcompletes⟩))

/-- A transfer on a link that leads nowhere, or to a receive loop that has ended or whose endpoint
is not open. -/
def Stranded (wiring : ι → Option (ι × RxLoop)) (fabric : Fabric ι) : Spot ι → Prop
  | .onLink link _ =>
      ∀ reader loop, wiring link = some (reader, loop) → ¬(fabric.peers reader).Listens loop
  | _ => False

theorem fitting_of_reaches {condition : Fabric ι → Action ι → Prop} {boot : ι → Boot}
    (hreaches : Run.Reaches (step crc32 wiring) condition (start boot) fabric) (node : ι) :
    (fabric.peers node).Fitting := by
  revert node
  apply hreaches.invariant
  · intro node
    cases hboot : boot node with
    | udfNode nodeId gadgetEpOut hostFd => simp only [start, hboot, Boot.peer, Peer.Fitting]
    | gadgetDaemon nodeId =>
        simp only [start, hboot, Boot.peer]
        intro tag data written hwriting
        cases hwriting
  · intro state action next hfitting _ hstep node
    have hcommit (peers : ι → Peer) (hpeers : ∀ other, (peers other).Fitting) (mover : ι)
        (peer : Peer) (hpeer : peer.Fitting) : (Function.update peers mover peer node).Fitting := by
      by_cases hmover : node = mover
      · rw [hmover, Function.update_self]
        exact hpeer
      · rw [Function.update_of_ne hmover]
        exact hpeers node
    cases step_move hstep with
    | peer hpeer => exact hcommit state.peers hfitting _ _ ((hfitting _).step hpeer)
    | read _ _ hread => exact hcommit state.peers hfitting _ _ ((hfitting _).read hread)
    | lose => exact hfitting node
    | inject => exact hfitting node

/-- Daemons of a network at rest hold no frames but delivered ones. -/
theorem AtRest.isIdle (hrest : fabric.AtRest crc32 wiring)
    (hfitting : ∀ node, (fabric.peers node).Fitting) (node : ι) :
    (fabric.peers node).isIdle ∧ ∀ loop, (fabric.peers node).Listens loop →
      ∀ tag data, (fabric.peers node).read loop tag data ≠ none := by
  apply Peer.isIdle_of_rest (hfitting node)
  intro action hproceeds
  exact Option.map_eq_none_iff.mp (hrest (.peer node action) hproceeds)

variable [Fintype ι]

/-- In a network at rest every copy is settled or stranded. -/
theorem AtRest.settled (hrest : fabric.AtRest crc32 wiring)
    (hfitting : ∀ node, (fabric.peers node).Fitting) {number : ℕ} {copy : Copy ι}
    (hcopy : copy ∈ fabric.copies number) :
    copy.2.Settled ∨ fabric.Stranded wiring copy.2 := by
  obtain ⟨token, htoken, rfl⟩ := Multiset.mem_map.mp hcopy
  have hmem := (Multiset.mem_filter.mp htoken).1
  simp only [tokens] at hmem
  rcases Multiset.mem_add.mp hmem with hinside | hgone
  · rcases Multiset.mem_add.mp hinside with hpeer | hlink
    · obtain ⟨node, _, hnode⟩ := Multiset.mem_sum.mp hpeer
      rw [Peer.tokens_of_isIdle node (hrest.isIdle hfitting node).1] at hnode
      obtain ⟨item, _, rfl⟩ := mem_places.mp hnode
      exact .inl trivial
    · obtain ⟨link, _, htransfer⟩ := Multiset.mem_sum.mp hlink
      obtain ⟨⟨tag, data⟩, hitem, rfl⟩ := mem_places.mp htransfer
      obtain ⟨index, hwaits⟩ := List.mem_iff_getElem?.mp hitem
      refine .inr fun reader loop hwired hlistens ↦ ?_
      have hread := hrest (.read link index) trivial
      simp only [step, hwired, hwaits, Option.map_eq_none_iff] at hread
      exact (hrest.isIdle hfitting reader).2 loop hlistens tag data hread
  · obtain ⟨entry, _, rfl⟩ := mem_places.mp hgone
    exact .inl trivial

end Fabric

variable [DecidableEq ι] [Fintype ι]

/-- **Every network drains.** In a network of any shape, from any state, the daemons cannot go on
forever without calls of `send`, heartbeats of gadgets or transfers from outside, whatever is lost
and however frames are cut. -/
theorem not_endless (crc32 : Bytes → UInt32) (wiring : ι → Option (ι × RxLoop)) :
    ¬∃ states : ℕ → Fabric ι, ∀ time, ∃ action, Fabric.Proceeds action ∧
      (states time).step crc32 wiring action = some (states (time + 1)) := by
  have hpays : ∀ (state : Fabric ι) (action : Fabric.Action ι) next, Fabric.Proceeds action →
      state.step crc32 wiring action = some next →
      CutExpand Rank.Less (next.dues crc32) (state.dues crc32) :=
    fun _ _ _ hproceeds hstep ↦ Fabric.step_pays hproceeds hstep
  exact Drain.not_infinite Fabric.rank_wellFounded hpays

/-- **No frame is left on its way.** Every reached network comes to rest by steps that lose no
transfer and in which every write passes all that is left of its frame. Wherever it rests, also if
writes fail, cut frames or are skipped, each frame that was ever created has been delivered, has
ended, or is on a link that no receive loop reads. -/
theorem settles (wiring : ι → Option (ι × RxLoop)) (boot : ι → Boot) {fabric : Fabric ι}
    (hreaches : Run.Reachable (Fabric.step crc32 wiring) (Fabric.start boot) fabric) :
    (∃ last, Run.Reaches (Fabric.step crc32 wiring) Fabric.Careful fabric last ∧
      last.AtRest crc32 wiring) ∧
    ∀ last, Run.Reaches (Fabric.step crc32 wiring) (fun _ action ↦ Fabric.Carries action) fabric
      last → last.AtRest crc32 wiring →
      ∀ number origin, last.origins[number]? = some origin →
        ∃ copy, last.copies number = {copy} ∧
          (copy.2.Settled ∨ last.Stranded wiring copy.2) := by
  constructor
  · have hpays : ∀ (state : Fabric ι) (action : Fabric.Action ι) next, state.Careful action →
        state.step crc32 wiring action = some next →
        CutExpand Rank.Less (next.dues crc32) (state.dues crc32) :=
      fun _ _ _ hcareful hstep ↦ Fabric.step_pays hcareful.carries.proceeds hstep
    obtain ⟨last, hlater, hrest⟩ := Drain.exists_atRest Fabric.rank_wellFounded hpays fabric
    exact ⟨last, hlater, Fabric.atRest_of_careful hrest⟩
  · intro last hlater hrest number origin horigin
    have hlast : Run.Reachable (Fabric.step crc32 wiring) (Fabric.start boot) last :=
      hreaches.trans (hlater.weaken fun _ _ _ ↦ trivial)
    have hfaulty : ∀ (state : Fabric ι) (action : Fabric.Action ι), True →
        True ∨ state.Faultless action := fun _ _ _ ↦ .inl trivial
    obtain ⟨copy, hcopies, -⟩ := Fabric.exists_copy hlast hfaulty horigin
    have hcopy : copy ∈ last.copies number := by
      rw [hcopies]
      exact Multiset.mem_singleton_self copy
    exact ⟨copy, hcopies, hrest.settled (Fabric.fitting_of_reaches hlast) hcopy⟩

/-- Two frames are on the transmit queue of the first node, and wherever the row comes to rest both
are settled or stranded. -/
theorem settles_row :
    ∃ fabric, Run.Reachable (Fabric.step Crc32.checksum row) (Fabric.start rowBoot) fabric ∧
      fabric.origins.length = 2 ∧
      ∃ last, Run.Reaches (Fabric.step Crc32.checksum row) Fabric.Careful fabric last ∧
        ∀ number origin, last.origins[number]? = some origin →
          ∃ copy, last.copies number = {copy} ∧
            (copy.2.Settled ∨ last.Stranded row copy.2) := by
  have hrun : (Run.attempt (Fabric.step Crc32.checksum row) (fun _ _ ↦ True)
      (Fabric.start rowBoot) (rowRun.take 4)).map (·.origins.length) = some 2 := by
    decide +kernel
  obtain ⟨fabric, hreaches, horigins⟩ := Run.exists_of_attempt hrun
  obtain ⟨⟨last, hlater, hrest⟩, hsettled⟩ := settles row rowBoot hreaches
  refine ⟨fabric, hreaches, horigins, last, hlater, hsettled last ?_ hrest⟩
  exact hlater.weaken fun _ _ hcareful ↦ hcareful.carries

end Network

end UsbDirectFabric
