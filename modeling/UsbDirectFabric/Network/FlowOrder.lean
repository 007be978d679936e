import UsbDirectFabric.Network.Lanes
import UsbDirectFabric.Foundation.Crc32

/-!
# Frames arrive in the order they were sent

In a network of any shape whose links are read in order, the frames that one daemon sends to another
one arrive in the order in which they were put on the transmit queue, however many daemons forward
them, whatever the threads do in between and whichever frames are lost.

The belt of the network keeps all frames in order that come from one daemon and have been forwarded
equally often. All arrivals at one daemon have been, because a frame is never forwarded by a daemon
that it is addressed to.
-/

namespace UsbDirectFabric.Network

open Wire Daemon Tokens Conveyor

variable {ι : Type}

/-! ## The way of a frame -/

/-- A copy is where the links lead from its start after so many forwards. -/
def Spot.OnWay (way : ℕ → Option ι) (forwards : ℕ) : Spot ι → Prop
  | .outgoing node _ | .onLink node _ => way forwards = some node
  | .received node _ | .unpacked node _ | .numbered node _ _ | .delivered node _ =>
      way (forwards + 1) = some node
  | .gone _ _ => True

variable (crc32 : Bytes → UInt32) (topology : Topology ι)

/-- The copy of a frame that started at a daemon's output: it is on its way, it still shows where it
is going, and no daemon that has forwarded it is one it is addressed to. -/
structure Passing (origin : Origin ι) (copy : Copy ι) : Prop where
  onWay : copy.2.OnWay (Walk.walk topology.next · origin.node) copy.1
  shows : ∀ frame, copy.2.content crc32 = some frame →
    ∃ original, unpack crc32 origin.data = .ok original ∧ frame.dst = original.dst
  refused : ∀ earlier < copy.1, ∀ node,
    Walk.walk topology.next (earlier + 1) origin.node = some node →
      ∀ original, unpack crc32 origin.data = .ok original → ¬Addressed (topology.ids node) original
  numbered : ∀ node frame seq, copy.2 = .numbered node frame seq →
    ¬Addressed (topology.ids node) frame ∧ frame.hop.toNat < hopLimit
  delivered : ∀ node frame, copy.2 = .delivered node frame → Addressed (topology.ids node) frame

variable {crc32} {topology}

theorem addressed_congr {nodeId : ℤ} {frame original : Frame} (hdst : frame.dst = original.dst) :
    Addressed nodeId frame ↔ Addressed nodeId original := by
  unfold Addressed
  rw [hdst]

theorem Passing.start {origin : Origin ι} (hsource : origin.source ≠ none) :
    Passing crc32 topology origin origin.place := by
  have hplace : origin.place = (0, .outgoing origin.node origin.data) := by
    unfold Origin.place
    split
    · rfl
    · rename_i hnone
      exact absurd hnone hsource
  rw [hplace]
  refine ⟨rfl, ?_, by simp, by simp, by simp⟩
  intro frame hcontent
  exact ⟨frame, unpack_of_content hcontent, rfl⟩

theorem Passing.step {origin : Origin ι} {faulty : Prop} {copy next : Copy ι}
    (hpassing : Passing crc32 topology origin copy)
    (hstep : Step crc32 topology faulty copy next) : Passing crc32 topology origin next := by
  obtain ⟨honWay, hshows, hrefused, hnumbered, hdelivered⟩ := hpassing
  cases hstep with
  | write forwards node data => exact ⟨honWay, hshows, hrefused, by simp, by simp⟩
  | abandon forwards node data fate =>
      exact ⟨trivial, by simp [Spot.content], hrefused, by simp, by simp⟩
  | lose forwards node data =>
      exact ⟨trivial, by simp [Spot.content], hrefused, by simp, by simp⟩
  | read forwards node reader data hwired =>
      refine ⟨?_, ?_, hrefused, by simp, by simp⟩
      · simp only [Spot.OnWay] at honWay ⊢
        rw [Walk.walk_succ, honWay]
        exact hwired
      · intro frame hcontent
        have hunpack := unpack_of_take crc32 (unpack_of_content hcontent)
        exact hshows frame (by simp [Spot.content, hunpack, Except.toOption])
  | skip forwards node reader =>
      exact ⟨trivial, by simp [Spot.content], hrefused, by simp, by simp⟩
  | @unpack forwards node data frame haccepted =>
      refine ⟨honWay, ?_, hrefused, by simp, by simp⟩
      intro other hcontent
      cases hcontent
      exact hshows frame (by simp [Spot.content, haccepted, Except.toOption])
  | reject forwards node =>
      exact ⟨trivial, by simp [Spot.content], hrefused, by simp, by simp⟩
  | @deliver forwards node frame haddressed =>
      refine ⟨honWay, hshows, hrefused, by simp, ?_⟩
      intro other one hspot
      cases hspot
      exact haddressed
  | expire forwards node =>
      exact ⟨trivial, by simp [Spot.content], hrefused, by simp, by simp⟩
  | @number forwards node frame seq hother hlimit =>
      refine ⟨honWay, hshows, hrefused, ?_, by simp⟩
      intro other one another hspot
      cases hspot
      exact ⟨hother, hlimit⟩
  | @forward forwards node frame seq data hpacked =>
      obtain ⟨hother, hlimit⟩ := hnumbered node frame seq rfl
      obtain ⟨rfl, hlength⟩ := unpack_repack crc32 hlimit hpacked
      obtain ⟨original, horiginal, hdst⟩ := hshows frame rfl
      refine ⟨honWay, ?_, ?_, by simp, by simp⟩
      · intro one hcontent
        have hrelayed := unpack_encode crc32 (relayed frame seq) hlength
        simp only [Spot.content, hrelayed, Except.toOption, Option.some.injEq] at hcontent
        exact ⟨original, horiginal, hcontent ▸ hdst⟩
      · intro earlier hearlier passed hpassed another hanother
        rcases Nat.lt_succ_iff_lt_or_eq.mp hearlier with hbefore | rfl
        · exact hrefused earlier hbefore passed hpassed another hanother
        · -- the daemon that has just forwarded the frame
          simp only [Spot.OnWay] at honWay
          rw [honWay] at hpassed
          cases hpassed
          rw [horiginal] at hanother
          cases hanother
          exact fun haddressed ↦ hother ((addressed_congr hdst).mpr haddressed)
  | fail forwards node =>
      exact ⟨trivial, by simp [Spot.content], hrefused, by simp, by simp⟩

/-- Copies of frames from one daemon that have been delivered to one daemon have been forwarded
equally often. -/
theorem Passing.forwards_le {first second : Origin ι} {node : ι} {forwards later : ℕ}
    {frame other : Frame} (hfirst : Passing crc32 topology first (forwards, .delivered node frame))
    (hsecond : Passing crc32 topology second (later, .delivered node other))
    (hnode : first.node = second.node) : later ≤ forwards := by
  by_contra hless
  obtain ⟨original, horiginal, hdst⟩ := hsecond.shows other rfl
  have haddressed := (addressed_congr hdst).mp (hsecond.delivered node other rfl)
  have honWay : Walk.walk topology.next (forwards + 1) second.node = some node :=
    hnode ▸ hfirst.onWay
  exact hsecond.refused forwards (Nat.lt_of_not_le hless) node honWay original horiginal haddressed

namespace Fabric

variable [DecidableEq ι] {wiring : ι → Option (ι × RxLoop)} {fabric next : Fabric ι}
  {boot : ι → Boot}

/-! ## Reached networks -/

omit [DecidableEq ι] in
theorem belt_start (boot : ι → Boot) : (start boot).belt = Belt.empty := by
  have hlanes (node : ι) : (boot node).peer.lanes = ⟨[], fun _ ↦ [], []⟩ := by
    cases boot node with
    | udfNode nodeId gadgetEpOut hostFd =>
        have hinbound : (fun loop ↦ ((UDFNode.start nodeId gadgetEpOut hostFd).rx loop).tags) =
            fun _ ↦ [] := by
          funext loop
          cases loop <;> rfl
        exact congrArg (Lanes.mk [] · []) hinbound
    | gadgetDaemon nodeId =>
        have hinbound : (GadgetDaemon.start nodeId).lanes.inbound = fun _ ↦ [] := by
          funext loop
          cases loop <;> rfl
        exact congrArg (Lanes.mk [] · []) hinbound
  unfold belt start Belt.empty beltOf
  simp only [hlanes, List.map_nil]
  congr 1
  funext station
  cases station <;> rfl

/-- The belt of a network whose links are read in order is always orderly. -/
theorem orderly_of_reaches
    (hreaches : Run.Reaches (step crc32 wiring) (fun _ action ↦ InOrder action) (start boot)
      fabric) :
    fabric.belt.Orderly (Station.way wiring (start boot).entry) := by
  have hboth : fabric.entry = (start boot).entry ∧
      fabric.belt.Orderly (Station.way wiring (start boot).entry) := by
    apply hreaches.invariant
    · rw [belt_start]
      exact ⟨rfl, Belt.orderly_empty⟩
    · intro state action next hstate hinorder hstep
      obtain ⟨hentry, horderly⟩ := hstate
      obtain ⟨hplays, hnext⟩ := step_plays hinorder hstep
      rw [hentry] at hplays
      exact ⟨hnext.trans hentry, horderly.plays hplays⟩
  exact hboth.2

/-- Whether the frame with the given number was put on the transmit queue of a daemon by one of its
calls. -/
def sentBy (fabric : Fabric ι) (source : ι) (number : ℕ) : Bool :=
  fabric.origins[number]?.any fun origin ↦ origin.node = source ∧ origin.source ≠ none

/-- The numbers of the frames from `source` on the receive queue of `node`, in the order of their
arrival. Numbers are given out in the order in which frames are put on transmit queues. -/
def arrivals (fabric : Fabric ι) (source node : ι) : List ℕ :=
  ((fabric.peers node).accepted.map fun item ↦ item.1.origin).filter (fabric.sentBy source)

omit [DecidableEq ι] in
theorem lanes_accepted (peer : Peer) : peer.lanes.accepted = peer.accepted.map Prod.fst := by
  cases peer <;> rfl

omit [DecidableEq ι] in
theorem station_eq_outgoing {origin : Origin ι} {source : ι} :
    origin.station = .outgoing source ↔ origin.node = source ∧ origin.source ≠ none := by
  unfold Origin.station
  split
  · rename_i hsource
    simp [hsource]
  · rename_i hsource
    simp [hsource]

theorem sentBy_iff {source : ι} {number : ℕ} :
    fabric.sentBy source number ↔
      (fabric.origins.map Origin.station)[number]? = some (.outgoing source) := by
  rw [sentBy, List.getElem?_map]
  cases fabric.origins[number]? with
  | none => simp
  | some origin => simp [station_eq_outgoing]

/-- The arrivals that have been forwarded equally often are a flow on the belt of the network. -/
theorem arrivals_eq_flow {source node : ι} {forwards : ℕ}
    (hsame : ∀ item ∈ (fabric.peers node).accepted, fabric.sentBy source item.1.origin →
      item.1.forwards = forwards) :
    fabric.arrivals source node =
      flow fabric.belt.births (.outgoing source) (3 * forwards + 2) (fabric.belt.exits node) := by
  have hexits : fabric.belt.exits node =
      (fabric.peers node).accepted.map fun item ↦ inboundItem item.1 := by
    simp only [belt, beltOf, lanes_accepted, List.map_map]
    rfl
  rw [arrivals, flow, hexits, List.filter_map, List.filter_map, List.map_map]
  refine congrArg _ (List.filter_congr fun item hitem ↦ ?_)
  rw [Bool.eq_iff_iff, Function.comp_apply, Function.comp_apply, decide_eq_true_iff, sentBy_iff]
  constructor
  · intro hsent
    have hforwards := hsame item hitem (sentBy_iff.mpr hsent)
    exact ⟨hsent, by simp only [inboundItem, hforwards]⟩
  · exact fun hfrom ↦ hfrom.1

variable [Fintype ι]

/-- A frame on a receive queue has come all its way. -/
theorem passing_of_accepted {condition : Fabric ι → Action ι → Prop}
    (hreaches : Run.Reaches (step crc32 wiring) condition (start boot) fabric) {source node : ι}
    {item : Tag × Frame} (hitem : item ∈ (fabric.peers node).accepted)
    (hsent : fabric.sentBy source item.1.origin) :
    ∃ origin : Origin ι, origin.node = source ∧
      Passing crc32 ((start boot).topology wiring) origin
        (item.1.forwards, .delivered node item.2) := by
  have hsound : Sound Origin.place (Origin.Genuine crc32 ((start boot).topology wiring).ids)
      (Step crc32 ((start boot).topology wiring) True) fabric.position :=
    sound_of_reaches hreaches fun _ _ _ ↦ .inl trivial
  have htoken : token item.1 (.delivered node item.2) ∈ (fabric.peers node).tokens node := by
    have hdelivered : token item.1 (.delivered node item.2) ∈
        deliveredTokens node (fabric.peers node).accepted := mem_places.mpr ⟨item, hitem, rfl⟩
    cases hpeer : fabric.peers node with
    | udfNode daemon =>
        rw [hpeer] at hdelivered
        exact Multiset.mem_add.mpr (.inr hdelivered)
    | gadgetDaemon daemon =>
        rw [hpeer] at hdelivered
        exact Multiset.mem_add.mpr (.inr hdelivered)
  obtain ⟨origin, horigin, hjourney⟩ := hsound.path _ (mem_tokens_of_peer htoken)
  have hplace : origin.node = source ∧ origin.source ≠ none := by
    rw [← station_eq_outgoing]
    have hstation := sentBy_iff.mp hsent
    rw [List.getElem?_map] at hstation
    obtain ⟨other, hother, hsame⟩ := Option.map_eq_some_iff.mp hstation
    have hequal : some other = some origin := hother.symm.trans horigin
    cases hequal
    exact hsame
  refine ⟨origin, hplace.1, ?_⟩
  exact Journey.invariant hjourney _ (.start hplace.2) fun _ _ hpassing hstep ↦ hpassing.step hstep

end Fabric

variable [DecidableEq ι] [Fintype ι]

/-- **First sent, first received.** In every state that a network of any shape reaches while its
links are read in order, the frames from one daemon on the receive queue of another one stand in the
order in which they were sent, each at most once. -/
theorem arrivals_ordered (wiring : ι → Option (ι × RxLoop)) (boot : ι → Boot) {fabric : Fabric ι}
    (hreaches : Run.Reaches (Fabric.step crc32 wiring) (fun _ action ↦ Fabric.InOrder action)
      (Fabric.start boot) fabric) (source node : ι) :
    (fabric.arrivals source node).Pairwise (· < ·) := by
  have horderly := Fabric.orderly_of_reaches hreaches
  by_cases hnone : ∀ item ∈ (fabric.peers node).accepted, ¬fabric.sentBy source item.1.origin
  · have hempty : fabric.arrivals source node = [] := by
      simp only [Fabric.arrivals, List.filter_eq_nil_iff, List.mem_map]
      rintro number ⟨item, hitem, rfl⟩
      exact hnone item hitem
    rw [hempty]
    exact List.Pairwise.nil
  · push Not at hnone
    obtain ⟨first, hfirst, hsent⟩ := hnone
    have hsame : ∀ item ∈ (fabric.peers node).accepted, fabric.sentBy source item.1.origin →
        item.1.forwards = first.1.forwards := by
      intro item hitem hother
      obtain ⟨origin, hnode, hpassing⟩ := Fabric.passing_of_accepted hreaches hfirst hsent
      obtain ⟨another, hanother, hlater⟩ := Fabric.passing_of_accepted hreaches hitem hother
      have hnodes : origin.node = another.node := hnode.trans hanother.symm
      exact le_antisymm (hpassing.forwards_le hlater hnodes)
        (hlater.forwards_le hpassing hnodes.symm)
    rw [Fabric.arrivals_eq_flow hsame]
    exact horderly.exits_ordered _ _ _

def row : Fin 3 → Option (Fin 3 × RxLoop)
  | 0 => some (1, .gadgetRx)
  | 1 => some (2, .gadgetRx)
  | 2 => none

def rowBoot (node : Fin 3) : Boot := .udfNode (node + 1) true true

/-- One frame goes from the first node over the second one to the third. -/
def passRow : List (Fabric.Action (Fin 3)) :=
  [.peer 0 (.udfNode .txGet), .peer 0 (.udfNode (.txWrite 36)), .read 0 0] ++
    List.replicate 4 (.peer 1 (.udfNode (.rxStep .gadgetRx))) ++
    [.peer 1 (.udfNode .txGet), .peer 1 (.udfNode (.txWrite 36)), .read 1 0] ++
    List.replicate 2 (.peer 2 (.udfNode (.rxStep .gadgetRx)))

def rowRun : List (Fabric.Action (Fin 3)) :=
  [.peer 0 (.udfNode (.send 3 [0x48])), .peer 0 (.udfNode (.sendStep 0)),
    .peer 0 (.udfNode (.send 3 [0x69])), .peer 0 (.udfNode (.sendStep 0))] ++ passRow ++ passRow

theorem arrivals_ordered_row :
    ∃ fabric, Run.Reaches (Fabric.step Crc32.checksum row) (fun _ action ↦ Fabric.InOrder action)
      (Fabric.start rowBoot) fabric ∧ fabric.arrivals 0 2 = [0, 1] ∧
      (fabric.arrivals 0 2).Pairwise (· < ·) := by
  have hrun : (Run.attempt (Fabric.step Crc32.checksum row) (fun _ action ↦ Fabric.InOrder action)
      (Fabric.start rowBoot) rowRun).map (·.arrivals 0 2) = some [0, 1] := by
    decide +kernel
  obtain ⟨fabric, hreaches, harrivals⟩ := Run.exists_of_attempt hrun
  exact ⟨fabric, hreaches, harrivals, arrivals_ordered row rowBoot hreaches 0 2⟩

end UsbDirectFabric.Network
