import UsbDirectFabric.Foundation.Conveyor
import UsbDirectFabric.Network.Copies

/-!
# The lanes of a network

The copies of frames in a daemon stand in lanes: those that wait for its output link and, for each
receive loop, the one the loop is working on. Links are lanes too. When every link is read in order,
each step of the network is a sequence of plays on a conveyor belt whose lanes are these, so what
holds of every orderly belt holds of every reached network.
-/

namespace UsbDirectFabric

open Wire

/-! ## The lanes of one daemon -/

namespace Daemon

/-- The copies that wait for the output link, the one in each receive loop, and those that have been
put on the receive queue. -/
structure Lanes where
  outgoing : List Tag
  inbound : RxLoop → List Tag
  accepted : List Tag

namespace Lanes

def withInbound (lanes : Lanes) (loop : RxLoop) (tags : List Tag) : Lanes :=
  { lanes with inbound := Function.update lanes.inbound loop tags }

theorem withInbound_self {lanes : Lanes} {loop : RxLoop} {tags : List Tag}
    (htags : lanes.inbound loop = tags) : lanes.withInbound loop tags = lanes := by
  rw [withInbound, ← htags, Function.update_eq_self]

inductive Move (number : ℕ) (lanes : Lanes) : Effect → Lanes → Prop
  | keep : Move number lanes .silent lanes
  | create {source : Source} {data : Bytes} :
      Move number lanes (.created source data)
        { lanes with outgoing := lanes.outgoing ++ [.fresh number] }
  | write {tag : Tag} {data : Bytes} {rest : List Tag} (waits : lanes.outgoing = tag :: rest) :
      Move number lanes (.wrote tag data) { lanes with outgoing := rest }
  | abandon {tag : Tag} {fate : Fate} {rest : List Tag} (waits : lanes.outgoing = tag :: rest) :
      Move number lanes (.ended fate tag) { lanes with outgoing := rest }
  | tear {piece : Bytes} : Move number lanes (.tore piece none) lanes
  | tearOff {piece : Bytes} {tag : Tag} {rest : List Tag} (waits : lanes.outgoing = tag :: rest) :
      Move number lanes (.tore piece (some tag)) { lanes with outgoing := rest }
  | discard {loop : RxLoop} {tag : Tag} {fate : Fate} (holds : lanes.inbound loop = [tag]) :
      Move number lanes (.ended fate tag) (lanes.withInbound loop [])
  | deliver {loop : RxLoop} {tag : Tag} (holds : lanes.inbound loop = [tag]) :
      Move number lanes .silent
        { lanes.withInbound loop [] with accepted := lanes.accepted ++ [tag] }
  | forward {loop : RxLoop} {tag : Tag} (holds : lanes.inbound loop = [tag]) :
      Move number lanes .silent
        { lanes.withInbound loop [] with outgoing := lanes.outgoing ++ [tag.forward] }

inductive Intake (loop : RxLoop) (tag : Tag) (lanes : Lanes) : Effect → Lanes → Prop
  | skip {fate : Fate} : Intake loop tag lanes (.ended fate tag) lanes
  | take (waits : lanes.inbound loop = []) :
      Intake loop tag lanes .silent (lanes.withInbound loop [tag])

end Lanes

namespace UDFNode

def RxThread.tags : RxThread → List Tag
  | .received tag _ | .unpacked tag _ | .numbered tag _ _ => [tag]
  | .waiting | .queued | .dead => []

def TxThread.tags : TxThread → List Tag
  | .holding tag _ => [tag]
  | .waiting => []

def lanes (node : UDFNode) : Lanes where
  outgoing := node.hostTx.tags ++ node.txQueue.map Prod.fst
  inbound := fun loop ↦ (node.rx loop).tags
  accepted := (node.taken ++ node.rxQueue).map Prod.fst

/-- Moving a receive loop changes the loop's own lane only. -/
theorem lanes_withRx (node : UDFNode) (thread : RxThread) (loop : RxLoop) :
    (node.withRx thread loop).lanes = node.lanes.withInbound loop thread.tags := by
  unfold Lanes.withInbound lanes
  congr 1
  · cases loop <;> rfl
  · funext other
    cases loop <;> cases other <;> rfl
  · cases loop <;> rfl

/-- One more frame on the receive queue. -/
theorem lanes_deliver (node : UDFNode) (item : Tag × Frame) :
    { node with rxQueue := node.rxQueue ++ [item] }.lanes =
      { node.lanes with accepted := node.lanes.accepted ++ [item.1] } := by
  simp only [lanes, List.map_append, List.append_assoc]
  rfl

/-- One more frame on the transmit queue. -/
theorem lanes_enqueue (node : UDFNode) (item : Tag × Bytes) :
    { node with txQueue := node.txQueue ++ [item] }.lanes =
      { node.lanes with outgoing := node.lanes.outgoing ++ [item.1] } := by
  simp only [lanes, List.map_append, List.append_assoc]
  rfl

variable {crc32 : Bytes → UInt32} {node next : UDFNode} {effect : Effect} {number : ℕ}

/-- A step of `recv`, of the transmit loop or of the heartbeat. -/
theorem PlainMove.lanes_move {action : Action} (hmove : PlainMove node action next effect) :
    node.lanes.Move number effect next.lanes := by
  cases hmove with
  | @recv item rest hwaits =>
      have hlanes :
          { node with rxQueue := rest, taken := node.taken ++ [item] }.lanes = node.lanes := by
        simp only [lanes, hwaits, List.append_assoc, List.singleton_append]
        rfl
      exact hlanes ▸ .keep
  | @txGet tag raw rest hstands hwaits =>
      have hlanes :
          { node with txQueue := rest, hostTx := .holding tag raw }.lanes = node.lanes := by
        simp only [lanes, hstands, hwaits]
        rfl
      exact hlanes ▸ .keep
  | txWhole hstands => exact .write (by simp only [lanes, hstands]; rfl)
  | txShort hstands => exact .tearOff (by simp only [lanes, hstands]; rfl)
  | txFail hstands => exact .abandon (by simp only [lanes, hstands]; rfl)
  | txSkip hstands => exact .abandon (by simp only [lanes, hstands]; rfl)
  | hbNumber => exact .keep
  | hbDie => exact .keep

/-- The lane of a receive loop at a given position. -/
theorem inbound_of_rx {loop : RxLoop} {thread : RxThread} (hstands : node.rx loop = thread) :
    node.lanes.inbound loop = thread.tags :=
  congrArg RxThread.tags hstands

/-- A receive loop that goes on with the same copy. -/
theorem lanes_move_withRx {loop : RxLoop} {thread other : RxThread}
    (hstands : node.rx loop = thread) (htags : other.tags = thread.tags) :
    node.lanes.Move number .silent (node.withRx other loop).lanes := by
  rw [lanes_withRx, htags, Lanes.withInbound_self (inbound_of_rx hstands)]
  exact .keep

theorem LoopMove.lanes_move {loop : RxLoop} (hmove : LoopMove crc32 node loop next effect) :
    node.lanes.Move number effect next.lanes := by
  cases hmove with
  | reject hstands =>
      rw [lanes_withRx]
      exact .discard (inbound_of_rx hstands)
  | @count tag data frame hstands =>
      change node.lanes.Move number .silent (node.withRx (.unpacked tag frame) loop).lanes
      exact lanes_move_withRx hstands rfl
  | deliver hstands =>
      rw [lanes_deliver, lanes_withRx]
      exact .deliver (inbound_of_rx hstands)
  | drop hstands =>
      change node.lanes.Move number _ (node.withRx .waiting loop).lanes
      rw [lanes_withRx]
      exact .discard (inbound_of_rx hstands)
  | @number tag frame hstands =>
      change node.lanes.Move number .silent
        (node.withRx (.numbered tag frame node.seqHostTx) loop).lanes
      exact lanes_move_withRx hstands rfl
  | put hstands =>
      rw [lanes_enqueue, lanes_withRx]
      exact .forward (inbound_of_rx hstands)
  | fail hstands =>
      rw [lanes_withRx]
      exact .discard (inbound_of_rx hstands)
  | die hstands =>
      rw [lanes_withRx]
      exact .discard (inbound_of_rx hstands)
  | finish hstands =>
      change node.lanes.Move number .silent (node.withRx .waiting loop).lanes
      exact lanes_move_withRx hstands rfl

theorem SenderMove.lanes_move {index : ℕ}
    (hmove : SenderMove crc32 number index node next effect) :
    node.lanes.Move number effect next.lanes := by
  cases hmove with
  | @put dst payload seq raw =>
      change node.lanes.Move number _
        { node with txQueue := node.txQueue ++ [(Tag.fresh number, raw)] }.lanes
      rw [lanes_enqueue]
      exact .create
  | fail => exact .keep
  | count => exact .keep

theorem step_lanes {action : Action} (hstep : node.step crc32 number action = some (next, effect)) :
    node.lanes.Move number effect next.lanes := by
  cases step_moves crc32 hstep with
  | send => exact .keep
  | sender hmove => exact hmove.lanes_move
  | loop hmove => exact hmove.lanes_move
  | plain hmove => exact hmove.lanes_move

theorem read_lanes {loop : RxLoop} {tag : Tag} {data : Bytes}
    (hread : node.read loop tag data = some (next, effect)) :
    node.lanes.Intake loop tag effect next.lanes := by
  obtain ⟨-, hwaiting, ⟨-, rfl, rfl⟩ | ⟨-, rfl, rfl⟩⟩ := read_cases hread
  · exact .skip
  · rw [lanes_withRx]
    exact .take (inbound_of_rx hwaiting)

end UDFNode

namespace GadgetDaemon

def RxThread.tags : RxThread → List Tag
  | .received tag _ | .sized tag _ | .accounted tag _ | .numbered tag _ _ => [tag]
  | .waiting | .dead => []

def TxThread.tags : TxThread → List Tag
  | .writing tag _ _ => [tag]
  | .waiting | .sent _ => []

/-- The gadget has a single receive loop. -/
def lanes (daemon : GadgetDaemon) : Lanes where
  outgoing := daemon.tx.tags ++ daemon.txQueue.map Prod.fst
  inbound := fun loop ↦ match loop with
    | .gadgetRx => daemon.rx.tags
    | .hostRx => []
  accepted := daemon.rxQueue.map Prod.fst

theorem lanes_withRx (daemon : GadgetDaemon) (thread : RxThread) :
    { daemon with rx := thread }.lanes = daemon.lanes.withInbound .gadgetRx thread.tags := by
  unfold Lanes.withInbound lanes
  congr 1
  funext other
  cases other <;> rfl

theorem lanes_deliver (daemon : GadgetDaemon) (item : Tag × Frame) :
    { daemon with rxQueue := daemon.rxQueue ++ [item] }.lanes =
      { daemon.lanes with accepted := daemon.lanes.accepted ++ [item.1] } := by
  simp only [lanes, List.map_append]
  rfl

theorem lanes_enqueue (daemon : GadgetDaemon) (item : Tag × Bytes) :
    { daemon with txQueue := daemon.txQueue ++ [item] }.lanes =
      { daemon.lanes with outgoing := daemon.lanes.outgoing ++ [item.1] } := by
  simp only [lanes, List.map_append, List.append_assoc]
  rfl

variable {crc32 : Bytes → UInt32} {daemon next : GadgetDaemon} {effect : Effect} {number : ℕ}

theorem inbound_of_rx {thread : RxThread} (hstands : daemon.rx = thread) :
    daemon.lanes.inbound .gadgetRx = thread.tags :=
  congrArg RxThread.tags hstands

theorem lanes_move_withRx {thread other : RxThread} (hstands : daemon.rx = thread)
    (htags : other.tags = thread.tags) :
    daemon.lanes.Move number .silent { daemon with rx := other }.lanes := by
  rw [lanes_withRx daemon other, htags, Lanes.withInbound_self (inbound_of_rx hstands)]
  exact .keep

theorem step_lanes {action : Action}
    (hstep : daemon.step crc32 number action = some (next, effect)) :
    daemon.lanes.Move number effect next.lanes := by
  cases step_moves hstep with
  | @size tag data hstands =>
      change daemon.lanes.Move number .silent { daemon with rx := .sized tag data }.lanes
      exact lanes_move_withRx hstands rfl
  | @account tag data frame hstands =>
      rw [account_eq]
      change daemon.lanes.Move number .silent { daemon with rx := .accounted tag frame }.lanes
      exact lanes_move_withRx hstands rfl
  | reject hstands =>
      change daemon.lanes.Move number _ { daemon with rx := .waiting }.lanes
      rw [lanes_withRx daemon .waiting]
      exact .discard (inbound_of_rx hstands)
  | @deliver tag frame hstands =>
      have hlanes := lanes_deliver { daemon with rx := .waiting } (tag, frame)
      rw [lanes_withRx daemon .waiting] at hlanes
      exact hlanes ▸ .deliver (inbound_of_rx hstands)
  | @number tag frame hstands =>
      change daemon.lanes.Move number .silent
        { daemon with rx := .numbered tag frame daemon.txSeq }.lanes
      exact lanes_move_withRx hstands rfl
  | drop hstands =>
      rw [lanes_withRx daemon .waiting]
      exact .discard (inbound_of_rx hstands)
  | @forward tag frame seq data hstands =>
      have hlanes := lanes_enqueue { daemon with rx := .waiting } (tag.forward, data)
      rw [lanes_withRx daemon .waiting] at hlanes
      exact hlanes ▸ .forward (inbound_of_rx hstands)
  | rxDie hstands =>
      rw [lanes_withRx daemon .dead]
      exact .discard (inbound_of_rx hstands)
  | @txGet tag data rest hstands hwaits =>
      have hlanes : { daemon with txQueue := rest, tx := .writing tag data 0 }.lanes =
          daemon.lanes := by
        simp only [lanes, hstands, hwaits]
        rfl
      exact hlanes ▸ .keep
  | txWhole hstands => exact .write (by simp only [lanes, hstands]; rfl)
  | @txPiece tag data written accepted hstands =>
      have hlanes : { daemon with tx := .writing tag data (written + accepted) }.lanes =
          daemon.lanes := by
        simp only [lanes, hstands]
        rfl
      exact hlanes ▸ .tear
  | txFail hstands => exact .abandon (by simp only [lanes, hstands]; rfl)
  | @txFinish length hstands =>
      have hlanes : { daemon with tx := .waiting }.lanes = daemon.lanes := by
        simp only [lanes, hstands]
        rfl
      exact hlanes ▸ Lanes.Move.keep
  | txFinishPieces hstands => exact .abandon (by simp only [lanes, hstands]; rfl)
  | hbNumber => exact .keep
  | hbPut => exact lanes_enqueue daemon _ ▸ .create
  | hbDie => exact .keep
  | send => exact .keep
  | sendPut => exact lanes_enqueue daemon _ ▸ .create
  | sendRaise => exact .keep

theorem read_lanes {tag : Tag} {data : Bytes}
    (hread : daemon.read tag data = some (next, effect)) :
    daemon.lanes.Intake .gadgetRx tag effect next.lanes := by
  obtain ⟨hwaiting, ⟨-, rfl, rfl⟩ | ⟨-, rfl, rfl⟩⟩ := read_cases hread
  · exact .skip
  · rw [lanes_withRx daemon (.received tag (data.take readSize))]
    exact .take (inbound_of_rx hwaiting)

end GadgetDaemon

end Daemon

/-! ## The belt of a network -/

namespace Network

open Daemon Conveyor

variable {ι : Type}

/-- A place where copies are: before a daemon's output link, on the link, in a receive loop, or, for
a transfer that no daemon has packed, outside. -/
inductive Station (ι : Type)
  | outgoing (node : ι)
  | outside (node : ι)
  | onLink (node : ι)
  | inbound (node : ι) (loop : RxLoop)
deriving DecidableEq

namespace Station

def way (wiring : ι → Option (ι × RxLoop)) (entry : ι → RxLoop → RxLoop) :
    Station ι → Option (Station ι)
  | outgoing node | outside node => some (onLink node)
  | onLink node => (wiring node).map fun (reader, loop) ↦ inbound reader (entry reader loop)
  | inbound node _ => some (outgoing node)

/-- The daemon whose receive queue a copy reaches from a station. -/
def door : Station ι → ι
  | outgoing node | outside node | onLink node | inbound node _ => node

end Station

def Origin.station (origin : Origin ι) : Station ι :=
  match origin.source with
  | some _ => .outgoing origin.node
  | none => .outside origin.node

/-- A copy passes three stations from one forward to the next. -/
def waitingItem (tag : Tag) : Item := ⟨tag.origin, 3 * tag.forwards⟩

def linkItem (tag : Tag) : Item := ⟨tag.origin, 3 * tag.forwards + 1⟩

def inboundItem (tag : Tag) : Item := ⟨tag.origin, 3 * tag.forwards + 2⟩

/-- The belt of daemons with the given lanes and of links that hold the given copies. -/
def beltOf (outgoing : ι → List Tag) (inbound : ι → RxLoop → List Tag) (accepted : ι → List Tag)
    (links : ι → List Tag) (births : List (Station ι)) : Belt (Station ι) ι where
  births := births
  lanes := fun station ↦ match station with
    | .outgoing node => (outgoing node).map waitingItem
    | .outside _ => []
    | .onLink node => (links node).map linkItem
    | .inbound node loop => (inbound node loop).map inboundItem
  exits := fun node ↦ (accepted node).map inboundItem

section Belt

variable [DecidableEq ι] (outgoing : ι → List Tag) (inbound : ι → RxLoop → List Tag)
  (accepted : ι → List Tag) (links : ι → List Tag) (births : List (Station ι)) (node : ι)

theorem beltOf_outgoing (tags : List Tag) :
    beltOf (Function.update outgoing node tags) inbound accepted links births =
      (beltOf outgoing inbound accepted links births).withLane (.outgoing node)
        (tags.map waitingItem) := by
  unfold beltOf Belt.withLane
  congr 1
  funext station
  cases station with
  | outgoing other =>
      by_cases hother : other = node
      · simp [hother]
      · simp [hother]
  | outside other | onLink other | inbound other loop => simp

theorem beltOf_inbound (loop : RxLoop) (tags : List Tag) :
    beltOf outgoing (Function.update inbound node (Function.update (inbound node) loop tags))
        accepted links births =
      (beltOf outgoing inbound accepted links births).withLane (.inbound node loop)
        (tags.map inboundItem) := by
  unfold beltOf Belt.withLane
  congr 1
  funext station
  cases station with
  | inbound other another =>
      by_cases hother : other = node
      · subst hother
        by_cases hanother : another = loop
        · simp [hanother]
        · simp [hanother]
      · simp [hother]
  | outgoing other | outside other | onLink other => simp

theorem beltOf_link (tags : List Tag) :
    beltOf outgoing inbound accepted (Function.update links node tags) births =
      (beltOf outgoing inbound accepted links births).withLane (.onLink node)
        (tags.map linkItem) := by
  unfold beltOf Belt.withLane
  congr 1
  funext station
  cases station with
  | onLink other =>
      by_cases hother : other = node
      · simp [hother]
      · simp [hother]
  | outgoing other | outside other | inbound other loop => simp

theorem beltOf_accepted (tag : Tag) :
    beltOf outgoing inbound (Function.update accepted node (accepted node ++ [tag])) links births =
      (beltOf outgoing inbound accepted links births).leave node (inboundItem tag) := by
  unfold beltOf Belt.leave
  congr 1
  funext other
  by_cases hother : other = node
  · simp [hother]
  · simp [hother]

theorem beltOf_enqueue (tag : Tag) :
    beltOf (Function.update outgoing node (outgoing node ++ [tag])) inbound accepted links births =
      (beltOf outgoing inbound accepted links births).put (.outgoing node) (waitingItem tag) := by
  rw [beltOf_outgoing, List.map_append]
  rfl

theorem beltOf_write (tag : Tag) :
    beltOf outgoing inbound accepted (Function.update links node (links node ++ [tag])) births =
      (beltOf outgoing inbound accepted links births).put (.onLink node) (linkItem tag) := by
  rw [beltOf_link, List.map_append]
  rfl

variable {outgoing} {inbound} {accepted} {links} {births} {node}
  {wiring : ι → Option (ι × RxLoop)} {entry : ι → RxLoop → RxLoop}

/-- A transfer that no daemon has packed appears on a link. -/
theorem plays_outside :
    Plays (Station.way wiring entry) Station.door (beltOf outgoing inbound accepted links births)
      (beltOf outgoing inbound accepted
        (Function.update links node (links node ++ [.fresh births.length]))
        (births ++ [.outside node])) := by
  have hwaits : ((beltOf outgoing inbound accepted links births).load (.outside node)).lanes
      (.outside node) = [⟨births.length, 0⟩] := by
    simp [Belt.load, Belt.put, Belt.withLane, beltOf]
  -- Nothing else is ever outside, so the transfer passes on to the link at once.
  have hempty : ((beltOf outgoing inbound accepted links births).load (.outside node)).withLane
      (.outside node) [] =
      beltOf outgoing inbound accepted links (births ++ [.outside node]) := by
    simp only [Belt.load, Belt.put, Belt.withLane, Function.update_idem]
    have hlane := Function.update_eq_self (.outside node)
      (beltOf outgoing inbound accepted links births).lanes
    simp only [beltOf] at hlane ⊢
    rw [hlane]
  rw [beltOf_write, ← hempty]
  exact .tail (.single (.load _)) (.pass hwaits rfl)

/-- The first copy before an output link goes out of existence. -/
theorem plays_abandon {tag : Tag} {rest : List Tag} (hwaits : outgoing node = tag :: rest) :
    Play (Station.way wiring entry) Station.door (beltOf outgoing inbound accepted links births)
      (beltOf (Function.update outgoing node rest) inbound accepted links births) := by
  rw [beltOf_outgoing]
  apply Play.lose
  simp only [beltOf, hwaits, List.map_cons]
  exact List.sublist_cons_self _ _

/-- What a daemon does to its lanes, together with what it writes and creates, is a sequence of
plays. -/
theorem plays_of_move {effect : Effect} {after : Lanes}
    (hmove : Lanes.Move births.length ⟨outgoing node, inbound node, accepted node⟩ effect after) :
    Plays (Station.way wiring entry) Station.door (beltOf outgoing inbound accepted links births)
      (beltOf (Function.update outgoing node after.outgoing)
        (Function.update inbound node after.inbound)
        (Function.update accepted node after.accepted)
        (Function.update links node
          (links node ++ (written births.length effect).map Prod.fst))
        (births ++ (Network.births node effect).map Origin.station)) := by
  cases hmove with
  | keep =>
      simp only [written, Network.births, List.map_nil, List.append_nil, Function.update_eq_self]
      exact .refl
  | create =>
      simp only [written, Network.births, List.map_nil, List.map_cons, List.append_nil,
        Function.update_eq_self]
      rw [beltOf_enqueue]
      exact .single (.load (Station.outgoing node))
  | @write tag data rest hwaits =>
      simp only [written, Network.births, List.map_nil, List.map_cons, List.append_nil,
        Function.update_eq_self]
      rw [beltOf_write, beltOf_outgoing]
      exact .single (.pass (congrArg (List.map waitingItem) hwaits) rfl)
  | @abandon tag fate rest hwaits =>
      simp only [written, Network.births, List.map_nil, List.append_nil, Function.update_eq_self]
      exact .single (plays_abandon hwaits)
  | tear =>
      simp only [written, Network.births, List.map_nil, List.map_cons, Function.update_eq_self]
      exact plays_outside
  | @tearOff piece tag rest hwaits =>
      simp only [written, Network.births, List.map_nil, List.map_cons, Function.update_eq_self]
      exact .head (plays_abandon hwaits) plays_outside
  | @discard loop tag fate hholds =>
      simp only [written, Network.births, List.map_nil, List.append_nil, Function.update_eq_self,
        Lanes.withInbound]
      rw [beltOf_inbound]
      exact .single (.lose (List.nil_sublist _))
  | @deliver loop tag hholds =>
      simp only [written, Network.births, List.map_nil, List.append_nil, Function.update_eq_self,
        Lanes.withInbound]
      rw [beltOf_accepted, beltOf_inbound]
      exact .single (.leave (congrArg (List.map inboundItem) hholds))
  | @forward loop tag hholds =>
      simp only [written, Network.births, List.map_nil, List.append_nil, Function.update_eq_self,
        Lanes.withInbound]
      rw [beltOf_enqueue, beltOf_inbound]
      exact .single (.pass (congrArg (List.map inboundItem) hholds) rfl)

end Belt

/-! ## The network moves its copies like a belt -/

namespace Peer

def lanes : Peer → Lanes
  | udfNode node => node.lanes
  | gadgetDaemon daemon => daemon.lanes

/-- The receive loop that a read takes place in: the gadget has only one. -/
def entry : Peer → RxLoop → RxLoop
  | udfNode _, loop => loop
  | gadgetDaemon _, _ => .gadgetRx

variable {crc32 : Bytes → UInt32} {peer next : Peer} {effect : Effect}

theorem step_lanes {number : ℕ} {action : Action}
    (hstep : peer.step crc32 number action = some (next, effect)) :
    peer.lanes.Move number effect next.lanes ∧ next.entry = peer.entry := by
  cases step_moves hstep with
  | udfNode hnode => exact ⟨UDFNode.step_lanes hnode, rfl⟩
  | gadgetDaemon hdaemon => exact ⟨GadgetDaemon.step_lanes hdaemon, rfl⟩

theorem read_lanes {loop : RxLoop} {tag : Tag} {data : Bytes}
    (hread : peer.read loop tag data = some (next, effect)) :
    peer.lanes.Intake (peer.entry loop) tag effect next.lanes ∧ next.entry = peer.entry := by
  cases read_takes hread with
  | udfNode hnode => exact ⟨UDFNode.read_lanes hnode, rfl⟩
  | gadgetDaemon hdaemon => exact ⟨GadgetDaemon.read_lanes hdaemon, rfl⟩

end Peer

namespace Fabric

def belt (fabric : Fabric ι) : Belt (Station ι) ι :=
  beltOf (fun node ↦ (fabric.peers node).lanes.outgoing)
    (fun node ↦ (fabric.peers node).lanes.inbound) (fun node ↦ (fabric.peers node).lanes.accepted)
    (fun node ↦ (fabric.links node).map Prod.fst) (fabric.origins.map Origin.station)

def entry (fabric : Fabric ι) (node : ι) : RxLoop → RxLoop :=
  (fabric.peers node).entry

/-- A read takes the transfer that has been on the link for longest. -/
def InOrder : Action ι → Prop
  | .read _ index => index = 0
  | .peer _ _ | .lose _ _ | .inject _ _ => True

instance : ∀ action : Action ι, Decidable (InOrder action)
  | .read _ index => inferInstanceAs (Decidable (index = 0))
  | .peer _ _ | .lose _ _ | .inject _ _ => isTrue trivial

variable [DecidableEq ι] {crc32 : Bytes → UInt32} {wiring : ι → Option (ι × RxLoop)}
  {fabric next : Fabric ι}

/-- The copies on a link to which transfers have been added. -/
theorem links_append (links : ι → List (Tag × Bytes)) (node : ι) (items : List (Tag × Bytes)) :
    (fun other ↦ (Function.update links node (links node ++ items) other).map Prod.fst) =
      Function.update (fun other ↦ (links other).map Prod.fst) node
        ((links node).map Prod.fst ++ items.map Prod.fst) := by
  funext other
  rw [← List.map_append]
  exact Function.apply_update (fun _ (items : List (Tag × Bytes)) ↦ items.map Prod.fst) _ _ _ _

theorem belt_commit (fabric : Fabric ι) (node : ι) (peer : Peer) (effect : Effect) :
    (fabric.commit node peer effect).belt =
      beltOf (Function.update (fun node ↦ (fabric.peers node).lanes.outgoing) node
          peer.lanes.outgoing)
        (Function.update (fun node ↦ (fabric.peers node).lanes.inbound) node peer.lanes.inbound)
        (Function.update (fun node ↦ (fabric.peers node).lanes.accepted) node peer.lanes.accepted)
        (Function.update (fun node ↦ (fabric.links node).map Prod.fst) node
          ((fabric.links node).map Prod.fst ++
            (written fabric.origins.length effect).map Prod.fst))
        (fabric.origins.map Origin.station ++ (Network.births node effect).map Origin.station) := by
  unfold belt commit
  congr 1
  · funext other
    exact Function.apply_update (fun _ (peer : Peer) ↦ peer.lanes.outgoing) _ _ _ _
  · funext other
    exact Function.apply_update (fun _ (peer : Peer) ↦ peer.lanes.inbound) _ _ _ _
  · funext other
    exact Function.apply_update (fun _ (peer : Peer) ↦ peer.lanes.accepted) _ _ _ _
  · exact links_append _ _ _
  · exact List.map_append

theorem entry_commit (fabric : Fabric ι) {node : ι} {peer : Peer} (effect : Effect)
    (hentry : peer.entry = (fabric.peers node).entry) :
    (fabric.commit node peer effect).entry = fabric.entry := by
  exact field_update Peer.entry hentry

theorem belt_unlink (fabric : Fabric ι) (link : ι) (index : ℕ) :
    (fabric.unlink link index).belt = fabric.belt.withLane (.onLink link)
      ((((fabric.links link).eraseIdx index).map Prod.fst).map linkItem) := by
  unfold belt unlink
  rw [← beltOf_link]
  congr 1
  funext other
  exact Function.apply_update (fun _ (items : List (Tag × Bytes)) ↦ items.map Prod.fst) _ _ _ _

/-- What a daemon's step does to its lanes is played on the belt of the network. -/
theorem commit_plays (fabric : Fabric ι) {node : ι} {peer : Peer} {effect : Effect}
    {entry : ι → RxLoop → RxLoop}
    (hmove : (fabric.peers node).lanes.Move fabric.origins.length effect peer.lanes) :
    Plays (Station.way wiring entry) Station.door fabric.belt
      (fabric.commit node peer effect).belt := by
  have hlength : (fabric.origins.map Origin.station).length = fabric.origins.length :=
    List.length_map _
  rw [belt_commit, ← hlength]
  refine plays_of_move ?_
  rw [hlength]
  exact hmove

/-- Reading the first transfer of a link is played on the belt of the network. -/
theorem read_plays {link reader : ι} {loop : RxLoop} {tag : Tag} {data : Bytes} {peer : Peer}
    {effect : Effect} (hwired : wiring link = some (reader, loop))
    (hwaits : (fabric.links link)[0]? = some (tag, data))
    (hmove : (fabric.peers reader).lanes.Intake (fabric.entry reader loop) tag effect peer.lanes) :
    Play (Station.way wiring fabric.entry) Station.door fabric.belt
      ((fabric.unlink link 0).commit reader peer effect).belt := by
  have hlink : fabric.belt.lanes (.onLink link) = linkItem tag ::
      (((fabric.links link).eraseIdx 0).map Prod.fst).map linkItem := by
    cases hitems : fabric.links link with
    | nil => simp [hitems] at hwaits
    | cons first rest =>
        obtain rfl : first = (tag, data) := by simpa [hitems] using hwaits
        simp [belt, beltOf, hitems]
  have hway : Station.way wiring fabric.entry (.onLink link) =
      some (.inbound reader (fabric.entry reader loop)) := by
    simp only [Station.way, hwired, Option.map_some]
  rw [belt_commit]
  generalize peer.lanes = after at hmove ⊢
  cases hmove with
  | skip =>
      simp only [unlink, written, Network.births, List.map_nil, List.append_nil,
        Function.update_eq_self]
      change Play _ _ fabric.belt (fabric.unlink link 0).belt
      rw [belt_unlink]
      exact .lose (hlink ▸ List.sublist_cons_self _ _)
  | take hempty =>
      simp only [unlink, written, Network.births, List.map_nil, List.append_nil,
        Function.update_eq_self, Lanes.withInbound]
      rw [beltOf_inbound]
      change Play _ _ fabric.belt ((fabric.unlink link 0).belt.withLane
        (.inbound reader (fabric.entry reader loop)) ([tag].map inboundItem))
      have hput : (fabric.unlink link 0).belt.withLane (.inbound reader (fabric.entry reader loop))
          ([tag].map inboundItem) =
          (fabric.unlink link 0).belt.put (.inbound reader (fabric.entry reader loop))
            (inboundItem tag) := by
        have hlane :
            (fabric.unlink link 0).belt.lanes (.inbound reader (fabric.entry reader loop)) = [] :=
          congrArg (List.map inboundItem) hempty
        rw [Belt.put, hlane]
        rfl
      rw [hput, belt_unlink]
      exact .pass hlink hway

/-- **Refinement.** A step of a network whose links are read in order is a sequence of plays of its
belt, and no step changes which loop a link leads to. -/
theorem step_plays {action : Action ι} (hinorder : InOrder action)
    (hstep : fabric.step crc32 wiring action = some next) :
    Plays (Station.way wiring fabric.entry) Station.door fabric.belt next.belt ∧
      next.entry = fabric.entry := by
  cases step_move hstep with
  | @peer node _ peer effect hpeer =>
      obtain ⟨hmove, hentry⟩ := Peer.step_lanes hpeer
      exact ⟨commit_plays fabric hmove, entry_commit fabric _ hentry⟩
  | @read link reader index loop tag data peer effect hwired hwaits hread =>
      obtain rfl : index = 0 := hinorder
      obtain ⟨hmove, hentry⟩ := Peer.read_lanes hread
      exact ⟨.single (read_plays hwired hwaits hmove), entry_commit (fabric.unlink link 0) _ hentry⟩
  | @lose link index tag data hwaits =>
      refine ⟨?_, rfl⟩
      change Plays _ _ fabric.belt (fabric.unlink link index).belt
      rw [belt_unlink]
      exact .single (.lose (((List.eraseIdx_sublist _ _).map _).map _))
  | @inject link data =>
      refine ⟨?_, rfl⟩
      have hlength : (fabric.origins.map Origin.station).length = fabric.origins.length :=
        List.length_map _
      unfold belt
      simp only [links_append, List.map_append, List.map_cons, List.map_nil]
      rw [← hlength]
      exact plays_outside

end Fabric

end Network

end UsbDirectFabric
