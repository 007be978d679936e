import UsbDirectFabric.Daemon.Gadget
import UsbDirectFabric.Daemon.Node
import UsbDirectFabric.Foundation.Run
import UsbDirectFabric.Foundation.Tokens
import UsbDirectFabric.Network.Journey
import Mathlib.Algebra.BigOperators.Group.Finset.Basic

/-!
# Networks of daemons

A network is a finite family of daemons, nodes and gadgets in any mix, whose output links each lead
to a receive loop of at most one daemon. Links may lose transfers and deliver them in any order, and
transfers may be put on them from outside; nothing is duplicated by a link.

The network refines the token game whose tokens are the copies of frames and whose moves are the
steps of a frame's journey. So whatever the interleaving, each frame that was ever created is at
exactly one place, and has got there by a journey of its own.
-/

namespace UsbDirectFabric.Network

open Wire Daemon Tokens

/-! ## Daemons of either kind -/

inductive Peer
  | udfNode (node : UDFNode)
  | gadgetDaemon (daemon : GadgetDaemon)
deriving DecidableEq, Repr

namespace Peer

inductive Action
  | udfNode (action : UDFNode.Action)
  | gadgetDaemon (action : GadgetDaemon.Action)
deriving DecidableEq, Repr

def nodeId : Peer → ℤ
  | udfNode node => node.nodeId
  | gadgetDaemon daemon => daemon.nodeId

/-- A node counts a frame at the hop limit as dropped, a gadget does not. -/
def limitFate : Peer → Fate
  | udfNode _ => .dropped
  | gadgetDaemon _ => .discarded

/-- The `dropped` statistic, which only a node keeps. -/
def dropped : Peer → ℕ
  | udfNode node => node.dropped
  | gadgetDaemon _ => 0

variable (crc32 : Bytes → UInt32)

/-- A read of a receive loop. The gadget has only one. -/
def read (loop : RxLoop) (tag : Tag) (data : Bytes) : Peer → Option (Peer × Effect)
  | udfNode node => (node.read loop tag data).map fun (next, effect) ↦ (udfNode next, effect)
  | gadgetDaemon daemon =>
      (daemon.read tag data).map fun (next, effect) ↦ (gadgetDaemon next, effect)

def step (number : ℕ) : Peer → Action → Option (Peer × Effect)
  | udfNode node, .udfNode action =>
      (node.step crc32 number action).map fun (next, effect) ↦ (udfNode next, effect)
  | gadgetDaemon daemon, .gadgetDaemon action =>
      (daemon.step crc32 number action).map fun (next, effect) ↦ (gadgetDaemon next, effect)
  | _, _ => none

/-- A step of a node that meets the node's condition; no step of a gadget counts as faultless. -/
def Faultless : Peer → Action → Prop
  | udfNode node, .udfNode action => node.Faultless action
  | _, _ => False

instance : ∀ (peer : Peer) (action : Action), Decidable (peer.Faultless action)
  | udfNode node, .udfNode action => inferInstanceAs (Decidable (node.Faultless action))
  | udfNode _, .gadgetDaemon _ => isFalse id
  | gadgetDaemon _, _ => isFalse id

inductive Move (number : ℕ) : Peer → Action → Peer → Effect → Prop
  | udfNode {node next : UDFNode} {action : UDFNode.Action} {effect : Effect}
      (steps : node.step crc32 number action = some (next, effect)) :
      Move number (udfNode node) (.udfNode action) (udfNode next) effect
  | gadgetDaemon {daemon next : GadgetDaemon} {action : GadgetDaemon.Action} {effect : Effect}
      (steps : daemon.step crc32 number action = some (next, effect)) :
      Move number (gadgetDaemon daemon) (.gadgetDaemon action) (gadgetDaemon next) effect

inductive Intake (loop : RxLoop) (tag : Tag) (data : Bytes) : Peer → Peer → Effect → Prop
  | udfNode {node next : UDFNode} {effect : Effect}
      (reads : node.read loop tag data = some (next, effect)) :
      Intake loop tag data (udfNode node) (udfNode next) effect
  | gadgetDaemon {daemon next : GadgetDaemon} {effect : Effect}
      (reads : daemon.read tag data = some (next, effect)) :
      Intake loop tag data (gadgetDaemon daemon) (gadgetDaemon next) effect

variable {crc32} {peer next : Peer} {effect : Effect}

theorem step_moves {number : ℕ} {action : Action}
    (hstep : peer.step crc32 number action = some (next, effect)) :
    Move crc32 number peer action next effect := by
  unfold step at hstep
  split at hstep
  · obtain ⟨_, hnode, hpair⟩ := Option.map_eq_some_iff.mp hstep
    cases hpair
    exact .udfNode hnode
  · obtain ⟨_, hdaemon, hpair⟩ := Option.map_eq_some_iff.mp hstep
    cases hpair
    exact .gadgetDaemon hdaemon
  · cases hstep

theorem read_takes {loop : RxLoop} {tag : Tag} {data : Bytes}
    (hread : peer.read loop tag data = some (next, effect)) :
    Intake loop tag data peer next effect := by
  cases peer with
  | udfNode node =>
      obtain ⟨_, hnode, hpair⟩ := Option.map_eq_some_iff.mp hread
      cases hpair
      exact .udfNode hnode
  | gadgetDaemon daemon =>
      obtain ⟨_, hdaemon, hpair⟩ := Option.map_eq_some_iff.mp hread
      cases hpair
      exact .gadgetDaemon hdaemon

/-- The id and the kind of a daemon never change, and `dropped` counts the copies whose end says
so. -/
theorem step_frame {number : ℕ} {action : Action}
    (hstep : peer.step crc32 number action = some (next, effect)) :
    next.nodeId = peer.nodeId ∧ next.limitFate = peer.limitFate ∧
      next.dropped = peer.dropped + effect.drops := by
  cases step_moves hstep with
  | udfNode hnode =>
      have hframe := UDFNode.step_frame hnode
      exact ⟨hframe.1, rfl, hframe.2.1⟩
  | gadgetDaemon hdaemon =>
      have hframe := GadgetDaemon.step_frame hdaemon
      exact ⟨hframe.1, rfl, by simp only [dropped, hframe.2.1]⟩

theorem read_frame {loop : RxLoop} {tag : Tag} {data : Bytes}
    (hread : peer.read loop tag data = some (next, effect)) :
    next.nodeId = peer.nodeId ∧ next.limitFate = peer.limitFate ∧
      next.dropped = peer.dropped + effect.drops := by
  cases read_takes hread with
  | udfNode hnode =>
      have hframe := UDFNode.read_frame hnode
      exact ⟨hframe.1, rfl, hframe.2.1⟩
  | gadgetDaemon hdaemon =>
      have hframe := GadgetDaemon.read_frame hdaemon
      exact ⟨hframe.1, rfl, by simp only [dropped, hframe.2]⟩

def Held : Peer → ℕ → Prop
  | udfNode node, seq => node.Held seq
  | gadgetDaemon _, _ => False

theorem held_step {number : ℕ} {action : Action} (hfaultless : peer.Faultless action)
    (hstep : peer.step crc32 number action = some (next, effect)) {seq : ℕ}
    (hheld : next.Held seq) : peer.Held seq ∨ seq < 2 ^ 32 := by
  cases step_moves hstep with
  | udfNode hnode =>
      obtain ⟨dst, payload, hsender⟩ := hheld
      rcases (UDFNode.step_frame hnode).2.2 dst payload seq hsender with hold | ⟨_, rfl⟩
      · exact .inl ⟨dst, payload, hold⟩
      · exact .inr hfaultless.1
  | gadgetDaemon hdaemon => exact hfaultless.elim

theorem held_read {loop : RxLoop} {tag : Tag} {data : Bytes}
    (hread : peer.read loop tag data = some (next, effect)) {seq : ℕ} (hheld : next.Held seq) :
    peer.Held seq := by
  cases read_takes hread with
  | udfNode hnode =>
      obtain ⟨dst, payload, hsender⟩ := hheld
      rw [(UDFNode.read_frame hnode).2.2] at hsender
      exact ⟨dst, payload, hsender⟩
  | gadgetDaemon hdaemon => exact hheld

end Peer

inductive Boot
  | udfNode (nodeId : ℤ) (gadgetEpOut hostFd : Bool)
  | gadgetDaemon (nodeId : ℤ)
deriving DecidableEq, Repr

def Boot.peer : Boot → Peer
  | .udfNode nodeId gadgetEpOut hostFd => .udfNode (.start nodeId gadgetEpOut hostFd)
  | .gadgetDaemon nodeId => .gadgetDaemon (.start nodeId)

/-! ## The network -/

variable {ι : Type}

/-- A frame, or any other transfer, when it came into being: at a daemon through the given call, or
without one on the daemon's output link. -/
structure Origin (ι : Type) where
  node : ι
  source : Option Source
  data : Bytes
deriving DecidableEq, Repr

def births (node : ι) : Effect → List (Origin ι)
  | .created source data => [⟨node, some source, data⟩]
  | .tore piece _ => [⟨node, none, piece⟩]
  | _ => []

def written (number : ℕ) : Effect → List (Tag × Bytes)
  | .wrote tag data => [(tag, data)]
  | .tore piece _ => [(.fresh number, piece)]
  | _ => []

def ended (node : ι) : Effect → List (ι × Fate × Tag)
  | .ended fate tag => [(node, fate, tag)]
  | .tore _ (some tag) => [(node, .discarded, tag)]
  | _ => []

/-- The daemons, the links that carry their output, and the history: which copies have ended where,
and how every frame came into being. -/
structure Fabric (ι : Type) where
  peers : ι → Peer
  links : ι → List (Tag × Bytes)
  gone : List (ι × Fate × Tag)
  origins : List (Origin ι)

namespace Fabric

inductive Action (ι : Type)
  | peer (node : ι) (action : Peer.Action)
  | read (link : ι) (index : ℕ)
  | lose (link : ι) (index : ℕ)
  | inject (link : ι) (data : Bytes)
deriving DecidableEq, Repr

def start (boot : ι → Boot) : Fabric ι where
  peers := fun node ↦ (boot node).peer
  links := fun _ ↦ []
  gone := []
  origins := []

variable [DecidableEq ι] (crc32 : Bytes → UInt32) (wiring : ι → Option (ι × RxLoop))

def commit (fabric : Fabric ι) (node : ι) (peer : Peer) (effect : Effect) : Fabric ι where
  peers := Function.update fabric.peers node peer
  links := Function.update fabric.links node
    (fabric.links node ++ written fabric.origins.length effect)
  gone := fabric.gone ++ ended node effect
  origins := fabric.origins ++ births node effect

def unlink (fabric : Fabric ι) (link : ι) (index : ℕ) : Fabric ι :=
  { fabric with links := Function.update fabric.links link ((fabric.links link).eraseIdx index) }

/-- A daemon's step, the read of a transfer at the far end of a link, the loss of a transfer, or a
new transfer from outside. -/
def step (fabric : Fabric ι) : Action ι → Option (Fabric ι)
  | .peer node action =>
      ((fabric.peers node).step crc32 fabric.origins.length action).map fun (peer, effect) ↦
        fabric.commit node peer effect
  | .read link index =>
      match wiring link, (fabric.links link)[index]? with
      | some (reader, loop), some (tag, data) =>
          ((fabric.peers reader).read loop tag data).map fun (peer, effect) ↦
            (fabric.unlink link index).commit reader peer effect
      | _, _ => none
  | .lose link index =>
      match (fabric.links link)[index]? with
      | some (tag, _) =>
          let unlinked := fabric.unlink link index
          some { unlinked with gone := fabric.gone ++ [(link, .discarded, tag)] }
      | none => none
  | .inject link data =>
      some { fabric with
        links := Function.update fabric.links link
          (fabric.links link ++ [(.fresh fabric.origins.length, data)])
        origins := fabric.origins ++ [⟨link, none, data⟩] }

/-- A step of a daemon that meets its condition, or a read. -/
def Faultless (fabric : Fabric ι) : Action ι → Prop
  | .peer node action => (fabric.peers node).Faultless action
  | .read _ _ => True
  | .lose _ _ | .inject _ _ => False

instance (fabric : Fabric ι) : ∀ action, Decidable (fabric.Faultless action)
  | .peer node action => inferInstanceAs (Decidable ((fabric.peers node).Faultless action))
  | .read _ _ => isTrue trivial
  | .lose _ _ | .inject _ _ => isFalse id

/-- One step of the network, with what has to stand for it and the network it leads to. -/
inductive Move (fabric : Fabric ι) : Action ι → Fabric ι → Prop
  | peer {node : ι} {action : Peer.Action} {peer : Peer} {effect : Effect}
      (steps : (fabric.peers node).step crc32 fabric.origins.length action = some (peer, effect)) :
      Move fabric (.peer node action) (fabric.commit node peer effect)
  | read {link reader : ι} {index : ℕ} {loop : RxLoop} {tag : Tag} {data : Bytes} {peer : Peer}
      {effect : Effect} (wired : wiring link = some (reader, loop))
      (waits : (fabric.links link)[index]? = some (tag, data))
      (reads : (fabric.peers reader).read loop tag data = some (peer, effect)) :
      Move fabric (.read link index) ((fabric.unlink link index).commit reader peer effect)
  | lose {link : ι} {index : ℕ} {tag : Tag} {data : Bytes}
      (waits : (fabric.links link)[index]? = some (tag, data)) :
      Move fabric (.lose link index)
        { fabric.unlink link index with gone := fabric.gone ++ [(link, .discarded, tag)] }
  | inject {link : ι} {data : Bytes} :
      Move fabric (.inject link data)
        { fabric with
          links := Function.update fabric.links link
            (fabric.links link ++ [(.fresh fabric.origins.length, data)])
          origins := fabric.origins ++ [⟨link, none, data⟩] }

variable {crc32 wiring} {fabric next : Fabric ι}

theorem step_move {action : Action ι} (hstep : fabric.step crc32 wiring action = some next) :
    Move crc32 wiring fabric action next := by
  cases action with
  | peer node action =>
      obtain ⟨_, hpeer, rfl⟩ := Option.map_eq_some_iff.mp hstep
      exact .peer hpeer
  | read link index =>
      simp only [step] at hstep
      split at hstep
      · rename_i hwired hwaits
        obtain ⟨_, hread, rfl⟩ := Option.map_eq_some_iff.mp hstep
        exact .read hwired hwaits hread
      · cases hstep
  | lose link index =>
      simp only [step] at hstep
      split at hstep <;> cases hstep
      rename_i hwaits
      exact .lose hwaits
  | inject link data =>
      cases hstep
      exact .inject

end Fabric

end UsbDirectFabric.Network
