import UsbDirectFabric.Network.GadgetRefinement
import UsbDirectFabric.Network.NodeRefinement

/-!
# The network refines the journeys of its frames

The tokens of a network are those of its daemons, of the transfers on its links and of the log of
ended copies. Each step of the network plays the token game, so every frame is at exactly one place
at every moment.
-/

namespace UsbDirectFabric.Network

open Wire Daemon Tokens

variable {ι : Type} {crc32 : Bytes → UInt32} {faulty : Prop}

/-! ## Daemons of either kind -/

namespace Peer

variable {topology : Topology ι} {location : ι} {births : List (Origin ι)} {peer next : Peer}
  {effect : Effect}

def tokens (location : ι) : Peer → Multiset (ℕ × Copy ι)
  | udfNode node => node.tokens location
  | gadgetDaemon daemon => daemon.tokens location

theorem step_refines {action : Action} (hid : topology.ids location = peer.nodeId)
    (hlimit : topology.limitFate location = peer.limitFate)
    (hfaultless : faulty ∨ peer.Faultless action)
    (hstep : peer.step crc32 births.length action = some (next, effect)) :
    Refines crc32 topology faulty location births (peer.tokens location) (next.tokens location)
      effect := by
  cases step_moves hstep with
  | udfNode hnode => exact UDFNode.step_refines hid hlimit hfaultless hnode
  | gadgetDaemon hdaemon =>
      exact GadgetDaemon.step_refines hid hlimit (hfaultless.resolve_right id) hdaemon

/-- A read takes the token of the transfer from the link into the receive loop. -/
theorem read_refines {loop : RxLoop} {tag : Tag} {data : Bytes} {link : ι}
    (hwired : topology.next link = some location)
    (hread : peer.read loop tag data = some (next, effect)) :
    Refines crc32 topology faulty location births
      (peer.tokens location + {token tag (.onLink link data)}) (next.tokens location) effect := by
  cases read_takes hread with
  | @udfNode node _ _ hnode =>
      obtain ⟨-, hwaiting, ⟨hempty, hsame, hended⟩ | ⟨-, hnext, hsilent⟩⟩ :=
        UDFNode.read_cases hnode
      · rw [hempty, hsame, hended]
        exact .finish (.skip tag.forwards link location hwired) rfl
      · rw [hnext, hsilent]
        apply Refines.move (.read tag.forwards link location data hwired)
        have hexchange := node.tokens_withRx location (.received tag (data.take readSize)) loop
        rw [hwaiting, show UDFNode.rxTokens location .waiting = 0 from rfl, add_zero] at hexchange
        simp only [tokens, hexchange, UDFNode.rxTokens]
        abel
  | gadgetDaemon hdaemon =>
      obtain ⟨hwaiting, ⟨hempty, hsame, hended⟩ | ⟨-, hnext, hsilent⟩⟩ :=
        GadgetDaemon.read_cases hdaemon
      · rw [hempty, hsame, hended]
        exact .finish (.skip tag.forwards link location hwired) rfl
      · rw [hnext, hsilent]
        apply Refines.move (.read tag.forwards link location data hwired)
        simp only [tokens, GadgetDaemon.tokens, hwaiting, GadgetDaemon.rxTokens]
        abel

end Peer

/-! ## The whole network -/

namespace Fabric

variable [Fintype ι]

/-- The tokens of the daemons, of the links and of the log of ended copies. -/
def tokens (fabric : Fabric ι) : Multiset (ℕ × Copy ι) :=
  ∑ node, (fabric.peers node).tokens node + ∑ link, linkTokens link (fabric.links link) +
    goneTokens fabric.gone

def position (fabric : Fabric ι) : Position (Origin ι) (Copy ι) :=
  ⟨fabric.origins, fabric.tokens⟩

omit [Fintype ι] in
def topology (wiring : ι → Option (ι × RxLoop)) (fabric : Fabric ι) : Topology ι where
  ids := fun node ↦ (fabric.peers node).nodeId
  next := fun node ↦ (wiring node).map Prod.fst
  limitFate := fun node ↦ (fabric.peers node).limitFate

/-- Two sums that differ in one term only. -/
theorem sum_exchange {M : Type*} [AddCommMonoid M] {f g : ι → M} (node : ι)
    (hsame : ∀ other, other ≠ node → f other = g other) :
    ∑ other, f other + g node = ∑ other, g other + f node := by
  classical
  have hrest : ∑ other ∈ Finset.univ.erase node, f other =
      ∑ other ∈ Finset.univ.erase node, g other :=
    Finset.sum_congr rfl fun other hother ↦ hsame other (Finset.ne_of_mem_erase hother)
  rw [← Finset.add_sum_erase _ f (Finset.mem_univ node),
    ← Finset.add_sum_erase _ g (Finset.mem_univ node), hrest]
  abel

variable [DecidableEq ι]

theorem sum_links_update (links : ι → List (Tag × Bytes)) (link : ι) (items : List (Tag × Bytes)) :
    ∑ other, linkTokens other (Function.update links link items other) +
        linkTokens link (links link) =
      ∑ other, linkTokens other (links other) + linkTokens link items := by
  have hexchange := sum_exchange (f := fun other ↦
      linkTokens other (Function.update links link items other))
    (g := fun other ↦ linkTokens other (links other)) link
    (fun other hother ↦ by simp only [Function.update_of_ne hother])
  simpa only [Function.update_self] using hexchange

/-- Transfers put on a link add their tokens. -/
theorem sum_links_append (links : ι → List (Tag × Bytes)) (link : ι) (items : List (Tag × Bytes)) :
    ∑ other, linkTokens other (Function.update links link (links link ++ items) other) =
      ∑ other, linkTokens other (links other) + linkTokens link items := by
  apply add_right_cancel (b := linkTokens link (links link))
  rw [sum_links_update]
  simp only [linkTokens, places_append]
  abel

theorem sum_peers_update (peers : ι → Peer) (node : ι) (peer : Peer) :
    ∑ other, (Function.update peers node peer other).tokens other + (peers node).tokens node =
      ∑ other, (peers other).tokens other + peer.tokens node := by
  have hexchange := sum_exchange (f := fun other ↦
      (Function.update peers node peer other).tokens other)
    (g := fun other ↦ (peers other).tokens other) node
    (fun other hother ↦ by simp only [Function.update_of_ne hother])
  simpa only [Function.update_self] using hexchange

/-- A daemon's step changes the daemon's own tokens, its link and the log, and nothing else. -/
theorem exists_rest (fabric : Fabric ι) (node : ι) :
    ∃ rest, fabric.tokens = (fabric.peers node).tokens node + rest ∧
      ∀ peer effect, (fabric.commit node peer effect).tokens =
        peer.tokens node + linkTokens node (written fabric.origins.length effect) +
          goneTokens (ended node effect) + rest := by
  obtain ⟨others, hothers⟩ : ∃ others, ∑ other, (fabric.peers other).tokens other =
      (fabric.peers node).tokens node + others :=
    ⟨_, (Finset.add_sum_erase _ (fun other ↦ (fabric.peers other).tokens other)
      (Finset.mem_univ node)).symm⟩
  refine ⟨others + ∑ link, linkTokens link (fabric.links link) + goneTokens fabric.gone, ?_, ?_⟩
  · rw [tokens, hothers]
    abel
  · intro peer effect
    have hpeers : ∑ other, (Function.update fabric.peers node peer other).tokens other =
        peer.tokens node + others := by
      apply add_right_cancel (b := (fabric.peers node).tokens node)
      rw [sum_peers_update, hothers]
      abel
    simp only [tokens, commit, hpeers, sum_links_append, places_append]
    abel

/-- Taking a transfer off a link takes its token out. -/
theorem tokens_unlink {fabric : Fabric ι} {link : ι} {index : ℕ} {tag : Tag} {data : Bytes}
    (hitem : (fabric.links link)[index]? = some (tag, data)) :
    fabric.tokens = (fabric.unlink link index).tokens + {token tag (.onLink link data)} := by
  have hlinks : ∑ other, linkTokens other (fabric.links other) =
      ∑ other, linkTokens other (Function.update fabric.links link
        ((fabric.links link).eraseIdx index) other) + {token tag (.onLink link data)} := by
    apply add_right_cancel (b := linkTokens link ((fabric.links link).eraseIdx index))
    rw [← sum_links_update fabric.links link, add_assoc]
    exact congrArg _ (places_eraseIdx _ hitem)
  simp only [tokens, unlink, hlinks]
  abel

/-- A daemon's step inside the network. -/
theorem commit_moves (fabric : Fabric ι) {node : ι} {peer : Peer} {effect : Effect}
    {topology : Topology ι}
    {extra : Multiset (ℕ × Copy ι)}
    (hrefines : Refines crc32 topology faulty node fabric.origins
      ((fabric.peers node).tokens node + extra) (peer.tokens node) effect) :
    Moves crc32 topology faulty ⟨fabric.origins, fabric.tokens + extra⟩
      (fabric.commit node peer effect).position := by
  obtain ⟨rest, htokens, hcommit⟩ := fabric.exists_rest node
  have hmoves := hrefines.add_right rest
  rw [position, hcommit, htokens, add_right_comm]
  exact hmoves

variable {wiring : ι → Option (ι × RxLoop)} {fabric next : Fabric ι}

/-- **Refinement.** Every step of the network is a sequence of plays of the token game of journeys,
without the faulty ones if the step is faultless. -/
theorem step_moves {action : Action ι} (hfaultless : faulty ∨ fabric.Faultless action)
    (hstep : fabric.step crc32 wiring action = some next) :
    Moves crc32 (fabric.topology wiring) faulty fabric.position next.position := by
  cases step_move hstep with
  | @peer node _ peer effect hpeer =>
      have hrefines : Refines crc32 (fabric.topology wiring) faulty node fabric.origins
          ((fabric.peers node).tokens node) (peer.tokens node) effect :=
        Peer.step_refines rfl rfl hfaultless hpeer
      rw [← add_zero ((fabric.peers node).tokens node)] at hrefines
      have hmoves := commit_moves fabric hrefines
      rwa [add_zero] at hmoves
  | @read link reader index loop tag data peer effect hwired hitem hread =>
      have hnext : (fabric.topology wiring).next link = some reader := by
        simp only [topology, hwired, Option.map_some]
      rw [position, tokens_unlink hitem]
      have hrefines : Refines crc32 (fabric.topology wiring) faulty reader fabric.origins
          (((fabric.unlink link index).peers reader).tokens reader +
            {token tag (.onLink link data)}) (peer.tokens reader) effect :=
        Peer.read_refines hnext hread
      exact commit_moves (fabric.unlink link index) hrefines
  | @lose link _ tag data hitem =>
      rw [position, tokens_unlink hitem]
      have hfault : faulty := hfaultless.resolve_right id
      apply Plays.of_exchange (.lose tag.forwards link data hfault)
      simp only [tokens, unlink, places_append, places_cons, places_nil]
      abel
  | inject =>
      apply Plays.of_birth
      · intro dst payload hsource
        cases hsource
      · simp only [tokens, sum_links_append, places_cons, places_nil, add_zero, Origin.place, token,
          Tag.fresh]
        abel

end Fabric

end UsbDirectFabric.Network
