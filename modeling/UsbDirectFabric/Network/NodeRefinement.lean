import UsbDirectFabric.Network.Refinement

/-!
# The node refines the journeys of its frames

The tokens of a node lie in its transmit queue, in the transmit loop, in its two receive loops and
in what has been put on the receive queue.
-/

namespace UsbDirectFabric.Daemon.UDFNode

open Wire Network Tokens

variable {ι : Type}

def rxTokens (location : ι) : RxThread → Multiset (ℕ × Copy ι)
  | .received tag data => {token tag (.received location data)}
  | .unpacked tag frame => {token tag (.unpacked location frame)}
  | .numbered tag frame seq => {token tag (.numbered location frame seq)}
  | _ => 0

def txTokens (location : ι) : TxThread → Multiset (ℕ × Copy ι)
  | .holding tag raw => {token tag (.outgoing location raw)}
  | .waiting => 0

def tokens (location : ι) (node : UDFNode) : Multiset (ℕ × Copy ι) :=
  outgoingTokens location node.txQueue + txTokens location node.hostTx +
    (rxTokens location node.gadgetRx + rxTokens location node.hostRx) +
    deliveredTokens location (node.taken ++ node.rxQueue)

/-- All copies in an idle node have been delivered. -/
theorem tokens_of_isIdle (location : ι) {node : UDFNode} (hidle : node.isIdle) :
    node.tokens location = deliveredTokens location (node.taken ++ node.rxQueue) := by
  simp only [isIdle, Bool.and_eq_true, List.isEmpty_iff] at hidle
  obtain ⟨⟨⟨hqueue, htx⟩, hgadget⟩, hhost⟩ := hidle
  have hfree {thread : RxThread} (hthread : thread.isFree) : rxTokens location thread = 0 := by
    cases thread <;> first | rfl | cases hthread
  have hsent {thread : TxThread} (hthread : thread.isFree) : txTokens location thread = 0 := by
    cases thread <;> first | rfl | cases hthread
  simp only [tokens, hqueue, places_nil, hsent htx, hfree hgadget, hfree hhost, zero_add]

/-- Moving a receive loop exchanges the tokens of its position. -/
theorem tokens_withRx (location : ι) (node : UDFNode) (thread : RxThread) (loop : RxLoop) :
    (node.withRx thread loop).tokens location + rxTokens location (node.rx loop) =
      node.tokens location + rxTokens location thread := by
  cases loop <;> simp only [tokens, withRx, rx] <;> abel

variable {crc32 : Bytes → UInt32} {topology : Topology ι} {faulty : Prop} {location : ι}
  {births : List (Origin ι)} {node next : UDFNode} {effect : Effect}

theorem txGet_refines (hstep : node.txGet = some (next, effect)) :
    Refines crc32 topology faulty location births (node.tokens location) (next.tokens location)
      effect := by
  cases txGet_moves hstep with
  | txGet hwaiting hqueue =>
      apply Refines.keep
      simp only [tokens, hwaiting, hqueue, txTokens, places_cons]
      abel

/-- A transmit loop that lets go of its frame. -/
theorem tokens_eq_of_holding {tag : Tag} {raw : Bytes} (hholding : node.hostTx = .holding tag raw) :
    node.tokens location = { node with hostTx := .waiting }.tokens location +
      {token tag (.outgoing location raw)} := by
  simp only [tokens, hholding, txTokens]
  abel

theorem txWrite_refines {accepted : ℕ} (hfaultless : faulty ∨ node.Faultless (.txWrite accepted))
    (hstep : node.txWrite accepted = some (next, effect)) :
    Refines crc32 topology faulty location births (node.tokens location) (next.tokens location)
      effect := by
  cases txWrite_moves hstep with
  | txWhole hholding => exact .write (tokens_eq_of_holding hholding)
  | txShort hholding _ hshort =>
      have hfaulty : faulty := hfaultless.resolve_right fun h ↦ Nat.ne_of_lt hshort (by
        simpa only [WritesAll, hholding] using h.2)
      exact .abandon hfaulty (tokens_eq_of_holding hholding)

theorem txFail_refines (hfaultless : faulty ∨ node.Faultless .txFail)
    (hstep : node.txFail = some (next, effect)) :
    Refines crc32 topology faulty location births (node.tokens location) (next.tokens location)
      effect := by
  have hfaulty : faulty := hfaultless.resolve_right fun h ↦ h.2
  cases txFail_moves hstep with
  | @txFail tag raw hholding =>
      exact .finish (.abandon tag.forwards location raw .dropped hfaulty)
        (tokens_eq_of_holding hholding)

theorem txSkip_refines (hfaultless : faulty ∨ node.Faultless .txSkip)
    (hstep : node.txSkip = some (next, effect)) :
    Refines crc32 topology faulty location births (node.tokens location) (next.tokens location)
      effect := by
  have hfaulty : faulty := hfaultless.resolve_right fun h ↦ h.2
  cases txSkip_moves hstep with
  | @txSkip tag raw hholding =>
      exact .finish (.abandon tag.forwards location raw .discarded hfaulty)
        (tokens_eq_of_holding hholding)

theorem recv_refines (hstep : node.recv = some (next, effect)) :
    Refines crc32 topology faulty location births (node.tokens location) (next.tokens location)
      effect := by
  cases recv_moves hstep with
  | recv hqueue =>
      apply Refines.keep
      simp only [tokens, hqueue, places_cons, places_append, places_nil]
      abel

theorem sendStep_refines {index : ℕ} (hid : topology.ids location = node.nodeId)
    (hstep : node.sendStep crc32 births.length index = some (next, effect)) :
    Refines crc32 topology faulty location births (node.tokens location) (next.tokens location)
      effect := by
  cases sendStep_moves crc32 hstep with
  | @put dst payload seq raw _ hpack =>
      apply Refines.create
      · intro other contents hsource
        cases hsource
        exact ⟨seq, by rw [hid, hpack]⟩
      · simp only [tokens, places_append, places_cons, places_nil]
        abel
  | fail => exact .keep rfl
  | count => exact .keep rfl

/-- A step of a receive loop that only moves the loop's own token. -/
theorem refines_withRx {loop : RxLoop} {thread : RxThread} {tag : Tag} {source target : Spot ι}
    (hsource : rxTokens location (node.rx loop) = {token tag source})
    (htarget : rxTokens location thread = {token tag target})
    (hmove : Step crc32 topology faulty (tag.forwards, source) (tag.forwards, target)) :
    Refines crc32 topology faulty location births (node.tokens location)
      ((node.withRx thread loop).tokens location) .silent := by
  apply Refines.move hmove
  have hexchange := tokens_withRx location node thread loop
  rwa [hsource, htarget] at hexchange

/-- The tokens of a node apart from the one its receive loop has let go. -/
theorem tokens_eq_withRx {loop : RxLoop} (thread : RxThread) {tag : Tag} {source : Spot ι}
    (hsource : rxTokens location (node.rx loop) = {token tag source})
    (htarget : rxTokens location thread = 0) :
    node.tokens location = (node.withRx thread loop).tokens location + {token tag source} := by
  have hexchange := tokens_withRx location node thread loop
  rw [hsource, htarget, add_zero] at hexchange
  exact hexchange.symm

theorem rxStep_refines {loop : RxLoop} (hid : topology.ids location = node.nodeId)
    (hlimit : topology.limitFate location = .dropped) (hseq : faulty ∨ node.seqHostTx < 2 ^ 32)
    (hstep : node.rxStep crc32 loop = some (next, effect)) :
    Refines crc32 topology faulty location births (node.tokens location) (next.tokens location)
      effect := by
  have hstands {thread : RxThread} (hrx : node.rx loop = thread) :
      rxTokens location (node.rx loop) = rxTokens location thread := congrArg _ hrx
  cases rxStep_moves crc32 hstep with
  | @reject tag data message hrx hunpack =>
      exact .finish (.reject tag.forwards location hunpack) (tokens_eq_withRx _ (hstands hrx) rfl)
  | @count tag data frame hrx hunpack =>
      exact refines_withRx (hstands hrx) rfl (.unpack tag.forwards location hunpack)
  | @deliver tag frame hrx haddressed =>
      apply Refines.move (.deliver tag.forwards location (hid ▸ haddressed))
      rw [tokens_eq_withRx .waiting (hstands hrx) rfl]
      simp only [tokens, places_append, places_cons, places_nil]
      abel
  | @drop tag frame hrx hother hexpired =>
      have hnot : ¬Addressed (topology.ids location) frame := hid ▸ hother
      exact .finish (hlimit ▸ Step.expire tag.forwards location hnot hexpired)
        (tokens_eq_withRx .waiting (hstands hrx) rfl)
  | @number tag frame hrx hother hhop =>
      have hnot : ¬Addressed (topology.ids location) frame := hid ▸ hother
      exact refines_withRx (hstands hrx) rfl
        (.number tag.forwards location node.seqHostTx hnot hhop hseq.symm)
  | @put tag frame seq raw hrx hrepack =>
      apply Refines.move (.forward tag.forwards location hrepack)
      rw [tokens_eq_withRx .queued (hstands hrx) rfl]
      simp only [tokens, places_append, places_cons, places_nil, token, Tag.forward]
      abel
  | @fail tag frame seq message hrx hrepack =>
      exact .finish (.fail tag.forwards location hrepack) (tokens_eq_withRx _ (hstands hrx) rfl)
  | @die tag frame seq error hrx hrepack =>
      exact .finish (.fail tag.forwards location hrepack) (tokens_eq_withRx _ (hstands hrx) rfl)
  | finish hrx =>
      apply Refines.keep
      have hexchange := tokens_withRx location node .waiting loop
      rw [hrx] at hexchange
      exact add_right_cancel hexchange

/-- Every step of a node refines the journeys of its frames. -/
theorem step_refines {action : Action} (hid : topology.ids location = node.nodeId)
    (hlimit : topology.limitFate location = .dropped)
    (hfaultless : faulty ∨ node.Faultless action)
    (hstep : node.step crc32 births.length action = some (next, effect)) :
    Refines crc32 topology faulty location births (node.tokens location) (next.tokens location)
      effect := by
  cases action with
  | send dst payload =>
      cases hstep
      exact .keep rfl
  | sendStep sender => exact sendStep_refines hid hstep
  | recv => exact recv_refines hstep
  | rxStep loop =>
      have hseq : faulty ∨ node.seqHostTx < 2 ^ 32 := hfaultless.imp_right And.left
      rw [UDFNode.step_rxStep] at hstep
      exact rxStep_refines hid hlimit hseq hstep
  | txGet => exact txGet_refines hstep
  | txWrite accepted => exact txWrite_refines hfaultless hstep
  | txFail => exact txFail_refines hfaultless hstep
  | txSkip => exact txSkip_refines hfaultless hstep
  | hbStep =>
      cases hbStep_moves hstep with
      | hbNumber => exact .keep rfl
      | hbDie => exact .keep rfl

end UsbDirectFabric.Daemon.UDFNode
