import UsbDirectFabric.Network.Refinement

/-!
# The gadget refines the journeys of its frames

The tokens of a gadget lie in its two queues, in the transmit loop and in the receive loop. Nothing
is asked about its runs, so its steps count as possibly faulty.
-/

namespace UsbDirectFabric.Daemon.GadgetDaemon

open Wire Network Tokens

variable {ι : Type}

def rxTokens (location : ι) : RxThread → Multiset (ℕ × Copy ι)
  | .received tag data => {token tag (.received location data)}
  | .sized tag data => {token tag (.received location data)}
  | .accounted tag frame => {token tag (.unpacked location frame)}
  | .numbered tag frame seq => {token tag (.numbered location frame seq)}
  | _ => 0

def txTokens (location : ι) : TxThread → Multiset (ℕ × Copy ι)
  | .writing tag data _ => {token tag (.outgoing location data)}
  | _ => 0

def tokens (location : ι) (daemon : GadgetDaemon) : Multiset (ℕ × Copy ι) :=
  outgoingTokens location daemon.txQueue + txTokens location daemon.tx +
    rxTokens location daemon.rx + deliveredTokens location daemon.rxQueue

/-- All copies in an idle gadget have been delivered. -/
theorem tokens_of_isIdle (location : ι) {daemon : GadgetDaemon} (hidle : daemon.isIdle) :
    daemon.tokens location = deliveredTokens location daemon.rxQueue := by
  simp only [isIdle, Bool.and_eq_true, List.isEmpty_iff] at hidle
  obtain ⟨⟨hqueue, htx⟩, hrx⟩ := hidle
  have hfree {thread : RxThread} (hthread : thread.isFree) : rxTokens location thread = 0 := by
    cases thread <;> first | rfl | cases hthread
  have hsent {thread : TxThread} (hthread : thread.isFree) : txTokens location thread = 0 := by
    cases thread <;> first | rfl | cases hthread
  simp only [tokens, hqueue, places_nil, hsent htx, hfree hrx, zero_add]

variable {crc32 : Bytes → UInt32} {topology : Topology ι} {faulty : Prop} {location : ι}
  {births : List (Origin ι)} {daemon next : GadgetDaemon} {effect : Effect}

theorem rxStep_refines (hid : topology.ids location = daemon.nodeId)
    (hlimit : topology.limitFate location = .discarded) (hfaulty : faulty)
    (hstep : daemon.rxStep crc32 = some (next, effect)) :
    Refines crc32 topology faulty location births (daemon.tokens location) (next.tokens location)
      effect := by
  have hmove : Move crc32 0 daemon .rxStep next effect := rxStep_moves hstep
  cases hmove with
  | size hrx =>
      apply Refines.keep
      simp only [tokens, hrx, rxTokens]
  | @account tag data frame hrx hunpack =>
      apply Refines.move (.unpack tag.forwards location hunpack)
      simp only [tokens, hrx, rxTokens, account_eq]
      abel
  | @reject tag data message hrx hunpack =>
      apply Refines.finish (.reject tag.forwards location hunpack)
      simp only [tokens, hrx, rxTokens]
      abel
  | @deliver tag frame hrx haddressed =>
      apply Refines.move (.deliver tag.forwards location (hid ▸ haddressed))
      simp only [tokens, hrx, rxTokens, places_append, places_cons, places_nil]
      abel
  | @number tag frame hrx hother hbelow =>
      apply Refines.move
        (.number tag.forwards location daemon.txSeq (hid ▸ hother) hbelow (.inr hfaulty))
      simp only [tokens, hrx, rxTokens]
      abel
  | @drop tag frame hrx hother hexpired =>
      apply Refines.finish
        (hlimit ▸ Step.expire tag.forwards location (hid ▸ hother) (Nat.le_of_not_lt hexpired))
      simp only [tokens, hrx, rxTokens]
      abel
  | @forward tag frame seq data hrx hrepack =>
      apply Refines.move (.forward tag.forwards location hrepack)
      simp only [tokens, hrx, rxTokens, places_append, places_cons, places_nil, token, Tag.forward]
      abel
  | @rxDie tag frame seq error hrx hrepack =>
      apply Refines.finish (.fail tag.forwards location hrepack)
      simp only [tokens, hrx, rxTokens]
      abel

/-- Every step of a gadget refines the journeys of its frames. -/
theorem step_refines {action : Action} (hid : topology.ids location = daemon.nodeId)
    (hlimit : topology.limitFate location = .discarded) (hfaulty : faulty)
    (hstep : daemon.step crc32 births.length action = some (next, effect)) :
    Refines crc32 topology faulty location births (daemon.tokens location) (next.tokens location)
      effect := by
  cases step_moves hstep with
  | size | account | reject | deliver | number | drop | forward | rxDie =>
      exact rxStep_refines hid hlimit hfaulty hstep
  | hbNumber | hbDie | send | sendRaise => exact .keep rfl
  | txGet htx hqueue =>
      apply Refines.keep
      simp only [tokens, htx, hqueue, txTokens, places_cons]
      abel
  | txWhole htx =>
      apply Refines.write
      simp only [tokens, htx, txTokens]
      abel
  | txPiece htx =>
      apply Refines.tear
      simp only [tokens, htx, txTokens]
  | @txFail tag data written htx =>
      apply Refines.finish (.abandon tag.forwards location data .discarded hfaulty)
      simp only [tokens, htx, txTokens]
      abel
  | txFinish htx =>
      apply Refines.keep
      simp only [tokens, htx, txTokens]
  | @txFinishPieces tag data htx =>
      apply Refines.finish (.abandon tag.forwards location data .discarded hfaulty)
      simp only [tokens, htx, txTokens]
      abel
  | hbPut =>
      apply Refines.create
      · intro dst payload hsource
        cases hsource
      · simp only [tokens, places_append, places_cons, places_nil]
        abel
  | @sendPut index sender data hsender hpack =>
      apply Refines.create
      · intro other contents hsource
        cases hsource
        exact ⟨sender.seq, by rw [hid, hpack]⟩
      · simp only [tokens, places_append, places_cons, places_nil]
        abel

end UsbDirectFabric.Daemon.GadgetDaemon
