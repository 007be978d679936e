import UsbDirectFabric.Foundation.Crc32
import UsbDirectFabric.Foundation.Run
import UsbDirectFabric.Daemon.Host

/-!
# Whether the sending threads of the host daemon survive

`send` queues any byte string, and neither `_tx_loop` nor `_hb_loop` has an exception handler around
the packing. A thread survives exactly as long as everything it takes in hand can be packed, and
until then every payload is handed to the device in the order in which it was sent.
-/

namespace UsbDirectFabric.Daemon.UDFHost

open Wire

variable (crc32 : Bytes → UInt32)

def payloadOf (raw : Bytes) : Option Bytes :=
  (unpack crc32 raw).toOption.map Frame.payload

/-- Whether `pack` can encode a payload in a frame of the node. -/
def encodable (nodeId : ℤ) (payload : Bytes) : Bool :=
  (packFrame crc32 0 0 nodeId broadcast payload).isOk

/-- What the next step of a sending loop packs can be packed. -/
def CanPack (host : UDFHost) : Action → Prop
  | .txStep => ∀ payload seq, host.tx = .numbered payload seq →
      payload.length < 65536 ∧ seq < 2 ^ 32 ∧ 0 ≤ host.nodeId ∧ host.nodeId < 256
  | .hbStep => ∀ seq, host.hb = .numbered () seq →
      seq < 2 ^ 32 ∧ 0 ≤ host.nodeId ∧ host.nodeId < 256
  | _ => True

def inHand (host : UDFHost) : List Bytes :=
  match host.tx with
  | .taken payload => [payload]
  | .numbered payload _ => [payload]
  | .packed _ packet => (payloadOf crc32 packet).toList
  | _ => []

/-- What `_tx_loop` passes to `_bulk_write`. -/
def handing (host : UDFHost) : Action → List Bytes
  | .txWrite _ =>
      match host.tx with
      | .packed _ packet => [packet]
      | _ => []
  | _ => []

def Action.sending : Action → List Bytes
  | .send payload => [payload]
  | _ => []

/-- A host, the payloads given to `send`, and the packets that `_tx_loop` has given to libusb,
whatever came of them. -/
structure History where
  host : UDFHost
  sent : List Bytes
  handed : List Bytes
deriving DecidableEq, Repr

namespace History

def start (nodeId : ℤ) : History where
  host := UDFHost.start nodeId
  sent := []
  handed := []

/-- A step of some thread; a thread that cannot go on stays where it is. -/
def step (history : History) (action : Action) : History :=
  match history.host.step crc32 action with
  | none => history
  | some (next, _) =>
      { host := next
        sent := history.sent ++ action.sending
        handed := history.handed ++ history.host.handing action }

/-- The payloads that can be encoded, in the order in which they leave: those handed to the device,
the one in hand, and those in the queue. -/
def outgoing (history : History) : List Bytes :=
  history.handed.filterMap (payloadOf crc32) ++
    (history.host.inHand crc32 ++ history.host.txQueue).filter
      (encodable crc32 history.host.nodeId)

/-- Both threads are alive, `_tx_loop` can go on if there is something to send, and no payload that
can be encoded is lost or overtaken. -/
structure Surviving (history : History) : Prop where
  tx : history.host.tx ≠ .dead
  hb : history.host.hb ≠ .dead
  goesOn : history.host.tx ≠ .idle ∨ history.host.txQueue ≠ [] →
    (history.host.txStep crc32).isSome ∨ ∀ outcome, (history.host.txWrite outcome).isSome
  kept : history.sent.filter (encodable crc32 history.host.nodeId) = history.outgoing crc32

/-- A packed frame holds a payload that can be encoded. -/
def Sound (history : History) : Prop :=
  ∀ seq packet, history.host.tx = .packed seq packet →
    ∃ payload, payloadOf crc32 packet = some payload ∧
      encodable crc32 history.host.nodeId payload

end History

variable {crc32}

theorem payloadOf_of_pack {src dst flags hop seq : ℤ} {payload raw : Bytes}
    (hpack : pack crc32 src dst seq payload flags hop = .ok raw) :
    payloadOf crc32 raw = some payload := by
  obtain ⟨frame, -, -, -, rfl, -, -, hlength, rfl⟩ := pack_eq_ok crc32 hpack
  rw [payloadOf, unpack_encode crc32 frame hlength]
  rfl

/-- Packing a payload succeeds if its length, the number and the node's id fit their fields. -/
theorem packFrame_eq_ok_iff {nodeId : ℤ} {seq : ℕ} {payload : Bytes} :
    (∃ packet, packFrame crc32 0 seq nodeId broadcast payload = .ok packet) ↔
      payload.length < 65536 ∧ seq < 2 ^ 32 ∧ 0 ≤ nodeId ∧ nodeId < 256 := by
  unfold packFrame broadcast
  rw [pack_eq_ok_iff]
  omega

theorem makeHeartbeat_eq_ok_iff {nodeId : ℤ} {seq : ℕ} :
    (∃ packet, makeHeartbeat crc32 nodeId seq 0 = .ok packet) ↔
      seq < 2 ^ 32 ∧ 0 ≤ nodeId ∧ nodeId < 256 := by
  unfold makeHeartbeat
  rw [pack_eq_ok_iff]
  simp [flagHb]
  omega

theorem encodable_of_packFrame {nodeId : ℤ} {seq : ℕ} {payload packet : Bytes}
    (hpack : packFrame crc32 0 seq nodeId broadcast payload = .ok packet) :
    encodable crc32 nodeId payload := by
  obtain ⟨hlength, -, hid⟩ := packFrame_eq_ok_iff.mp ⟨packet, hpack⟩
  have hzero : (0 : ℕ) < 2 ^ 32 := by decide
  exact isOk_iff.mpr (packFrame_eq_ok_iff.mpr ⟨hlength, hzero, hid⟩)

/-- A loop that is about to pack is never blocked. -/
theorem canPack_of_none {host : UDFHost} {action : Action}
    (hstep : host.step crc32 action = none) : host.CanPack action := by
  cases action with
  | txStep =>
      intro payload seq hthread
      simp only [step, txStep, hthread, Option.map_eq_none_iff] at hstep
      split at hstep <;> cases hstep
  | hbStep =>
      intro seq hthread
      simp only [step, hbStep, hthread, Option.map_eq_none_iff] at hstep
      split at hstep <;> cases hstep
  | send | txWrite | hbWrite => trivial

/-- A living `_tx_loop` with something to send has an enabled step. -/
theorem exists_txStep {host : UDFHost} (halive : host.tx ≠ .dead)
    (hbusy : host.tx ≠ .idle ∨ host.txQueue ≠ []) :
    (host.txStep crc32).isSome ∨ ∀ outcome, (host.txWrite outcome).isSome := by
  cases htx : host.tx with
  | idle =>
      have hqueue := hbusy.resolve_left (not_not.mpr htx)
      obtain ⟨payload, rest, hrest⟩ := List.exists_cons_of_ne_nil hqueue
      exact .inl (by simp [txStep, htx, hrest])
  | taken payload => exact .inl (by simp [txStep, htx])
  | numbered payload seq =>
      left
      simp only [txStep, htx]
      split <;> rfl
  | packed seq packet => exact .inr fun outcome ↦ by simp [txWrite, htx]
  | counting length => exact .inl (by simp [txStep, htx])
  | sizing length => exact .inl (by simp [txStep, htx])
  | dead => exact absurd htx halive

namespace History

variable {history : History} {action : Action}

theorem step_of_some {next : UDFHost} {passed : List Bytes}
    (hstep : history.host.step crc32 action = some (next, passed)) :
    history.step crc32 action =
      { host := next
        sent := history.sent ++ action.sending
        handed := history.handed ++ history.host.handing action } := by
  simp [step, hstep]

theorem step_of_none (hstep : history.host.step crc32 action = none) :
    history.step crc32 action = history := by
  simp [step, hstep]

/-- A step that kills no thread and loses no payload. -/
theorem surviving_of_outgoing {next : History} (hsurviving : Surviving crc32 history)
    (hid : next.host.nodeId = history.host.nodeId) (htx : next.host.tx ≠ .dead)
    (hhb : next.host.hb ≠ .dead) (hsent : next.sent = history.sent)
    (houtgoing : next.outgoing crc32 = history.outgoing crc32) : Surviving crc32 next where
  tx := htx
  hb := hhb
  goesOn := exists_txStep htx
  kept := by rw [hid, hsent, hsurviving.kept, houtgoing]

/-- A step keeps both threads alive exactly if what it packs can be packed. -/
theorem surviving_step_iff (hsound : Sound crc32 history) (hsurviving : Surviving crc32 history)
    (action : Action) :
    Surviving crc32 (history.step crc32 action) ↔ history.host.CanPack action := by
  cases hstep : history.host.step crc32 action with
  | none =>
      rw [step_of_none hstep]
      exact iff_of_true hsurviving (canPack_of_none hstep)
  | some result =>
      obtain ⟨next, passed⟩ := result
      rw [step_of_some hstep]
      cases step_moves hstep with
      | send payload =>
          refine iff_of_true ⟨hsurviving.tx, hsurviving.hb, exists_txStep hsurviving.tx, ?_⟩ trivial
          have hkept := hsurviving.kept
          simp only [outgoing, inHand, handing, Action.sending, UDFHost.send, List.filter_append,
            List.append_nil] at hkept ⊢
          rw [hkept, List.append_assoc, List.append_assoc]
      | txGet htx hwaits =>
          refine iff_of_true ?_ fun _ _ hnumbered ↦ nomatch htx.symm.trans hnumbered
          refine surviving_of_outgoing hsurviving rfl (by simp) hsurviving.hb (List.append_nil _) ?_
          simp [outgoing, inHand, handing, htx, hwaits]
      | txNumber htx =>
          refine iff_of_true ?_ fun _ _ hnumbered ↦ nomatch htx.symm.trans hnumbered
          refine surviving_of_outgoing hsurviving rfl (by simp) hsurviving.hb (List.append_nil _) ?_
          simp [outgoing, inHand, handing, htx]
      | @txPack payload packet seq htx hpack =>
          refine iff_of_true ?_ ?_
          · refine surviving_of_outgoing hsurviving rfl (by simp) hsurviving.hb
              (List.append_nil _) ?_
            simp [outgoing, inHand, handing, htx, payloadOf_of_pack hpack]
          · intro other number hother
            cases htx.symm.trans hother
            exact packFrame_eq_ok_iff.mp ⟨packet, hpack⟩
      | @txDie payload seq error htx hpack =>
          refine iff_of_false (fun hafter ↦ hafter.tx rfl) ?_
          intro hfits
          obtain ⟨packet, hpacket⟩ := packFrame_eq_ok_iff.mpr (hfits payload seq htx)
          cases hpack.symm.trans hpacket
      | @txWrite seq packet outcome wrote thread passed htx hwrites =>
          obtain ⟨payload, hpayload, hencodable⟩ := hsound seq packet htx
          obtain ⟨hid, hqueue, -, hhb, hthread⟩ := bulkWrite_wrote hwrites
          refine iff_of_true ?_ trivial
          refine surviving_of_outgoing hsurviving hid ?_ ?_ (List.append_nil _) ?_
          · rcases hthread with rfl | ⟨length, rfl⟩ <;> simp
          · rw [hhb]
            exact hsurviving.hb
          · rcases hthread with rfl | ⟨length, rfl⟩ <;>
              simp [outgoing, inHand, handing, htx, hid, hqueue, hpayload, hencodable]
      | txCount htx | txSize htx =>
          refine iff_of_true ?_ fun _ _ hnumbered ↦ nomatch htx.symm.trans hnumbered
          refine surviving_of_outgoing hsurviving rfl (by simp) hsurviving.hb (List.append_nil _) ?_
          simp [outgoing, inHand, handing, htx]
      | hbNumber hhb =>
          refine iff_of_true ?_ fun _ hnumbered ↦ nomatch hhb.symm.trans hnumbered
          refine surviving_of_outgoing hsurviving rfl hsurviving.tx (by simp) (List.append_nil _) ?_
          simp [outgoing, inHand, handing]
      | @hbPack packet seq hhb hpack =>
          refine iff_of_true ?_ ?_
          · refine surviving_of_outgoing hsurviving rfl hsurviving.tx (by simp)
              (List.append_nil _) ?_
            simp [outgoing, inHand, handing]
          · intro number hnumber
            cases hhb.symm.trans hnumber
            exact makeHeartbeat_eq_ok_iff.mp ⟨packet, hpack⟩
      | @hbDie seq error hhb hpack =>
          refine iff_of_false (fun hafter ↦ hafter.hb rfl) ?_
          intro hfits
          obtain ⟨packet, hpacket⟩ := makeHeartbeat_eq_ok_iff.mpr (hfits seq hhb)
          cases hpack.symm.trans hpacket
      | @hbWrite seq packet outcome wrote thread passed hhb hwrites =>
          obtain ⟨hid, hqueue, htx, -, hthread⟩ := bulkWrite_wrote hwrites
          refine iff_of_true ?_ trivial
          refine surviving_of_outgoing hsurviving hid ?_ ?_ (List.append_nil _) ?_
          · rw [htx]
            exact hsurviving.tx
          · rcases hthread with rfl | ⟨length, rfl⟩ <;> simp
          · simp [outgoing, inHand, handing, hid, hqueue, htx]
      | hbCount hhb | hbSize hhb =>
          refine iff_of_true ?_ fun _ hnumbered ↦ nomatch hhb.symm.trans hnumbered
          refine surviving_of_outgoing hsurviving rfl hsurviving.tx (by simp) (List.append_nil _) ?_
          simp [outgoing, inHand, handing]

theorem sound_step (hsound : Sound crc32 history) (action : Action) :
    Sound crc32 (history.step crc32 action) := by
  cases hstep : history.host.step crc32 action with
  | none =>
      rw [step_of_none hstep]
      exact hsound
  | some result =>
      obtain ⟨next, passed⟩ := result
      rw [step_of_some hstep]
      intro seq packet hpacked
      cases step_moves hstep with
      | send | hbNumber | hbPack | hbDie | hbCount | hbSize => exact hsound seq packet hpacked
      | txGet | txNumber | txDie | txCount | txSize => cases hpacked
      | @txPack payload _ _ _ hpack =>
          cases hpacked
          exact ⟨payload, payloadOf_of_pack hpack, encodable_of_packFrame hpack⟩
      | txWrite outcome _ hwrites =>
          rcases (bulkWrite_wrote hwrites).thread with rfl | ⟨length, rfl⟩ <;> cases hpacked
      | hbWrite outcome _ hwrites =>
          obtain ⟨hid, -, htx, -⟩ := bulkWrite_wrote hwrites
          simp only [hid]
          exact hsound seq packet (htx.symm.trans hpacked)

/-- **Survival of the sending threads.** In every run of the threads and of callers of `send`, both
threads stay alive and every payload that can be encoded keeps its place, if and only if each time a
thread packs, the payload, the number and the node's id fit their fields. -/
theorem surviving_run_iff {nodeId : ℤ} {actions : List Action} :
    Run.Always (step crc32) (Surviving crc32) (start nodeId) actions ↔
      Run.Each (step crc32) (fun history action ↦ history.host.CanPack action) (start nodeId)
        actions := by
  have hsound : Sound crc32 (start nodeId) := by
    intro seq packet hpacked
    cases hpacked
  have hsurviving : Surviving crc32 (start nodeId) :=
    ⟨by simp [start, UDFHost.start], by simp [start, UDFHost.start],
      exists_txStep (by simp [start, UDFHost.start]), rfl⟩
  exact Run.always_iff_each (fun _ ↦ True) (fun _ action hsound _ ↦ sound_step hsound action)
    (fun _ action hsound _ hsurviving ↦ surviving_step_iff hsound hsurviving action) hsound
    hsurviving fun _ _ ↦ trivial

/-- Two payloads are sent, the device takes the first one and times out on the second. -/
def timeout : List Action :=
  [.send [0x48], .send [0x69], .txStep, .hbStep, .txStep, .txStep, .txWrite .success, .txStep,
    .txStep, .txStep, .txStep, .hbStep, .txStep, .txWrite (.timeout 0), .hbWrite (.failure 0)]

example : (timeout.foldl (step Crc32.checksum) (start 1)).handed.map (payloadOf Crc32.checksum) =
    [some [0x48], some [0x69]] := by
  decide +kernel

/-- A payload that is too long for its length field kills `_tx_loop`. -/
theorem not_surviving_of_oversized {nodeId : ℤ} {payload : Bytes}
    (hlength : 65536 ≤ payload.length) :
    ¬Run.Always (step crc32) (Surviving crc32) (start nodeId)
      [.send payload, .txStep, .txStep, .txStep] := by
  intro hall
  have hlast := Run.always_iff_forall_prefix.mp hall _ (List.prefix_refl _)
  cases hpack : packFrame crc32 0 0 nodeId broadcast payload with
  | ok packet =>
      have hfits := packFrame_eq_ok_iff.mp ⟨packet, hpack⟩
      exact absurd hfits.1 (Nat.not_lt.mpr hlength)
  | error error =>
      refine hlast.tx ?_
      simp [step, UDFHost.step, txStep, start, UDFHost.start, UDFHost.send, hpack]

theorem not_surviving_oversized :
    ¬Run.Always (step Crc32.checksum) (Surviving Crc32.checksum) (start 1)
      [.send (List.replicate 65536 0), .txStep, .txStep, .txStep] :=
  not_surviving_of_oversized (List.length_replicate).ge

end History

end UsbDirectFabric.Daemon.UDFHost
