import UsbDirectFabric.Daemon.Gadget
import UsbDirectFabric.Daemon.NodeCalls

/-!
# A call of `send` that raises

The senders of `common/node.py` and `gadget/udf_gadget.py` are written separately and both take
their sequence number before `frame.pack` has looked at an argument. When `pack` raises, queue and
statistics are as before, but the number is gone: the next frame leaves a hole that the peer counts
as a gap.
-/

namespace UsbDirectFabric.Daemon

open Wire

/-- What a caller of `send` can observe: the counter, the transmit queue and the statistics. -/
structure SendState where
  counter : ℕ
  txQueue : List (Tag × Bytes)
  statistics : List ℕ
deriving DecidableEq, Repr

/-- The arguments that `send` passes to `frame.pack` fit their fields. -/
def Packable (nodeId dst : ℤ) (seq : ℕ) (payload : Bytes) : Prop :=
  (0 ≤ nodeId ∧ nodeId < 256) ∧ (0 ≤ dst ∧ dst < 256) ∧ seq < 2 ^ 32 ∧ payload.length < 65536

variable (crc32 : Bytes → UInt32)

theorem exists_pack_iff (nodeId dst : ℤ) (seq : ℕ) (payload : Bytes) :
    (∃ raw, pack crc32 nodeId dst seq payload 0 0 = .ok raw) ↔
      Packable nodeId dst seq payload := by
  have hseq : 0 ≤ (seq : ℤ) ∧ (seq : ℤ) < 2 ^ 32 ↔ seq < 2 ^ 32 := by
    constructor
    · rintro ⟨-, hsmall⟩
      exact_mod_cast hsmall
    · intro hsmall
      exact ⟨Int.natCast_nonneg seq, by exact_mod_cast hsmall⟩
  rw [pack_eq_ok_iff, hseq]
  simp [Packable]

section Sender

variable {σ : Type} (view : σ → SendState)
  (send : σ → ℤ → Bytes → σ × Except PyError (List Bytes))

/-- If the call raises it has changed nothing, and the next call that puts a frame on the queue uses
the number that this one would have used. -/
def FailsCleanly (state : σ) (dst : ℤ) (payload : Bytes) : Prop :=
  ∀ after error, send state dst payload = (after, .error error) →
    view after = view state ∧
      ∀ other contents last raw, send after other contents = (last, .ok [raw]) →
        seqOf crc32 raw = some (view state).counter

variable {crc32 view send}

/-- A sender that has moved its counter when it raises must not raise. -/
theorem failsCleanly_iff_of_moved {state numbered : σ} {dst : ℤ} {payload : Bytes}
    {packed : Except PyError Bytes}
    (hraises : ∀ after error, send state dst payload = (after, .error error) ↔
      packed = .error error ∧ after = numbered)
    (hmoved : (view numbered).counter ≠ (view state).counter) :
    FailsCleanly crc32 view send state dst payload ↔ ∃ raw, packed = .ok raw := by
  constructor
  · intro hclean
    cases packed with
    | ok raw => exact ⟨raw, rfl⟩
    | error error =>
        have hraise := (hraises numbered error).mpr ⟨rfl, rfl⟩
        have hsame := (hclean numbered error hraise).1
        exact absurd (congrArg SendState.counter hsame) hmoved
  · rintro ⟨raw, rfl⟩ after error hraise
    have herror := ((hraises after error).mp hraise).1
    cases herror

end Sender

variable {crc32} {tag : Tag} {dst : ℤ} {payload : Bytes} {error : PyError}

namespace UDFNode

def sendState (node : UDFNode) : SendState where
  counter := node.seqHostTx
  txQueue := node.txQueue
  statistics :=
    [node.framesRx, node.framesTx, node.bytesRx, node.bytesTx, node.forwarded, node.dropped]

/-- A call that raises has moved the counter and nothing else. -/
theorem sendCall_eq_error_iff {node after : UDFNode} :
    node.sendCall crc32 tag dst payload = (after, .error error) ↔
      pack crc32 node.nodeId dst node.seqHostTx payload 0 0 = .error error ∧
        after = { node with seqHostTx := node.seqHostTx + 1 } := by
  unfold sendCall
  cases pack crc32 node.nodeId dst node.seqHostTx payload 0 0 with
  | ok raw => simp
  | error other => simp [eq_comm, and_comm]

theorem sendCall_failsCleanly_iff (node : UDFNode) :
    FailsCleanly crc32 sendState (fun node ↦ node.sendCall crc32 tag) node dst payload ↔
      Packable node.nodeId dst node.seqHostTx payload := by
  rw [← exists_pack_iff crc32]
  exact failsCleanly_iff_of_moved (fun _ _ ↦ sendCall_eq_error_iff) (Nat.succ_ne_self _)

end UDFNode

namespace GadgetDaemon

def sendState (daemon : GadgetDaemon) : SendState where
  counter := daemon.txSeq
  txQueue := daemon.txQueue
  statistics :=
    [daemon.framesRx, daemon.framesTx, daemon.bytesRx, daemon.bytesTx, daemon.crcErrors,
      daemon.seqGaps]

/-- `send`: the daemon afterwards, with the packed frame or the exception that the caller sees. -/
def sendCall (crc32 : Bytes → UInt32) (daemon : GadgetDaemon) (tag : Tag) (dst : ℤ)
    (payload : Bytes) : GadgetDaemon × Except PyError (List Bytes) :=
  let (seq, daemon) := daemon.nextSeq
  match pack crc32 daemon.nodeId dst seq payload 0 0 with
  | .error error => (daemon, .error error)
  | .ok data => ({ daemon with txQueue := daemon.txQueue ++ [(tag, data)] }, .ok [data])

/-- A call of `send` is what an application thread does when it is not interrupted. -/
theorem sendCall_steps (crc32 : Bytes → UInt32) (number : ℕ) (daemon : GadgetDaemon) (dst : ℤ)
    (payload : Bytes) :
    ∃ numbered effect, daemon.step crc32 number (.send dst payload) = some (numbered, .silent) ∧
      numbered.step crc32 number (.sendPut 0) =
        some ((daemon.sendCall crc32 (.fresh number) dst payload).1, effect) := by
  let numbered : GadgetDaemon :=
    { daemon with txSeq := (daemon.txSeq + 1) % 2 ^ 32
                  senders := ⟨dst, payload, daemon.txSeq⟩ :: daemon.senders }
  have hnumbered : daemon.step crc32 number (.send dst payload) = some (numbered, .silent) := rfl
  cases hpack : pack crc32 daemon.nodeId dst daemon.txSeq payload 0 0 with
  | ok data =>
      refine ⟨numbered, .created (.send dst payload) data, hnumbered, ?_⟩
      simp [numbered, step, sendPut, sendCall, nextSeq, hpack]
  | error error =>
      refine ⟨numbered, .silent, hnumbered, ?_⟩
      simp [numbered, step, sendPut, sendCall, nextSeq, hpack]

/-- A call that raises has moved the counter and nothing else. -/
theorem sendCall_eq_error_iff {daemon after : GadgetDaemon} :
    daemon.sendCall crc32 tag dst payload = (after, .error error) ↔
      pack crc32 daemon.nodeId dst daemon.txSeq payload 0 0 = .error error ∧
        after = daemon.nextSeq.2 := by
  simp only [sendCall, nextSeq]
  cases pack crc32 daemon.nodeId dst daemon.txSeq payload 0 0 with
  | ok data => simp
  | error other => simp [eq_comm, and_comm]

theorem sendCall_failsCleanly_iff (daemon : GadgetDaemon) :
    FailsCleanly crc32 sendState (fun daemon ↦ daemon.sendCall crc32 tag) daemon dst payload ↔
      Packable daemon.nodeId dst daemon.txSeq payload := by
  have hmoved : (daemon.txSeq + 1) % 2 ^ 32 ≠ daemon.txSeq := by omega
  rw [← exists_pack_iff crc32]
  exact failsCleanly_iff_of_moved (fun _ _ ↦ sendCall_eq_error_iff) hmoved

end GadgetDaemon

/-- **Failed calls of `send`.** In every state of either sender a call either has arguments that all
fit their fields, or it raises and uses up a number. -/
theorem send_failsCleanly_iff (crc32 : Bytes → UInt32) (node : UDFNode) (daemon : GadgetDaemon)
    (tag : Tag) (dst : ℤ) (payload : Bytes) :
    (FailsCleanly crc32 UDFNode.sendState (fun node ↦ node.sendCall crc32 tag) node dst payload ↔
      Packable node.nodeId dst node.seqHostTx payload) ∧
    (FailsCleanly crc32 GadgetDaemon.sendState (fun daemon ↦ daemon.sendCall crc32 tag) daemon dst
        payload ↔
      Packable daemon.nodeId dst daemon.txSeq payload) :=
  ⟨node.sendCall_failsCleanly_iff, daemon.sendCall_failsCleanly_iff⟩

/-- A destination that is no byte: both senders raise, and their next frame has number 1. -/
theorem not_failsCleanly_strayDst :
    let checksum := Crc32.checksum
    let node := UDFNode.start 1 true true
    let daemon := GadgetDaemon.start 1
    ¬FailsCleanly checksum UDFNode.sendState (fun node ↦ node.sendCall checksum (.fresh 0)) node
        300 [0x48] ∧
      ¬FailsCleanly checksum GadgetDaemon.sendState
        (fun daemon ↦ daemon.sendCall checksum (.fresh 0)) daemon 300 [0x48] ∧
      ((node.sendCall checksum (.fresh 0) 300 [0x48]).1.sendCall checksum (.fresh 0) 2 [0x69]).2.map
        (List.map (seqOf checksum)) = .ok [some 1] ∧
      ((daemon.sendCall checksum (.fresh 0) 300 [0x48]).1.sendCall checksum (.fresh 0) 2
        [0x69]).2.map (List.map (seqOf checksum)) = .ok [some 1] := by
  have hstray : ¬Packable 1 300 0 [0x48] := fun hpackable ↦ absurd hpackable.2.1.2 (by decide)
  intro checksum node daemon
  refine ⟨node.sendCall_failsCleanly_iff.not.mpr hstray,
    daemon.sendCall_failsCleanly_iff.not.mpr hstray, ?_, ?_⟩
  · decide +kernel
  · decide +kernel

end UsbDirectFabric.Daemon
