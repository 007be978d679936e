import UsbDirectFabric.Daemon.Effect

/-!
# The sending threads of the host daemon, `host/udf_host.py`

`_tx_loop` and `_hb_loop` of `UDFHost` share the counter `_tx_seq`. Each takes a number under the
lock, packs and writes the frame after it has released the lock, and counts it after libusb has
returned, so another thread can run between any two of these steps.
-/

namespace UsbDirectFabric.Daemon

open Wire

namespace UDFHost

/-- Where a sending loop stands with the job it is sending; `_bulk_write` ends with counting the
frame and then its bytes. -/
inductive Thread (job : Type)
  | idle
  | taken (work : job)
  | numbered (work : job) (seq : ℕ)
  | packed (seq : ℕ) (packet : Bytes)
  | counting (length : ℕ)
  | sizing (length : ℕ)
  | dead
deriving DecidableEq, Repr

/-- The number that a thread has allocated and not yet written. -/
def Thread.held {job : Type} : Thread job → List ℕ
  | .numbered _ seq => [seq]
  | .packed seq _ => [seq]
  | _ => []

/-- What `libusb_bulk_transfer` reports, and how many bytes it has moved if it does not succeed. -/
inductive Outcome
  | success
  | timeout (moved : ℕ)
  | failure (moved : ℕ)
deriving DecidableEq, Repr

def Outcome.moved : Outcome → ℕ
  | .success => 0
  | .timeout moved => moved
  | .failure moved => moved

inductive Action
  | send (payload : Bytes)
  | txStep
  | txWrite (outcome : Outcome)
  | hbStep
  | hbWrite (outcome : Outcome)
deriving DecidableEq, Repr

end UDFHost

/-- The attributes of `UDFHost` that sending uses, and the positions of the two threads. -/
structure UDFHost where
  nodeId : ℤ
  txQueue : List Bytes
  txSeq : ℕ
  txFrames : ℕ
  txBytes : ℕ
  timeouts : ℕ
  tx : UDFHost.Thread Bytes
  hb : UDFHost.Thread Unit
deriving DecidableEq, Repr

namespace UDFHost

def start (nodeId : ℤ) : UDFHost where
  nodeId := nodeId
  txQueue := []
  txSeq := 0
  txFrames := 0
  txBytes := 0
  timeouts := 0
  tx := .idle
  hb := .idle

variable (crc32 : Bytes → UInt32)

/-- `_bulk_write` up to its two counters: what is left to do there, and the transfer if it is
complete. -/
def bulkWrite {job : Type} (host : UDFHost) (data : Bytes) :
    Outcome → UDFHost × Thread job × List Bytes
  | .success => (host, .counting data.length, [data])
  | .timeout _ => ({ host with timeouts := host.timeouts + 1 }, .idle, [])
  | .failure _ => (host, .idle, [])

def send (host : UDFHost) (payload : Bytes) : UDFHost :=
  { host with txQueue := host.txQueue ++ [payload] }

/-- `_tx_loop` but for the write: pop a payload, take a number, pack, count. -/
def txStep (host : UDFHost) : Option UDFHost :=
  match host.tx with
  | .idle =>
      match host.txQueue with
      | [] => none
      | payload :: rest => some { host with txQueue := rest, tx := .taken payload }
  | .taken payload => some { host with txSeq := host.txSeq + 1, tx := .numbered payload host.txSeq }
  | .numbered payload seq =>
      match packFrame crc32 0 seq host.nodeId broadcast payload with
      | .ok packet => some { host with tx := .packed seq packet }
      | .error _ => some { host with tx := .dead }
  | .counting length => some { host with txFrames := host.txFrames + 1, tx := .sizing length }
  | .sizing length => some { host with txBytes := host.txBytes + length, tx := .idle }
  | _ => none

def txWrite (host : UDFHost) (outcome : Outcome) : Option (UDFHost × List Bytes) :=
  match host.tx with
  | .packed _ packet =>
      let (host, thread, passed) := host.bulkWrite packet outcome
      some ({ host with tx := thread }, passed)
  | _ => none

/-- `_hb_loop` but for the write: take a number, pack a heartbeat, count. -/
def hbStep (host : UDFHost) : Option UDFHost :=
  match host.hb with
  | .idle => some { host with txSeq := host.txSeq + 1, hb := .numbered () host.txSeq }
  | .numbered _ seq =>
      match makeHeartbeat crc32 host.nodeId seq 0 with
      | .ok packet => some { host with hb := .packed seq packet }
      | .error _ => some { host with hb := .dead }
  | .counting length => some { host with txFrames := host.txFrames + 1, hb := .sizing length }
  | .sizing length => some { host with txBytes := host.txBytes + length, hb := .idle }
  | _ => none

def hbWrite (host : UDFHost) (outcome : Outcome) : Option (UDFHost × List Bytes) :=
  match host.hb with
  | .packed _ packet =>
      let (host, thread, passed) := host.bulkWrite packet outcome
      some ({ host with hb := thread }, passed)
  | _ => none

/-- One step of some thread, with the transfers that it completes. -/
def step (host : UDFHost) : Action → Option (UDFHost × List Bytes)
  | .send payload => some (host.send payload, [])
  | .txStep => (host.txStep crc32).map fun next ↦ (next, [])
  | .txWrite outcome => host.txWrite outcome
  | .hbStep => (host.hbStep crc32).map fun next ↦ (next, [])
  | .hbWrite outcome => host.hbWrite outcome

/-- What a write that does not succeed has moved of its packet. -/
def broken (host : UDFHost) : Action → Bytes
  | .txWrite outcome =>
      match host.tx with
      | .packed _ packet => packet.take outcome.moved
      | _ => []
  | .hbWrite outcome =>
      match host.hb with
      | .packed _ packet => packet.take outcome.moved
      | _ => []
  | _ => []

def held (host : UDFHost) : List ℕ :=
  host.tx.held ++ host.hb.held

def writing (host : UDFHost) : Action → List ℕ
  | .txWrite _ => host.tx.held
  | .hbWrite _ => host.hb.held
  | _ => []

/-! ## What one step does to the numbers -/

/-- `packet` is a frame of the node with the given number. -/
def IsPacket (nodeId : ℤ) (seq : ℕ) (packet : Bytes) : Prop :=
  ∃ frame : Frame, packet = encode crc32 frame ∧ nodeId = frame.src.toNat ∧
    seq = frame.seq.toNat ∧ frame.payload.length ≤ maxPayload

/-- A thread's job is sendable, and what it has packed is a frame with the number it holds. -/
def Thread.Sound {job : Type} (sendable : job → Prop) (nodeId : ℤ) : Thread job → Prop
  | .taken work => sendable work
  | .numbered work _ => sendable work
  | .packed seq packet => IsPacket crc32 nodeId seq packet
  | _ => True

/-- A payload that both daemons' buffers have room for. -/
abbrev Sendable (payload : Bytes) : Prop := payload.length ≤ maxPayload

/-- The payloads waiting to be sent fit, and packed frames are what they should be. -/
structure Sound (host : UDFHost) : Prop where
  queue : ∀ payload ∈ host.txQueue, Sendable payload
  tx : host.tx.Sound crc32 Sendable host.nodeId
  hb : host.hb.Sound crc32 (fun _ ↦ True) host.nodeId

/-- Sendable payloads and writes that succeed. -/
def Fits : Action → Prop
  | .send payload => Sendable payload
  | .txWrite outcome => outcome = .success
  | .hbWrite outcome => outcome = .success
  | _ => True

instance (action : Action) : Decidable (Fits action) :=
  match action with
  | .send payload => inferInstanceAs (Decidable (payload.length ≤ maxPayload))
  | .txWrite outcome => inferInstanceAs (Decidable (outcome = .success))
  | .hbWrite outcome => inferInstanceAs (Decidable (outcome = .success))
  | .txStep => isTrue trivial
  | .hbStep => isTrue trivial

/-- Sendable payloads, and writes that move a packet or nothing of it. -/
def Clean : Action → Prop
  | .send payload => Sendable payload
  | .txWrite outcome => outcome.moved = 0
  | .hbWrite outcome => outcome.moved = 0
  | _ => True

instance (action : Action) : Decidable (Clean action) :=
  match action with
  | .send payload => inferInstanceAs (Decidable (payload.length ≤ maxPayload))
  | .txWrite outcome => inferInstanceAs (Decidable (outcome.moved = 0))
  | .hbWrite outcome => inferInstanceAs (Decidable (outcome.moved = 0))
  | .txStep => isTrue trivial
  | .hbStep => isTrue trivial

theorem Fits.clean {action : Action} (hfits : Fits action) : Clean action := by
  cases action with
  | send payload => exact hfits
  | txWrite outcome | hbWrite outcome =>
      cases hfits
      rfl
  | txStep | hbStep => trivial

/-- The effect of a step on the counter, the held numbers and the device. -/
inductive Numbers (host next : UDFHost) (action : Action) : List Bytes → Prop
  | keep (counter : next.txSeq = host.txSeq) (held : next.held.Perm host.held) :
      Numbers host next action []
  | allocate (counter : next.txSeq = host.txSeq + 1)
      (held : next.held.Perm (host.txSeq :: host.held)) : Numbers host next action []
  | write {seq : ℕ} {packet : Bytes} (now : seq ∈ host.writing action)
      (counter : next.txSeq = host.txSeq) (held : host.held.Perm (seq :: next.held))
      (genuine : IsPacket crc32 host.nodeId seq packet) : Numbers host next action [packet]
  | die {seq : ℕ} (holds : seq ∈ host.held)
      (unpackable : ¬(seq < 2 ^ 32 ∧ 0 ≤ host.nodeId ∧ host.nodeId < 256)) :
      Numbers host next action []

variable {crc32}

theorem isPacket_of_pack {nodeId dst flags : ℤ} {seq : ℕ} {payload packet : Bytes}
    (hpayload : Sendable payload) (hpack : pack crc32 nodeId dst seq payload flags 0 = .ok packet) :
    IsPacket crc32 nodeId seq packet := by
  obtain ⟨frame, hsrc, -, hseq, rfl, -, -, -, rfl⟩ := pack_eq_ok crc32 hpack
  exact ⟨frame, rfl, hsrc, Int.ofNat.inj hseq, hpayload⟩

theorem unpackable_of_pack {nodeId dst flags : ℤ} {seq : ℕ} {payload : Bytes} {error : PyError}
    (hdst : 0 ≤ dst ∧ dst < 256) (hflags : 0 ≤ flags ∧ flags < 256) (hpayload : Sendable payload)
    (hpack : pack crc32 nodeId dst seq payload flags 0 = .error error) :
    ¬(seq < 2 ^ 32 ∧ 0 ≤ nodeId ∧ nodeId < 256) := by
  rintro ⟨hseq, hnode⟩
  have hnumber : 0 ≤ (seq : ℤ) ∧ (seq : ℤ) < 2 ^ 32 := by
    constructor
    · exact Int.natCast_nonneg seq
    · exact_mod_cast hseq
  have hlength : payload.length < 65536 := lt_of_le_of_lt hpayload (by decide)
  have hhop : (0 : ℤ) ≤ 0 ∧ (0 : ℤ) < 256 := by decide
  obtain ⟨data, hdata⟩ := pack_of_range crc32 hnode hdst hnumber hflags hhop hlength
  rw [hpack] at hdata
  cases hdata

inductive Move (crc32 : Bytes → UInt32) (host : UDFHost) : Action → UDFHost → List Bytes → Prop
  | send (payload : Bytes) : Move crc32 host (.send payload) (host.send payload) []
  | txGet {payload : Bytes} {rest : List Bytes} (stands : host.tx = .idle)
      (waits : host.txQueue = payload :: rest) :
      Move crc32 host .txStep { host with txQueue := rest, tx := .taken payload } []
  | txNumber {payload : Bytes} (stands : host.tx = .taken payload) :
      Move crc32 host .txStep
        { host with txSeq := host.txSeq + 1, tx := .numbered payload host.txSeq } []
  | txPack {payload packet : Bytes} {seq : ℕ} (stands : host.tx = .numbered payload seq)
      (packs : packFrame crc32 0 seq host.nodeId broadcast payload = .ok packet) :
      Move crc32 host .txStep { host with tx := .packed seq packet } []
  | txDie {payload : Bytes} {seq : ℕ} {error : PyError} (stands : host.tx = .numbered payload seq)
      (raises : packFrame crc32 0 seq host.nodeId broadcast payload = .error error) :
      Move crc32 host .txStep { host with tx := .dead } []
  | txWrite {seq : ℕ} {packet : Bytes} (outcome : Outcome) {wrote : UDFHost} {thread : Thread Bytes}
      {passed : List Bytes} (stands : host.tx = .packed seq packet)
      (writes : host.bulkWrite packet outcome = (wrote, thread, passed)) :
      Move crc32 host (.txWrite outcome) { wrote with tx := thread } passed
  | txCount {length : ℕ} (stands : host.tx = .counting length) :
      Move crc32 host .txStep { host with txFrames := host.txFrames + 1, tx := .sizing length } []
  | txSize {length : ℕ} (stands : host.tx = .sizing length) :
      Move crc32 host .txStep { host with txBytes := host.txBytes + length, tx := .idle } []
  | hbNumber (stands : host.hb = .idle) :
      Move crc32 host .hbStep
        { host with txSeq := host.txSeq + 1, hb := .numbered () host.txSeq } []
  | hbPack {packet : Bytes} {seq : ℕ} (stands : host.hb = .numbered () seq)
      (packs : makeHeartbeat crc32 host.nodeId seq 0 = .ok packet) :
      Move crc32 host .hbStep { host with hb := .packed seq packet } []
  | hbDie {seq : ℕ} {error : PyError} (stands : host.hb = .numbered () seq)
      (raises : makeHeartbeat crc32 host.nodeId seq 0 = .error error) :
      Move crc32 host .hbStep { host with hb := .dead } []
  | hbWrite {seq : ℕ} {packet : Bytes} (outcome : Outcome) {wrote : UDFHost} {thread : Thread Unit}
      {passed : List Bytes} (stands : host.hb = .packed seq packet)
      (writes : host.bulkWrite packet outcome = (wrote, thread, passed)) :
      Move crc32 host (.hbWrite outcome) { wrote with hb := thread } passed
  | hbCount {length : ℕ} (stands : host.hb = .counting length) :
      Move crc32 host .hbStep { host with txFrames := host.txFrames + 1, hb := .sizing length } []
  | hbSize {length : ℕ} (stands : host.hb = .sizing length) :
      Move crc32 host .hbStep { host with txBytes := host.txBytes + length, hb := .idle } []

theorem step_moves {host next : UDFHost} {action : Action} {passed : List Bytes}
    (hstep : host.step crc32 action = some (next, passed)) :
    Move crc32 host action next passed := by
  cases action with
  | send payload =>
      cases hstep
      exact .send payload
  | txStep =>
      simp only [step, Option.map_eq_some_iff] at hstep
      obtain ⟨_, hstep, hpair⟩ := hstep
      cases hpair
      unfold txStep at hstep
      cases hthread : host.tx with
      | idle =>
          simp only [hthread] at hstep
          split at hstep <;> cases hstep
          rename_i hwaits
          exact .txGet hthread hwaits
      | taken payload =>
          simp only [hthread] at hstep
          cases hstep
          exact .txNumber hthread
      | numbered payload seq =>
          simp only [hthread] at hstep
          split at hstep <;> cases hstep
          · rename_i hpack
            exact .txPack hthread hpack
          · rename_i hpack
            exact .txDie hthread hpack
      | counting length =>
          simp only [hthread] at hstep
          cases hstep
          exact .txCount hthread
      | sizing length =>
          simp only [hthread] at hstep
          cases hstep
          exact .txSize hthread
      | packed seq packet => simp [hthread] at hstep
      | dead => simp [hthread] at hstep
  | txWrite outcome =>
      simp only [step, txWrite] at hstep
      split at hstep <;> cases hstep
      rename_i hthread
      exact .txWrite outcome hthread rfl
  | hbStep =>
      simp only [step, Option.map_eq_some_iff] at hstep
      obtain ⟨_, hstep, hpair⟩ := hstep
      cases hpair
      unfold hbStep at hstep
      cases hthread : host.hb with
      | idle =>
          simp only [hthread] at hstep
          cases hstep
          exact .hbNumber hthread
      | numbered work seq =>
          simp only [hthread] at hstep
          split at hstep <;> cases hstep
          · rename_i hpack
            exact .hbPack hthread hpack
          · rename_i hpack
            exact .hbDie hthread hpack
      | counting length =>
          simp only [hthread] at hstep
          cases hstep
          exact .hbCount hthread
      | sizing length =>
          simp only [hthread] at hstep
          cases hstep
          exact .hbSize hthread
      | taken work => simp [hthread] at hstep
      | packed seq packet => simp [hthread] at hstep
      | dead => simp [hthread] at hstep
  | hbWrite outcome =>
      simp only [step, hbWrite] at hstep
      split at hstep <;> cases hstep
      rename_i hthread
      exact .hbWrite outcome hthread rfl

/-- A write leaves the host as it is but for the timeouts, and the thread with at most the counting
to do. -/
structure Wrote {job : Type} (host wrote : UDFHost) (thread : Thread job) : Prop where
  nodeId : wrote.nodeId = host.nodeId
  queue : wrote.txQueue = host.txQueue
  tx : wrote.tx = host.tx
  hb : wrote.hb = host.hb
  thread : thread = .idle ∨ ∃ length, thread = .counting length

theorem bulkWrite_wrote {job : Type} {host wrote : UDFHost} {packet : Bytes} {outcome : Outcome}
    {thread : Thread job} {passed : List Bytes}
    (hwrites : host.bulkWrite packet outcome = (wrote, thread, passed)) :
    host.Wrote wrote thread := by
  cases outcome with
  | success =>
      cases hwrites
      exact ⟨rfl, rfl, rfl, rfl, .inr ⟨_, rfl⟩⟩
  | timeout | failure =>
      cases hwrites
      exact ⟨rfl, rfl, rfl, rfl, .inl rfl⟩

/-- Every step of the host keeps its threads sound. -/
theorem sound_step {host next : UDFHost} {action : Action} {passed : List Bytes}
    (hsound : host.Sound crc32) (hclean : Clean action)
    (hstep : host.step crc32 action = some (next, passed)) : next.Sound crc32 := by
  obtain ⟨hqueue, htx, hhb⟩ := hsound
  cases step_moves hstep with
  | send payload =>
      refine ⟨?_, htx, hhb⟩
      intro queued hqueued
      rcases List.mem_append.mp hqueued with hold | hnew
      · exact hqueue queued hold
      · rw [List.mem_singleton.mp hnew]
        exact hclean
  | @txGet payload rest hthread hwaits =>
      rw [hwaits] at hqueue
      refine ⟨?_, hqueue payload List.mem_cons_self, hhb⟩
      exact fun queued hqueued ↦ hqueue queued (List.mem_cons_of_mem _ hqueued)
  | txNumber hthread =>
      rw [hthread] at htx
      exact ⟨hqueue, htx, hhb⟩
  | txPack hthread hpack =>
      rw [hthread] at htx
      exact ⟨hqueue, isPacket_of_pack htx hpack, hhb⟩
  | txDie | txCount | txSize => exact ⟨hqueue, trivial, hhb⟩
  | txWrite outcome _ hwrites =>
      obtain ⟨hid, hsame, -, hother, hthread⟩ := bulkWrite_wrote hwrites
      refine ⟨hsame ▸ hqueue, ?_, ?_⟩
      · rcases hthread with rfl | ⟨length, rfl⟩ <;> trivial
      · simp only [hid, hother]
        exact hhb
  | hbNumber | hbDie | hbCount | hbSize => exact ⟨hqueue, htx, trivial⟩
  | hbPack hthread hpack => exact ⟨hqueue, htx, isPacket_of_pack (Nat.zero_le _) hpack⟩
  | hbWrite outcome _ hwrites =>
      obtain ⟨hid, hsame, hother, -, hthread⟩ := bulkWrite_wrote hwrites
      refine ⟨hsame ▸ hqueue, ?_, ?_⟩
      · simp only [hid, hother]
        exact htx
      · rcases hthread with rfl | ⟨length, rfl⟩ <;> trivial

/-- Every step of the host does one of four things to the numbers. -/
theorem numbers_step {host next : UDFHost} {action : Action} {passed : List Bytes}
    (hsound : host.Sound crc32) (hfits : Fits action)
    (hstep : host.step crc32 action = some (next, passed)) :
    next.nodeId = host.nodeId ∧ Numbers crc32 host next action passed := by
  obtain ⟨-, htx, hhb⟩ := hsound
  cases step_moves hstep with
  | send payload => exact ⟨rfl, .keep rfl (.refl _)⟩
  | txGet hthread | txPack hthread | txCount hthread | txSize hthread | hbPack hthread
  | hbCount hthread | hbSize hthread =>
      refine ⟨rfl, .keep rfl ?_⟩
      simp [held, Thread.held, hthread]
  | txNumber hthread | hbNumber hthread =>
      refine ⟨rfl, .allocate rfl ?_⟩
      simp [held, Thread.held, hthread]
  | @txDie payload seq error hthread hpack =>
      rw [hthread] at htx
      have hheld : seq ∈ host.held := by simp [held, Thread.held, hthread]
      exact ⟨rfl, .die hheld (unpackable_of_pack (by decide) (by decide) htx hpack)⟩
  | txWrite outcome hthread hwrites =>
      rw [hthread] at htx
      cases hfits
      cases hwrites
      refine ⟨rfl, .write ?_ rfl ?_ htx⟩
      · simp [writing, Thread.held, hthread]
      · simp [held, Thread.held, hthread]
  | @hbDie seq error hthread hpack =>
      have hheld : seq ∈ host.held := by simp [held, Thread.held, hthread]
      exact ⟨rfl, .die hheld (unpackable_of_pack (by decide) (by decide) (Nat.zero_le _) hpack)⟩
  | hbWrite outcome hthread hwrites =>
      rw [hthread] at hhb
      cases hfits
      cases hwrites
      refine ⟨rfl, .write ?_ rfl ?_ hhb⟩
      · simp [writing, Thread.held, hthread]
      · simp [held, Thread.held, hthread]

end UDFHost

end UsbDirectFabric.Daemon
