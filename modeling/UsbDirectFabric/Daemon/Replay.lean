import UsbDirectFabric.Daemon.SequenceGaps

/-!
# Replayed and reordered frames at the gadget daemon

After any transfers `expected_seq` is the least number above all frames received so far. The block
that delivers or forwards a frame never looks at it, so a frame is accepted whatever its number: at
most once, and in increasing order, exactly if no acceptable frame arrives after one with the same
or a later number.
-/

namespace UsbDirectFabric.Daemon.GadgetDaemon

open Wire

variable (crc32 : Bytes → UInt32)

/-- The daemon after a fresh start and one pass of the receive loop for each transfer. -/
def afterTransfers (nodeId : ℤ) (transfers : List Bytes) : GadgetDaemon :=
  transfers.foldl (iteration crc32) (start nodeId)

def acceptedSeq (daemon : GadgetDaemon) (data : Bytes) : Option ℕ :=
  let next := daemon.iteration crc32 data
  if next.rxQueue = daemon.rxQueue ∧ next.txQueue = daemon.txQueue then none
  else seqOf crc32 (data.take readSize)

def acceptedSeqs : GadgetDaemon → List Bytes → List ℕ
  | _, [] => []
  | daemon, data :: rest =>
      (daemon.acceptedSeq crc32 data).toList ++ acceptedSeqs (daemon.iteration crc32 data) rest

/-- The accepted frames have increasing numbers, and none of them was below `expected_seq`. -/
structure AtMostOnce (nodeId : ℤ) (transfers : List Bytes) : Prop where
  increasing : (acceptedSeqs crc32 (start nodeId) transfers).Pairwise (· < ·)
  expected : ∀ front data, front ++ [data] <+: transfers →
    ∀ seq ∈ seqOf crc32 (data.take readSize),
      seq < (afterTransfers crc32 nodeId front).expectedSeq →
      (afterTransfers crc32 nodeId front).acceptedSeq crc32 data = none

/-- A frame for this node, or one that may be forwarded. -/
def Acceptable (nodeId : ℤ) (frame : Frame) : Prop :=
  Addressed nodeId frame ∨ frame.hop.toNat < hopLimit

variable {crc32} {daemon : GadgetDaemon}

theorem afterTransfers_append (nodeId : ℤ) (front : List Bytes) (data : Bytes) :
    afterTransfers crc32 nodeId (front ++ [data]) =
      (afterTransfers crc32 nodeId front).iteration crc32 data := by
  simp [afterTransfers]

theorem acceptedSeqs_append (daemon : GadgetDaemon) (front rest : List Bytes) :
    acceptedSeqs crc32 daemon (front ++ rest) =
      acceptedSeqs crc32 daemon front ++
        acceptedSeqs crc32 (front.foldl (iteration crc32) daemon) rest := by
  induction front generalizing daemon with
  | nil => rfl
  | cons data front ih =>
      simp only [List.cons_append, acceptedSeqs, ih, List.foldl_cons, List.append_assoc]

theorem mem_seqOf {data : Bytes} {seq : ℕ} :
    seq ∈ seqOf crc32 data ↔ ∃ frame, unpack crc32 data = .ok frame ∧ frame.seq.toNat = seq := by
  cases hunpack : unpack crc32 data <;> simp [seqOf, hunpack, Except.toOption]

/-! ## One pass -/

/-- What a pass from `daemon` to `next` does, as far as order and acceptance go. -/
structure Pass (crc32 : Bytes → UInt32) (daemon next : GadgetDaemon) (data : Bytes) : Prop where
  ready : next.Ready
  nodeId : next.nodeId = daemon.nodeId
  expected (bound : ℕ) : next.expectedSeq ≤ bound ↔
    daemon.expectedSeq ≤ bound ∧ ∀ seq ∈ seqOf crc32 (data.take readSize), seq < bound
  accepted : ¬(next.rxQueue = daemon.rxQueue ∧ next.txQueue = daemon.txQueue) ↔
    ∃ frame, unpack crc32 (data.take readSize) = .ok frame ∧ Acceptable daemon.nodeId frame

/-- The next expected number lies above the old one and the frame's. -/
theorem expectedSeq_account_le_iff (daemon : GadgetDaemon) (frame : Frame) (bound : ℕ) :
    (daemon.account frame).expectedSeq ≤ bound ↔
      daemon.expectedSeq ≤ bound ∧ frame.seq.toNat < bound := by
  rw [account_eq]
  simp only
  split <;> omega

theorem pass_of_rejected (hready : daemon.Ready) {data : Bytes} {next : GadgetDaemon}
    (hreject : ∀ frame, unpack crc32 (data.take readSize) ≠ .ok frame)
    (hrx : next.rx = .waiting) (hseq : next.txSeq = daemon.txSeq)
    (hid : next.nodeId = daemon.nodeId) (hexpected : next.expectedSeq = daemon.expectedSeq)
    (hqueues : next.rxQueue = daemon.rxQueue ∧ next.txQueue = daemon.txQueue) :
    Pass crc32 daemon next data where
  ready := ⟨hrx, hseq ▸ hready.2⟩
  nodeId := hid
  expected bound := by
    have hnone : ∀ seq, seq ∉ seqOf crc32 (data.take readSize) := by
      intro seq hseq
      obtain ⟨frame, hunpack, -⟩ := mem_seqOf.mp hseq
      exact hreject frame hunpack
    simp [hexpected, hnone]
  accepted := by
    refine iff_of_false (not_not.mpr hqueues) ?_
    rintro ⟨frame, hunpack, -⟩
    exact hreject frame hunpack

/-- One pass of a waiting receive loop, by the outcome of `unpack` and the routing decision. -/
theorem pass_iteration (crc32 : Bytes → UInt32) (hready : daemon.Ready) (data : Bytes) :
    Pass crc32 daemon (daemon.iteration crc32 data) data := by
  obtain ⟨hwaiting, hseq⟩ := hready
  by_cases hdata : data = []
  · subst hdata
    rw [iteration_nil crc32 hwaiting]
    exact pass_of_rejected ⟨hwaiting, hseq⟩ (fun frame hunpack ↦ nomatch hunpack) hwaiting rfl rfl
      rfl ⟨rfl, rfl⟩
  rw [iteration_eq_receive crc32 hwaiting hdata]
  by_cases hunpack : ∃ frame, unpack crc32 (data.take readSize) = .ok frame
  · obtain ⟨frame, hunpack⟩ := hunpack
    have hexpected (bound : ℕ) : (daemon.account frame).expectedSeq ≤ bound ↔
        daemon.expectedSeq ≤ bound ∧ ∀ seq ∈ seqOf crc32 (data.take readSize), seq < bound := by
      rw [expectedSeq_account_le_iff, seqOf, hunpack]
      simp [Except.toOption]
    have hacceptable : (∃ other, unpack crc32 (data.take readSize) = .ok other ∧
        Acceptable daemon.nodeId other) ↔ Acceptable daemon.nodeId frame := by
      simp [hunpack]
    have hid : (daemon.account frame).nodeId = daemon.nodeId := by rw [account_eq]
    by_cases haddressed : Addressed daemon.nodeId frame
    · rw [receive_delivered crc32 hunpack haddressed]
      refine ⟨⟨rfl, ?_⟩, hid, hexpected, ?_⟩
      · rwa [account_eq]
      · rw [hacceptable]
        exact iff_of_true (by simp) (.inl haddressed)
    · by_cases hlimit : frame.hop.toNat < hopLimit
      · rw [receive_forwarded crc32 hunpack haddressed hlimit hseq]
        refine ⟨⟨rfl, Nat.mod_lt _ (by decide)⟩, hid, hexpected, ?_⟩
        rw [hacceptable]
        exact iff_of_true (by simp) (.inr hlimit)
      · rw [receive_dropped crc32 hunpack haddressed hlimit]
        refine ⟨⟨rfl, ?_⟩, hid, hexpected, ?_⟩
        · rwa [account_eq]
        · rw [hacceptable, account_eq]
          exact iff_of_false (by simp) (not_or.mpr ⟨haddressed, hlimit⟩)
  · have hreject (frame : Frame) : unpack crc32 (data.take readSize) ≠ .ok frame := fun h ↦
      hunpack ⟨frame, h⟩
    rw [receive_rejected crc32 hreject]
    exact pass_of_rejected ⟨hwaiting, hseq⟩ hreject rfl rfl rfl rfl ⟨rfl, rfl⟩

/-- A pass accepts exactly the acceptable frames, whatever their number. -/
theorem acceptedSeq_eq_some (hready : daemon.Ready) {data : Bytes} {seq : ℕ} :
    daemon.acceptedSeq crc32 data = some seq ↔
      ∃ frame, unpack crc32 (data.take readSize) = .ok frame ∧ frame.seq.toNat = seq ∧
        Acceptable daemon.nodeId frame := by
  have haccepted := (pass_iteration crc32 hready data).accepted
  simp only [acceptedSeq]
  split
  · rename_i hqueues
    refine iff_of_false (by simp) ?_
    rintro ⟨frame, hunpack, -, hacceptable⟩
    exact haccepted.mpr ⟨frame, hunpack, hacceptable⟩ hqueues
  · rename_i hqueues
    obtain ⟨frame, hunpack, hacceptable⟩ := haccepted.mp hqueues
    simp [seqOf, hunpack, hacceptable, Except.toOption]

/-! ## All passes -/

/-- After any transfers the loop waits again and `expected_seq` is the least number above theirs. -/
theorem afterTransfers_spec (crc32 : Bytes → UInt32) (nodeId : ℤ) (transfers : List Bytes) :
    (afterTransfers crc32 nodeId transfers).Ready ∧
      (afterTransfers crc32 nodeId transfers).nodeId = nodeId ∧
      ∀ bound, (afterTransfers crc32 nodeId transfers).expectedSeq ≤ bound ↔
        ∀ data ∈ transfers, ∀ seq ∈ seqOf crc32 (data.take readSize), seq < bound := by
  induction transfers using List.reverseRecOn with
  | nil => exact ⟨⟨rfl, Nat.two_pow_pos 32⟩, rfl, by simp [afterTransfers, start]⟩
  | append_singleton front data ih =>
      obtain ⟨hready, hid, hexpected⟩ := ih
      have hpass := pass_iteration crc32 hready data
      rw [afterTransfers_append]
      refine ⟨hpass.ready, hpass.nodeId.trans hid, ?_⟩
      intro bound
      rw [hpass.expected, hexpected, List.forall_mem_append, List.forall_mem_singleton]

theorem acceptedSeq_afterTransfers {nodeId : ℤ} {front : List Bytes} {data : Bytes} {seq : ℕ} :
    (afterTransfers crc32 nodeId front).acceptedSeq crc32 data = some seq ↔
      ∃ frame, unpack crc32 (data.take readSize) = .ok frame ∧ frame.seq.toNat = seq ∧
        Acceptable nodeId frame := by
  obtain ⟨hready, hid, -⟩ := afterTransfers_spec crc32 nodeId front
  rw [acceptedSeq_eq_some hready, hid]

/-- Accepted numbers are numbers of transfers. -/
theorem exists_transfer_of_mem_acceptedSeqs {daemon : GadgetDaemon} {transfers : List Bytes}
    {seq : ℕ} (hseq : seq ∈ acceptedSeqs crc32 daemon transfers) :
    ∃ data ∈ transfers, seq ∈ seqOf crc32 (data.take readSize) := by
  induction transfers generalizing daemon with
  | nil => cases hseq
  | cons data rest ih =>
      rcases List.mem_append.mp hseq with hnow | hlater
      · refine ⟨data, List.mem_cons_self, ?_⟩
        rw [Option.mem_toList, acceptedSeq] at hnow
        split at hnow
        · cases hnow
        · exact hnow
      · obtain ⟨other, hother, hmem⟩ := ih hlater
        exact ⟨other, List.mem_cons_of_mem _ hother, hmem⟩

/-- If acceptable frames have numbers above all earlier ones, they are accepted in that order. -/
theorem pairwise_acceptedSeqs {nodeId : ℤ} {transfers : List Bytes}
    (hfresh : ∀ front data, front ++ [data] <+: transfers →
      ∀ frame, unpack crc32 (data.take readSize) = .ok frame → Acceptable nodeId frame →
        ∀ earlier ∈ front, ∀ seq ∈ seqOf crc32 (earlier.take readSize), seq < frame.seq.toNat) :
    (acceptedSeqs crc32 (start nodeId) transfers).Pairwise (· < ·) := by
  induction transfers using List.reverseRecOn with
  | nil => exact List.Pairwise.nil
  | append_singleton front data ih =>
      have hfront := ih fun earlier one hcut ↦
        hfresh earlier one (hcut.trans (List.prefix_append _ _))
      rw [acceptedSeqs_append, List.pairwise_append]
      refine ⟨hfront, ?_, ?_⟩
      · simp only [acceptedSeqs, List.append_nil]
        cases acceptedSeq crc32 _ data <;> simp
      · intro seq hseq last hlast
        simp only [acceptedSeqs, List.append_nil, Option.mem_toList] at hlast
        obtain ⟨frame, hunpack, rfl, hacceptable⟩ := acceptedSeq_afterTransfers.mp hlast
        obtain ⟨earlier, hearlier, hmem⟩ := exists_transfer_of_mem_acceptedSeqs hseq
        exact hfresh front data List.prefix_rfl frame hunpack hacceptable earlier hearlier seq hmem

/-- **Acceptance at most once.** The accepted frames have increasing numbers, none below
`expected_seq`, exactly if every acceptable frame that arrives has a number above those of all
frames that arrived before it. -/
theorem atMostOnce_iff (crc32 : Bytes → UInt32) (nodeId : ℤ) (transfers : List Bytes) :
    AtMostOnce crc32 nodeId transfers ↔
      ∀ front data, front ++ [data] <+: transfers →
        ∀ frame, unpack crc32 (data.take readSize) = .ok frame → Acceptable nodeId frame →
          ∀ earlier ∈ front, ∀ seq ∈ seqOf crc32 (earlier.take readSize),
            seq < frame.seq.toNat := by
  constructor
  · intro honce front data hcut frame hunpack hacceptable
    have hexpected := (afterTransfers_spec crc32 nodeId front).2.2
    have haccepted : (afterTransfers crc32 nodeId front).acceptedSeq crc32 data =
        some frame.seq.toNat :=
      acceptedSeq_afterTransfers.mpr ⟨frame, hunpack, rfl, hacceptable⟩
    apply (hexpected _).mp
    by_contra hbelow
    have hnone := honce.expected front data hcut _ (mem_seqOf.mpr ⟨frame, hunpack, rfl⟩)
      (Nat.not_le.mp hbelow)
    rw [haccepted] at hnone
    cases hnone
  · intro hfresh
    refine ⟨pairwise_acceptedSeqs hfresh, ?_⟩
    intro front data hcut seq hseq hbelow
    have hexpected := (afterTransfers_spec crc32 nodeId front).2.2
    cases haccepted : (afterTransfers crc32 nodeId front).acceptedSeq crc32 data with
    | none => rfl
    | some number =>
        exfalso
        obtain ⟨frame, hunpack, -, hacceptable⟩ := acceptedSeq_afterTransfers.mp haccepted
        obtain ⟨other, hother, rfl⟩ := mem_seqOf.mp hseq
        rw [hunpack] at hother
        cases hother
        have habove := hfresh front data hcut frame hunpack hacceptable
        exact absurd ((hexpected _).mpr habove) (Nat.not_le.mpr hbelow)

/-- A heartbeat that is received twice is delivered twice. -/
theorem not_atMostOnce_replay :
    ¬AtMostOnce Crc32.checksum 2
      [encode Crc32.checksum (heartbeatFrame 0), encode Crc32.checksum (heartbeatFrame 0)] := by
  intro honce
  have htwice : acceptedSeqs Crc32.checksum (start 2)
      [encode Crc32.checksum (heartbeatFrame 0), encode Crc32.checksum (heartbeatFrame 0)] =
        [0, 0] := by
    decide +kernel
  have hincreasing := honce.increasing
  rw [htwice] at hincreasing
  revert hincreasing
  decide

end UsbDirectFabric.Daemon.GadgetDaemon
