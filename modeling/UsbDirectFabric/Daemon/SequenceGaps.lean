import UsbDirectFabric.Daemon.GadgetReceive
import UsbDirectFabric.Foundation.Crc32

/-!
# Gap detection of the gadget daemon

A sender numbers its frames 0, 1, 2, … and writes each number modulo `2 ^ 32`. The receiver compares
with an `expected_seq` that it never reduces. As long as no frame `2 ^ 32 - 1` or later arrives the
receiver counts every maximal run of lost frames once and expects the next number; that frame, or
the first one after it, is where it goes wrong.
-/

namespace UsbDirectFabric.Daemon.GadgetDaemon

open Wire

variable (crc32 : Bytes → UInt32)

/-! ## The sender's stream -/

def due (numbers : List ℕ) : ℕ :=
  (numbers.getLast?.map (· + 1)).getD 0

/-- The maximal runs of lost frames before the last received frame: each ends just before a
received frame whose predecessor was not received. -/
def lostRuns (numbers : List ℕ) : ℕ :=
  (numbers.filter fun number ↦ 0 < number ∧ number - 1 ∉ numbers).length

/-- The numbers of the frames that arrive from a stream 0, 1, 2, … which loses fewer than `2 ^ 31`
frames in a row. -/
structure LossyStream (numbers : List ℕ) : Prop where
  first : ∀ number ∈ numbers.head?, number < 2 ^ 31
  next : numbers.IsChain fun earlier later ↦ earlier < later ∧ later - earlier - 1 < 2 ^ 31

@[simp] theorem due_append (front : List ℕ) (number : ℕ) :
    due (front ++ [number]) = number + 1 := by
  simp [due]

theorem LossyStream.pairwise {numbers : List ℕ} (hstream : LossyStream numbers) :
    numbers.Pairwise (· < ·) :=
  List.isChain_iff_pairwise.mp (hstream.next.imp fun _ _ h ↦ h.1)

theorem LossyStream.lt_due {numbers : List ℕ} (hstream : LossyStream numbers) {number : ℕ}
    (hmem : number ∈ numbers) : number < due numbers := by
  have hpairwise := hstream.pairwise
  rcases List.eq_nil_or_concat' numbers with rfl | ⟨front, last, rfl⟩
  · cases hmem
  · rw [due_append]
    rcases List.mem_append.mp hmem with hfront | hlast
    · have hlt := (List.pairwise_append.mp hpairwise).2.2 number hfront last (by simp)
      exact Nat.lt_succ_of_lt hlt
    · rw [List.mem_singleton.mp hlast]
      exact Nat.lt_succ_self last

theorem LossyStream.of_prefix {front numbers : List ℕ} (hstream : LossyStream numbers)
    (hcut : front <+: numbers) : LossyStream front := by
  obtain ⟨rest, rfl⟩ := hcut
  refine ⟨?_, (List.isChain_append.mp hstream.next).1⟩
  intro number hnumber
  exact hstream.first number (by simp [Option.mem_def.mp hnumber])

/-- A received stream without its last frame, and where that frame can lie. -/
theorem LossyStream.of_append {front : List ℕ} {number : ℕ}
    (hstream : LossyStream (front ++ [number])) :
    LossyStream front ∧ due front ≤ number ∧ number < due front + 2 ^ 31 := by
  refine ⟨hstream.of_prefix (List.prefix_append _ _), ?_⟩
  rcases List.eq_nil_or_concat' front with rfl | ⟨earlier, last, rfl⟩
  · have hfirst : number < 2 ^ 31 := hstream.first number (by simp)
    exact ⟨Nat.zero_le _, by simpa [due] using hfirst⟩
  · have hlast := (List.isChain_append.mp hstream.next).2.2 last (by simp) number (by simp)
    rw [due_append]
    omega

/-- A received frame ends a run of lost frames exactly when it is not the one that was due. -/
theorem lostRuns_append {front : List ℕ} {number : ℕ} (hstream : LossyStream (front ++ [number])) :
    lostRuns (front ++ [number]) = lostRuns front + if due front < number then 1 else 0 := by
  obtain ⟨hfront, hdue, -⟩ := hstream.of_append
  have hlater : ∀ earlier ∈ front, earlier - 1 ≠ number := by
    intro earlier hearlier
    have hlt := hfront.lt_due hearlier
    omega
  have hends : 0 < number ∧ number - 1 ∉ front ++ [number] ↔ due front < number := by
    constructor
    · rintro ⟨hpos, hlost⟩
      apply lt_of_le_of_ne hdue
      intro hequal
      rcases List.eq_nil_or_concat' front with rfl | ⟨earlier, last, rfl⟩
      · exact absurd hpos (by simp [← hequal, due])
      · rw [due_append] at hequal
        exact hlost (by simp [← hequal])
    · intro hgap
      refine ⟨Nat.zero_lt_of_lt hgap, ?_⟩
      intro hmem
      rcases List.mem_append.mp hmem with hreceived | hself
      · have hlt := hfront.lt_due hreceived
        omega
      · have hequal := List.mem_singleton.mp hself
        omega
  have hsame : front.filter (fun earlier ↦ 0 < earlier ∧ earlier - 1 ∉ front ++ [number]) =
      front.filter fun earlier ↦ 0 < earlier ∧ earlier - 1 ∉ front := by
    apply List.filter_congr
    intro earlier hearlier
    simp [hlater earlier hearlier]
  unfold lostRuns
  rw [List.filter_append, List.length_append, hsame]
  simp only [List.filter_singleton, hends]
  by_cases hgap : due front < number <;> simp [hgap]

/-! ## One undisturbed iteration of the receive loop -/

/-- Between two iterations, with a transmit counter that `_next_seq` keeps below `2 ^ 32`. -/
def Ready (daemon : GadgetDaemon) : Prop :=
  daemon.rx = .waiting ∧ daemon.txSeq < 2 ^ 32

/-- An iteration on a transfer that unpacks does the locked accounting of its frame, whatever
happens to the frame afterwards. -/
theorem iteration_accepted {daemon : GadgetDaemon} (hready : daemon.Ready) {data : Bytes}
    {frame : Frame} (hunpack : unpack crc32 (data.take readSize) = .ok frame) :
    (daemon.iteration crc32 data).Ready ∧
      (daemon.iteration crc32 data).accounting = (daemon.account frame).accounting := by
  obtain ⟨hwaiting, hseq⟩ := hready
  have hsome : data ≠ [] := by
    rintro rfl
    cases hunpack
  rw [iteration_eq_receive crc32 hwaiting hsome]
  by_cases haddressed : Addressed daemon.nodeId frame
  · rw [receive_delivered crc32 hunpack haddressed, account_eq]
    exact ⟨⟨rfl, hseq⟩, rfl⟩
  · by_cases hlimit : frame.hop.toNat < hopLimit
    · rw [receive_forwarded crc32 hunpack haddressed hlimit hseq, account_eq]
      exact ⟨⟨rfl, Nat.mod_lt _ (by decide)⟩, rfl⟩
    · rw [receive_dropped crc32 hunpack haddressed hlimit, account_eq]
      exact ⟨⟨rfl, hseq⟩, rfl⟩

/-! ## Receiving a lossy stream -/

/-- The transfer is frame `number` of the stream. -/
def Carries (number : ℕ) (data : Bytes) : Prop :=
  ∃ frame, unpack crc32 (data.take readSize) = .ok frame ∧ frame.seq.toNat = number % 2 ^ 32

/-- The daemon after a fresh start and one iteration for each arriving transfer. -/
def receiveAll (nodeId : ℤ) (arrivals : List (ℕ × Bytes)) : GadgetDaemon :=
  arrivals.foldl (fun daemon arrival ↦ daemon.iteration crc32 arrival.2) (start nodeId)

theorem receiveAll_append (nodeId : ℤ) (front : List (ℕ × Bytes)) (arrival : ℕ × Bytes) :
    receiveAll crc32 nodeId (front ++ [arrival]) =
      (receiveAll crc32 nodeId front).iteration crc32 arrival.2 := by
  simp [receiveAll]

/-- The counters after one more frame of the stream. -/
theorem counters_iteration {daemon : GadgetDaemon} (hready : daemon.Ready) {number : ℕ}
    {data : Bytes} (hcarries : Carries crc32 number data) :
    (daemon.iteration crc32 data).Ready ∧
      (daemon.iteration crc32 data).seqGaps =
        daemon.seqGaps + (if daemon.expectedSeq < number % 2 ^ 32 then 1 else 0) ∧
      (daemon.iteration crc32 data).expectedSeq =
        if daemon.expectedSeq ≤ number % 2 ^ 32 then number % 2 ^ 32 + 1
        else daemon.expectedSeq := by
  obtain ⟨frame, hunpack, hseq⟩ := hcarries
  obtain ⟨hnext, haccounting⟩ := iteration_accepted crc32 hready hunpack
  simp only [account_eq, accounting, hseq, Prod.mk.injEq] at haccounting
  exact ⟨hnext, haccounting.2⟩

/-- Exactly the frames before `2 ^ 32 - 1` leave the receiver expecting the next number modulo
`2 ^ 32`. -/
theorem expectedSeq_iteration_iff {daemon : GadgetDaemon} (hready : daemon.Ready) {number : ℕ}
    {data : Bytes} (hcarries : Carries crc32 number data) (hbound : daemon.expectedSeq < 2 ^ 32)
    (hdue : daemon.expectedSeq ≤ number) (hrun : number < daemon.expectedSeq + 2 ^ 31) :
    (daemon.iteration crc32 data).expectedSeq = (number % 2 ^ 32 + 1) % 2 ^ 32 ↔
      number < 2 ^ 32 - 1 := by
  rw [(counters_iteration crc32 hready hcarries).2.2]
  split <;> omega

/-- Before frame `2 ^ 32 - 1` the receiver is exactly right. -/
theorem receiveAll_inOrder (nodeId : ℤ) {arrivals : List (ℕ × Bytes)}
    (hcarries : ∀ arrival ∈ arrivals, Carries crc32 arrival.1 arrival.2)
    (hstream : LossyStream (arrivals.map Prod.fst))
    (hbelow : ∀ arrival ∈ arrivals, arrival.1 < 2 ^ 32 - 1) :
    (receiveAll crc32 nodeId arrivals).Ready ∧
      (receiveAll crc32 nodeId arrivals).seqGaps = lostRuns (arrivals.map Prod.fst) ∧
      (receiveAll crc32 nodeId arrivals).expectedSeq = due (arrivals.map Prod.fst) := by
  induction arrivals using List.reverseRecOn with
  | nil => exact ⟨⟨rfl, Nat.two_pow_pos 32⟩, rfl, rfl⟩
  | append_singleton front arrival ih =>
      have hmap : (front ++ [arrival]).map Prod.fst = front.map Prod.fst ++ [arrival.1] := by simp
      rw [hmap] at hstream ⊢
      obtain ⟨hfront, hdue, -⟩ := hstream.of_append
      obtain ⟨hready, hgaps, hexpected⟩ := ih
        (fun earlier hearlier ↦ hcarries earlier (List.mem_append_left _ hearlier)) hfront
        (fun earlier hearlier ↦ hbelow earlier (List.mem_append_left _ hearlier))
      have hlast := hbelow arrival (by simp)
      have hseq : arrival.1 % 2 ^ 32 = arrival.1 := Nat.mod_eq_of_lt (by omega)
      obtain ⟨hnext, hgapsNext, hexpectedNext⟩ :=
        counters_iteration crc32 hready (hcarries arrival (by simp))
      rw [receiveAll_append, lostRuns_append hstream, due_append, hgapsNext, hexpectedNext, hseq,
        hgaps, hexpected, if_pos hdue]
      exact ⟨hnext, rfl, rfl⟩

/-- **Gap detection.** Whatever part of the stream arrives, the receiver has counted the lost runs
and expects the next number modulo `2 ^ 32` after every arrival exactly when no frame from
`2 ^ 32 - 1` on arrives: from there on `expected_seq` is not wrapped. -/
theorem gapDetection_iff (nodeId : ℤ) {arrivals : List (ℕ × Bytes)}
    (hcarries : ∀ arrival ∈ arrivals, Carries crc32 arrival.1 arrival.2)
    (hstream : LossyStream (arrivals.map Prod.fst)) :
    (∀ front arrival, front ++ [arrival] <+: arrivals →
      (receiveAll crc32 nodeId (front ++ [arrival])).seqGaps =
          lostRuns ((front ++ [arrival]).map Prod.fst) ∧
        (receiveAll crc32 nodeId (front ++ [arrival])).expectedSeq =
          (arrival.1 % 2 ^ 32 + 1) % 2 ^ 32) ↔
      ∀ arrival ∈ arrivals, arrival.1 < 2 ^ 32 - 1 := by
  induction arrivals using List.reverseRecOn with
  | nil => simp
  | append_singleton front arrival ih =>
      have hcarriesFront : ∀ earlier ∈ front, Carries crc32 earlier.1 earlier.2 :=
        fun earlier hearlier ↦ hcarries earlier (List.mem_append_left _ hearlier)
      have hmap : (front ++ [arrival]).map Prod.fst = front.map Prod.fst ++ [arrival.1] := by simp
      have hparts := hstream
      rw [hmap] at hparts
      obtain ⟨hfront, hdue, hrun⟩ := hparts.of_append
      constructor
      · intro hdetects
        have hbelow : ∀ earlier ∈ front, earlier.1 < 2 ^ 32 - 1 := by
          apply (ih hcarriesFront hfront).mp
          intro earlier last hcut
          exact hdetects earlier last (hcut.trans (List.prefix_append _ _))
        obtain ⟨hready, -, hexpected⟩ := receiveAll_inOrder crc32 nodeId hcarriesFront hfront hbelow
        have hbound : due (front.map Prod.fst) < 2 ^ 32 := by
          rcases List.eq_nil_or_concat' front with rfl | ⟨earlier, last, rfl⟩
          · decide
          · have hlast := hbelow last (by simp)
            simp only [List.map_append, List.map_cons, List.map_nil, due_append]
            omega
        have hnow := (hdetects front arrival List.prefix_rfl).2
        rw [receiveAll_append, expectedSeq_iteration_iff crc32 hready (hcarries arrival (by simp))
          (hexpected ▸ hbound) (hexpected ▸ hdue) (hexpected ▸ hrun)] at hnow
        intro one hone
        rcases List.mem_append.mp hone with hearlier | hself
        · exact hbelow one hearlier
        · rw [List.mem_singleton.mp hself]
          exact hnow
      · intro hbelow earlier last hcut
        have hsub : ∀ one ∈ earlier ++ [last], one ∈ front ++ [arrival] := fun one hone ↦
          hcut.subset hone
        have hstreamCut : LossyStream ((earlier ++ [last]).map Prod.fst) :=
          hstream.of_prefix (hcut.map Prod.fst)
        obtain ⟨-, hgaps, hexpected⟩ := receiveAll_inOrder crc32 nodeId
          (fun one hone ↦ hcarries one (hsub one hone)) hstreamCut
          (fun one hone ↦ hbelow one (hsub one hone))
        refine ⟨hgaps, ?_⟩
        have hlast := hbelow last (hsub last (by simp))
        rw [hexpected, List.map_append, List.map_cons, List.map_nil, due_append]
        omega

def heartbeatFrame (seq : UInt32) : Frame where
  flags := flagHb
  hop := 0
  seq := seq
  src := 1
  dst := 0xFF
  payload := []

/-- Frame `number` of a stream of heartbeats, with its transfer. -/
def heartbeatArrival (number : ℕ) : ℕ × Bytes :=
  (number, encode Crc32.checksum (heartbeatFrame (.ofNat number)))

theorem carries_heartbeatArrival (number : ℕ) :
    Carries Crc32.checksum (heartbeatArrival number).1 (heartbeatArrival number).2 :=
  ⟨_, unpack_read_encode Crc32.checksum (Nat.zero_le _), by simp [heartbeatFrame, heartbeatArrival]⟩

theorem gapDetection_iff_threeOfFive :
    (∀ front arrival, front ++ [arrival] <+: [0, 1, 4].map heartbeatArrival →
      (receiveAll Crc32.checksum 2 (front ++ [arrival])).seqGaps =
          lostRuns ((front ++ [arrival]).map Prod.fst) ∧
        (receiveAll Crc32.checksum 2 (front ++ [arrival])).expectedSeq =
          (arrival.1 % 2 ^ 32 + 1) % 2 ^ 32) ↔
      ∀ arrival ∈ [0, 1, 4].map heartbeatArrival, arrival.1 < 2 ^ 32 - 1 :=
  gapDetection_iff Crc32.checksum 2
    (by
      intro arrival harrival
      obtain ⟨number, -, rfl⟩ := List.mem_map.mp harrival
      exact carries_heartbeatArrival number)
    ⟨by simp [heartbeatArrival], by simp [heartbeatArrival]⟩

/-- Two received frames with a run of `2 ^ 31 - 1` lost ones before each are enough: after frame
`2 ^ 32 - 1` the receiver expects the number `2 ^ 32`, which no frame carries. -/
theorem not_gapDetection_wrap :
    ∃ arrivals : List (ℕ × Bytes),
      (∀ arrival ∈ arrivals, Carries Crc32.checksum arrival.1 arrival.2) ∧
      LossyStream (arrivals.map Prod.fst) ∧
      ¬∀ front arrival, front ++ [arrival] <+: arrivals →
        (receiveAll Crc32.checksum 2 (front ++ [arrival])).seqGaps =
            lostRuns ((front ++ [arrival]).map Prod.fst) ∧
          (receiveAll Crc32.checksum 2 (front ++ [arrival])).expectedSeq =
            (arrival.1 % 2 ^ 32 + 1) % 2 ^ 32 := by
  have hunwrapped : (receiveAll Crc32.checksum 2
      ([2 ^ 31 - 1, 2 ^ 32 - 1].map heartbeatArrival)).expectedSeq = 2 ^ 32 := by
    decide +kernel
  refine ⟨[2 ^ 31 - 1, 2 ^ 32 - 1].map heartbeatArrival, ?_, ⟨?_, ?_⟩, ?_⟩
  · intro arrival harrival
    obtain ⟨number, -, rfl⟩ := List.mem_map.mp harrival
    exact carries_heartbeatArrival number
  · simp [heartbeatArrival]
  · simp [heartbeatArrival]
  · intro hdetects
    have hnext := (hdetects [heartbeatArrival (2 ^ 31 - 1)] (heartbeatArrival (2 ^ 32 - 1))
      List.prefix_rfl).2
    have hwrapped : (2 : ℕ) ^ 32 = ((2 ^ 32 - 1) % 2 ^ 32 + 1) % 2 ^ 32 :=
      hunwrapped.symm.trans hnext
    norm_num at hwrapped

end UsbDirectFabric.Daemon.GadgetDaemon
