import UsbDirectFabric.Daemon.GadgetOrder

/-!
# What the gadget daemon does with a transfer

One pass of `_rx_loop` over a transfer rejects it, delivers its frame, forwards it or drops it. The
four equations `receive_rejected` to `receive_dropped` give the daemon after the pass in full.

A forwarded frame always packs again: below the hop limit every field that `unpack` yields fits its
format one hop further, and `_next_seq` keeps the number below `2 ^ 32`. So the receive thread
survives every transfer, in whatever order the threads run.
-/

namespace UsbDirectFabric.Daemon.GadgetDaemon

open Wire

variable (crc32 : Bytes → UInt32) {daemon : GadgetDaemon} {data : Bytes} {frame : Frame}

/-- One undisturbed pass of `_rx_loop` over a transfer that it has read. -/
def receive (daemon : GadgetDaemon) (data : Bytes) : GadgetDaemon :=
  (rxAdvance crc32)^[4] { daemon with rx := .received (.fresh 0) data }

theorem iteration_eq_receive (hwaiting : daemon.rx = .waiting) (hdata : data ≠ []) :
    daemon.iteration crc32 data = daemon.receive crc32 (data.take readSize) := by
  simp [iteration, receive, read, hwaiting, hdata]

theorem iteration_nil (hwaiting : daemon.rx = .waiting) : daemon.iteration crc32 [] = daemon := by
  have hidle : rxAdvance crc32 daemon = daemon := by
    simp [rxAdvance, rxStep, hwaiting]
  simp only [iteration, read, hwaiting, if_true, Option.map_some, Option.getD_some]
  exact Function.iterate_fixed hidle 4

theorem receive_rejected (hreject : ∀ frame, unpack crc32 data ≠ .ok frame) :
    daemon.receive crc32 data =
      { daemon with
        bytesRx := daemon.bytesRx + data.length
        crcErrors := daemon.crcErrors + 1
        rx := .waiting } := by
  obtain ⟨message, hunpack⟩ := unpack_valueError crc32 hreject
  simp [receive, Function.iterate_succ, rxAdvance, rxStep, hunpack]

theorem receive_delivered (hunpack : unpack crc32 data = .ok frame)
    (haddressed : Addressed daemon.nodeId frame) :
    daemon.receive crc32 data =
      { daemon.account frame with
        bytesRx := daemon.bytesRx + data.length
        rxQueue := daemon.rxQueue ++ [(.fresh 0, frame)]
        rx := .waiting } := by
  simp only [receive, Function.iterate_succ, Function.iterate_zero, Function.comp_apply, id_eq,
    rxAdvance, rxStep, hunpack, account_eq, haddressed, if_true, Option.map_some, Option.getD_some,
    Option.map_none, Option.getD_none]

theorem receive_forwarded (hunpack : unpack crc32 data = .ok frame)
    (hother : ¬Addressed daemon.nodeId frame) (hlimit : frame.hop.toNat < hopLimit)
    (hseq : daemon.txSeq < 2 ^ 32) :
    daemon.receive crc32 data =
      { daemon.account frame with
        bytesRx := daemon.bytesRx + data.length
        txQueue := daemon.txQueue ++
          [(.forward (.fresh 0), encode crc32 (relayed frame daemon.txSeq))]
        txSeq := (daemon.txSeq + 1) % 2 ^ 32
        rx := .waiting } := by
  have hrepack := repack_eq_ok crc32 hlimit (length_payload_of_unpack crc32 hunpack).2 hseq
  simp only [receive, Function.iterate_succ, Function.iterate_zero, Function.comp_apply, id_eq,
    rxAdvance, rxStep, hunpack, account_eq, hother, hlimit, nextSeq, hrepack, if_true, if_false,
    Option.map_some, Option.getD_some]

theorem receive_dropped (hunpack : unpack crc32 data = .ok frame)
    (hother : ¬Addressed daemon.nodeId frame) (hlimit : ¬frame.hop.toNat < hopLimit) :
    daemon.receive crc32 data =
      { daemon.account frame with
        bytesRx := daemon.bytesRx + data.length
        rx := .waiting } := by
  simp only [receive, Function.iterate_succ, Function.iterate_zero, Function.comp_apply, id_eq,
    rxAdvance, rxStep, hunpack, account_eq, hother, hlimit, if_false, Option.map_some,
    Option.getD_some, Option.map_none, Option.getD_none]

/-! ## The four outcomes -/

structure Counts (daemon next : GadgetDaemon) (data : Bytes) : Prop where
  framesRx : next.framesRx = daemon.framesRx + 1
  bytesRx : next.bytesRx = daemon.bytesRx + data.length
  crcErrors : next.crcErrors = daemon.crcErrors

inductive Outcome
  | rejected
  | delivered
  | forwarded
  | dropped
deriving DecidableEq, Repr

/-- What a pass over `data` that takes the daemon to `next` does in each case. -/
def Outcome.Holds (daemon next : GadgetDaemon) (data : Bytes) : Outcome → Prop
  | .rejected =>
      (∃ message, unpack crc32 data = .error (.valueError message)) ∧
        next = { daemon with
          bytesRx := daemon.bytesRx + data.length
          crcErrors := daemon.crcErrors + 1 }
  | .delivered =>
      ∃ frame, unpack crc32 data = .ok frame ∧ Counts daemon next data ∧
        Addressed daemon.nodeId frame ∧
        next.rxQueue.map Prod.snd = daemon.rxQueue.map Prod.snd ++ [frame] ∧
        next.txQueue = daemon.txQueue ∧ next.txSeq = daemon.txSeq
  | .forwarded =>
      ∃ frame, unpack crc32 data = .ok frame ∧ Counts daemon next data ∧
        ¬Addressed daemon.nodeId frame ∧ frame.hop.toNat < 15 ∧ next.rxQueue = daemon.rxQueue ∧
        next.txSeq = (daemon.txSeq + 1) % 2 ^ 32 ∧
        ∃ tag raw copy, next.txQueue = daemon.txQueue ++ [(tag, raw)] ∧
          unpack crc32 raw = .ok copy ∧ copy.src = frame.src ∧ copy.dst = frame.dst ∧
          copy.payload = frame.payload ∧ copy.flags = frame.flags ||| flagFwd ∧
          copy.hop.toNat = frame.hop.toNat + 1 ∧ copy.seq.toNat = daemon.txSeq
  | .dropped =>
      ∃ frame, unpack crc32 data = .ok frame ∧ Counts daemon next data ∧
        ¬Addressed daemon.nodeId frame ∧ ¬frame.hop.toNat < 15 ∧
        next.rxQueue = daemon.rxQueue ∧ next.txQueue = daemon.txQueue ∧
        next.txSeq = daemon.txSeq

def outcomeOf (daemon : GadgetDaemon) (data : Bytes) : Outcome :=
  match unpack crc32 data with
  | .error _ => .rejected
  | .ok frame =>
      if Addressed daemon.nodeId frame then .delivered
      else if frame.hop.toNat < hopLimit then .forwarded
      else .dropped

variable {crc32}

/-- The outcomes exclude each other: transfer, destination and hop count tell them apart. -/
theorem Outcome.Holds.eq_outcomeOf {next : GadgetDaemon} {outcome : Outcome}
    (hholds : outcome.Holds crc32 daemon next data) : outcome = outcomeOf crc32 daemon data := by
  cases outcome with
  | rejected =>
      obtain ⟨⟨message, hunpack⟩, -⟩ := hholds
      simp only [outcomeOf, hunpack]
  | delivered =>
      obtain ⟨frame, hunpack, -, haddressed, -⟩ := hholds
      simp only [outcomeOf, hunpack, haddressed, if_true]
  | forwarded =>
      obtain ⟨frame, hunpack, -, hother, hlimit, -⟩ := hholds
      simp only [outcomeOf, hunpack, hother, hlimit, hopLimit, if_true, if_false]
  | dropped =>
      obtain ⟨frame, hunpack, -, hother, hlimit, -⟩ := hholds
      simp only [outcomeOf, hunpack, hother, hlimit, hopLimit, if_false]

/-- A pass from the head of the loop ends there again with one of the outcomes. -/
theorem exists_outcome (hwaiting : daemon.rx = .waiting) (hseq : daemon.txSeq < 2 ^ 32)
    (data : Bytes) :
    (daemon.receive crc32 data).rx = .waiting ∧
      ∃ outcome : Outcome, outcome.Holds crc32 daemon (daemon.receive crc32 data) data := by
  by_cases hunpack : ∃ frame, unpack crc32 data = .ok frame
  · obtain ⟨frame, hunpack⟩ := hunpack
    by_cases haddressed : Addressed daemon.nodeId frame
    · rw [receive_delivered crc32 hunpack haddressed, account_eq]
      refine ⟨rfl, .delivered, frame, hunpack, ⟨rfl, rfl, rfl⟩, haddressed, ?_, rfl, rfl⟩
      rw [List.map_append]
      rfl
    · by_cases hlimit : frame.hop.toNat < hopLimit
      · have hlength := (length_payload_of_unpack crc32 hunpack).2
        rw [receive_forwarded crc32 hunpack haddressed hlimit hseq, account_eq]
        exact ⟨rfl, .forwarded, frame, hunpack, ⟨rfl, rfl, rfl⟩, haddressed, hlimit, rfl, rfl, _, _,
          _, rfl, unpack_encode crc32 _ hlength, rfl, rfl, rfl, rfl,
          toNat_relayed_hop hlimit _, UInt32.toNat_ofNat_of_lt hseq⟩
      · rw [receive_dropped crc32 hunpack haddressed hlimit, account_eq]
        exact ⟨rfl, .dropped, frame, hunpack, ⟨rfl, rfl, rfl⟩, haddressed, hlimit, rfl, rfl, rfl⟩
  · have hreject (frame : Frame) : unpack crc32 data ≠ .ok frame := fun h ↦ hunpack ⟨frame, h⟩
    rw [receive_rejected crc32 hreject]
    refine ⟨rfl, .rejected, unpack_valueError crc32 hreject, ?_⟩
    rw [← hwaiting]

/-! ## Every reachable state -/

/-- The transmit counter stays or moves on by one. -/
theorem counter_step {number : ℕ} {next : GadgetDaemon} {action : Action} {effect : Effect}
    (hstep : daemon.step crc32 number action = some (next, effect)) :
    next.txSeq = daemon.txSeq ∨ next.txSeq = (daemon.txSeq + 1) % 2 ^ 32 := by
  cases step_moves hstep with
  | account =>
      rw [account_eq]
      exact .inl rfl
  | size | reject | deliver | drop | forward | rxDie | txGet | txWhole | txPiece | txFail | txFinish
  | txFinishPieces | hbPut | hbDie | sendPut | sendRaise => exact .inl rfl
  | number | hbNumber | send => exact .inr rfl

/-- The receive thread is alive, with a frame that packs again and a counter that fits. -/
structure Alive (daemon : GadgetDaemon) : Prop where
  packable : daemon.rx.Packable
  alive : daemon.rx ≠ .dead
  counter : daemon.txSeq < 2 ^ 32

theorem alive_rxStep {next : GadgetDaemon} {effect : Effect} (halive : daemon.Alive)
    (hstep : daemon.rxStep crc32 = some (next, effect)) : next.rx ≠ .dead := by
  have hmove : Move crc32 0 daemon .rxStep next effect := rxStep_moves hstep
  cases hmove with
  | size | account | reject | deliver | number | drop | forward => simp
  | rxDie hrx hrepack =>
      have hpackable := halive.packable
      rw [hrx] at hpackable
      obtain ⟨hlength, hhop, hfits⟩ := hpackable
      rw [repack_eq_ok crc32 hhop hlength hfits] at hrepack
      cases hrepack

theorem alive_step {number : ℕ} {next : GadgetDaemon} {action : Action} {effect : Effect}
    (halive : daemon.Alive) (hstep : daemon.step crc32 number action = some (next, effect)) :
    next.Alive := by
  have hcounter : next.txSeq < 2 ^ 32 := by
    rcases counter_step hstep with hsame | hnext
    · rw [hsame]
      exact halive.counter
    · rw [hnext]
      exact Nat.mod_lt _ (by decide)
  by_cases haction : action = .rxStep
  · subst haction
    have hpackable := (turn_rxStep halive.packable halive.counter hstep).2
    exact ⟨hpackable, alive_rxStep halive hstep, hcounter⟩
  · have hrx := ((step_frame hstep).2.2 haction).2
    exact ⟨hrx ▸ halive.packable, hrx ▸ halive.alive, hcounter⟩

theorem alive_read {next : GadgetDaemon} {tag : Tag} {effect : Effect} (halive : daemon.Alive)
    (hread : daemon.read tag data = some (next, effect)) : next.Alive := by
  obtain ⟨-, ⟨-, rfl, -⟩ | ⟨-, rfl, -⟩⟩ := read_cases hread
  · exact halive
  · exact ⟨trivial, by simp, halive.counter⟩

theorem alive_start (nodeId : ℤ) : (start nodeId).Alive where
  packable := trivial
  alive := by simp [start]
  counter := Nat.two_pow_pos 32

theorem alive_event {before after : History} {event : Event} (halive : before.daemon.Alive)
    (hstep : before.step crc32 event = some after) : after.daemon.Alive := by
  obtain ⟨⟨next, effect⟩, hreact, rfl⟩ := Option.map_eq_some_iff.mp hstep
  cases event with
  | act action => exact alive_step halive hreact
  | transfer data => exact alive_read halive hreact

theorem alive_of_reachable {nodeId : ℤ} {history : History}
    (hreachable : Run.Reachable (History.step crc32) (.start nodeId) history) :
    history.daemon.Alive := by
  induction hreachable with
  | refl => exact alive_start nodeId
  | tail event _ _ hstep ih => exact alive_event ih hstep

/-- **Every transfer is accounted for.** In every reachable state the receive thread is alive, and
where it waits for data one pass over any non-empty transfer brings it back there with exactly one
of the four outcomes. -/
theorem receive_outcome {nodeId : ℤ} {history : History}
    (hreachable : Run.Reachable (History.step crc32) (.start nodeId) history) :
    history.daemon.rx ≠ .dead ∧
      (history.daemon.rx = .waiting → ∀ data ≠ [],
        (history.daemon.receive crc32 data).rx = .waiting ∧
          ∃! outcome : Outcome,
            outcome.Holds crc32 history.daemon (history.daemon.receive crc32 data) data) := by
  have halive := alive_of_reachable hreachable
  refine ⟨halive.alive, ?_⟩
  intro hwaiting data _
  obtain ⟨hagain, outcome, hholds⟩ := exists_outcome hwaiting halive.counter data
  refine ⟨hagain, outcome, hholds, ?_⟩
  intro other hother
  exact hother.eq_outcomeOf.trans hholds.eq_outcomeOf.symm

theorem receive_outcome_crowd :
    ∃ history, Run.Reachable (History.step Crc32.checksum) (.start 1) history ∧
      history.daemon.txSeq = 4 ∧
      history.daemon.rx ≠ .dead ∧
        (history.daemon.rx = .waiting → ∀ data ≠ [],
          (history.daemon.receive Crc32.checksum data).rx = .waiting ∧
            ∃! outcome : Outcome,
              outcome.Holds Crc32.checksum history.daemon
                (history.daemon.receive Crc32.checksum data) data) := by
  have hrun : (Run.attempt (History.step Crc32.checksum) (fun _ _ ↦ True) (.start 1)
      History.crowd).map (fun history ↦ history.daemon.txSeq) = some 4 := by
    decide +kernel
  obtain ⟨history, hreachable, hcounter⟩ := Run.exists_of_attempt hrun
  exact ⟨history, hreachable, hcounter, receive_outcome hreachable⟩

end UsbDirectFabric.Daemon.GadgetDaemon
