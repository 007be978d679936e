import UsbDirectFabric.Daemon.GadgetOrder

/-!
# Torn frames on the gadget's pipe

`_tx_loop` writes a frame in as many pieces as the endpoint wants, and starts again with the rest
after a `BlockingIOError`. Any other `OSError` leaves the inner loop. If it comes in the middle of
a frame, the accepted bytes stay on the pipe and the next frame from `tx_queue` is written behind
them.
-/

namespace UsbDirectFabric.Daemon.GadgetDaemon

open Wire

def TxThread.current : TxThread → List Bytes
  | .writing _ data _ => [data]
  | .waiting | .sent _ => []

def TxThread.front : TxThread → Bytes
  | .writing _ data written => data.take written
  | .waiting | .sent _ => []

def TxThread.isMidFrame : TxThread → Bool
  | .writing _ _ written => 0 < written
  | .waiting | .sent _ => false

/-- A daemon with its history, and all bytes that `ep1` has accepted. -/
structure Stream where
  history : History
  accepted : Bytes
deriving DecidableEq, Repr

namespace Stream

def start (nodeId : ℤ) (queue : List (Tag × Bytes)) : Stream where
  history := { History.start nodeId with
    daemon := { GadgetDaemon.start nodeId with txQueue := queue } }
  accepted := []

variable (crc32 : Bytes → UInt32)

def step (stream : Stream) (event : Event) : Option Stream :=
  (stream.history.react crc32 event).bind fun (_, effect) ↦
    (stream.history.step crc32 event).map fun history ↦
      { history, accepted := stream.accepted ++ effect.passed.flatten }

/-- Every frame that is no longer being sent contributed all or none of its bytes, in the order of
the queue, and the frame being sent contributed a prefix. -/
def Untorn (stream : Stream) : Prop :=
  ∃ finished complete : List Bytes,
    stream.history.drained = finished ++ stream.history.daemon.tx.current ∧
      complete.Sublist finished ∧
        stream.accepted = complete.flatten ++ stream.history.daemon.tx.front

/-- The write that fails is not in the middle of a frame. -/
def FailsWhole (stream : Stream) (event : Event) : Prop :=
  event = .act .txFail → stream.history.daemon.tx.isMidFrame = false

instance (stream : Stream) (event : Event) : Decidable (stream.FailsWhole event) :=
  inferInstanceAs (Decidable (_ → _))

end Stream

/-! ## What the steps do to the stream -/

variable {crc32 : Bytes → UInt32} {daemon next : GadgetDaemon} {event : Event} {effect : Effect}

/-- An event leaves `_tx_loop` where it is, takes a frame, writes the whole of it or a piece, gives
it up, or counts it. -/
inductive Passing (daemon next : GadgetDaemon) (event : Event) (effect : Effect) : Prop
  | quiet (stands : next.tx = daemon.tx) (takes : daemon.taking event = [])
      (passes : effect.passed = [])
  | begin {tag : Tag} {data : Bytes} (stands : daemon.tx = .waiting)
      (moves : next.tx = .writing tag data 0) (takes : daemon.taking event = [(tag, data)])
      (passes : effect.passed = [])
  | whole {tag : Tag} {data : Bytes} {length : ℕ} (stands : daemon.tx = .writing tag data 0)
      (moves : next.tx = .sent length) (takes : daemon.taking event = [])
      (passes : effect.passed = [data])
  | piece {tag : Tag} {data : Bytes} {written accepted : ℕ}
      (stands : daemon.tx = .writing tag data written)
      (moves : next.tx = .writing tag data (written + accepted)) (takes : daemon.taking event = [])
      (passes : effect.passed = [(data.drop written).take accepted])
  | fail {tag : Tag} {data : Bytes} {written : ℕ} (fails : event = .act .txFail)
      (stands : daemon.tx = .writing tag data written) (moves : next.tx = .waiting)
      (takes : daemon.taking event = []) (passes : effect.passed = [])
  | count {length : ℕ} (stands : daemon.tx = .sent length) (moves : next.tx = .waiting)
      (takes : daemon.taking event = []) (passes : effect.passed = [])
  | countPieces {tag : Tag} {data : Bytes} (stands : daemon.tx = .writing tag data data.length)
      (moves : next.tx = .waiting) (takes : daemon.taking event = []) (passes : effect.passed = [])

theorem passing_step {number : ℕ} {action : Action}
    (hstep : daemon.step crc32 number action = some (next, effect)) :
    Passing daemon next (.act action) effect := by
  cases step_moves hstep with
  | account =>
      rw [account_eq]
      exact .quiet rfl rfl rfl
  | size | reject | deliver | number | drop | forward | rxDie | hbNumber | hbPut | hbDie | send
  | sendPut | sendRaise => exact .quiet rfl rfl rfl
  | txGet hwaiting hqueue => exact .begin hwaiting rfl (by simp [taking, hqueue]) rfl
  | txWhole hwriting => exact .whole hwriting rfl rfl rfl
  | txPiece hwriting => exact .piece hwriting rfl rfl rfl
  | txFail hwriting => exact .fail rfl hwriting rfl rfl rfl
  | txFinish hsent => exact .count hsent rfl rfl rfl
  | txFinishPieces hwriting => exact .countPieces hwriting rfl rfl rfl

theorem passing_read {tag : Tag} {data : Bytes}
    (hread : daemon.read tag data = some (next, effect)) :
    Passing daemon next (.transfer data) effect := by
  obtain ⟨-, ⟨-, rfl, rfl⟩ | ⟨-, rfl, rfl⟩⟩ := read_cases hread
  · exact .quiet rfl rfl rfl
  · exact .quiet rfl rfl rfl

namespace Stream

variable {stream after : Stream}

/-- A step of the stream is a step of the daemon whose bytes are appended. -/
theorem passing_of_step (hstep : stream.step crc32 event = some after) :
    ∃ effect, Passing stream.history.daemon after.history.daemon event effect ∧
      after.history.drained =
        stream.history.drained ++ (stream.history.daemon.taking event).map Prod.snd ∧
      after.accepted = stream.accepted ++ effect.passed.flatten := by
  obtain ⟨⟨next, effect⟩, hreact, hstep⟩ := Option.bind_eq_some_iff.mp hstep
  obtain ⟨history, hhistory, rfl⟩ := Option.map_eq_some_iff.mp hstep
  simp only [History.step, hreact, Option.map_some] at hhistory
  cases hhistory
  refine ⟨effect, ?_, rfl, rfl⟩
  cases event with
  | act action => exact passing_step hreact
  | transfer data => exact passing_read hreact

theorem untorn_start (nodeId : ℤ) (queue : List (Tag × Bytes)) : Untorn (start nodeId queue) :=
  ⟨[], [], rfl, .slnil, rfl⟩

/-- A step that does not fail in the middle of a frame tears none. -/
theorem untorn_step (huntorn : stream.Untorn) (hwhole : stream.FailsWhole event)
    (hstep : stream.step crc32 event = some after) : after.Untorn := by
  obtain ⟨effect, hpassing, hdrained, haccepted⟩ := passing_of_step hstep
  obtain ⟨finished, complete, hfinished, hsublist, hbytes⟩ := huntorn
  unfold Untorn
  rw [hdrained, haccepted, hfinished, hbytes]
  cases hpassing with
  | quiet hstands htakes hpasses =>
      rw [htakes, hpasses, hstands]
      exact ⟨finished, complete, by simp, hsublist, by simp⟩
  | begin hstands hmoves htakes hpasses =>
      rw [htakes, hpasses, hstands, hmoves]
      exact ⟨finished, complete, by simp [TxThread.current], hsublist, by simp [TxThread.front]⟩
  | @whole tag data length hstands hmoves htakes hpasses =>
      rw [htakes, hpasses, hstands, hmoves]
      refine ⟨finished ++ [data], complete ++ [data], by simp [TxThread.current], ?_,
        by simp [TxThread.front]⟩
      exact hsublist.append (.refl [data])
  | @piece tag data written accepted hstands hmoves htakes hpasses =>
      rw [htakes, hpasses, hstands, hmoves]
      refine ⟨finished, complete, by simp [TxThread.current], hsublist, ?_⟩
      simp [TxThread.front, List.take_add]
  | @fail tag data written hfails hstands hmoves htakes hpasses =>
      have hnone : written = 0 := by simpa [hstands, TxThread.isMidFrame] using hwhole hfails
      rw [htakes, hpasses, hstands, hmoves, hnone]
      exact ⟨finished ++ [data], complete, by simp [TxThread.current],
        hsublist.trans (List.sublist_append_left finished [data]), by simp [TxThread.front]⟩
  | count hstands hmoves htakes hpasses =>
      rw [htakes, hpasses, hstands, hmoves]
      exact ⟨finished, complete, by simp [TxThread.current], hsublist, by simp [TxThread.front]⟩
  | @countPieces tag data hstands hmoves htakes hpasses =>
      rw [htakes, hpasses, hstands, hmoves]
      refine ⟨finished ++ [data], complete ++ [data], by simp [TxThread.current], ?_,
        by simp [TxThread.front]⟩
      exact hsublist.append (.refl [data])

/-- **No torn frames.** In every run in which no write fails in the middle of a frame, in whatever
pieces the endpoint accepts the frames, the accepted bytes are complete frames in the order of the
queue and a prefix of the frame being sent. -/
theorem untorn_run {nodeId : ℤ} {queue : List (Tag × Bytes)}
    (hreaches : Run.Reaches (step crc32) FailsWhole (start nodeId queue) stream) :
    stream.Untorn :=
  hreaches.invariant (untorn_start nodeId queue) fun _ _ _ huntorn hwhole hstep ↦
    untorn_step huntorn hwhole hstep

/-- Two heartbeats are queued; the first is given up before its first byte, the second is accepted
in three pieces. -/
def pieces : List Event :=
  [.act .hbStep, .act .hbStep, .act .hbStep, .act .hbStep, .act .txGet, .act .txFail, .act .txGet,
    .act (.txWrite 7), .act (.txWrite 0), .act (.txWrite 13), .act .txFinish]

theorem untorn_run_pieces :
    ∃ stream, Run.Reaches (step Crc32.checksum) FailsWhole (start 1 []) stream ∧
      stream.accepted.length = 20 ∧ stream.Untorn := by
  have hrun : (Run.attempt (step Crc32.checksum) FailsWhole (start 1 []) pieces).map
      (fun stream ↦ stream.accepted.length) = some 20 := by
    decide +kernel
  obtain ⟨stream, hreaches, hlength⟩ := Run.exists_of_attempt hrun
  exact ⟨stream, hreaches, hlength, untorn_run hreaches⟩

/-- Two heartbeats are queued; the write of the first fails after ten bytes. -/
def jam : List Event :=
  [.act .hbStep, .act .hbStep, .act .hbStep, .act .hbStep, .act .txGet, .act (.txWrite 10),
    .act .txFail, .act .txGet, .act (.txWrite 20)]

theorem not_untorn_jam :
    ∃ stream, Run.Reachable (step Crc32.checksum) (start 1 []) stream ∧ ¬stream.Untorn := by
  have hrun : (Run.attempt (step Crc32.checksum) (fun _ _ ↦ True) (start 1 []) jam).map
      (fun stream ↦ (stream.accepted.length, stream.history.drained.map List.length,
        stream.history.daemon.tx)) = some (30, [20, 20], .sent 20) := by
    decide +kernel
  obtain ⟨stream, hreaches, hobserved⟩ := Run.exists_of_attempt hrun
  simp only [Prod.mk.injEq] at hobserved
  obtain ⟨haccepted, hdrained, htx⟩ := hobserved
  refine ⟨stream, hreaches, ?_⟩
  rintro ⟨finished, complete, hfinished, hsublist, hbytes⟩
  simp only [htx, TxThread.current, TxThread.front, List.append_nil] at hfinished hbytes
  have hframe : ∀ data ∈ complete, data.length = 20 := by
    intro data hdata
    have hmem : data.length ∈ stream.history.drained.map List.length :=
      List.mem_map_of_mem (hfinished ▸ hsublist.subset hdata)
    simpa [hdrained] using hmem
  have hlengths : complete.map List.length = List.replicate complete.length 20 :=
    List.map_eq_replicate_iff.mpr hframe
  have htotal : stream.accepted.length = complete.length * 20 := by
    rw [hbytes, List.length_flatten, hlengths, List.sum_replicate_nat]
  omega

end Stream

end UsbDirectFabric.Daemon.GadgetDaemon
