import UsbDirectFabric.Daemon.GadgetStart

/-!
# How the loops of the gadget daemon end

After `stop` has cleared `running` no loop begins another iteration and `_tx_loop` gives up the
frame that it is writing, so what the threads have left to do is bounded; a further signal only
gives main three more endpoints to close.
-/

namespace UsbDirectFabric.Daemon.GadgetRun

open Wire

variable {crc32 : Bytes → UInt32} {run next : GadgetRun} {worker : Worker}

/-! ## Where the loops stand -/

/-- The position of a loop in the daemon agrees with the stage of its thread. -/
def Fits (daemon : GadgetDaemon) : Worker → Stage → Prop
  | .rx, .busy => daemon.rx ≠ .waiting ∧ daemon.rx ≠ .dead
  | .rx, .writing => False
  | .rx, .ended => True
  | .rx, _ => daemon.rx = .waiting
  | .tx, .busy => (∃ length, daemon.tx = .sent length) ∨
      ∃ tag data written, daemon.tx = .writing tag data written ∧ written ≤ data.length
  | .tx, .writing => Unwritten daemon.tx
  | .tx, .calling => Unwritten daemon.tx
  | .tx, .ended => True
  | .tx, _ => daemon.tx = .waiting
  | .hb, .busy => ∃ seq, daemon.hb = .numbered seq
  | .hb, .writing => False
  | .hb, .calling => False
  | .hb, .ended => True
  | .hb, _ => daemon.hb = .sleeping

structure Placed (run : GadgetRun) : Prop where
  fits : ∀ worker, Fits run.daemon worker (run.stage worker)

theorem placed_start (nodeId : ℤ) : (start nodeId).Placed where
  fits worker := by cases worker <;> rfl

theorem fits_congr {daemon after : GadgetDaemon} {stage : Stage}
    (hagrees : AgreesOn daemon after worker) :
    Fits after worker stage ↔ Fits daemon worker stage := by
  cases worker with
  | rx | tx | hb =>
      rw [AgreesOn] at hagrees
      cases stage <;> simp only [Fits, hagrees]

theorem fits_rxStage (daemon : GadgetDaemon) : Fits daemon .rx (rxStage daemon.rx) := by
  cases hrx : daemon.rx <;> simp [rxStage, Fits, hrx]

theorem fits_hbStage (daemon : GadgetDaemon) : Fits daemon .hb (hbStage daemon.hb) := by
  cases hhb : daemon.hb <;> simp [hbStage, Fits, hhb]

/-- A piece of a frame that has been taken is not longer than what is left of it. -/
theorem fits_txWrite {daemon after : GadgetDaemon} {count : ℕ} {effect : Effect}
    (hmoves : GadgetDaemon.Move crc32 0 daemon (.txWrite count) after effect) :
    Fits after .tx .busy := by
  cases hmoves with
  | txWhole => exact .inl ⟨_, rfl⟩
  | txPiece hstands hroom => exact .inr ⟨_, _, _, rfl, hroom.2⟩

/-- A frame that is not at its end. -/
theorem fits_of_unwritten {daemon : GadgetDaemon} (hunwritten : Unwritten daemon.tx) :
    Fits daemon .tx .busy := by
  cases htx : daemon.tx with
  | waiting | sent => simp [htx, Unwritten] at hunwritten
  | writing tag data written =>
      rw [htx, Unwritten] at hunwritten
      exact .inr ⟨tag, data, written, htx, le_of_lt hunwritten⟩

/-- Where a loop stands after its step, it fits. -/
theorem fits_move (hplaced : run.Placed) (hmove : Move crc32 run worker next) :
    Fits next.daemon worker (next.stage worker) := by
  have hfits := hplaced.fits worker
  cases hmove with
  | enter hstands =>
      rw [hstands] at hfits
      cases worker <;> simpa [place, called, Fits] using hfits
  | leave hstands => cases worker <;> simp [place, Fits]
  | rxCall hstands hdecides =>
      rw [hstands] at hfits
      rcases hdecides with rfl | rfl <;> simpa [place, called, Fits] using hfits
  | rxFail hstands =>
      rw [hstands] at hfits
      simpa [place, called, Fits] using hfits
  | rxRead | rxWork => simpa [worked] using fits_rxStage _
  | txEmpty hstands =>
      rw [hstands] at hfits
      simpa [place, called, Fits] using hfits
  | txGet hstands hmoves =>
      cases hmoves
      simp [worked, Fits]
  | txRepeat hstands hruns hunwritten => simpa [place, Fits] using hunwritten
  | txFinish hstands hmoves =>
      cases hmoves <;> simp [worked, Fits]
  | txCall hstands =>
      rw [hstands] at hfits
      simpa [place, called, Fits] using hfits
  | txRefuse hstands hmoves | txFail hstands hmoves =>
      cases hmoves
      simp [worked, Fits]
  | txWrite hstands hmoves => simpa [worked] using fits_txWrite hmoves
  | txBlock hstands =>
      rw [hstands] at hfits
      simpa [place] using fits_of_unwritten hfits
  | hbBegin | hbWork => simpa [worked] using fits_hbStage _

theorem placed_held (hplaced : run.Placed) (hheld : run.Held worker next)
    (hfits : Fits next.daemon worker (next.stage worker)) : next.Placed where
  fits other := by
    by_cases hother : other = worker
    · exact hother ▸ hfits
    · obtain ⟨hstage, hagrees⟩ := hheld.others other hother
      rw [hstage]
      exact (fits_congr hagrees).mpr (hplaced.fits other)

theorem placed_move (hplaced : run.Placed) (hmove : Move crc32 run worker next) : next.Placed :=
  placed_held hplaced (held_move hmove) (fits_move hplaced hmove)

theorem placed_mainMove (hplaced : run.Placed) (hkept : run.Kept) (hmove : MainMove run next) :
    next.Placed := by
  obtain ⟨hfits⟩ := hplaced
  cases hmove with
  | @starts worker hdone hstands =>
      constructor
      intro other
      have hother := hfits other
      by_cases hsame : other = worker
      · subst hsame
        have hunborn : run.stage other = .unborn := by
          rw [hkept.unborn, hstands]
          cases other <;> decide
        rw [hunborn] at hother
        cases other <;> simpa [place, Fits] using hother
      · simpa [place, hsame] using hother
  | close | opens | raises | goes | stores | returns => exact ⟨hfits⟩

theorem placed_step {action : Action} (hplaced : run.Placed) (hkept : run.Kept)
    (hstep : run.step crc32 action = some next) : next.Placed := by
  cases action with
  | signal =>
      obtain ⟨-, -, ⟨-, rfl⟩ | ⟨-, rfl⟩⟩ := signal_cases hstep <;> exact ⟨hplaced.fits⟩
  | main outcome => exact placed_mainMove hplaced hkept (mainStep_moves hstep)
  | rx outcome => exact placed_move hplaced (rx_moves hstep)
  | tx outcome =>
      have hmove : Move crc32 run .tx next := tx_moves hstep
      exact placed_move hplaced hmove
  | hb => exact placed_move hplaced (hb_moves hstep)
  | send dst payload =>
      obtain ⟨daemon, hagrees, rfl⟩ := send_outside hstep
      exact ⟨fun worker ↦ (fits_congr (hagrees worker)).mpr (hplaced.fits worker)⟩
  | sendPut sender =>
      obtain ⟨daemon, hagrees, rfl⟩ := sendPut_outside hstep
      exact ⟨fun worker ↦ (fits_congr (hagrees worker)).mpr (hplaced.fits worker)⟩

/-! ## What is left to do once `running` is cleared -/

/-- The steps of `_rx_loop` that the rest of an iteration and the test after it can take. -/
def rxLeft : GadgetDaemon.RxThread → ℕ
  | .received _ _ => 5
  | .sized _ _ => 4
  | .accounted _ _ => 3
  | .numbered _ _ _ => 2
  | .waiting => 1
  | .dead => 0

def hbLeft : GadgetDaemon.HbThread → ℕ
  | .numbered _ => 2
  | .sleeping => 1
  | .dead => 0

/-- The steps that a worker at a stage has left if `running` is cleared. -/
def left (daemon : GadgetDaemon) : Worker → Stage → ℕ
  | _, .unborn => 1
  | _, .testing => 1
  | _, .ended => 0
  | .rx, .inside => 7
  | .rx, .calling => 6
  | .rx, _ => rxLeft daemon.rx
  | .tx, .inside => 3
  | .tx, .writing => 4
  | .tx, .calling => 3
  | .tx, _ => 2
  | .hb, .inside => 3
  | .hb, _ => hbLeft daemon.hb

def workerRank (run : GadgetRun) (worker : Worker) : ℕ :=
  left run.daemon worker (run.stage worker)

/-- The steps that all threads have left if `running` is cleared and no further signal comes. -/
def rank (run : GadgetRun) : ℕ :=
  run.mainRank + (run.workerRank .rx + run.workerRank .tx + run.workerRank .hb)

/-- The stage before a read, a write or a heartbeat. -/
def entrance : Worker → Stage
  | .rx => .inside
  | .tx => .writing
  | .hb => .inside

/-- Whether a worker begins a call without another test of `running`. -/
def underway (run : GadgetRun) (worker : Worker) : ℕ :=
  if run.stage worker = entrance worker then 1 else 0

/-- Whether `_tx_loop` can take a frame without another test of `running`. -/
def taking (run : GadgetRun) : ℕ :=
  if run.stage .tx = .inside then 1 else 0

theorem left_of_agreesOn {daemon after : GadgetDaemon} {stage : Stage}
    (hagrees : AgreesOn daemon after worker) :
    left after worker stage = left daemon worker stage := by
  cases worker with
  | rx | tx | hb =>
      rw [AgreesOn] at hagrees
      cases stage <;> simp [left, hagrees]

/-- After a read or a step of `_rx_loop` the place in the daemon decides. -/
theorem workerRank_rxStage (run : GadgetRun) (daemon : GadgetDaemon) :
    (run.worked .rx daemon (rxStage daemon.rx)).workerRank .rx = rxLeft daemon.rx := by
  cases hrx : daemon.rx <;> simp [workerRank, worked, rxStage, left, rxLeft, hrx]

theorem workerRank_hbStage (run : GadgetRun) (daemon : GadgetDaemon) :
    (run.worked .hb daemon (hbStage daemon.hb)).workerRank .hb = hbLeft daemon.hb := by
  cases hhb : daemon.hb <;> simp [workerRank, worked, hbStage, left, hbLeft, hhb]

theorem rxLeft_lt {daemon after : GadgetDaemon} {effect : Effect}
    (hmoves : GadgetDaemon.Move crc32 0 daemon .rxStep after effect) :
    rxLeft after.rx < rxLeft daemon.rx := by
  cases hmoves with
  | size hrx | account hrx | reject hrx | deliver hrx | number hrx | drop hrx | forward hrx
  | rxDie hrx =>
      rw [hrx]
      simp [rxLeft]

theorem rxLeft_le_of_read {tag : Tag} {data : Bytes} {daemon after : GadgetDaemon}
    {effect : Effect} (hread : daemon.read tag data = some (after, effect)) :
    rxLeft after.rx ≤ 5 := by
  obtain ⟨hwaiting, ⟨-, rfl, -⟩ | ⟨-, rfl, -⟩⟩ := GadgetDaemon.read_cases hread
  · rw [hwaiting]
    decide
  · exact Nat.le_refl _

theorem hbLeft_le (thread : GadgetDaemon.HbThread) : hbLeft thread ≤ 2 := by
  cases thread <;> simp [hbLeft]

theorem hbLeft_le_of_numbered {daemon after : GadgetDaemon} {effect : Effect} {seq : ℕ}
    (hnumbered : daemon.hb = .numbered seq)
    (hmoves : GadgetDaemon.Move crc32 0 daemon .hbStep after effect) : hbLeft after.hb ≤ 1 := by
  cases hmoves with
  | hbNumber hsleeping => simp [hnumbered] at hsleeping
  | hbPut | hbDie => simp [hbLeft]

/-- What a step of a worker after the last test of `running` costs it. -/
structure Spends (run : GadgetRun) (worker : Worker) (next : GadgetRun) : Prop where
  rank : next.workerRank worker < run.workerRank worker
  calls : next.calls worker + next.underway worker ≤ run.calls worker + run.underway worker
  others : ∀ other, other ≠ worker → next.calls other = run.calls other
  taken : next.taken + next.taking ≤ run.taken + run.taking

theorem spends_move (hplaced : run.Placed) (hcleared : run.running = false)
    (hmove : Move crc32 run worker next) : run.Spends worker next := by
  cases hmove with
  | enter hstands hruns => simp [hcleared] at hruns
  | leave hstands =>
      refine ⟨?_, ?_, fun _ _ ↦ rfl, ?_⟩
      · cases worker <;> simp [workerRank, place, left, hstands]
      · cases worker <;> simp [underway, place, entrance]
      · cases worker <;> simp [taking, place]
  | rxCall hstands hdecides =>
      refine ⟨?_, ?_, ?_, ?_⟩
      · rcases hdecides with rfl | rfl <;> simp [workerRank, place, called, left, hstands]
      · rcases hdecides with rfl | rfl <;> simp [underway, place, called, entrance, hstands]
      · intro other hother
        simp [place, called, hother]
      · simp [taking, place, called]
  | rxFail hstands | txEmpty hstands | txBlock hstands =>
      refine ⟨?_, ?_, fun _ _ ↦ rfl, ?_⟩
      · simp [workerRank, place, left, hstands]
      · simp [underway, place, entrance]
      · simp [taking, place]
  | @rxRead data daemon effect hstands hread =>
      refine ⟨?_, ?_, fun _ _ ↦ rfl, ?_⟩
      · have hleft := rxLeft_le_of_read hread
        have hcalling : run.workerRank .rx = 6 := by simp [workerRank, left, hstands]
        rw [workerRank_rxStage, hcalling]
        omega
      · cases daemon.rx <;> simp [underway, worked, entrance, rxStage]
      · simp [taking, worked]
  | @rxWork daemon effect hstands hmoves =>
      refine ⟨?_, ?_, fun _ _ ↦ rfl, ?_⟩
      · have hbusy : run.workerRank .rx = rxLeft run.daemon.rx := by
          simp [workerRank, left, hstands]
        rw [workerRank_rxStage, hbusy]
        exact rxLeft_lt hmoves
      · cases daemon.rx <;> simp [underway, worked, entrance, rxStage]
      · simp [taking, worked]
  | txGet hstands hmoves =>
      refine ⟨?_, ?_, fun _ _ ↦ rfl, ?_⟩
      · simp [workerRank, worked, left, hstands]
      · simp [underway, worked, entrance]
      · simp [taking, worked, hstands]
  | txRepeat hstands hruns hunwritten => simp [hcleared] at hruns
  | txFinish hstands hmoves | txWrite hstands hmoves =>
      refine ⟨?_, ?_, fun _ _ ↦ rfl, ?_⟩
      · simp [workerRank, worked, left, hstands]
      · simp [underway, worked, entrance]
      · simp [taking, worked]
  | txCall hstands =>
      refine ⟨?_, ?_, ?_, ?_⟩
      · simp [workerRank, place, called, left, hstands]
      · simp [underway, place, called, entrance, hstands]
      · intro other hother
        simp [place, called, hother]
      · simp [taking, place, called]
  | txRefuse hstands hmoves =>
      refine ⟨?_, ?_, ?_, ?_⟩
      · simp [workerRank, worked, called, left, hstands]
      · simp [underway, worked, called, entrance, hstands]
      · intro other hother
        simp [worked, called, hother]
      · simp [taking, worked, called]
  | txFail hstands hmoves =>
      refine ⟨?_, ?_, fun _ _ ↦ rfl, ?_⟩
      · rcases hstands with hstands | hstands <;> simp [workerRank, worked, left, hstands]
      · simp [underway, worked, entrance]
      · simp [taking, worked]
  | @hbBegin daemon effect hstands hmoves =>
      refine ⟨?_, ?_, ?_, ?_⟩
      · have hleft := hbLeft_le daemon.hb
        have hinside : run.workerRank .hb = 3 := by simp [workerRank, left, hstands]
        rw [workerRank_hbStage, hinside]
        omega
      · cases daemon.hb <;> simp [underway, worked, called, entrance, hbStage, hstands]
      · intro other hother
        simp [worked, called, hother]
      · simp [taking, worked, called]
  | @hbWork daemon effect hstands hmoves =>
      have hfits := hplaced.fits .hb
      rw [hstands] at hfits
      obtain ⟨seq, hnumbered⟩ := hfits
      refine ⟨?_, ?_, fun _ _ ↦ rfl, ?_⟩
      · have hleft := hbLeft_le_of_numbered hnumbered hmoves
        have hbusy : run.workerRank .hb = 2 := by
          simp [workerRank, left, hbLeft, hstands, hnumbered]
        rw [workerRank_hbStage, hbusy]
        omega
      · cases daemon.hb <;> simp [underway, worked, entrance, hbStage]
      · simp [taking, worked]

/-- The other workers have as much left as before. -/
theorem workerRank_held (hheld : run.Held worker next) {other : Worker} (hother : other ≠ worker) :
    next.workerRank other = run.workerRank other ∧ next.underway other = run.underway other := by
  obtain ⟨hstage, hagrees⟩ := hheld.others other hother
  constructor
  · rw [workerRank, hstage, left_of_agreesOn hagrees, workerRank]
  · rw [underway, hstage, underway]

theorem rank_lt_of_spends (hheld : run.Held worker next) (hspends : run.Spends worker next) :
    next.rank < run.rank := by
  have hworker := hspends.rank
  have hmain := mainRank_held hheld
  unfold rank
  cases worker with
  | rx =>
      have htx : next.workerRank .tx = run.workerRank .tx := (workerRank_held hheld (by decide)).1
      have hhb : next.workerRank .hb = run.workerRank .hb := (workerRank_held hheld (by decide)).1
      omega
  | tx =>
      have hrx : next.workerRank .rx = run.workerRank .rx := (workerRank_held hheld (by decide)).1
      have hhb : next.workerRank .hb = run.workerRank .hb := (workerRank_held hheld (by decide)).1
      omega
  | hb =>
      have hrx : next.workerRank .rx = run.workerRank .rx := (workerRank_held hheld (by decide)).1
      have htx : next.workerRank .tx = run.workerRank .tx := (workerRank_held hheld (by decide)).1
      omega

/-- Once `running` is cleared every step of a thread brings the end closer. -/
structure Winds (run : GadgetRun) (action : Action) (next : GadgetRun) : Prop where
  cleared : next.running = false
  rank : next.rank + (if action.Works then 1 else 0) ≤
    run.rank + (if action = .signal then 3 else 0)
  calls : ∀ worker, next.calls worker + next.underway worker ≤
    run.calls worker + run.underway worker
  taken : next.taken + next.taking ≤ run.taken + run.taking

theorem winds_move {action : Action} (hplaced : run.Placed) (hcleared : run.running = false)
    (hworks : action.Works) (hmove : Move crc32 run worker next) : run.Winds action next := by
  have hheld := held_move hmove
  have hspends := spends_move hplaced hcleared hmove
  refine ⟨hheld.running.trans hcleared, ?_, ?_, hspends.taken⟩
  · rw [if_pos hworks]
    exact Nat.le_add_right_of_le (rank_lt_of_spends hheld hspends)
  · intro other
    by_cases hother : other = worker
    · exact hother ▸ hspends.calls
    · rw [hspends.others other hother, (workerRank_held hheld hother).2]

/-- What is left to the workers does not change when main goes on: a thread that it starts has the
test of `running` before it, as it had before its start. -/
theorem workers_mainMove (hkept : run.Kept) (hmove : MainMove run next) (worker : Worker) :
    next.workerRank worker = run.workerRank worker ∧ next.underway worker = run.underway worker ∧
      next.taking = run.taking := by
  cases hmove with
  | close | opens | raises | goes | stores | returns => exact ⟨rfl, rfl, rfl⟩
  | @starts born hdone hstands =>
      have hunborn : run.stage born = .unborn := by
        rw [hkept.unborn, hstands]
        cases born <;> decide
      refine ⟨?_, ?_, ?_⟩
      · by_cases hborn : worker = born
        · subst hborn
          cases worker <;> simp [workerRank, place, left, hunborn]
        · simp [workerRank, place, hborn]
      · by_cases hborn : worker = born
        · subst hborn
          cases worker <;> simp [underway, place, entrance, hunborn]
        · simp [underway, place, hborn]
      · cases born <;> simp [taking, place, hunborn]

theorem winds_mainMove {outcome : Option Bytes} (hkept : run.Kept) (hcleared : run.running = false)
    (hmove : MainMove run next) : run.Winds (.main outcome) next := by
  have hmain := mainRank_lt hmove
  have hworkers := workers_mainMove hkept hmove
  have hframe : next.running = run.running ∧ next.calls = run.calls ∧ next.taken = run.taken := by
    cases hmove <;> exact ⟨rfl, rfl, rfl⟩
  obtain ⟨hrunning, hcalls, htaken⟩ := hframe
  refine ⟨hrunning.trans hcleared, ?_, ?_, ?_⟩
  · rw [if_pos (show Action.Works (.main outcome) from trivial), if_neg (by simp)]
    unfold rank
    rw [(hworkers .rx).1, (hworkers .tx).1, (hworkers .hb).1]
    omega
  · intro worker
    rw [hcalls, (hworkers worker).2.1]
  · rw [htaken, (hworkers .tx).2.2]

theorem winds_outside {action : Action} {daemon : GadgetDaemon} (hcleared : run.running = false)
    (hworks : ¬action.Works) (hsignal : action ≠ .signal)
    (hagrees : ∀ worker, AgreesOn run.daemon daemon worker) :
    run.Winds action { run with daemon := daemon } := by
  have hworker (worker : Worker) :
      workerRank { run with daemon := daemon } worker = run.workerRank worker :=
    left_of_agreesOn (hagrees worker)
  refine ⟨hcleared, ?_, fun _ ↦ Nat.le_refl _, Nat.le_refl _⟩
  rw [if_neg hworks, if_neg hsignal]
  unfold rank
  rw [hworker, hworker, hworker]
  exact Nat.le_refl _

theorem winds_step {action : Action} (hplaced : run.Placed) (hkept : run.Kept)
    (hcleared : run.running = false) (hstep : run.step crc32 action = some next) :
    run.Winds action next := by
  cases action with
  | signal =>
      have hmain := mainRank_signal hstep
      have hworkers (worker : Worker) : next.workerRank worker = run.workerRank worker := by
        obtain ⟨-, -, ⟨-, rfl⟩ | ⟨-, rfl⟩⟩ := signal_cases hstep <;> rfl
      refine ⟨?_, ?_, ?_, ?_⟩
      · obtain ⟨-, -, ⟨-, rfl⟩ | ⟨-, rfl⟩⟩ := signal_cases hstep <;> rfl
      · rw [if_neg (show ¬Action.Works .signal from id), if_pos rfl]
        unfold rank
        rw [hworkers, hworkers, hworkers]
        omega
      · obtain ⟨-, -, ⟨-, rfl⟩ | ⟨-, rfl⟩⟩ := signal_cases hstep <;> exact fun _ ↦ Nat.le_refl _
      · obtain ⟨-, -, ⟨-, rfl⟩ | ⟨-, rfl⟩⟩ := signal_cases hstep <;> exact Nat.le_refl _
  | main outcome => exact winds_mainMove hkept hcleared (mainStep_moves hstep)
  | rx outcome => exact winds_move hplaced hcleared trivial (rx_moves hstep)
  | tx outcome =>
      have hmove : Move crc32 run .tx next := tx_moves hstep
      exact winds_move hplaced hcleared trivial hmove
  | hb => exact winds_move hplaced hcleared trivial (hb_moves hstep)
  | send dst payload =>
      obtain ⟨daemon, hagrees, rfl⟩ := send_outside hstep
      exact winds_outside hcleared id (by simp) hagrees
  | sendPut sender =>
      obtain ⟨daemon, hagrees, rfl⟩ := sendPut_outside hstep
      exact winds_outside hcleared id (by simp) hagrees

/-! ## The end -/

structure Sound (run : GadgetRun) : Prop where
  placed : run.Placed
  kept : run.Kept

/-- What holds from the moment `running` is cleared. -/
structure Stopping (run : GadgetRun) : Prop extends run.Sound where
  cleared : run.running = false

theorem sound_step {action : Action} (hsound : run.Sound)
    (hstep : run.step crc32 action = some next) : next.Sound where
  placed := placed_step hsound.placed hsound.kept hstep
  kept := kept_step hsound.kept hstep

theorem stopping_step {action : Action} (hstopping : run.Stopping)
    (hstep : run.step crc32 action = some next) : next.Stopping where
  toSound := sound_step hstopping.toSound hstep
  cleared := (winds_step hstopping.placed hstopping.kept hstopping.cleared hstep).cleared

theorem left_le (daemon : GadgetDaemon) (stage : Stage) :
    left daemon .rx stage ≤ 7 ∧ left daemon .tx stage ≤ 4 ∧ left daemon .hb stage ≤ 3 := by
  have hrx : rxLeft daemon.rx ≤ 5 := by cases daemon.rx <;> simp [rxLeft]
  have hhb := hbLeft_le daemon.hb
  refine ⟨?_, ?_, ?_⟩ <;> cases stage <;> simp only [left] <;> omega

/-- A main that has not raised before `running` was cleared has started a thread or is about to. -/
theorem rank_le (hstopping : run.Stopping) : run.rank ≤ 18 + run.closing.length := by
  obtain ⟨⟨-, hkept⟩, hcleared⟩ := hstopping
  have hmain : run.main.rank ≤ 4 := by
    by_cases hraised : run.main = .raised
    · simp [hraised, MainStage.rank]
    · have hlast : Endpoint.ep2 ∈ run.main.stored :=
        (complete_iff hkept hraised).mp (hkept.cleared hcleared hraised).1
      cases hstage : run.main with
      | starting worker => cases worker <;> decide
      | serving | returned | raised => decide
      | opening endpoint | storing endpoint =>
          rw [hstage] at hlast
          cases endpoint <;> simp [MainStage.stored] at hlast
      | describing | naming | waiting | polling => simp [hstage, MainStage.stored] at hlast
  have hrx := (left_le run.daemon (run.stage .rx)).1
  have htx := (left_le run.daemon (run.stage .tx)).2.1
  have hhb := (left_le run.daemon (run.stage .hb)).2.2
  unfold rank workerRank mainRank
  omega

theorem isSome_abandon (hunwritten : Unwritten run.daemon.tx) : run.abandon.isSome := by
  cases htx : run.daemon.tx with
  | waiting | sent => simp [htx, Unwritten] at hunwritten
  | writing tag data written =>
      rw [htx, Unwritten] at hunwritten
      simp [abandon, GadgetDaemon.txFail, htx, hunwritten]

theorem isSome_rx (hfits : Fits run.daemon .rx (run.stage .rx)) (hborn : run.stage .rx ≠ .unborn)
    (hlive : run.stage .rx ≠ .ended) : (run.rx crc32 none).isSome := by
  cases hstage : run.stage .rx with
  | unborn => exact absurd hstage hborn
  | ended => exact absurd hstage hlive
  | testing | inside | calling => simp [rx, hstage]
  | writing =>
      rw [hstage] at hfits
      exact absurd hfits id
  | busy =>
      rw [hstage] at hfits
      obtain ⟨hwaiting, hdead⟩ := hfits
      simp only [rx, hstage, Option.isSome_map]
      cases hrx : run.daemon.rx with
      | waiting => exact absurd hrx hwaiting
      | dead => exact absurd hrx hdead
      | received tag data => simp [GadgetDaemon.rxStep, hrx]
      | sized tag data =>
          simp only [GadgetDaemon.rxStep, hrx]
          split <;> rfl
      | accounted tag frame =>
          simp only [GadgetDaemon.rxStep, hrx]
          split
          · rfl
          · split <;> rfl
      | numbered tag frame seq =>
          simp only [GadgetDaemon.rxStep, hrx]
          split <;> rfl

theorem isSome_tx (hfits : Fits run.daemon .tx (run.stage .tx)) (hborn : run.stage .tx ≠ .unborn)
    (hlive : run.stage .tx ≠ .ended) : (run.tx .blocked).isSome := by
  cases hstage : run.stage .tx with
  | unborn => exact absurd hstage hborn
  | ended => exact absurd hstage hlive
  | testing | calling => simp [tx, hstage]
  | inside =>
      rw [hstage] at hfits
      have hwaiting : run.daemon.tx = .waiting := hfits
      cases hqueue : run.daemon.txQueue with
      | nil => simp [tx, hstage, hqueue]
      | cons => simp [tx, hstage, hqueue, GadgetDaemon.txGet, hwaiting]
  | writing =>
      rw [hstage] at hfits
      simp only [tx, hstage]
      split
      · exact isSome_abandon hfits
      · rfl
  | busy =>
      rw [hstage] at hfits
      simp only [tx, hstage]
      split
      · rename_i hunwritten
        split
        · rfl
        · exact isSome_abandon hunwritten
      · rename_i hwritten
        obtain ⟨length, htx⟩ | ⟨tag, data, written, htx, hbound⟩ := hfits
        · simp [GadgetDaemon.txFinish, htx]
        · have hall : written = data.length := by
            rw [htx, Unwritten] at hwritten
            omega
          simp [GadgetDaemon.txFinish, htx, hall]

theorem isSome_hb (hfits : Fits run.daemon .hb (run.stage .hb)) (hborn : run.stage .hb ≠ .unborn)
    (hlive : run.stage .hb ≠ .ended) : (run.hb crc32).isSome := by
  cases hstage : run.stage .hb with
  | unborn => exact absurd hstage hborn
  | ended => exact absurd hstage hlive
  | testing => simp [hb, hstage]
  | writing | calling =>
      rw [hstage] at hfits
      exact absurd hfits id
  | inside =>
      rw [hstage] at hfits
      have hsleeping : run.daemon.hb = .sleeping := hfits
      simp [hb, hstage, GadgetDaemon.hbStep, hsleeping]
  | busy =>
      rw [hstage] at hfits
      obtain ⟨seq, hnumbered⟩ := hfits
      simp only [hb, hstage, Option.isSome_map, GadgetDaemon.hbStep, hnumbered]
      split <;> rfl

/-- A run that cannot go on has ended in every thread. -/
theorem ended_of_atRest (hstopping : run.Stopping)
    (hrest : Drain.AtRest (step crc32) (fun _ action ↦ action.Works) run) :
    (run.main = .returned ∧ ∀ worker, run.stage worker = .ended) ∨
      run.main = .raised ∧ ∀ worker, run.stage worker = .unborn := by
  obtain ⟨⟨⟨hfits⟩, hkept⟩, hcleared⟩ := hstopping
  have hblocked (action : Action) (hworks : action.Works) :
      ¬(run.step crc32 action).isSome := by
    rw [hrest action hworks]
    simp
  have hended (worker : Worker) (hborn : run.stage worker ≠ .unborn) :
      run.stage worker = .ended := by
    by_contra hlive
    cases worker with
    | rx => exact hblocked (.rx none) trivial (isSome_rx (hfits .rx) hborn hlive)
    | tx => exact hblocked (.tx .blocked) trivial (isSome_tx (hfits .tx) hborn hlive)
    | hb => exact hblocked .hb trivial (isSome_hb (hfits .hb) hborn hlive)
  obtain hmain | hmain | ⟨hmain, hrunning⟩ := stopped_of_mainStep (hrest (.main none) trivial)
  · refine .inl ⟨hmain, fun worker ↦ hended worker ?_⟩
    rw [Ne, hkept.unborn, hmain]
    simp [MainStage.unborn]
  · refine .inr ⟨hmain, fun worker ↦ ?_⟩
    rw [hkept.unborn, hmain]
    cases worker <;> decide
  · simp [hcleared] at hrunning

/-- How far calls and frames have come since `run`, a state with `running` cleared. -/
structure Wound (run last : GadgetRun) : Prop where
  stopping : last.Stopping
  calls : ∀ worker, last.calls worker + last.underway worker ≤
    run.calls worker + run.underway worker
  taken : last.taken + last.taking ≤ run.taken + run.taking

theorem wound_step {last : GadgetRun} {action : Action} (hwound : run.Wound last)
    (hstep : last.step crc32 action = some next) : run.Wound next := by
  have hstopping := hwound.stopping
  have hwinds := winds_step hstopping.placed hstopping.kept hstopping.cleared hstep
  exact ⟨stopping_step hstopping hstep,
    fun worker ↦ (hwinds.calls worker).trans (hwound.calls worker),
    hwinds.taken.trans hwound.taken⟩

theorem stopping_of_reachable {nodeId : ℤ}
    (hreach : Run.Reachable (step crc32) (start nodeId) run) (hcleared : run.running = false) :
    run.Stopping := by
  have hsound : run.Sound := hreach.invariant ⟨placed_start nodeId, kept_start nodeId⟩
    fun _ _ _ hsound _ hstep ↦ sound_step hsound hstep
  exact ⟨hsound, hcleared⟩

/-- **The loops end.** Once `running` is cleared, in every order of the threads and whatever the
system calls return, each loop begins at most one more read, write or heartbeat, `_tx_loop` takes at
most one more frame, and the threads make at most 18 further steps, besides the closing of the
endpoints that a signal before or after has asked for. Where none is left either main has returned
and all loops have ended, or it has raised and none was ever started. -/
theorem threads_end {nodeId : ℤ} {run last : GadgetRun} {actions : List Action}
    (hreach : Run.Reachable (step crc32) (start nodeId) run) (hcleared : run.running = false)
    (hrun : Run.attempt (step crc32) (fun _ _ ↦ True) run actions = some last) :
    (∀ worker, last.calls worker ≤ run.calls worker + 1) ∧ last.taken ≤ run.taken + 1 ∧
      actions.countP (fun action ↦ action.Works) ≤
        18 + run.closing.length + 3 * actions.countP (fun action ↦ action = .signal) ∧
      (Drain.AtRest (step crc32) (fun _ action ↦ action.Works) last →
        (last.main = .returned ∧ ∀ worker, last.stage worker = .ended) ∨
          last.main = .raised ∧ ∀ worker, last.stage worker = .unborn) := by
  have hstopping := stopping_of_reachable hreach hcleared
  have hwound : run.Wound last := by
    refine (Run.Reaches.of_attempt hrun).invariant ?_ fun _ _ _ hwound _ hstep ↦
      wound_step hwound hstep
    exact ⟨hstopping, fun _ ↦ Nat.le_refl _, Nat.le_refl _⟩
  refine ⟨?_, ?_, ?_, ended_of_atRest hwound.stopping⟩
  · intro worker
    have hspent := hwound.calls worker
    have hunderway : run.underway worker ≤ 1 := by
      unfold underway
      split <;> decide
    omega
  · have hspent := hwound.taken
    have htaking : run.taking ≤ 1 := by
      unfold taking
      split <;> decide
    omega
  · have hcount := Drain.countP_le_of_attempt rank Action.Works (· = .signal) 3
      (fun _ _ _ hstopping hstep ↦ stopping_step hstopping hstep)
      (fun _ _ _ hstopping hstep ↦
        (winds_step hstopping.placed hstopping.kept hstopping.cleared hstep).rank) hstopping hrun
    have hrank := rank_le hstopping
    omega

/-- All loops are started, `_rx_loop` reads, and a signal has just come. -/
def signalled : GadgetRun :=
  (Run.attempt (step Crc32.checksum) (fun _ _ ↦ True) (start 1) servingActions).getD (start 1)

theorem reachable_signalled : Run.Reachable (step Crc32.checksum) (start 1) signalled := by
  have hrun : Run.attempt (step Crc32.checksum) (fun _ _ ↦ True) (start 1) servingActions =
      some signalled := rfl
  exact .of_attempt hrun

def stopped : GadgetRun :=
  (Run.attempt (step Crc32.checksum) (fun _ _ ↦ True) signalled stoppingActions).getD signalled

theorem threads_end_signalled :
    (∀ worker, stopped.calls worker ≤ signalled.calls worker + 1) ∧
      stopped.taken ≤ signalled.taken + 1 ∧
      stoppingActions.countP (fun action ↦ action.Works) ≤
        18 + signalled.closing.length +
          3 * stoppingActions.countP (fun action ↦ action = .signal) ∧
      (Drain.AtRest (step Crc32.checksum) (fun _ action ↦ action.Works) stopped →
        (stopped.main = .returned ∧ ∀ worker, stopped.stage worker = .ended) ∨
          stopped.main = .raised ∧ ∀ worker, stopped.stage worker = .unborn) :=
  threads_end reachable_signalled rfl (by rfl)

end UsbDirectFabric.Daemon.GadgetRun
