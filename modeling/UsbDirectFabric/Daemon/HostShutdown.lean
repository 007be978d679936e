import UsbDirectFabric.Daemon.HostRun
import UsbDirectFabric.Foundation.Drain

/-!
# How the host daemon shuts down

Once `run` has set `_running` and it is cleared again, no worker begins another iteration, so what
the threads have left to do is bounded. The statements of `close` are spread over the steps of the
main thread; together they leave the device as the call does when nothing runs beside it.
-/

namespace UsbDirectFabric.Daemon.HostRun

open Wire

variable {crc32 : Bytes → UInt32} {run next : HostRun} {worker : Worker}

/-! ## The payloads in the queue -/

structure Queued (run : HostRun) : Prop where
  bound : run.taken ≤ run.sent.length
  queue : run.host.txQueue = run.sent.drop run.taken

theorem queued_move (hqueued : run.Queued) (hmove : Move crc32 run worker next) : next.Queued := by
  obtain ⟨hbound, hqueue⟩ := hqueued
  have hkept {host : UDFHost} (hsame : host.txQueue = run.host.txQueue) :
      ((run.took host).worked worker).Queued := by
    constructor
    · simpa [worked, place, took, hsame] using hbound
    · simpa [worked, place, took, hsame] using hqueue
  cases hmove with
  | enter | leave | sleep | rx | load | call => exact ⟨hbound, hqueue⟩
  | tx hstands hmoves =>
      cases hmoves with
      | @txGet payload rest hidle hwaits =>
          rw [hwaits] at hqueue
          have hrest : run.sent.drop (run.taken + 1) = rest := by
            rw [← List.drop_drop, ← hqueue]
            rfl
          have hlength := congrArg List.length hqueue
          rw [List.length_cons, List.length_drop] at hlength
          constructor
          · simp only [worked, place, took, hwaits, List.length_cons]
            omega
          · simp only [worked, place, took, hwaits, List.length_cons, Nat.add_sub_cancel_left]
            exact hrest.symm
      | txNumber | txPack | txDie | txCount | txSize => exact hkept rfl
  | hb hstands hmoves => cases hmoves <;> exact hkept rfl

theorem queued_step {action : Action} (hqueued : run.Queued)
    (hstep : run.step crc32 action = some next) : next.Queued := by
  cases action with
  | send payload =>
      cases hstep
      obtain ⟨hbound, hqueue⟩ := hqueued
      constructor
      · rw [send, List.length_append]
        exact Nat.le_add_right_of_le hbound
      · simp only [send, UDFHost.send, hqueue]
        exact (List.drop_append_of_le_length hbound).symm
  | signal =>
      cases hstep
      exact ⟨hqueued.bound, hqueued.queue⟩
  | main =>
      obtain ⟨hhost, -, hsent, htaken, -⟩ := mainStep_leaves hstep
      constructor
      · rw [htaken, hsent]
        exact hqueued.bound
      · rw [hhost, hsent, htaken]
        exact hqueued.queue
  | advance worker => exact queued_move hqueued (advance_moves hstep)
  | finish worker outcome data =>
      obtain ⟨after, rfl, hfinished⟩ := finish_finished hstep
      constructor
      · simp only [worked, place, hfinished.taken, hfinished.alone.sent]
        exact hqueued.bound
      · simp only [worked, place, hfinished.queue, hfinished.alone.sent, hfinished.taken]
        exact hqueued.queue

/-! ## What is left to do once `_running` is cleared -/

/-- The steps that a sending loop has left in its iteration but for one. -/
def left {job : Type} : UDFHost.Thread job → ℕ
  | .idle => 8
  | .taken _ => 7
  | .numbered _ _ => 6
  | .packed _ _ => 5
  | .counting _ => 1
  | .sizing _ | .dead => 0

def leftRx : HostReceiver.RxThread → ℕ
  | .reading => 5
  | .received _ => 2
  | .counted _ _ => 1
  | .sized _ | .dead => 0

def remaining (run : HostRun) : Worker → ℕ
  | .rx => leftRx run.rx
  | .tx => left run.host.tx
  | .hb => left run.host.hb

/-- The steps that a worker has left if `_running` is cleared. -/
def workerRank (run : HostRun) (worker : Worker) : ℕ :=
  match run.stage worker with
  | .unborn | .testing => 1
  | .inside => 2 + run.remaining worker
  | .loaded _ => 6
  | .entered _ => 5
  | .ended => 0

/-- The steps that all threads have left if `_running` is cleared. -/
def rank (run : HostRun) : ℕ :=
  run.main.rank + (run.workerRank .rx + run.workerRank .tx + run.workerRank .hb)

/-- Whether a sending loop in an iteration has its transfer before it. -/
def ahead {job : Type} : UDFHost.Thread job → ℕ
  | .idle | .taken _ | .numbered _ _ | .packed _ _ => 1
  | .counting _ | .sizing _ | .dead => 0

def aheadRx : HostReceiver.RxThread → ℕ
  | .reading => 1
  | .received _ | .counted _ _ | .sized _ | .dead => 0

def approach (run : HostRun) : Worker → ℕ
  | .rx => aheadRx run.rx
  | .tx => ahead run.host.tx
  | .hb => ahead run.host.hb

/-- Whether a worker can come to its transfer without another test of `_running`. -/
def underway (run : HostRun) (worker : Worker) : ℕ :=
  match run.stage worker with
  | .inside => run.approach worker
  | .loaded _ => 1
  | _ => 0

/-- Whether `_tx_loop` can take a payload without another test of `_running`. -/
def taking (run : HostRun) : ℕ :=
  if run.stage .tx = .inside ∧ run.host.tx = .idle then 1 else 0

theorem left_le {job : Type} (thread : UDFHost.Thread job) : left thread ≤ 8 := by
  cases thread <;> simp [left]

theorem leftRx_le (thread : HostReceiver.RxThread) : leftRx thread ≤ 5 := by
  cases thread <;> simp [leftRx]

theorem ahead_le {job : Type} (thread : UDFHost.Thread job) : ahead thread ≤ 1 := by
  cases thread <;> simp [ahead]

theorem rank_le_of_set (hset : run.main ≠ .setting) : run.rank ≤ 36 := by
  have hmain : run.main.rank ≤ 9 := by
    cases hstage : run.main with
    | setting => exact absurd hstage hset
    | starting worker => cases worker <;> decide
    | waiting | stopping | closing | released | exiting | exited | stopped => decide
  have hrx : run.remaining .rx ≤ 5 := leftRx_le run.rx
  have htx : run.remaining .tx ≤ 8 := left_le run.host.tx
  have hhb : run.remaining .hb ≤ 8 := left_le run.host.hb
  have hworker (worker : Worker) {bound : ℕ} (hleft : run.remaining worker ≤ bound)
      (hbound : 5 ≤ bound) : run.workerRank worker ≤ 2 + bound := by
    unfold workerRank
    split <;> omega
  have := hworker .rx hrx (by decide)
  have := hworker .tx htx (by decide)
  have := hworker .hb hhb (by decide)
  unfold rank
  omega

theorem approach_le (run : HostRun) (worker : Worker) : run.approach worker ≤ 1 := by
  cases worker with
  | rx =>
      rw [approach]
      cases run.rx <;> simp [aheadRx]
  | tx => exact ahead_le run.host.tx
  | hb => exact ahead_le run.host.hb

theorem underway_le (run : HostRun) (worker : Worker) : run.underway worker ≤ 1 := by
  unfold underway
  split
  · exact run.approach_le worker
  · exact Nat.le_refl 1
  · exact Nat.zero_le 1

theorem taking_le (run : HostRun) : run.taking ≤ 1 := by
  unfold taking
  split <;> decide

/-- What a step of a worker after the last test of `_running` costs it. -/
structure Spends (run : HostRun) (worker : Worker) (next : HostRun) : Prop where
  main : next.main = run.main
  running : next.running = run.running
  rank : next.workerRank worker < run.workerRank worker
  others : ∀ other, other ≠ worker → next.workerRank other = run.workerRank other
  entries : ∀ other, next.entries other + next.underway other ≤
    run.entries other + run.underway other
  taken : next.taken + next.taking ≤ run.taken + run.taking

/-- A worker that changes its stage alone. -/
theorem spends_place (stage : Stage) (htaking : worker = .tx → stage ≠ .inside)
    (hrank : (run.place worker stage).workerRank worker < run.workerRank worker)
    (hunderway : (run.place worker stage).underway worker ≤ run.underway worker) :
    run.Spends worker (run.place worker stage) where
  main := rfl
  running := rfl
  rank := hrank
  others other hother := by
    simp only [workerRank, place, Function.update_of_ne hother]
    rfl
  entries other := by
    by_cases hother : other = worker
    · subst hother
      exact Nat.add_le_add_left hunderway _
    · simp only [underway, place, Function.update_of_ne hother]
      rfl
  taken := by
    by_cases hworker : worker = .tx
    · subst hworker
      simp [taking, place, htaking rfl]
    · simp [taking, place, Ne.symm hworker]

theorem remaining_of_alone {after : HostRun} (halone : run.Alone worker after) {other : Worker}
    (hother : other ≠ worker) :
    after.remaining other = run.remaining other ∧ after.approach other = run.approach other := by
  cases other with
  | rx => simp only [remaining, approach, halone.rx (Ne.symm hother), and_self]
  | tx => simp only [remaining, approach, halone.tx (Ne.symm hother), and_self]
  | hb => simp only [remaining, approach, halone.hb (Ne.symm hother), and_self]

/-- A worker that makes a step of its loop. -/
theorem spends_worked {after : HostRun} (halone : run.Alone worker after)
    (hrank : (after.worked worker).workerRank worker < run.workerRank worker)
    (hunderway : (after.worked worker).underway worker ≤ run.underway worker)
    (htaken : (after.worked worker).taken + (after.worked worker).taking ≤
      run.taken + run.taking) : run.Spends worker (after.worked worker) where
  main := halone.main
  running := halone.running
  rank := hrank
  others other hother := by
    obtain ⟨hremaining, -⟩ := remaining_of_alone halone hother
    simp only [workerRank, worked, place, Function.update_of_ne hother, halone.stage]
    simp only [remaining] at hremaining ⊢
    rw [hremaining]
  entries other := by
    by_cases hother : other = worker
    · subst hother
      have hentries : (after.worked other).entries other = run.entries other :=
        congrFun halone.entries other
      rw [hentries]
      exact Nat.add_le_add_left hunderway _
    · obtain ⟨-, happroach⟩ := remaining_of_alone halone hother
      simp only [underway, worked, place, Function.update_of_ne hother, halone.stage,
        halone.entries]
      simp only [approach] at happroach ⊢
      rw [happroach]
  taken := htaken

/-- The statements after a transfer of the receive loop. -/
theorem rx_leads {receiver after : HostReceiver} {thread rx : HostReceiver.RxThread}
    (hmoves : HostReceiver.RxMove crc32 receiver thread after rx) :
    (∃ data, thread = .received data ∧ (rx = .reading ∨ ∃ frame, rx = .counted data frame)) ∨
      (∃ data frame, thread = .counted data frame ∧ rx = .sized frame) ∨
      ∃ frame, thread = .sized frame ∧ rx = .reading := by
  cases hmoves with
  | reject => exact .inl ⟨_, rfl, .inl rfl⟩
  | count => exact .inl ⟨_, rfl, .inr ⟨_, rfl⟩⟩
  | size => exact .inr (.inl ⟨_, _, rfl, rfl⟩)
  | heartbeat => exact .inr (.inr ⟨_, rfl, rfl⟩)
  | queue => exact .inr (.inr ⟨_, rfl, rfl⟩)

theorem spends_load (hstands : run.stage worker = .inside) (hready : run.Ready worker) :
    run.Spends worker (run.load worker) := by
  have hleft : run.remaining worker = 5 ∧ run.approach worker = 1 := by
    cases worker with
    | rx =>
        have hreading : run.rx = .reading := hready
        simp [remaining, leftRx, approach, aheadRx, hreading]
    | tx | hb =>
        obtain ⟨seq, packet, hpacked⟩ := hready
        simp [remaining, left, approach, ahead, hpacked]
  refine spends_place _ (by simp) ?_ ?_
  · simp [workerRank, place, hstands, hleft]
  · simp [underway, place, hstands, hleft]

theorem spends_rxStep {receiver : HostReceiver} {rx : HostReceiver.RxThread}
    (hstands : run.stage .rx = .inside)
    (hmoves : HostReceiver.RxMove crc32 run.receiver run.rx receiver rx) :
    run.Spends .rx ({ run with receiver := receiver, rx := rx }.worked .rx) := by
  refine spends_worked (alone_rxStep _ _) ?_ ?_ (by simp [taking, worked, place])
  · rcases rx_leads hmoves with ⟨data, hthread, rfl | ⟨frame, rfl⟩⟩ |
      ⟨data, frame, hthread, rfl⟩ | ⟨frame, hthread, rfl⟩ <;>
      simp [workerRank, worked, place, position, rxStage, remaining, leftRx, hstands, hthread]
  · rcases rx_leads hmoves with ⟨data, hthread, rfl | ⟨frame, rfl⟩⟩ |
      ⟨data, frame, hthread, rfl⟩ | ⟨frame, hthread, rfl⟩ <;>
      simp [underway, worked, place, position, rxStage, approach, aheadRx]

theorem spends_txStep {host : UDFHost} (hstands : run.stage .tx = .inside)
    (hmoves : UDFHost.Move crc32 run.host .txStep host []) :
    run.Spends .tx ((run.took host).worked .tx) := by
  have halone := alone_txStep hmoves
  cases hmoves with
  | txGet hthread hwaits =>
      refine spends_worked halone ?_ ?_ ?_
      · simp [workerRank, worked, place, position, sendStage, remaining, left, took, hstands,
          hthread]
      · simp [underway, worked, place, position, sendStage, approach, ahead, took, hstands,
          hthread]
      · simp [taking, worked, place, position, sendStage, took, hstands, hthread, hwaits]
  | txNumber hthread | txPack hthread | txDie hthread | txCount hthread | txSize hthread =>
      refine spends_worked halone ?_ ?_ ?_
      · simp [workerRank, worked, place, position, sendStage, remaining, left, took, hstands,
          hthread]
      · simp [underway, worked, place, position, sendStage, approach, ahead, took, hstands,
          hthread]
      · simp [taking, worked, place, position, sendStage, took, hthread]

theorem spends_hbStep {host : UDFHost} (hstands : run.stage .hb = .inside)
    (hmoves : UDFHost.Move crc32 run.host .hbStep host []) :
    run.Spends .hb ((run.took host).worked .hb) := by
  have halone := alone_hbStep hmoves
  cases hmoves with
  | hbNumber hthread | hbPack hthread | hbDie hthread | hbCount hthread | hbSize hthread =>
      refine spends_worked halone ?_ ?_ ?_
      · simp [workerRank, worked, place, position, sendStage, remaining, left, took, hstands,
          hthread]
      · simp [underway, worked, place, position, sendStage, approach, ahead, took, hstands,
          hthread]
      · simp [taking, worked, place, took]

theorem spends_move (hover : run.running = false) (hmove : Move crc32 run worker next) :
    run.Spends worker next := by
  cases hmove with
  | enter hstands hruns =>
      rw [hover] at hruns
      cases hruns
  | leave hstands =>
      refine spends_place .ended (by simp) ?_ ?_
      · simp [workerRank, place, hstands]
      · simp [underway, place]
  | sleep hstands hidle hempty =>
      refine spends_place .testing (by simp) ?_ ?_
      · simp only [workerRank, place, Function.update_self, hstands]
        omega
      · simp [underway, place]
  | load hstands hready => exact spends_load hstands hready
  | @call _ handle hstands =>
      refine ⟨rfl, rfl, ?_, ?_, ?_, ?_⟩
      · simp [workerRank, hstands]
      · intro other hother
        simp only [workerRank, Function.update_of_ne hother]
        rfl
      · intro other
        by_cases hother : other = worker
        · subst hother
          simp [underway, hstands]
        · simp only [underway, Function.update_of_ne hother]
          exact Nat.le_refl _
      · by_cases hworker : worker = .tx
        · subst hworker
          simp [taking]
        · simp [taking, Ne.symm hworker]
  | rx hstands hmoves => exact spends_rxStep hstands hmoves
  | tx hstands hmoves => exact spends_txStep hstands hmoves
  | hb hstands hmoves => exact spends_hbStep hstands hmoves

theorem spends_finished {after : HostRun} (hplaced : run.Placed)
    (hfinished : run.Finished worker after) : run.Spends worker (after.worked worker) := by
  obtain ⟨⟨handle, hstands⟩, halone, htaken, -, htransferred⟩ := hfinished
  have hfits := hplaced.fits worker
  rw [hstands] at hfits
  cases worker with
  | rx =>
      have hreading : run.rx = .reading := hfits
      have hafter : after.rx = .reading ∨ ∃ data, after.rx = .received data := by
        rw [← hreading]
        exact htransferred
      refine spends_worked halone ?_ ?_ ?_
      · rcases hafter with hthread | ⟨data, hthread⟩ <;>
          simp [workerRank, worked, place, position, rxStage, remaining, leftRx, hstands, hthread]
      · rcases hafter with hthread | ⟨data, hthread⟩ <;>
          simp [underway, worked, place, position, rxStage, approach, aheadRx, hthread]
      · have htx := halone.tx (by decide)
        simp [taking, worked, place, htaken, halone.stage, htx]
  | tx =>
      refine spends_worked halone ?_ ?_ ?_
      · rcases htransferred with hthread | ⟨length, hthread⟩ <;>
          simp [workerRank, worked, place, position, sendStage, remaining, left, hstands, hthread]
      · rcases htransferred with hthread | ⟨length, hthread⟩ <;>
          simp [underway, worked, place, position, sendStage, approach, ahead, hthread]
      · rcases htransferred with hthread | ⟨length, hthread⟩ <;>
          simp [taking, worked, place, position, sendStage, htaken, hthread]
  | hb =>
      refine spends_worked halone ?_ ?_ ?_
      · rcases htransferred with hthread | ⟨length, hthread⟩ <;>
          simp [workerRank, worked, place, position, sendStage, remaining, left, hstands, hthread]
      · rcases htransferred with hthread | ⟨length, hthread⟩ <;>
          simp [underway, worked, place, position, sendStage, approach, ahead, hthread]
      · have htx := halone.tx (by decide)
        simp [taking, worked, place, htaken, halone.stage, htx]

theorem rank_lt_of_spends (hspends : run.Spends worker next) : next.rank < run.rank := by
  have hworker := hspends.rank
  have hothers := hspends.others
  unfold rank
  rw [hspends.main]
  cases worker with
  | rx =>
      rw [hothers .tx (by decide), hothers .hb (by decide)]
      omega
  | tx =>
      rw [hothers .rx (by decide), hothers .hb (by decide)]
      omega
  | hb =>
      rw [hothers .rx (by decide), hothers .tx (by decide)]
      omega

/-- `run` has set `_running`, and it is cleared. -/
structure Winding (run : HostRun) : Prop where
  placed : run.Placed
  set : run.main ≠ .setting
  cleared : run.running = false

/-- Then every step of a thread brings the end closer. -/
structure Winds (run : HostRun) (action : Action) (next : HostRun) : Prop where
  set : next.main ≠ .setting
  cleared : next.running = false
  rank : next.rank + (if action.Works then 1 else 0) ≤ run.rank
  entries : ∀ worker, next.entries worker + next.underway worker ≤
    run.entries worker + run.underway worker
  taken : next.taken + next.taking ≤ run.taken + run.taking

theorem winds_of_spends {action : Action} (hwinding : run.Winding) (hworks : action.Works)
    (hspends : run.Spends worker next) : run.Winds action next where
  set := hspends.main ▸ hwinding.set
  cleared := hspends.running.trans hwinding.cleared
  rank := by
    rw [if_pos hworks]
    exact rank_lt_of_spends hspends
  entries := hspends.entries
  taken := hspends.taken

/-- A worker that main starts has as much left to do as one that is not started. -/
theorem winds_main (hwinding : run.Winding) (hmain : run.MainStep next) :
    run.Winds .main next := by
  obtain ⟨hplaced, hset, hover⟩ := hwinding
  have hremaining (worker : Worker) :
      next.remaining worker = run.remaining worker ∧
        next.approach worker = run.approach worker := by
    cases worker <;> simp only [remaining, approach, hmain.rx, hmain.host, and_self]
  have hworker (worker : Worker) : next.workerRank worker = run.workerRank worker := by
    unfold workerRank
    rcases hmain.stage_cases hplaced worker with hsame | ⟨hunborn, htesting⟩
    · rw [hsame, (hremaining worker).1]
    · rw [hunborn, htesting]
  refine ⟨hmain.set, hmain.running hset hover, ?_, ?_, ?_⟩
  · have hless := hmain.main
    rw [if_pos (show Action.Works .main from trivial)]
    simp only [rank, hworker]
    omega
  · intro worker
    rw [hmain.entries]
    unfold underway
    rcases hmain.stage_cases hplaced worker with hsame | ⟨hunborn, htesting⟩
    · rw [hsame, (hremaining worker).2]
    · rw [hunborn, htesting]
  · rw [hmain.taken]
    unfold taking
    rcases hmain.stage_cases hplaced .tx with hsame | ⟨hunborn, htesting⟩
    · rw [hsame, hmain.host]
    · simp [hunborn, htesting]

theorem winds_step {action : Action} (hwinding : run.Winding)
    (hstep : run.step crc32 action = some next) : run.Winds action next := by
  cases action with
  | send payload =>
      cases hstep
      exact ⟨hwinding.set, hwinding.cleared, Nat.le_refl _, fun _ ↦ Nat.le_refl _, Nat.le_refl _⟩
  | signal =>
      cases hstep
      exact ⟨hwinding.set, rfl, Nat.le_refl _, fun _ ↦ Nat.le_refl _, Nat.le_refl _⟩
  | main => exact winds_main hwinding (mainStep_leaves hstep)
  | advance worker =>
      exact winds_of_spends hwinding trivial
        (spends_move hwinding.cleared (advance_moves hstep))
  | finish worker outcome data =>
      obtain ⟨after, rfl, hfinished⟩ := finish_finished hstep
      exact winds_of_spends hwinding trivial (spends_finished hwinding.placed hfinished)

theorem winding_step {action : Action} (hwinding : run.Winding)
    (hstep : run.step crc32 action = some next) : next.Winding where
  placed := placed_step hwinding.placed hstep
  set := (winds_step hwinding hstep).set
  cleared := (winds_step hwinding hstep).cleared

/-! ## The device -/

/-- What libusb holds after the release in `close`. -/
def releasedLibrary (opened : HostSession) : Libusb :=
  (opened.device.handle.toList.map .releaseInterface).foldl Libusb.after opened.library

/-- The attributes and what libusb holds, by the statement that comes next. -/
def MainStage.session (opened : HostSession) : MainStage → HostSession
  | .setting | .starting _ | .waiting | .stopping | .closing => opened
  | .released => { opened with library := releasedLibrary opened }
  | .exiting =>
      { device := { opened.device with handle := none }
        library := releasedLibrary opened }
  | .exited =>
      { device := { opened.device with handle := none }
        library :=
          (opened.device.ctx.toList.map .exit).foldl Libusb.after (releasedLibrary opened) }
  | .stopped => opened.step .closing

theorem session_mainStep {opened : HostSession} (hsession : run.session = run.main.session opened)
    (hstep : run.mainStep = some next) : next.session = next.main.session opened := by
  unfold mainStep at hstep
  split at hstep
  · rename_i hmain
    cases hstep
    simpa [hmain, MainStage.session] using hsession
  · rename_i worker hmain
    cases hstep
    cases worker <;> simpa [hmain, MainStage.session, MainStage.afterStarting, place] using hsession
  · rename_i hmain
    cases hstep
    simpa [hmain, MainStage.session] using hsession
  · rename_i hmain
    cases hstep
    simpa [hmain, MainStage.session] using hsession
  · rename_i hmain
    have hopened : run.session = opened := by rw [hsession, hmain, MainStage.session]
    split at hstep
    · rename_i hhandle
      cases hstep
      rw [hopened] at hhandle
      have hlibrary : releasedLibrary opened = opened.library := by simp [releasedLibrary, hhandle]
      simp only [MainStage.session, hopened, hlibrary]
      rw [← hhandle]
    · rename_i handle hhandle
      cases hstep
      rw [hopened] at hhandle
      simp [MainStage.session, releasedLibrary, hopened, hhandle]
  · rename_i hmain
    cases hstep
    simp [hsession, hmain, MainStage.session]
  · rename_i hmain
    have hclosed : run.session =
        { device := { opened.device with handle := none }
          library := releasedLibrary opened } := by
      rw [hsession, hmain, MainStage.session]
    split at hstep
    · rename_i hctx
      cases hstep
      have hctx : opened.device.ctx = none := by simpa [hclosed] using hctx
      simp [MainStage.session, HostSession.step, HostSession.deviceAfter, HostSession.calls,
        HostDevice.close, releasedLibrary, hclosed, hctx]
    · rename_i ctx hctx
      cases hstep
      have hctx : opened.device.ctx = some ctx := by simpa [hclosed] using hctx
      simp [MainStage.session, releasedLibrary, hclosed, hctx]
  · rename_i hmain
    cases hstep
    simp [MainStage.session, HostSession.step, HostSession.deviceAfter, HostSession.calls,
      HostDevice.close, releasedLibrary, hsession, hmain]
  · cases hstep

theorem session_step {opened : HostSession} {action : Action}
    (hsession : run.session = run.main.session opened)
    (hstep : run.step crc32 action = some next) : next.session = next.main.session opened := by
  cases action with
  | send payload =>
      cases hstep
      exact hsession
  | signal =>
      cases hstep
      exact hsession
  | main => exact session_mainStep hsession hstep
  | advance worker =>
      cases advance_moves hstep <;> exact hsession
  | finish worker outcome data =>
      obtain ⟨after, rfl, hfinished⟩ := finish_finished hstep
      simp only [worked, place, hfinished.alone.session, hfinished.alone.main]
      exact hsession

/-! ## The end -/

theorem isSome_mainStep (hmain : run.main ≠ .stopped) : run.mainStep.isSome := by
  cases hstage : run.main with
  | stopped => exact absurd hstage hmain
  | closing => cases hhandle : run.session.device.handle <;> simp [mainStep, hstage, hhandle]
  | exiting => cases hctx : run.session.device.ctx <;> simp [mainStep, hstage, hctx]
  | setting | starting | waiting | stopping | released | exited => simp [mainStep, hstage]

theorem isSome_turn (hplaced : run.Placed) (hstands : run.stage worker = .inside) :
    (run.turn crc32 worker).isSome := by
  have hfits := hplaced.fits worker
  rw [hstands] at hfits
  cases worker with
  | rx =>
      have halive : run.rx ≠ .dead := hfits
      cases hrx : run.rx with
      | reading => simp [turn, hrx]
      | received data =>
          simp only [turn, hrx, HostReceiver.rxStep, Option.isSome_map]
          split <;> rfl
      | counted data frame => simp [turn, hrx, HostReceiver.rxStep]
      | sized frame =>
          simp only [turn, hrx, HostReceiver.rxStep, Option.isSome_map]
          split <;> rfl
      | dead => exact absurd hrx halive
  | tx =>
      have halive : run.host.tx ≠ .dead := hfits
      cases htx : run.host.tx with
      | idle =>
          cases hqueue : run.host.txQueue with
          | nil => simp [turn, htx, hqueue]
          | cons payload rest => simp [turn, UDFHost.txStep, htx, hqueue]
      | taken payload => simp [turn, UDFHost.txStep, htx]
      | numbered payload seq =>
          simp only [turn, UDFHost.txStep, htx, Option.isSome_map]
          split <;> rfl
      | packed seq packet => simp [turn, htx]
      | counting length | sizing length => simp [turn, UDFHost.txStep, htx]
      | dead => exact absurd htx halive
  | hb =>
      have halive : run.host.hb ≠ .dead := hfits
      cases hhb : run.host.hb with
      | idle => simp [turn, UDFHost.hbStep, hhb]
      | taken work => exact absurd hhb (hplaced.untaken work)
      | numbered work seq =>
          simp only [turn, UDFHost.hbStep, hhb, Option.isSome_map]
          split <;> rfl
      | packed seq packet => simp [turn, hhb]
      | counting length | sizing length => simp [turn, UDFHost.hbStep, hhb]
      | dead => exact absurd hhb halive

theorem isSome_finish (hplaced : run.Placed) {handle : Option ℕ}
    (hstands : run.stage worker = .entered handle) :
    (run.finish worker .success []).isSome := by
  have hfits := hplaced.fits worker
  rw [hstands] at hfits
  cases worker with
  | rx => simp [finish, hstands, transferred]
  | tx =>
      obtain ⟨seq, packet, htx⟩ : ∃ seq packet, run.host.tx = .packed seq packet := hfits
      simp [finish, hstands, transferred, UDFHost.txWrite, htx]
  | hb =>
      obtain ⟨seq, packet, hhb⟩ : ∃ seq packet, run.host.hb = .packed seq packet := hfits
      simp [finish, hstands, transferred, UDFHost.hbWrite, hhb]

/-- A run that cannot go on has ended in every thread. -/
theorem ended_of_atRest (hplaced : run.Placed)
    (hrest : Drain.AtRest (step crc32) (fun _ action ↦ action.Works) run) :
    run.main = .stopped ∧ ∀ worker, run.stage worker = .ended := by
  have hblocked (action : Action) (hworks : action.Works) :
      ¬(run.step crc32 action).isSome := by
    rw [hrest action hworks]
    simp
  have hstopped : run.main = .stopped := by
    by_contra hmain
    exact hblocked .main trivial (isSome_mainStep hmain)
  constructor
  · exact hstopped
  · intro worker
    have hadvance := hblocked (.advance worker) trivial
    cases hstage : run.stage worker with
    | ended => rfl
    | unborn =>
        have hmem := (hplaced.unborn worker).mp hstage
        rw [hstopped] at hmem
        cases hmem
    | testing => simp [step, advance, hstage] at hadvance
    | inside =>
        rw [step, advance, hstage] at hadvance
        exact absurd (isSome_turn hplaced hstage) hadvance
    | loaded handle => simp [step, advance, hstage] at hadvance
    | entered handle =>
        have hfinish := hblocked (.finish worker .success []) trivial
        exact absurd (isSome_finish hplaced hstage) hfinish

/-- How far transfers and payloads have come since `run`, a state with `_running` cleared. -/
structure Wound (run last : HostRun) : Prop where
  winding : last.Winding
  entries : ∀ worker, last.entries worker + last.underway worker ≤
    run.entries worker + run.underway worker
  taken : last.taken + last.taking ≤ run.taken + run.taking

theorem Wound.step {last : HostRun} {action : Action} (hwound : run.Wound last)
    (hstep : last.step crc32 action = some next) : run.Wound next := by
  have hwinds := winds_step hwound.winding hstep
  exact ⟨winding_step hwound.winding hstep,
    fun worker ↦ (hwinds.entries worker).trans (hwound.entries worker),
    hwinds.taken.trans hwound.taken⟩

/-- **Shutdown.** Once `run` has set `_running` and it is cleared again, in every order of the
threads, each worker calls `libusb_bulk_transfer` at most once more, `_tx_loop` takes at most one
more payload and all others stay in the queue, and the threads make at most 36 further steps. Where
none is left all of them have ended, and the device is left as by a `close` without other threads.
A signal that comes before `run` sets `_running` is lost. -/
theorem shutdown_ends {nodeId : ℤ} {opened : HostSession} {run last : HostRun}
    {actions : List Action}
    (hreach : Run.Reachable (step crc32) (start nodeId opened) run)
    (hset : run.main ≠ .setting) (hover : run.running = false)
    (hrun : Run.attempt (step crc32) (fun _ _ ↦ True) run actions = some last) :
    (∀ worker, last.entries worker ≤ run.entries worker + 1) ∧
      last.taken ≤ run.taken + 1 ∧ last.host.txQueue = last.sent.drop last.taken ∧
      actions.countP (fun action ↦ action.Works) ≤ 36 ∧
      (Drain.AtRest (step crc32) (fun _ action ↦ action.Works) last →
        (∀ worker, last.stage worker = .ended) ∧ last.session = opened.step .closing) := by
  have hlast := hreach.trans (Run.Reaches.of_attempt hrun)
  have hplaced : run.Placed := hreach.invariant (placed_start nodeId opened)
    fun _ _ _ hplaced _ hstep ↦ placed_step hplaced hstep
  have hqueued : last.Queued := hlast.invariant ⟨Nat.le_refl _, rfl⟩
    fun _ _ _ hqueued _ hstep ↦ queued_step hqueued hstep
  have hsession : last.session = last.main.session opened := by
    refine hlast.invariant ?_ fun _ _ _ hsession _ hstep ↦ session_step hsession hstep
    rfl
  have hwinding : run.Winding := ⟨hplaced, hset, hover⟩
  have hwound : run.Wound last := by
    refine (Run.Reaches.of_attempt hrun).invariant ?_ fun _ _ _ hwound _ hstep ↦
      hwound.step hstep
    exact ⟨hwinding, fun _ ↦ Nat.le_refl _, Nat.le_refl _⟩
  refine ⟨?_, ?_, hqueued.queue, ?_, ?_⟩
  · intro worker
    have hspent := hwound.entries worker
    have hunderway := run.underway_le worker
    omega
  · have hspent := hwound.taken
    have htaking := run.taking_le
    omega
  · have hcount : last.rank + actions.countP (fun action ↦ action.Works) ≤ run.rank :=
      (Drain.countP_le_of_attempt rank Action.Works (fun _ ↦ False) 0
        (fun _ _ _ hbefore hstep ↦ winding_step hbefore hstep)
        (fun _ _ _ hbefore hstep ↦ (winds_step hbefore hstep).rank) hwinding hrun).trans_eq
          (by simp)
    have hrank := rank_le_of_set hset
    omega
  · intro hrest
    obtain ⟨hmain, hended⟩ := ended_of_atRest hwound.winding.placed hrest
    exact ⟨hended, by rw [hsession, hmain, MainStage.session]⟩

def openedSession : HostSession :=
  HostSession.start.step (.opening { init := 0, left := none, found := true, claim := 0 })

theorem named_openedSession : openedSession.Named :=
  HostSession.named_step ⟨fun hinit ↦ absurd rfl hinit, fun _ ↦ ⟨rfl, rfl⟩⟩

/-- Main starts the receive loop, which enters an iteration, and the other loops; then a payload is
sent and a signal comes. -/
def signallingActions : List Action :=
  [.main, .main, .advance .rx, .main, .main, .send [7], .signal]

def signalled : HostRun :=
  ((Run.attempt (step Crc32.checksum) (fun _ _ ↦ True) (start 2 openedSession)
    signallingActions).getD (start 2 openedSession))

theorem reachable_signalled :
    Run.Reachable (step Crc32.checksum) (start 2 openedSession) signalled := by
  have hrun : Run.attempt (step Crc32.checksum) (fun _ _ ↦ True) (start 2 openedSession)
      signallingActions = some signalled := rfl
  exact .of_attempt hrun

/-- Main closes the device while the receive loop goes on. -/
def closingActions : List Action :=
  [.main, .main, .advance .tx, .main, .advance .rx, .main, .main, .advance .rx, .main,
    .finish .rx (.timeout 0) []]

def closed : HostRun :=
  ((Run.attempt (step Crc32.checksum) (fun _ _ ↦ True) signalled closingActions).getD signalled)

theorem shutdown_ends_signalled :
    (∀ worker, closed.entries worker ≤ signalled.entries worker + 1) ∧
      closed.taken ≤ signalled.taken + 1 ∧ closed.host.txQueue = closed.sent.drop closed.taken ∧
      closingActions.countP (fun action ↦ action.Works) ≤ 36 ∧
      (Drain.AtRest (step Crc32.checksum) (fun _ action ↦ action.Works) closed →
        (∀ worker, closed.stage worker = .ended) ∧
          closed.session = openedSession.step .closing) :=
  shutdown_ends reachable_signalled nofun rfl (by rfl)

end UsbDirectFabric.Daemon.HostRun
