import UsbDirectFabric.Daemon.HostDevice
import UsbDirectFabric.Daemon.HostReceive
import UsbDirectFabric.Daemon.HostSurvival

/-!
# The threads of the host daemon from `run` to the end of `stop`

`run` of `UDFHost` sets `_running` and starts the worker threads; `stop` clears it and closes the
device without joining them. Each worker tests `_running` once in an iteration and evaluates
`self._handle` just before it calls `libusb_bulk_transfer`, so main and workers can run in any order
in between. The handler of both signals is in place before `run` begins, and clears `_running`.
-/

namespace UsbDirectFabric.Daemon

open Wire

namespace HostRun

inductive Worker
  | rx
  | tx
  | hb
deriving DecidableEq, Repr

/-- Where a worker stands: at the test of `_running`, in an iteration, with `self._handle` evaluated
for a call of `libusb_bulk_transfer`, in that call, or at the end. -/
inductive Stage
  | unborn
  | testing
  | inside
  | loaded (handle : Option ℕ)
  | entered (handle : Option ℕ)
  | ended
deriving DecidableEq, Repr

/-- The statement of `run`, `stop` and `close` that the main thread comes to next. -/
inductive MainStage
  | setting
  | starting (worker : Worker)
  | waiting
  | stopping
  | closing
  | released
  | exiting
  | exited
  | stopped
deriving DecidableEq, Repr

inductive Action
  | send (payload : Bytes)
  | signal
  | main
  | advance (worker : Worker)
  | finish (worker : Worker) (outcome : UDFHost.Outcome) (data : Bytes)
deriving DecidableEq, Repr

def Action.Works : Action → Prop
  | .send _ => False
  | .signal => False
  | _ => True

instance (action : Action) : Decidable action.Works :=
  match action with
  | .send _ => isFalse id
  | .signal => isFalse id
  | .main => isTrue trivial
  | .advance _ => isTrue trivial
  | .finish _ _ _ => isTrue trivial

end HostRun

/-- A host in `run`, with what was given to `send`, how many payloads `_tx_loop` has taken off the
queue, and how often each worker has called `libusb_bulk_transfer`. -/
structure HostRun where
  host : UDFHost
  receiver : HostReceiver
  rx : HostReceiver.RxThread
  session : HostSession
  running : Bool
  main : HostRun.MainStage
  stage : HostRun.Worker → HostRun.Stage
  sent : List Bytes
  taken : ℕ
  entries : HostRun.Worker → ℕ

namespace HostRun

/-- `open` has returned. -/
def start (nodeId : ℤ) (session : HostSession) : HostRun where
  host := .start nodeId
  receiver := .start
  rx := .reading
  session := session
  running := false
  main := .setting
  stage := fun _ ↦ .unborn
  sent := []
  taken := 0
  entries := fun _ ↦ 0

variable (crc32 : Bytes → UInt32)

def send (run : HostRun) (payload : Bytes) : HostRun :=
  { run with host := run.host.send payload, sent := run.sent ++ [payload] }

def place (run : HostRun) (worker : Worker) (stage : Stage) : HostRun :=
  { run with stage := Function.update run.stage worker stage }

/-- The loop over the threads in `run`. -/
def MainStage.afterStarting : Worker → MainStage
  | .rx => .starting .tx
  | .tx => .starting .hb
  | .hb => .waiting

/-- The main thread: `run` sets `_running` and starts the workers; its wait ends, also by
`KeyboardInterrupt`; `stop` clears `_running`; `close` releases what `_handle` and `_ctx` name and
resets them. -/
def mainStep (run : HostRun) : Option HostRun :=
  match run.main with
  | .setting => some { run with running := true, main := .starting .rx }
  | .starting worker =>
      some { run.place worker .testing with main := .afterStarting worker }
  | .waiting => some { run with main := .stopping }
  | .stopping => some { run with running := false, main := .closing }
  | .closing =>
      match run.session.device.handle with
      | none => some { run with main := .exiting }
      | some handle =>
          some { run with
            session.library := run.session.library.after (.releaseInterface handle)
            main := .released }
  | .released => some { run with session.device.handle := none, main := .exiting }
  | .exiting =>
      match run.session.device.ctx with
      | none => some { run with main := .stopped }
      | some ctx =>
          some { run with
            session.library := run.session.library.after (.exit ctx)
            main := .exited }
  | .exited => some { run with session.device.ctx := none, main := .stopped }
  | .stopped => none

/-- Where a sending thread stands when it is not in its transfer; one that raises is at its end. -/
def sendStage {job : Type} : UDFHost.Thread job → Stage
  | .idle => .testing
  | .dead => .ended
  | .taken _ | .numbered _ _ | .packed _ _ | .counting _ | .sizing _ => .inside

def rxStage : HostReceiver.RxThread → Stage
  | .reading => .testing
  | .dead => .ended
  | .received _ | .counted _ _ | .sized _ => .inside

def position (run : HostRun) : Worker → Stage
  | .rx => rxStage run.rx
  | .tx => sendStage run.host.tx
  | .hb => sendStage run.host.hb

/-- A worker has made a step of its iteration, which may be over with it. -/
def worked (run : HostRun) (worker : Worker) : HostRun :=
  run.place worker (run.position worker)

/-- `self._handle` is evaluated. -/
def load (run : HostRun) (worker : Worker) : HostRun :=
  run.place worker (.loaded run.session.device.handle)

def took (run : HostRun) (host : UDFHost) : HostRun :=
  { run with
    host := host
    taken := run.taken + (run.host.txQueue.length - host.txQueue.length) }

/-- A step of an iteration before or after the transfer. `_tx_loop` sleeps if the queue is empty. -/
def turn (run : HostRun) : Worker → Option HostRun
  | .rx =>
      match run.rx with
      | .reading => some (run.load .rx)
      | _ => (run.receiver.rxStep crc32 run.rx).map fun (receiver, rx) ↦
          { run with receiver := receiver, rx := rx }.worked .rx
  | .tx =>
      match run.host.tx, run.host.txQueue with
      | .packed _ _, _ => some (run.load .tx)
      | .idle, [] => some (run.place .tx .testing)
      | _, _ => (run.host.txStep crc32).map fun host ↦ (run.took host).worked .tx
  | .hb =>
      match run.host.hb with
      | .packed _ _ => some (run.load .hb)
      | _ => (run.host.hbStep crc32).map fun host ↦ (run.took host).worked .hb

/-- The next step of a worker that is not in a transfer. -/
def advance (run : HostRun) (worker : Worker) : Option HostRun :=
  match run.stage worker with
  | .testing => some (run.place worker (if run.running then .inside else .ended))
  | .inside => run.turn crc32 worker
  | .loaded handle =>
      some { run with
        entries := Function.update run.entries worker (run.entries worker + 1)
        stage := Function.update run.stage worker (.entered handle) }
  | _ => none

/-- What a worker does with the result of its transfer. -/
def transferred (run : HostRun) (outcome : UDFHost.Outcome) (data : Bytes) :
    Worker → Option HostRun
  | .rx =>
      match outcome with
      | .success => some { run with rx := .received data }
      | .timeout _ => some { run with host := { run.host with timeouts := run.host.timeouts + 1 } }
      | .failure _ => some run
  | .tx => (run.host.txWrite outcome).map fun result ↦ { run with host := result.1 }
  | .hb => (run.host.hbWrite outcome).map fun result ↦ { run with host := result.1 }

/-- `libusb_bulk_transfer` returns. -/
def finish (run : HostRun) (worker : Worker) (outcome : UDFHost.Outcome) (data : Bytes) :
    Option HostRun :=
  match run.stage worker with
  | .entered _ => (run.transferred outcome data worker).map fun next ↦ next.worked worker
  | _ => none

/-- One step of a thread, a call of `send`, or a signal. -/
def step (run : HostRun) : Action → Option HostRun
  | .send payload => some (run.send payload)
  | .signal => some { run with running := false }
  | .main => run.mainStep
  | .advance worker => run.advance crc32 worker
  | .finish worker outcome data => run.finish worker outcome data

/-! ## What a step of a worker does -/

/-- A worker in an iteration has nothing to do before its transfer any more. -/
def Ready (run : HostRun) : Worker → Prop
  | .rx => run.rx = .reading
  | .tx => ∃ seq packet, run.host.tx = .packed seq packet
  | .hb => ∃ seq packet, run.host.hb = .packed seq packet

inductive Move (crc32 : Bytes → UInt32) (run : HostRun) : Worker → HostRun → Prop
  | enter {worker : Worker} (stands : run.stage worker = .testing) (runs : run.running = true) :
      Move crc32 run worker (run.place worker .inside)
  | leave {worker : Worker} (stands : run.stage worker = .testing) (cleared : run.running = false) :
      Move crc32 run worker (run.place worker .ended)
  | sleep (stands : run.stage .tx = .inside) (idle : run.host.tx = .idle)
      (empty : run.host.txQueue = []) : Move crc32 run .tx (run.place .tx .testing)
  | rx {receiver : HostReceiver} {rx : HostReceiver.RxThread} (stands : run.stage .rx = .inside)
      (moves : HostReceiver.RxMove crc32 run.receiver run.rx receiver rx) :
      Move crc32 run .rx ({ run with receiver := receiver, rx := rx }.worked .rx)
  | tx {host : UDFHost} (stands : run.stage .tx = .inside)
      (moves : UDFHost.Move crc32 run.host .txStep host []) :
      Move crc32 run .tx ((run.took host).worked .tx)
  | hb {host : UDFHost} (stands : run.stage .hb = .inside)
      (moves : UDFHost.Move crc32 run.host .hbStep host []) :
      Move crc32 run .hb ((run.took host).worked .hb)
  | load {worker : Worker} (stands : run.stage worker = .inside) (ready : run.Ready worker) :
      Move crc32 run worker (run.load worker)
  | call {worker : Worker} {handle : Option ℕ} (stands : run.stage worker = .loaded handle) :
      Move crc32 run worker
        { run with
          entries := Function.update run.entries worker (run.entries worker + 1)
          stage := Function.update run.stage worker (.entered handle) }

variable {crc32} {run next : HostRun} {worker : Worker}

theorem moves_of_txStep {host : UDFHost} (hstep : run.host.txStep crc32 = some host) :
    UDFHost.Move crc32 run.host .txStep host [] :=
  UDFHost.step_moves (by simp [UDFHost.step, hstep])

theorem moves_of_hbStep {host : UDFHost} (hstep : run.host.hbStep crc32 = some host) :
    UDFHost.Move crc32 run.host .hbStep host [] :=
  UDFHost.step_moves (by simp [UDFHost.step, hstep])

theorem advance_moves (hstep : run.advance crc32 worker = some next) :
    Move crc32 run worker next := by
  unfold advance at hstep
  split at hstep
  · rename_i hstands
    cases hstep
    cases hrunning : run.running with
    | true => exact .enter hstands hrunning
    | false => exact .leave hstands hrunning
  · rename_i hstands
    cases worker with
    | rx =>
        simp only [turn] at hstep
        split at hstep
        · rename_i hthread
          cases hstep
          exact .load hstands hthread
        · obtain ⟨⟨receiver, rx⟩, hmoves, rfl⟩ := Option.map_eq_some_iff.mp hstep
          exact .rx hstands (HostReceiver.rxStep_moves hmoves)
    | tx =>
        simp only [turn] at hstep
        split at hstep
        · rename_i hthread
          cases hstep
          exact .load hstands ⟨_, _, hthread⟩
        · rename_i hthread hqueue
          cases hstep
          exact .sleep hstands hthread hqueue
        · obtain ⟨host, hmoves, rfl⟩ := Option.map_eq_some_iff.mp hstep
          exact .tx hstands (moves_of_txStep hmoves)
    | hb =>
        simp only [turn] at hstep
        split at hstep
        · rename_i hthread
          cases hstep
          exact .load hstands ⟨_, _, hthread⟩
        · obtain ⟨host, hmoves, rfl⟩ := Option.map_eq_some_iff.mp hstep
          exact .hb hstands (moves_of_hbStep hmoves)
  · rename_i hstands
    cases hstep
    exact .call hstands
  · cases hstep

/-- A worker has done something that concerns no other thread. -/
structure Alone (run : HostRun) (worker : Worker) (after : HostRun) : Prop where
  stage : after.stage = run.stage
  session : after.session = run.session
  main : after.main = run.main
  running : after.running = run.running
  sent : after.sent = run.sent
  entries : after.entries = run.entries
  rx : worker ≠ .rx → after.rx = run.rx
  tx : worker ≠ .tx → after.host.tx = run.host.tx
  hb : worker ≠ .hb → after.host.hb = run.host.hb

def Transferred (run after : HostRun) : Worker → Prop
  | .rx => after.rx = run.rx ∨ ∃ data, after.rx = .received data
  | .tx => after.host.tx = .idle ∨ ∃ length, after.host.tx = .counting length
  | .hb => after.host.hb = .idle ∨ ∃ length, after.host.hb = .counting length

/-- What a worker has done when its transfer is over. -/
structure Finished (run : HostRun) (worker : Worker) (after : HostRun) : Prop where
  stands : ∃ handle, run.stage worker = .entered handle
  alone : run.Alone worker after
  taken : after.taken = run.taken
  queue : after.host.txQueue = run.host.txQueue
  transferred : run.Transferred after worker

theorem alone_rx (rx : HostReceiver.RxThread) (timeouts : ℕ) :
    run.Alone .rx { run with rx := rx, host.timeouts := timeouts } where
  stage := rfl
  session := rfl
  main := rfl
  running := rfl
  sent := rfl
  entries := rfl
  rx hother := absurd rfl hother
  tx _ := rfl
  hb _ := rfl

/-- A sending loop changes its own position on the host and nothing of the other one. -/
theorem alone_sender {host : UDFHost} {taken : ℕ}
    (htx : worker ≠ .tx → host.tx = run.host.tx) (hhb : worker ≠ .hb → host.hb = run.host.hb) :
    run.Alone worker { run with host := host, taken := taken } where
  stage := rfl
  session := rfl
  main := rfl
  running := rfl
  sent := rfl
  entries := rfl
  rx _ := rfl
  tx := htx
  hb := hhb

/-- A write that is over leaves the loop idle or with the counting to do. -/
theorem txWrite_frame {host after : UDFHost} {outcome : UDFHost.Outcome} {passed : List Bytes}
    (hwrite : host.txWrite outcome = some (after, passed)) :
    after.txQueue = host.txQueue ∧ after.hb = host.hb ∧
      (after.tx = .idle ∨ ∃ length, after.tx = .counting length) := by
  unfold UDFHost.txWrite at hwrite
  split at hwrite
  · rename_i seq packet hstands
    cases hwrite
    have hwrites : @UDFHost.bulkWrite Bytes host packet outcome = _ := rfl
    obtain ⟨-, hqueue, -, hhb, hthread⟩ := UDFHost.bulkWrite_wrote hwrites
    exact ⟨hqueue, hhb, hthread⟩
  · cases hwrite

theorem hbWrite_frame {host after : UDFHost} {outcome : UDFHost.Outcome} {passed : List Bytes}
    (hwrite : host.hbWrite outcome = some (after, passed)) :
    after.txQueue = host.txQueue ∧ after.tx = host.tx ∧
      (after.hb = .idle ∨ ∃ length, after.hb = .counting length) := by
  unfold UDFHost.hbWrite at hwrite
  split at hwrite
  · rename_i seq packet hstands
    cases hwrite
    have hwrites : @UDFHost.bulkWrite Unit host packet outcome = _ := rfl
    obtain ⟨-, hqueue, htx, -, hthread⟩ := UDFHost.bulkWrite_wrote hwrites
    exact ⟨hqueue, htx, hthread⟩
  · cases hwrite

theorem finish_finished {outcome : UDFHost.Outcome} {data : Bytes}
    (hstep : run.finish worker outcome data = some next) :
    ∃ after, next = after.worked worker ∧ run.Finished worker after := by
  unfold finish at hstep
  split at hstep
  · rename_i handle hstands
    obtain ⟨after, htransferred, rfl⟩ := Option.map_eq_some_iff.mp hstep
    refine ⟨after, rfl, ?_⟩
    cases worker with
    | rx =>
        cases outcome with
        | success =>
            cases htransferred
            exact ⟨⟨handle, hstands⟩, alone_rx _ run.host.timeouts, rfl, rfl, .inr ⟨data, rfl⟩⟩
        | timeout =>
            cases htransferred
            exact ⟨⟨handle, hstands⟩, alone_rx run.rx _, rfl, rfl, .inl rfl⟩
        | failure =>
            cases htransferred
            exact ⟨⟨handle, hstands⟩, alone_rx run.rx run.host.timeouts, rfl, rfl, .inl rfl⟩
    | tx =>
        obtain ⟨⟨host, passed⟩, hwrite, rfl⟩ := Option.map_eq_some_iff.mp htransferred
        obtain ⟨hqueue, hhb, hdone⟩ := txWrite_frame hwrite
        have halone : run.Alone .tx { run with host := host } :=
          alone_sender (fun hother ↦ absurd rfl hother) fun _ ↦ hhb
        exact ⟨⟨handle, hstands⟩, halone, rfl, hqueue, hdone⟩
    | hb =>
        obtain ⟨⟨host, passed⟩, hwrite, rfl⟩ := Option.map_eq_some_iff.mp htransferred
        obtain ⟨hqueue, htx, hdone⟩ := hbWrite_frame hwrite
        have halone : run.Alone .hb { run with host := host } :=
          alone_sender (fun _ ↦ htx) fun hother ↦ absurd rfl hother
        exact ⟨⟨handle, hstands⟩, halone, rfl, hqueue, hdone⟩
  · cases hstep

/-! ## Where the workers stand -/

/-- The position of a sending loop in its iteration agrees with the stage of its thread. -/
def Fitting {job : Type} (thread : UDFHost.Thread job) : Stage → Prop
  | .unborn | .testing => thread = .idle
  | .inside => thread ≠ .dead
  | .loaded _ | .entered _ => ∃ seq packet, thread = .packed seq packet
  | .ended => True

def FittingRx (thread : HostReceiver.RxThread) : Stage → Prop
  | .unborn | .testing | .loaded _ | .entered _ => thread = .reading
  | .inside => thread ≠ .dead
  | .ended => True

def Fits (host : UDFHost) (rx : HostReceiver.RxThread) : Worker → Stage → Prop
  | .rx => FittingRx rx
  | .tx => Fitting host.tx
  | .hb => Fitting host.hb

def MainStage.unborn : MainStage → List Worker
  | .setting | .starting .rx => [.rx, .tx, .hb]
  | .starting .tx => [.tx, .hb]
  | .starting .hb => [.hb]
  | _ => []

structure Placed (run : HostRun) : Prop where
  fits : ∀ worker, Fits run.host run.rx worker (run.stage worker)
  untaken : ∀ work, run.host.hb ≠ .taken work
  unborn : ∀ worker, run.stage worker = .unborn ↔ worker ∈ run.main.unborn

theorem placed_start (nodeId : ℤ) (session : HostSession) : (start nodeId session).Placed where
  fits worker := by cases worker <;> rfl
  untaken work := by simp [start, UDFHost.start]
  unborn worker := by cases worker <;> simp [start, MainStage.unborn]

theorem fits_position (run : HostRun) (worker : Worker) :
    Fits run.host run.rx worker (run.position worker) := by
  cases worker with
  | rx => cases hrx : run.rx <;> simp [position, rxStage, Fits, FittingRx, hrx]
  | tx => cases htx : run.host.tx <;> simp [position, sendStage, Fits, Fitting, htx]
  | hb => cases hhb : run.host.hb <;> simp [position, sendStage, Fits, Fitting, hhb]

theorem position_ne_unborn (run : HostRun) (worker : Worker) :
    run.position worker ≠ .unborn := by
  cases worker with
  | rx => cases hrx : run.rx <;> simp [position, rxStage, hrx]
  | tx => cases htx : run.host.tx <;> simp [position, sendStage, htx]
  | hb => cases hhb : run.host.hb <;> simp [position, sendStage, hhb]

theorem Alone.fits {after : HostRun} (halone : run.Alone worker after) {other : Worker}
    (hother : other ≠ worker) : Fits after.host after.rx other = Fits run.host run.rx other := by
  cases other with
  | rx => simp only [Fits, halone.rx (Ne.symm hother)]
  | tx => simp only [Fits, halone.tx (Ne.symm hother)]
  | hb => simp only [Fits, halone.hb (Ne.symm hother)]

/-- A worker that has been started changes its stage. -/
theorem placed_place {stage : Stage} (hplaced : run.Placed)
    (hfits : Fits run.host run.rx worker stage) (hborn : run.stage worker ≠ .unborn)
    (hstage : stage ≠ .unborn) : (run.place worker stage).Placed where
  fits other := by
    by_cases hother : other = worker
    · subst hother
      simpa [place] using hfits
    · simpa [place, hother] using hplaced.fits other
  untaken := hplaced.untaken
  unborn other := by
    by_cases hother : other = worker
    · subst hother
      have hlate : other ∉ run.main.unborn := fun hmem ↦ hborn ((hplaced.unborn other).mpr hmem)
      simpa [place, hstage] using hlate
    · simpa [place, hother] using hplaced.unborn other

/-- A worker that has been started makes a step of its loop. -/
theorem placed_worked {after : HostRun} (hplaced : run.Placed) (halone : run.Alone worker after)
    (huntaken : ∀ work, after.host.hb ≠ .taken work) (hborn : run.stage worker ≠ .unborn) :
    (after.worked worker).Placed where
  fits other := by
    by_cases hother : other = worker
    · subst hother
      simpa [worked, place] using after.fits_position other
    · simpa [worked, place, hother, halone.stage, halone.fits hother] using hplaced.fits other
  untaken := huntaken
  unborn other := by
    have hkept := hplaced.unborn other
    rw [← halone.main, ← halone.stage] at hkept
    by_cases hother : other = worker
    · subst hother
      rw [← halone.stage] at hborn
      have hlate : other ∉ after.main.unborn := fun hmem ↦ hborn (hkept.mpr hmem)
      simpa [worked, place, after.position_ne_unborn other] using hlate
    · simpa [worked, place, hother] using hkept

theorem alone_took {host : UDFHost} (htx : worker ≠ .tx → host.tx = run.host.tx)
    (hhb : worker ≠ .hb → host.hb = run.host.hb) : run.Alone worker (run.took host) :=
  alone_sender htx hhb

theorem alone_txStep {host : UDFHost} (hmoves : UDFHost.Move crc32 run.host .txStep host []) :
    run.Alone .tx (run.took host) := by
  refine alone_took (fun hother ↦ absurd rfl hother) fun _ ↦ ?_
  cases hmoves <;> rfl

theorem alone_hbStep {host : UDFHost} (hmoves : UDFHost.Move crc32 run.host .hbStep host []) :
    run.Alone .hb (run.took host) := by
  refine alone_took (fun _ ↦ ?_) fun hother ↦ absurd rfl hother
  cases hmoves <;> rfl

theorem alone_rxStep (receiver : HostReceiver) (rx : HostReceiver.RxThread) :
    run.Alone .rx { run with receiver := receiver, rx := rx } where
  stage := rfl
  session := rfl
  main := rfl
  running := rfl
  sent := rfl
  entries := rfl
  rx hother := absurd rfl hother
  tx _ := rfl
  hb _ := rfl

theorem placed_move (hplaced : run.Placed) (hmove : Move crc32 run worker next) : next.Placed := by
  have hfits := hplaced.fits worker
  have hborn {stage : Stage} (hstands : run.stage worker = stage) (hstage : stage ≠ .unborn) :
      run.stage worker ≠ .unborn := by
    rw [hstands]
    exact hstage
  cases hmove with
  | enter hstands hruns =>
      refine placed_place hplaced ?_ (hborn hstands nofun) nofun
      rw [hstands] at hfits
      cases worker <;> simp_all [Fits, Fitting, FittingRx]
  | leave hstands hover =>
      refine placed_place hplaced ?_ (hborn hstands nofun) nofun
      cases worker <;> trivial
  | sleep hstands hidle hempty => exact placed_place hplaced hidle (hborn hstands nofun) nofun
  | load hstands hready =>
      refine placed_place hplaced ?_ (hborn hstands nofun) nofun
      cases worker <;> exact hready
  | @call _ handle hstands =>
      have hcalled : (run.place worker (.entered handle)).Placed := by
        refine placed_place hplaced ?_ (hborn hstands nofun) nofun
        rw [hstands] at hfits
        cases worker <;> exact hfits
      exact ⟨hcalled.fits, hcalled.untaken, hcalled.unborn⟩
  | rx hstands hmoves =>
      exact placed_worked hplaced (alone_rxStep _ _) hplaced.untaken (hborn hstands nofun)
  | @tx host hstands hmoves =>
      have hsame : host.hb = run.host.hb := by cases hmoves <;> rfl
      refine placed_worked hplaced (alone_txStep hmoves) ?_ (hborn hstands nofun)
      simpa [took, hsame] using hplaced.untaken
  | hb hstands hmoves =>
      refine placed_worked hplaced (alone_hbStep hmoves) ?_ (hborn hstands nofun)
      cases hmoves <;> simp [took]

theorem placed_finished {after : HostRun} (hplaced : run.Placed)
    (hfinished : run.Finished worker after) : (after.worked worker).Placed := by
  obtain ⟨⟨handle, hstands⟩, halone, -, -, htransferred⟩ := hfinished
  refine placed_worked hplaced halone ?_ (by simp [hstands])
  intro work
  by_cases hworker : worker = .hb
  · subst hworker
    rcases htransferred with hidle | ⟨length, hcounting⟩
    · simp [hidle]
    · simp [hcounting]
  · rw [halone.hb hworker]
    exact hplaced.untaken work

/-! ## What the main thread does -/

def MainStage.rank : MainStage → ℕ
  | .setting => 10
  | .starting .rx => 9
  | .starting .tx => 8
  | .starting .hb => 7
  | .waiting => 6
  | .stopping => 5
  | .closing => 4
  | .released => 3
  | .exiting => 2
  | .exited => 1
  | .stopped => 0

theorem rank_afterStarting (worker : Worker) :
    (MainStage.afterStarting worker).rank < (MainStage.starting worker).rank := by
  cases worker <;> decide

theorem mem_unborn_afterStarting (started worker : Worker) :
    worker ∈ (MainStage.afterStarting started).unborn ↔
      worker ∈ (MainStage.starting started).unborn ∧ worker ≠ started := by
  cases started <;> cases worker <;> decide

/-- The main thread starts the workers and leaves them alone otherwise. -/
structure MainStep (run next : HostRun) : Prop where
  host : next.host = run.host
  rx : next.rx = run.rx
  sent : next.sent = run.sent
  taken : next.taken = run.taken
  entries : next.entries = run.entries
  stage : next.stage = run.stage ∧ next.main.unborn = run.main.unborn ∨
    ∃ worker, run.main = .starting worker ∧ next.main = .afterStarting worker ∧
      next.stage = Function.update run.stage worker .testing
  running : run.main ≠ .setting → run.running = false → next.running = false
  set : next.main ≠ .setting
  main : next.main.rank < run.main.rank

theorem mainStep_leaves (hstep : run.mainStep = some next) : run.MainStep next := by
  unfold mainStep at hstep
  split at hstep
  · rename_i hmain
    cases hstep
    refine ⟨rfl, rfl, rfl, rfl, rfl, .inl ⟨rfl, ?_⟩, fun hset ↦ absurd hmain hset, nofun, ?_⟩
    · rw [hmain]
      rfl
    · simp [hmain, MainStage.rank]
  · rename_i worker hmain
    cases hstep
    refine ⟨rfl, rfl, rfl, rfl, rfl, .inr ⟨worker, hmain, rfl, rfl⟩, fun _ ↦ id, ?_, ?_⟩
    · cases worker <;> nofun
    · simpa [hmain] using rank_afterStarting worker
  · rename_i hmain
    cases hstep
    exact ⟨rfl, rfl, rfl, rfl, rfl, .inl ⟨rfl, by rw [hmain]; rfl⟩, fun _ ↦ id, nofun,
      by simp [hmain, MainStage.rank]⟩
  · rename_i hmain
    cases hstep
    exact ⟨rfl, rfl, rfl, rfl, rfl, .inl ⟨rfl, by rw [hmain]; rfl⟩, fun _ _ ↦ rfl, nofun,
      by simp [hmain, MainStage.rank]⟩
  · rename_i hmain
    split at hstep <;> cases hstep <;>
      exact ⟨rfl, rfl, rfl, rfl, rfl, .inl ⟨rfl, by rw [hmain]; rfl⟩, fun _ ↦ id, nofun,
        by simp [hmain, MainStage.rank]⟩
  · rename_i hmain
    cases hstep
    exact ⟨rfl, rfl, rfl, rfl, rfl, .inl ⟨rfl, by rw [hmain]; rfl⟩, fun _ ↦ id, nofun,
      by simp [hmain, MainStage.rank]⟩
  · rename_i hmain
    split at hstep <;> cases hstep <;>
      exact ⟨rfl, rfl, rfl, rfl, rfl, .inl ⟨rfl, by rw [hmain]; rfl⟩, fun _ ↦ id, nofun,
        by simp [hmain, MainStage.rank]⟩
  · rename_i hmain
    cases hstep
    exact ⟨rfl, rfl, rfl, rfl, rfl, .inl ⟨rfl, by rw [hmain]; rfl⟩, fun _ ↦ id, nofun,
      by simp [hmain, MainStage.rank]⟩
  · cases hstep

/-- A worker that main does not leave as it is has not been started before. -/
theorem MainStep.stage_cases (hmain : run.MainStep next) (hplaced : run.Placed)
    (worker : Worker) : next.stage worker = run.stage worker ∨
      run.stage worker = .unborn ∧ next.stage worker = .testing := by
  rcases hmain.stage with ⟨hstage, -⟩ | ⟨started, hstands, -, hstage⟩
  · exact .inl (by rw [hstage])
  · by_cases hworker : worker = started
    · subst hworker
      refine .inr ⟨(hplaced.unborn worker).mpr ?_, by simp [hstage]⟩
      rw [hstands]
      cases worker <;> decide
    · exact .inl (by simp [hstage, hworker])

theorem placed_main (hplaced : run.Placed) (hmain : run.MainStep next) : next.Placed where
  fits worker := by
    have hbefore := hplaced.fits worker
    rw [hmain.host, hmain.rx]
    rcases hmain.stage_cases hplaced worker with hsame | ⟨hunborn, htesting⟩
    · rw [hsame]
      exact hbefore
    · rw [hunborn] at hbefore
      rw [htesting]
      cases worker <;> exact hbefore
  untaken := by
    rw [hmain.host]
    exact hplaced.untaken
  unborn worker := by
    have hbefore := hplaced.unborn worker
    rcases hmain.stage with ⟨hstage, hunborn⟩ | ⟨started, hstands, hafter, hstage⟩
    · rw [hstage, hunborn]
      exact hbefore
    · rw [hafter, mem_unborn_afterStarting, ← hstands, ← hbefore, hstage]
      by_cases hworker : worker = started
      · subst hworker
        simp
      · simp [hworker]

theorem placed_step {action : Action} (hplaced : run.Placed)
    (hstep : run.step crc32 action = some next) : next.Placed := by
  have hkept {after : HostRun} (hrx : after.rx = run.rx) (htx : after.host.tx = run.host.tx)
      (hhb : after.host.hb = run.host.hb) (hstage : after.stage = run.stage)
      (hmain : after.main = run.main) : after.Placed := by
    refine ⟨fun worker ↦ ?_, hhb ▸ hplaced.untaken, hstage ▸ hmain ▸ hplaced.unborn⟩
    have hbefore := hplaced.fits worker
    rw [hstage]
    cases worker with
    | rx => simpa [Fits, hrx] using hbefore
    | tx => simpa [Fits, htx] using hbefore
    | hb => simpa [Fits, hhb] using hbefore
  cases action with
  | send payload =>
      cases hstep
      exact hkept rfl rfl rfl rfl rfl
  | signal =>
      cases hstep
      exact hkept rfl rfl rfl rfl rfl
  | main => exact placed_main hplaced (mainStep_leaves hstep)
  | advance worker => exact placed_move hplaced (advance_moves hstep)
  | finish worker outcome data =>
      obtain ⟨after, rfl, hfinished⟩ := finish_finished hstep
      exact placed_finished hplaced hfinished

end HostRun

end UsbDirectFabric.Daemon
