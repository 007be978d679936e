import UsbDirectFabric.Daemon.EnableEvents
import UsbDirectFabric.Daemon.Gadget

/-!
# The threads of the gadget daemon from `start` to the end of `main`

`start` opens three endpoints and starts the loops, and `main` waits until `running` is cleared.
`_shutdown` runs `stop` in the main thread, wherever it stands: `stop` clears `running` and closes
the endpoints while the loops are still in their iterations, but it raises `AttributeError` before
that if one of the three attributes is not there yet.
-/

namespace UsbDirectFabric.Daemon

open Wire

namespace GadgetRun

inductive Endpoint
  | ep0
  | ep1
  | ep2
deriving DecidableEq, Repr

def Endpoint.all : List Endpoint := [.ep0, .ep1, .ep2]

inductive Worker
  | rx
  | tx
  | hb
deriving DecidableEq, Repr

/-- Where a worker stands. `inside` is the beginning of an iteration; `busy` is the rest of it, in
`_tx_loop` the condition of its inner loop; `writing` is the body of this loop; `calling` is inside
`os.read` or `os.write`. -/
inductive Stage
  | unborn
  | testing
  | inside
  | busy
  | writing
  | calling
  | ended
deriving DecidableEq, Repr

/-- The statement of `start` and `main` that comes next. `storing` is the assignment of an
attribute, and the two waiting loops count the rounds that they have left. -/
inductive MainStage
  | opening (endpoint : Endpoint)
  | describing
  | naming
  | storing (endpoint : Endpoint)
  | waiting (left : ℕ)
  | polling (left : ℕ)
  | starting (worker : Worker)
  | serving
  | returned
  | raised
deriving DecidableEq, Repr

inductive WriteOutcome
  | accepted (count : ℕ)
  | blocked
  | failed
deriving DecidableEq, Repr

/-- The outcome of a step of main is what its system call returns, if it does not raise. -/
inductive Action
  | signal
  | main (outcome : Option Bytes)
  | rx (outcome : Option Bytes)
  | tx (outcome : WriteOutcome)
  | hb
  | send (dst : ℤ) (payload : Bytes)
  | sendPut (sender : ℕ)
deriving DecidableEq, Repr

def Action.Advances : Action → Prop
  | .main _ => True
  | _ => False

def Action.Works : Action → Prop
  | .main _ => True
  | .rx _ => True
  | .tx _ => True
  | .hb => True
  | _ => False

instance (action : Action) : Decidable action.Advances := by
  cases action <;> unfold Action.Advances <;> infer_instance

instance (action : Action) : Decidable action.Works := by
  cases action <;> unfold Action.Works <;> infer_instance

end GadgetRun

/-- A daemon with its main thread, the attributes that are there, the endpoints that were opened and
closed and those that `stop` has still to close, how many frames `_tx_loop` has taken off the queue,
and how many reads, writes and heartbeats the loops have begun. -/
structure GadgetRun where
  daemon : GadgetDaemon
  main : GadgetRun.MainStage
  closing : List GadgetRun.Endpoint
  running : Bool
  stored : List GadgetRun.Endpoint
  opened : List GadgetRun.Endpoint
  closed : List GadgetRun.Endpoint
  stage : GadgetRun.Worker → GadgetRun.Stage
  taken : ℕ
  calls : GadgetRun.Worker → ℕ

namespace GadgetRun

/-- `start` has set `running`. -/
def start (nodeId : ℤ) : GadgetRun where
  daemon := .start nodeId
  main := .opening .ep0
  closing := []
  running := true
  stored := []
  opened := []
  closed := []
  stage := fun _ ↦ .unborn
  taken := 0
  calls := fun _ ↦ 0

variable (crc32 : Bytes → UInt32)

def place (run : GadgetRun) (worker : Worker) (stage : Stage) : GadgetRun :=
  { run with stage := Function.update run.stage worker stage }

/-! ## The main thread -/

def MainStage.afterOpening : Endpoint → MainStage
  | .ep0 => .describing
  | .ep1 => .storing .ep1
  | .ep2 => .storing .ep2

def MainStage.afterStoring : Endpoint → MainStage
  | .ep0 => .waiting 50
  | .ep1 => .opening .ep2
  | .ep2 => .starting .rx

def MainStage.afterStarting : Worker → MainStage
  | .rx => .starting .tx
  | .tx => .starting .hb
  | .hb => .serving

/-- The statement after a round of `_wait_for_enable`, which returns if its scan finds the event. -/
def MainStage.afterWaiting (left : ℕ) : Option Bytes → MainStage
  | none => .waiting left
  | some data =>
      match GadgetDaemon.scan data with
      | .ok true => .polling 50
      | .ok false => .waiting left
      | .error _ => .raised

/-- A statement of `start` or `main`; a round of `polling` ends the loop if both files are there. -/
def proceed (run : GadgetRun) (outcome : Option Bytes) : Option GadgetRun :=
  match run.main with
  | .opening endpoint =>
      if outcome.isSome then
        some { run with opened := endpoint :: run.opened, main := .afterOpening endpoint }
      else some { run with main := .raised }
  | .describing => some { run with main := if outcome.isSome then .naming else .raised }
  | .naming => some { run with main := if outcome.isSome then .storing .ep0 else .raised }
  | .storing endpoint =>
      some { run with stored := endpoint :: run.stored, main := .afterStoring endpoint }
  | .waiting 0 => some { run with main := .polling 50 }
  | .waiting (left + 1) => some { run with main := .afterWaiting left outcome }
  | .polling 0 => some { run with main := .raised }
  | .polling (left + 1) =>
      some { run with main := if outcome.isSome then .opening .ep1 else .polling left }
  | .starting worker =>
      some ({ run with main := .afterStarting worker }.place worker .testing)
  | .serving => if run.running then none else some { run with main := .returned }
  | .returned => none
  | .raised => none

/-- The main thread closes what `stop` has still to close before it goes on. -/
def mainStep (run : GadgetRun) (outcome : Option Bytes) : Option GadgetRun :=
  match run.closing with
  | endpoint :: rest => some { run with closing := rest, closed := endpoint :: run.closed }
  | [] => run.proceed outcome

/-- All attributes of the tuple in `stop` are there. -/
def Complete (run : GadgetRun) : Prop :=
  ∀ endpoint ∈ Endpoint.all, endpoint ∈ run.stored

instance (run : GadgetRun) : Decidable run.Complete := by
  unfold Complete
  infer_instance

/-- `_shutdown`, as long as main runs. -/
def signal (run : GadgetRun) : Option GadgetRun :=
  if run.main = .returned ∨ run.main = .raised then none
  else if run.Complete then
    some { run with running := false, closing := Endpoint.all ++ run.closing }
  else some { run with running := false, main := .raised }

/-! ## The loops -/

def test (run : GadgetRun) (worker : Worker) : GadgetRun :=
  run.place worker (if run.running then .inside else .ended)

def worked (run : GadgetRun) (worker : Worker) (daemon : GadgetDaemon) (stage : Stage) :
    GadgetRun :=
  { run with daemon := daemon, stage := Function.update run.stage worker stage }

def called (run : GadgetRun) (worker : Worker) : GadgetRun :=
  { run with calls := Function.update run.calls worker (run.calls worker + 1) }

def rxStage : GadgetDaemon.RxThread → Stage
  | .waiting => .testing
  | .dead => .ended
  | _ => .busy

/-- `_rx_loop`. From an endpoint that is closed before the call `os.read` raises, as it may from any
other. -/
def rx (run : GadgetRun) (outcome : Option Bytes) : Option GadgetRun :=
  match run.stage .rx with
  | .testing => some (run.test .rx)
  | .inside =>
      some ((run.called .rx).place .rx (if .ep2 ∈ run.closed then .testing else .calling))
  | .calling =>
      match outcome with
      | none => some (run.place .rx .testing)
      | some data => (run.daemon.read (.fresh 0) data).map fun result ↦
          run.worked .rx result.1 (rxStage result.1.rx)
  | .busy => (run.daemon.rxStep crc32).map fun result ↦
      run.worked .rx result.1 (rxStage result.1.rx)
  | _ => none

/-- `written < len(data)`. -/
def Unwritten : GadgetDaemon.TxThread → Prop
  | .writing _ data written => written < data.length
  | _ => False

instance (thread : GadgetDaemon.TxThread) : Decidable (Unwritten thread) := by
  cases thread <;> unfold Unwritten <;> infer_instance

/-- The inner loop of `_tx_loop` ends before all is written. -/
def abandon (run : GadgetRun) : Option GadgetRun :=
  run.daemon.txFail.map fun result ↦ run.worked .tx result.1 .testing

/-- `_tx_loop`. -/
def tx (run : GadgetRun) (outcome : WriteOutcome) : Option GadgetRun :=
  match run.stage .tx with
  | .testing => some (run.test .tx)
  | .inside =>
      if run.daemon.txQueue = [] then some (run.place .tx .testing)
      else run.daemon.txGet.map fun result ↦
        { run with taken := run.taken + 1 }.worked .tx result.1 .busy
  | .busy =>
      if Unwritten run.daemon.tx then
        if run.running then some (run.place .tx .writing) else run.abandon
      else run.daemon.txFinish.map fun result ↦ run.worked .tx result.1 .testing
  | .writing =>
      if .ep1 ∈ run.closed then (run.called .tx).abandon
      else some ((run.called .tx).place .tx .calling)
  | .calling =>
      match outcome with
      | .accepted count => (run.daemon.txWrite count).map fun result ↦
          run.worked .tx result.1 .busy
      | .blocked => some (run.place .tx .busy)
      | .failed => run.abandon
  | _ => none

def hbStage : GadgetDaemon.HbThread → Stage
  | .sleeping => .testing
  | .numbered _ => .busy
  | .dead => .ended

/-- `_hb_loop`. -/
def hb (run : GadgetRun) : Option GadgetRun :=
  match run.stage .hb with
  | .testing => some (run.test .hb)
  | .inside => (run.daemon.hbStep crc32 0).map fun result ↦
      (run.called .hb).worked .hb result.1 (hbStage result.1.hb)
  | .busy => (run.daemon.hbStep crc32 0).map fun result ↦
      run.worked .hb result.1 (hbStage result.1.hb)
  | _ => none

/-- One step of a thread, a signal, or a step of a thread in `send`. -/
def step (run : GadgetRun) : Action → Option GadgetRun
  | .signal => run.signal
  | .main outcome => run.mainStep outcome
  | .rx outcome => run.rx crc32 outcome
  | .tx outcome => run.tx outcome
  | .hb => run.hb crc32
  | .send dst payload => (run.daemon.send dst payload).map fun result ↦
      { run with daemon := result.1 }
  | .sendPut sender => (run.daemon.sendPut crc32 0 sender).map fun result ↦
      { run with daemon := result.1 }

/-! ## What a step of a loop does -/

inductive Move (crc32 : Bytes → UInt32) (run : GadgetRun) : Worker → GadgetRun → Prop
  | enter {worker : Worker} (stands : run.stage worker = .testing) (runs : run.running = true) :
      Move crc32 run worker (run.place worker .inside)
  | leave {worker : Worker} (stands : run.stage worker = .testing) (cleared : run.running = false) :
      Move crc32 run worker (run.place worker .ended)
  | rxCall {stage : Stage} (stands : run.stage .rx = .inside)
      (decides : stage = .testing ∨ stage = .calling) :
      Move crc32 run .rx ((run.called .rx).place .rx stage)
  | rxFail (stands : run.stage .rx = .calling) : Move crc32 run .rx (run.place .rx .testing)
  | rxRead {data : Bytes} {daemon : GadgetDaemon} {effect : Effect}
      (stands : run.stage .rx = .calling)
      (reads : run.daemon.read (.fresh 0) data = some (daemon, effect)) :
      Move crc32 run .rx (run.worked .rx daemon (rxStage daemon.rx))
  | rxWork {daemon : GadgetDaemon} {effect : Effect} (stands : run.stage .rx = .busy)
      (moves : GadgetDaemon.Move crc32 0 run.daemon .rxStep daemon effect) :
      Move crc32 run .rx (run.worked .rx daemon (rxStage daemon.rx))
  | txEmpty (stands : run.stage .tx = .inside) : Move crc32 run .tx (run.place .tx .testing)
  | txGet {daemon : GadgetDaemon} {effect : Effect} (stands : run.stage .tx = .inside)
      (moves : GadgetDaemon.Move crc32 0 run.daemon .txGet daemon effect) :
      Move crc32 run .tx ({ run with taken := run.taken + 1 }.worked .tx daemon .busy)
  | txRepeat (stands : run.stage .tx = .busy) (runs : run.running = true)
      (unwritten : Unwritten run.daemon.tx) : Move crc32 run .tx (run.place .tx .writing)
  | txFinish {daemon : GadgetDaemon} {effect : Effect} (stands : run.stage .tx = .busy)
      (moves : GadgetDaemon.Move crc32 0 run.daemon .txFinish daemon effect) :
      Move crc32 run .tx (run.worked .tx daemon .testing)
  | txCall (stands : run.stage .tx = .writing) :
      Move crc32 run .tx ((run.called .tx).place .tx .calling)
  | txRefuse {daemon : GadgetDaemon} {effect : Effect} (stands : run.stage .tx = .writing)
      (moves : GadgetDaemon.Move crc32 0 run.daemon .txFail daemon effect) :
      Move crc32 run .tx ((run.called .tx).worked .tx daemon .testing)
  | txFail {daemon : GadgetDaemon} {effect : Effect}
      (stands : run.stage .tx = .busy ∨ run.stage .tx = .calling)
      (moves : GadgetDaemon.Move crc32 0 run.daemon .txFail daemon effect) :
      Move crc32 run .tx (run.worked .tx daemon .testing)
  | txWrite {count : ℕ} {daemon : GadgetDaemon} {effect : Effect}
      (stands : run.stage .tx = .calling)
      (moves : GadgetDaemon.Move crc32 0 run.daemon (.txWrite count) daemon effect) :
      Move crc32 run .tx (run.worked .tx daemon .busy)
  | txBlock (stands : run.stage .tx = .calling) : Move crc32 run .tx (run.place .tx .busy)
  | hbBegin {daemon : GadgetDaemon} {effect : Effect} (stands : run.stage .hb = .inside)
      (moves : GadgetDaemon.Move crc32 0 run.daemon .hbStep daemon effect) :
      Move crc32 run .hb ((run.called .hb).worked .hb daemon (hbStage daemon.hb))
  | hbWork {daemon : GadgetDaemon} {effect : Effect} (stands : run.stage .hb = .busy)
      (moves : GadgetDaemon.Move crc32 0 run.daemon .hbStep daemon effect) :
      Move crc32 run .hb (run.worked .hb daemon (hbStage daemon.hb))

variable {crc32} {run next : GadgetRun} {worker : Worker}

theorem test_moves (hstands : run.stage worker = .testing) :
    Move crc32 run worker (run.test worker) := by
  unfold test
  cases hrunning : run.running with
  | true => exact .enter hstands hrunning
  | false => exact .leave hstands hrunning

theorem rx_moves {outcome : Option Bytes} (hstep : run.rx crc32 outcome = some next) :
    Move crc32 run .rx next := by
  unfold rx at hstep
  split at hstep
  · rename_i hstands
    cases hstep
    exact test_moves hstands
  · rename_i hstands
    cases hstep
    refine .rxCall hstands ?_
    split
    · exact .inl rfl
    · exact .inr rfl
  · rename_i hstands
    cases outcome with
    | none =>
        cases hstep
        exact .rxFail hstands
    | some data =>
        obtain ⟨⟨daemon, effect⟩, hread, rfl⟩ := Option.map_eq_some_iff.mp hstep
        exact .rxRead hstands hread
  · rename_i hstands
    obtain ⟨⟨daemon, effect⟩, hwork, rfl⟩ := Option.map_eq_some_iff.mp hstep
    exact .rxWork hstands (GadgetDaemon.rxStep_moves hwork)
  · cases hstep

theorem moves_of_txGet {daemon : GadgetDaemon} {effect : Effect}
    (hget : run.daemon.txGet = some (daemon, effect)) :
    GadgetDaemon.Move crc32 0 run.daemon .txGet daemon effect :=
  GadgetDaemon.step_moves (by simp [GadgetDaemon.step, hget])

theorem moves_of_txFail {daemon : GadgetDaemon} {effect : Effect}
    (hfail : run.daemon.txFail = some (daemon, effect)) :
    GadgetDaemon.Move crc32 0 run.daemon .txFail daemon effect :=
  GadgetDaemon.step_moves (by simp [GadgetDaemon.step, hfail])

theorem tx_moves {outcome : WriteOutcome} (hstep : run.tx outcome = some next) :
    Move crc32 run .tx next := by
  unfold tx at hstep
  split at hstep
  · rename_i hstands
    cases hstep
    exact test_moves hstands
  · rename_i hstands
    split at hstep
    · cases hstep
      exact .txEmpty hstands
    · obtain ⟨⟨daemon, effect⟩, hget, rfl⟩ := Option.map_eq_some_iff.mp hstep
      exact .txGet hstands (moves_of_txGet hget)
  · rename_i hstands
    split at hstep
    · rename_i hunwritten
      split at hstep
      · rename_i hruns
        cases hstep
        exact .txRepeat hstands hruns hunwritten
      · obtain ⟨⟨daemon, effect⟩, hfail, rfl⟩ := Option.map_eq_some_iff.mp hstep
        exact .txFail (.inl hstands) (moves_of_txFail hfail)
    · obtain ⟨⟨daemon, effect⟩, hfinish, rfl⟩ := Option.map_eq_some_iff.mp hstep
      exact .txFinish hstands (GadgetDaemon.txFinish_moves hfinish)
  · rename_i hstands
    split at hstep
    · obtain ⟨⟨daemon, effect⟩, hfail, rfl⟩ := Option.map_eq_some_iff.mp hstep
      exact .txRefuse hstands (moves_of_txFail hfail)
    · cases hstep
      exact .txCall hstands
  · rename_i hstands
    cases outcome with
    | accepted count =>
        obtain ⟨⟨daemon, effect⟩, hwrite, rfl⟩ := Option.map_eq_some_iff.mp hstep
        exact .txWrite hstands (GadgetDaemon.txWrite_moves hwrite)
    | blocked =>
        cases hstep
        exact .txBlock hstands
    | failed =>
        obtain ⟨⟨daemon, effect⟩, hfail, rfl⟩ := Option.map_eq_some_iff.mp hstep
        exact .txFail (.inr hstands) (moves_of_txFail hfail)
  · cases hstep

theorem hb_moves (hstep : run.hb crc32 = some next) : Move crc32 run .hb next := by
  unfold hb at hstep
  split at hstep
  · rename_i hstands
    cases hstep
    exact test_moves hstands
  · rename_i hstands
    obtain ⟨⟨daemon, effect⟩, hmoves, rfl⟩ := Option.map_eq_some_iff.mp hstep
    exact .hbBegin hstands (GadgetDaemon.hbStep_moves hmoves)
  · rename_i hstands
    obtain ⟨⟨daemon, effect⟩, hmoves, rfl⟩ := Option.map_eq_some_iff.mp hstep
    exact .hbWork hstands (GadgetDaemon.hbStep_moves hmoves)
  · cases hstep

/-- A loop stands in both daemons at the same place. -/
def AgreesOn (daemon after : GadgetDaemon) : Worker → Prop
  | .rx => after.rx = daemon.rx
  | .tx => after.tx = daemon.tx
  | .hb => after.hb = daemon.hb

def actor : GadgetDaemon.Action → Option Worker
  | .rxStep => some .rx
  | .txGet | .txWrite _ | .txFail | .txFinish => some .tx
  | .hbStep => some .hb
  | .send _ _ | .sendPut _ => none

theorem agreesOn_of_moves {daemon after : GadgetDaemon} {action : GadgetDaemon.Action}
    {effect : Effect} (hmoves : GadgetDaemon.Move crc32 0 daemon action after effect)
    (hother : actor action ≠ some worker) : AgreesOn daemon after worker := by
  cases worker with
  | rx =>
      cases hmoves with
      | size | account | reject | deliver | number | drop | forward | rxDie =>
          exact absurd rfl hother
      | txGet | txWhole | txPiece | txFail | txFinish | txFinishPieces | hbNumber | hbPut | hbDie
      | send | sendPut | sendRaise => rfl
  | tx =>
      cases hmoves with
      | account =>
          rw [AgreesOn, GadgetDaemon.account_eq]
      | txGet | txWhole | txPiece | txFail | txFinish | txFinishPieces => exact absurd rfl hother
      | size | reject | deliver | number | drop | forward | rxDie | hbNumber | hbPut | hbDie
      | send | sendPut | sendRaise => rfl
  | hb =>
      cases hmoves with
      | account =>
          rw [AgreesOn, GadgetDaemon.account_eq]
      | hbNumber | hbPut | hbDie => exact absurd rfl hother
      | size | reject | deliver | number | drop | forward | rxDie | txGet | txWhole | txPiece
      | txFail | txFinish | txFinishPieces | send | sendPut | sendRaise => rfl

/-- A thread in `send` leaves the loops where they stand. -/
theorem send_outside {dst : ℤ} {payload : Bytes}
    (hstep : run.step crc32 (.send dst payload) = some next) :
    ∃ daemon, (∀ worker, AgreesOn run.daemon daemon worker) ∧
      next = { run with daemon := daemon } := by
  rw [step, Option.map_eq_some_iff] at hstep
  obtain ⟨⟨daemon, effect⟩, hsend, rfl⟩ := hstep
  have hmoves : GadgetDaemon.Move crc32 0 run.daemon (.send dst payload) daemon effect :=
    GadgetDaemon.step_moves hsend
  exact ⟨daemon, fun worker ↦ agreesOn_of_moves hmoves (by simp [actor]), rfl⟩

theorem sendPut_outside {sender : ℕ} (hstep : run.step crc32 (.sendPut sender) = some next) :
    ∃ daemon, (∀ worker, AgreesOn run.daemon daemon worker) ∧
      next = { run with daemon := daemon } := by
  rw [step, Option.map_eq_some_iff] at hstep
  obtain ⟨⟨daemon, effect⟩, hput, rfl⟩ := hstep
  have hmoves := GadgetDaemon.sendPut_moves hput
  exact ⟨daemon, fun worker ↦ agreesOn_of_moves hmoves (by simp [actor]), rfl⟩

structure Held (run : GadgetRun) (worker : Worker) (next : GadgetRun) : Prop where
  main : next.main = run.main
  closing : next.closing = run.closing
  running : next.running = run.running
  stored : next.stored = run.stored
  opened : next.opened = run.opened
  closed : next.closed = run.closed
  others : ∀ other, other ≠ worker →
    next.stage other = run.stage other ∧ AgreesOn run.daemon next.daemon other
  stands : run.stage worker ≠ .unborn
  born : next.stage worker ≠ .unborn

theorem rxStage_ne_unborn (thread : GadgetDaemon.RxThread) : rxStage thread ≠ .unborn := by
  cases thread <;> simp [rxStage]

theorem hbStage_ne_unborn (thread : GadgetDaemon.HbThread) : hbStage thread ≠ .unborn := by
  cases thread <;> simp [hbStage]

theorem agreesOn_self (daemon : GadgetDaemon) (worker : Worker) :
    AgreesOn daemon daemon worker := by
  cases worker <;> rfl

/-- A worker that moves its own thread only. -/
theorem others_of_agreesOn {stage : Stage} {daemon : GadgetDaemon}
    (hagrees : ∀ other, other ≠ worker → AgreesOn run.daemon daemon other) (other : Worker)
    (hother : other ≠ worker) :
    Function.update run.stage worker stage other = run.stage other ∧
      AgreesOn run.daemon daemon other :=
  ⟨Function.update_of_ne hother stage run.stage, hagrees other hother⟩

theorem agreesOn_of_read {tag : Tag} {data : Bytes} {daemon after : GadgetDaemon} {effect : Effect}
    (hread : daemon.read tag data = some (after, effect)) (hother : worker ≠ .rx) :
    AgreesOn daemon after worker := by
  obtain ⟨-, ⟨-, rfl, -⟩ | ⟨-, rfl, -⟩⟩ := GadgetDaemon.read_cases hread
  · exact agreesOn_self after worker
  · cases worker with
    | rx => exact absurd rfl hother
    | tx | hb => rfl

theorem held_move (hmove : Move crc32 run worker next) : run.Held worker next := by
  have hself (other : Worker) (_ : other ≠ worker) : AgreesOn run.daemon run.daemon other :=
    agreesOn_self run.daemon other
  have hmoved {action : GadgetDaemon.Action} {daemon : GadgetDaemon} {effect : Effect}
      (hmoves : GadgetDaemon.Move crc32 0 run.daemon action daemon effect)
      (hactor : actor action = some worker) (other : Worker) (hother : other ≠ worker) :
      AgreesOn run.daemon daemon other :=
    agreesOn_of_moves hmoves (by simpa [hactor] using hother.symm)
  cases hmove with
  | enter hstands | leave hstands | rxFail hstands | txEmpty hstands | txRepeat hstands
  | txCall hstands | txBlock hstands =>
      refine ⟨rfl, rfl, rfl, rfl, rfl, rfl, others_of_agreesOn hself, by simp [hstands], ?_⟩
      simp [place]
  | rxCall hstands hdecides =>
      refine ⟨rfl, rfl, rfl, rfl, rfl, rfl, others_of_agreesOn hself, by simp [hstands], ?_⟩
      rcases hdecides with rfl | rfl <;> simp [place]
  | txGet hstands hmoves | txFinish hstands hmoves | txRefuse hstands hmoves
  | txWrite hstands hmoves =>
      refine ⟨rfl, rfl, rfl, rfl, rfl, rfl, others_of_agreesOn (hmoved hmoves rfl),
        by simp [hstands], ?_⟩
      simp [worked]
  | txFail hstands hmoves =>
      refine ⟨rfl, rfl, rfl, rfl, rfl, rfl, others_of_agreesOn (hmoved hmoves rfl), ?_,
        by simp [worked]⟩
      rcases hstands with hstands | hstands <;> simp [hstands]
  | rxRead hstands hread =>
      have hagrees (other : Worker) (hother : other ≠ .rx) := agreesOn_of_read hread hother
      refine ⟨rfl, rfl, rfl, rfl, rfl, rfl, others_of_agreesOn hagrees, by simp [hstands], ?_⟩
      simpa [worked] using rxStage_ne_unborn _
  | rxWork hstands hmoves =>
      refine ⟨rfl, rfl, rfl, rfl, rfl, rfl, others_of_agreesOn (hmoved hmoves rfl),
        by simp [hstands], ?_⟩
      simpa [worked] using rxStage_ne_unborn _
  | hbBegin hstands hmoves | hbWork hstands hmoves =>
      refine ⟨rfl, rfl, rfl, rfl, rfl, rfl, others_of_agreesOn (hmoved hmoves rfl),
        by simp [hstands], ?_⟩
      simpa [worked] using hbStage_ne_unborn _

end GadgetRun

end UsbDirectFabric.Daemon
