import UsbDirectFabric.Daemon.HostShutdown

/-!
# Transfers of the host daemon after the release of the interface

A worker that has evaluated `self._handle` calls libusb with this handle, whatever main has done
since. Libusb holds the handle exactly as long as main has not come past the release in `close`, and
nothing in the code keeps main from it while a worker is in an iteration.
-/

namespace UsbDirectFabric.Daemon.HostRun

open Wire

/-- The handle with which a worker calls libusb. -/
def Stage.handle : Stage → Option (Option ℕ)
  | .loaded handle => some handle
  | .entered handle => some handle
  | _ => none

def MainStage.Holds : MainStage → Prop
  | .setting | .starting _ | .waiting | .stopping | .closing => True
  | .released | .exiting | .exited | .stopped => False

def Stage.Rests : Stage → Prop
  | .unborn | .testing | .ended => True
  | .inside | .loaded _ | .entered _ => False

/-- Main releases the interface when no worker is in an iteration any more. -/
def ReleasesLast (run : HostRun) : Action → Prop
  | .main => run.main = .closing → ∀ worker, (run.stage worker).Rests
  | _ => True

variable {crc32 : Bytes → UInt32} {run next : HostRun} {worker : Worker} {opened : HostSession}

/-! ## The handles that the workers have evaluated -/

/-- What a worker has evaluated is what `open` has stored, or `None` after the release. -/
structure Evaluated (opened : HostSession) (run : HostRun) : Prop where
  placed : run.Placed
  session : run.session = run.main.session opened
  handles : ∀ worker handle, (run.stage worker).handle = some handle →
    handle = opened.device.handle ∨ handle = none ∧ ¬run.main.Holds

theorem evaluated_start (nodeId : ℤ) (opened : HostSession) :
    Evaluated opened (start nodeId opened) where
  placed := placed_start nodeId opened
  session := rfl
  handles := by simp [start, Stage.handle]

theorem handle_position (run : HostRun) (worker : Worker) :
    (run.position worker).handle = none := by
  cases worker with
  | rx => cases hrx : run.rx <;> simp [position, rxStage, Stage.handle, hrx]
  | tx => cases htx : run.host.tx <;> simp [position, sendStage, Stage.handle, htx]
  | hb => cases hhb : run.host.hb <;> simp [position, sendStage, Stage.handle, hhb]

/-- A worker that has no handle at its new stage. -/
theorem handle_place {stage : Stage} (hstage : stage.handle = none) (other : Worker) :
    ((run.place worker stage).stage other).handle = none ∨
      ((run.place worker stage).stage other).handle = (run.stage other).handle := by
  by_cases hother : other = worker
  · subst hother
    exact .inl (by simp [place, hstage])
  · exact .inr (by simp [place, hother])

theorem handle_worked {after : HostRun} (halone : run.Alone worker after) (other : Worker) :
    ((after.worked worker).stage other).handle = none ∨
      ((after.worked worker).stage other).handle = (run.stage other).handle := by
  rw [← halone.stage]
  exact handle_place (after.handle_position worker) other

/-- A step of a worker evaluates `self._handle`, or keeps what it has, or drops it. -/
theorem handle_move (hmove : Move crc32 run worker next) (other : Worker) :
    (next.stage other).handle = none ∨
      (next.stage other).handle = some run.session.device.handle ∨
      (next.stage other).handle = (run.stage other).handle := by
  have hworked {after : HostRun} (halone : run.Alone worker after) :
      ((after.worked worker).stage other).handle = none ∨
        ((after.worked worker).stage other).handle = some run.session.device.handle ∨
        ((after.worked worker).stage other).handle = (run.stage other).handle :=
    (handle_worked halone other).imp id .inr
  cases hmove with
  | rx _ hmoves => exact hworked (alone_rxStep _ _)
  | tx _ hmoves => exact hworked (alone_txStep hmoves)
  | hb _ hmoves => exact hworked (alone_hbStep hmoves)
  | enter | leave | sleep => exact (handle_place rfl other).imp id .inr
  | load =>
      by_cases hother : other = worker
      · subst hother
        simp [load, place, Stage.handle]
      · simp [load, place, hother]
  | call hstands =>
      by_cases hother : other = worker
      · subst hother
        simp [Stage.handle, hstands]
      · simp [hother]

theorem holds_of_mainStep (hstep : run.mainStep = some next) (hholds : next.main.Holds) :
    run.main.Holds := by
  cases hmain : run.main with
  | setting | starting | waiting | stopping | closing => trivial
  | released | exited =>
      rw [mainStep, hmain] at hstep
      cases hstep
      exact hholds
  | exiting =>
      simp only [mainStep, hmain] at hstep
      split at hstep <;> cases hstep <;> exact hholds
  | stopped =>
      rw [mainStep, hmain] at hstep
      cases hstep

/-- The attribute is as `open` has left it, or reset after the release. -/
theorem handle_session (main : MainStage) :
    (main.session opened).device.handle = opened.device.handle ∨
      (main.session opened).device.handle = none ∧ ¬main.Holds := by
  cases main <;> simp [MainStage.session, MainStage.Holds, HostSession.step_closing]

theorem evaluated_step {action : Action} (hevaluated : Evaluated opened run)
    (hstep : run.step crc32 action = some next) : Evaluated opened next where
  placed := placed_step hevaluated.placed hstep
  session := session_step hevaluated.session hstep
  handles := by
    intro other handle hhandle
    cases action with
    | send payload =>
        cases hstep
        exact hevaluated.handles other handle hhandle
    | signal =>
        cases hstep
        exact hevaluated.handles other handle hhandle
    | main =>
        have hmain := mainStep_leaves hstep
        rcases hmain.stage_cases hevaluated.placed other with hsame | ⟨-, htesting⟩
        · rw [hsame] at hhandle
          refine (hevaluated.handles other handle hhandle).imp id fun ⟨hnone, hreleased⟩ ↦ ?_
          exact ⟨hnone, fun hholds ↦ hreleased (holds_of_mainStep hstep hholds)⟩
        · rw [htesting] at hhandle
          cases hhandle
    | advance worker =>
        have hmove := advance_moves hstep
        have hmain : next.main = run.main := by cases hmove <;> rfl
        rw [hmain]
        rcases handle_move hmove other with hnone | hloaded | hkept
        · rw [hhandle] at hnone
          cases hnone
        · obtain rfl := Option.some.inj (hhandle.symm.trans hloaded)
          rw [hevaluated.session]
          exact handle_session run.main
        · exact hevaluated.handles other handle (hkept.symm.trans hhandle)
    | finish worker outcome data =>
        obtain ⟨after, rfl, hfinished⟩ := finish_finished hstep
        have hmain : (after.worked worker).main = run.main := hfinished.alone.main
        rw [hmain]
        rcases handle_worked hfinished.alone other with hnone | hkept
        · rw [hhandle] at hnone
          cases hnone
        · exact hevaluated.handles other handle (hkept.symm.trans hhandle)

/-! ## What libusb holds -/

theorem session_of_holds {main : MainStage} (hholds : main.Holds) :
    main.session opened = opened := by
  cases main <;> simp only [MainStage.Holds] at hholds <;> rfl

/-- The interface was the only one that was claimed. -/
theorem claimed_session (haccounted : opened.Accounted) {main : MainStage}
    (hreleased : ¬main.Holds) : (main.session opened).library.claimed = [] := by
  have hclaimed := haccounted.claimed
  have hlibrary : (releasedLibrary opened).claimed = [] := by
    cases hhandle : opened.device.handle <;>
      simp [releasedLibrary, Libusb.after, hclaimed, hhandle]
  cases main with
  | setting | starting | waiting | stopping | closing => exact absurd trivial hreleased
  | released | exiting => exact hlibrary
  | exited =>
      cases hctx : opened.device.ctx <;>
        simpa [MainStage.session, Libusb.after, hctx] using hlibrary
  | stopped =>
      rw [MainStage.session, HostSession.step_closing, hclaimed]
      cases opened.device.handle <;> simp

/-- A worker calls libusb with a handle that it holds exactly if main has not released it. -/
theorem held_iff {number : ℕ} {handle : Option ℕ} (hnamed : opened.Named)
    (haccounted : opened.Accounted) (hopen : opened.device.handle = some number)
    (hevaluated : Evaluated opened run) (hhandle : (run.stage worker).handle = some handle) :
    (∃ held, handle = some held ∧ run.session.library.Holds held) ↔ run.main.Holds := by
  rw [hevaluated.session]
  constructor
  · rintro ⟨held, -, hclaimed, -⟩
    by_contra hreleased
    rw [claimed_session haccounted hreleased] at hclaimed
    cases hclaimed
  · intro hholds
    rcases hevaluated.handles worker handle hhandle with hequal | ⟨-, hreleased⟩
    · rw [session_of_holds hholds]
      exact ⟨number, hequal.trans hopen, hnamed.handle number hopen⟩
    · exact absurd hholds hreleased

/-! ## Runs in which main waits for the workers -/

/-- The workers rest from the release on. -/
structure Rested (run : HostRun) : Prop where
  placed : run.Placed
  cleared : run.main = .closing ∨ ¬run.main.Holds → run.running = false
  rest : ¬run.main.Holds → ∀ worker, (run.stage worker).Rests

theorem rested_start (nodeId : ℤ) (opened : HostSession) : (start nodeId opened).Rested where
  placed := placed_start nodeId opened
  cleared := by simp [start]
  rest := by simp [start, MainStage.Holds]

/-- A step of main does not take a worker out of its rest. -/
theorem rests_main (hplaced : run.Placed) (hmain : run.MainStep next)
    (hrests : ∀ worker, (run.stage worker).Rests) : ∀ worker, (next.stage worker).Rests := by
  intro worker
  rcases hmain.stage_cases hplaced worker with hsame | ⟨-, htesting⟩
  · rw [hsame]
    exact hrests worker
  · rw [htesting]
    trivial

theorem rested_mainStep (hrested : run.Rested) (hlast : run.ReleasesLast .main)
    (hstep : run.mainStep = some next) : next.Rested := by
  have hmoved := mainStep_leaves hstep
  have hplaced := placed_main hrested.placed hmoved
  by_cases hholds : run.main.Holds
  · by_cases hclosing : run.main = .closing
    · have hover := hmoved.running (by simp [hclosing]) (hrested.cleared (.inl hclosing))
      exact ⟨hplaced, fun _ ↦ hover, fun _ ↦ rests_main hrested.placed hmoved (hlast hclosing)⟩
    · unfold mainStep at hstep
      split at hstep <;> rename_i hmain
      · cases hstep
        exact ⟨hplaced, by simp [MainStage.Holds], fun hreleased ↦ absurd trivial hreleased⟩
      · cases hstep
        refine ⟨hplaced, ?_, ?_⟩ <;>
          cases ‹Worker› <;> simp [MainStage.afterStarting, MainStage.Holds]
      · cases hstep
        exact ⟨hplaced, by simp [MainStage.Holds], fun hreleased ↦ absurd trivial hreleased⟩
      · cases hstep
        exact ⟨hplaced, fun _ ↦ rfl, fun hreleased ↦ absurd trivial hreleased⟩
      · exact absurd hmain hclosing
      all_goals simp only [hmain, MainStage.Holds] at hholds
  · have hset : run.main ≠ .setting := by
      intro hsetting
      rw [hsetting] at hholds
      exact hholds trivial
    have hover := hmoved.running hset (hrested.cleared (.inr hholds))
    exact ⟨hplaced, fun _ ↦ hover, fun _ ↦
      rests_main hrested.placed hmoved (hrested.rest hholds)⟩

/-- A worker that rests while `_running` is cleared only ends. -/
theorem rests_move (hmove : Move crc32 run worker next) (hover : run.running = false)
    (hrests : ∀ other, (run.stage other).Rests) (other : Worker) : (next.stage other).Rests := by
  have hstays := hrests worker
  cases hmove with
  | enter hstands hruns =>
      rw [hover] at hruns
      cases hruns
  | leave =>
      by_cases hother : other = worker
      · subst hother
        simp [place, Stage.Rests]
      · simpa [place, hother] using hrests other
  | sleep hstands | rx hstands | tx hstands | hb hstands | load hstands | call hstands =>
      simp [hstands, Stage.Rests] at hstays

theorem rested_step {action : Action} (hrested : run.Rested) (hlast : run.ReleasesLast action)
    (hstep : run.step crc32 action = some next) : next.Rested := by
  have hplaced := placed_step hrested.placed hstep
  cases action with
  | send payload =>
      cases hstep
      exact ⟨hplaced, hrested.cleared, hrested.rest⟩
  | signal =>
      cases hstep
      exact ⟨hplaced, fun _ ↦ rfl, hrested.rest⟩
  | main => exact rested_mainStep hrested hlast hstep
  | advance worker =>
      have hmove := advance_moves hstep
      have hmain : next.main = run.main := by cases hmove <;> rfl
      have hrunning : next.running = run.running := by cases hmove <;> rfl
      refine ⟨hplaced, ?_, ?_⟩
      · rw [hmain, hrunning]
        exact hrested.cleared
      · rw [hmain]
        intro hreleased
        exact rests_move hmove (hrested.cleared (.inr hreleased)) (hrested.rest hreleased)
  | finish worker outcome data =>
      obtain ⟨after, rfl, hfinished⟩ := finish_finished hstep
      have hmain : (after.worked worker).main = run.main := hfinished.alone.main
      have hrunning : (after.worked worker).running = run.running := hfinished.alone.running
      refine ⟨hplaced, ?_, ?_⟩
      · rw [hmain, hrunning]
        exact hrested.cleared
      · rw [hmain]
        intro hreleased
        obtain ⟨handle, hstands⟩ := hfinished.stands
        have hrests := hrested.rest hreleased worker
        rw [hstands] at hrests
        exact hrests.elim

/-- **Transfers and the release.** In every order of the threads a worker calls libusb with the
handle of `open` or with `None`, and libusb holds what it is given exactly as long as main has not
released the interface. If main does so only when no worker is in an iteration any more, this is the
case of every transfer. -/
theorem transfers_held {nodeId : ℤ} {number : ℕ} {handle : Option ℕ} (hnamed : opened.Named)
    (haccounted : opened.Accounted) (hopen : opened.device.handle = some number)
    (hreach : Run.Reachable (step crc32) (start nodeId opened) run) (worker : Worker)
    (hhandle : (run.stage worker).handle = some handle) :
    (handle = some number ∨ handle = none) ∧
      ((∃ held, handle = some held ∧ run.session.library.Holds held) ↔ run.main.Holds) ∧
      (Run.Reaches (step crc32) ReleasesLast (start nodeId opened) run → run.main.Holds) := by
  have hevaluated : Evaluated opened run := hreach.invariant (evaluated_start nodeId opened)
    fun _ _ _ hevaluated _ hstep ↦ evaluated_step hevaluated hstep
  refine ⟨?_, held_iff hnamed haccounted hopen hevaluated hhandle, fun hwaits ↦ ?_⟩
  · rw [← hopen]
    exact (hevaluated.handles worker handle hhandle).imp id And.left
  · have hrested : run.Rested := hwaits.invariant (rested_start nodeId opened)
      fun _ _ _ hrested hlast hstep ↦ rested_step hrested hlast hstep
    by_contra hreleased
    have hrests := hrested.rest hreleased worker
    cases hstage : run.stage worker <;> simp [hstage, Stage.Rests, Stage.handle] at hrests hhandle

/-- The receive loop has evaluated the handle and main has released it. -/
def lateActions : List Action :=
  List.replicate 4 .main ++ [.advance .rx, .main, .main, .advance .rx, .main, .main, .main, .main,
    .advance .rx]

def late : HostRun :=
  ((Run.attempt (step Crc32.checksum) (fun _ _ ↦ True) (start 2 openedSession) lateActions).getD
    (start 2 openedSession))

theorem reachable_late : Run.Reachable (step Crc32.checksum) (start 2 openedSession) late := by
  have hrun : Run.attempt (step Crc32.checksum) (fun _ _ ↦ True) (start 2 openedSession)
      lateActions = some late := rfl
  exact .of_attempt hrun

theorem transfers_held_late :
    ((some 0 : Option ℕ) = some 0 ∨ (some 0 : Option ℕ) = none) ∧
      ((∃ held, (some 0 : Option ℕ) = some held ∧ late.session.library.Holds held) ↔
        late.main.Holds) ∧
      (Run.Reaches (step Crc32.checksum) ReleasesLast (start 2 openedSession) late →
        late.main.Holds) :=
  transfers_held named_openedSession ⟨rfl, rfl⟩ rfl reachable_late .rx rfl

end UsbDirectFabric.Daemon.HostRun
