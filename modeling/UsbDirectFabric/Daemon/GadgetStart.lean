import UsbDirectFabric.Daemon.GadgetRun
import UsbDirectFabric.Foundation.Crc32
import UsbDirectFabric.Foundation.Drain

/-!
# What the gadget daemon opens, starts and closes

Every statement of `start` and `main` stands for what has been opened, stored and started before it,
as long as nothing has raised. A signal that comes before the last attribute is stored ends main
with `AttributeError`, and the endpoints that are open then stay open.
-/

namespace UsbDirectFabric.Daemon.GadgetRun

open Wire

variable {crc32 : Bytes → UInt32} {run next : GadgetRun} {worker : Worker}

/-! ## What has happened before a statement -/

def MainStage.opened : MainStage → List Endpoint
  | .opening .ep0 => []
  | .describing | .naming | .storing .ep0 | .waiting _ | .polling _ | .opening .ep1 => [.ep0]
  | .storing .ep1 | .opening .ep2 => [.ep1, .ep0]
  | .storing .ep2 | .starting _ | .serving | .returned => [.ep2, .ep1, .ep0]
  | .raised => []

def MainStage.stored : MainStage → List Endpoint
  | .opening .ep0 | .describing | .naming | .storing .ep0 => []
  | .waiting _ | .polling _ | .opening .ep1 | .storing .ep1 => [.ep0]
  | .opening .ep2 | .storing .ep2 => [.ep1, .ep0]
  | .starting _ | .serving | .returned => [.ep2, .ep1, .ep0]
  | .raised => []

def MainStage.unborn : MainStage → List Worker
  | .starting .rx => [.rx, .tx, .hb]
  | .starting .tx => [.tx, .hb]
  | .starting .hb => [.hb]
  | .serving | .returned => []
  | .opening _ | .describing | .naming | .storing _ | .waiting _ | .polling _ | .raised =>
      [.rx, .tx, .hb]

def MainStage.rank : MainStage → ℕ
  | .opening .ep0 => 113
  | .describing => 112
  | .naming => 111
  | .storing .ep0 => 110
  | .waiting left => 59 + left
  | .polling left => 8 + left
  | .opening .ep1 => 8
  | .storing .ep1 => 7
  | .opening .ep2 => 6
  | .storing .ep2 => 5
  | .starting .rx => 4
  | .starting .tx => 3
  | .starting .hb => 2
  | .serving => 1
  | .returned | .raised => 0

/-- Something is still missing before the threads can be started. -/
def MainStage.Early (main : MainStage) : Prop :=
  main ≠ .raised ∧ Endpoint.ep2 ∉ main.stored

/-- A statement that opens, stores and starts nothing, and the one after it. -/
inductive MainStage.Leads : MainStage → MainStage → Prop
  | describing : Leads .describing .naming
  | naming : Leads .naming (.storing .ep0)
  | enabled (left : ℕ) : Leads (.waiting left) (.polling 50)
  | waits (left : ℕ) : Leads (.waiting (left + 1)) (.waiting left)
  | appeared (left : ℕ) : Leads (.polling (left + 1)) (.opening .ep1)
  | polls (left : ℕ) : Leads (.polling (left + 1)) (.polling left)

inductive MainMove (run : GadgetRun) : GadgetRun → Prop
  | close {endpoint : Endpoint} {rest : List Endpoint} (waits : run.closing = endpoint :: rest) :
      MainMove run { run with closing := rest, closed := endpoint :: run.closed }
  | opens {endpoint : Endpoint} (done : run.closing = []) (stands : run.main = .opening endpoint) :
      MainMove run
        { run with opened := endpoint :: run.opened, main := .afterOpening endpoint }
  | raises (done : run.closing = []) (early : run.main.Early) :
      MainMove run { run with main := .raised }
  | goes {main : MainStage} (done : run.closing = []) (leads : run.main.Leads main) :
      MainMove run { run with main := main }
  | stores {endpoint : Endpoint} (done : run.closing = []) (stands : run.main = .storing endpoint) :
      MainMove run
        { run with stored := endpoint :: run.stored, main := .afterStoring endpoint }
  | starts {worker : Worker} (done : run.closing = []) (stands : run.main = .starting worker) :
      MainMove run ({ run with main := .afterStarting worker }.place worker .testing)
  | returns (done : run.closing = []) (stands : run.main = .serving)
      (cleared : run.running = false) : MainMove run { run with main := .returned }

theorem mainStep_moves {outcome : Option Bytes} (hstep : run.mainStep outcome = some next) :
    MainMove run next := by
  unfold mainStep at hstep
  split at hstep
  · rename_i hwaits
    cases hstep
    exact .close hwaits
  · rename_i hdone
    unfold proceed at hstep
    split at hstep
    · rename_i endpoint hmain
      split at hstep
      · cases hstep
        exact .opens hdone hmain
      · cases hstep
        refine .raises hdone ?_
        rw [hmain]
        cases endpoint <;> exact ⟨by decide, by decide⟩
    · rename_i hmain
      cases hstep
      split
      · exact .goes hdone (hmain ▸ .describing)
      · refine .raises hdone ?_
        rw [hmain]
        exact ⟨by decide, by decide⟩
    · rename_i hmain
      cases hstep
      split
      · exact .goes hdone (hmain ▸ .naming)
      · refine .raises hdone ?_
        rw [hmain]
        exact ⟨by decide, by decide⟩
    · rename_i hmain
      cases hstep
      exact .stores hdone hmain
    · rename_i hmain
      cases hstep
      exact .goes hdone (hmain ▸ .enabled 0)
    · rename_i left hmain
      cases hstep
      cases outcome with
      | none => exact .goes hdone (hmain ▸ .waits left)
      | some data =>
          simp only [MainStage.afterWaiting]
          split
          · exact .goes hdone (hmain ▸ .enabled (left + 1))
          · exact .goes hdone (hmain ▸ .waits left)
          · refine .raises hdone ?_
            simp [hmain, MainStage.Early, MainStage.stored]
    · rename_i hmain
      cases hstep
      refine .raises hdone ?_
      simp [hmain, MainStage.Early, MainStage.stored]
    · rename_i left hmain
      cases hstep
      split
      · exact .goes hdone (hmain ▸ .appeared left)
      · exact .goes hdone (hmain ▸ .polls left)
    · rename_i hmain
      cases hstep
      exact .starts hdone hmain
    · rename_i hmain
      split at hstep
      · cases hstep
      · rename_i hcleared
        cases hstep
        exact .returns hdone hmain (by simpa using hcleared)
    · cases hstep
    · cases hstep

theorem leads_frame {main later : MainStage} (hleads : main.Leads later) :
    main ≠ .raised ∧ later ≠ .raised ∧ later ≠ .returned ∧ later.opened = main.opened ∧
      later.stored = main.stored ∧ later.unborn = main.unborn := by
  cases hleads <;> exact ⟨by simp, by simp, by simp, rfl, rfl, rfl⟩

theorem unborn_of_early {main : MainStage} (hearly : main.Early) :
    main.unborn = MainStage.raised.unborn := by
  obtain ⟨-, hmissing⟩ := hearly
  cases main with
  | starting | serving | returned => exact absurd (by simp [MainStage.stored]) hmissing
  | opening | describing | naming | storing | waiting | polling | raised => rfl

theorem mem_unborn_afterStarting (worker other : Worker) :
    other ∈ (MainStage.afterStarting worker).unborn ↔
      other ∈ (MainStage.starting worker).unborn ∧ other ≠ worker := by
  cases worker <;> cases other <;> decide

/-! ## What a run keeps -/

structure Kept (run : GadgetRun) : Prop where
  opened : run.main ≠ .raised → run.opened = run.main.opened
  stored : run.main ≠ .raised → run.stored = run.main.stored
  unborn : ∀ worker, run.stage worker = .unborn ↔ worker ∈ run.main.unborn
  raised : run.main = .raised → ¬run.Complete ∧ run.closing = [] ∧ run.closed = []
  running : run.running = true → run.closing = [] ∧ run.closed = []
  cleared : run.running = false → run.main ≠ .raised →
    run.Complete ∧ ∀ endpoint, endpoint ∈ run.closing ∨ endpoint ∈ run.closed
  returned : run.main = .returned → run.running = false ∧ run.closing = []

theorem kept_start (nodeId : ℤ) : (start nodeId).Kept where
  opened _ := rfl
  stored _ := rfl
  unborn worker := by cases worker <;> simp [start, MainStage.unborn]
  raised hmain := by cases hmain
  running _ := ⟨rfl, rfl⟩
  cleared hcleared := by cases hcleared
  returned hmain := by cases hmain

/-- As long as nothing has raised, the statement tells whether all attributes are there. -/
theorem complete_iff (hkept : run.Kept) (hmain : run.main ≠ .raised) :
    run.Complete ↔ Endpoint.ep2 ∈ run.main.stored := by
  rw [Complete, hkept.stored hmain]
  constructor
  · intro hall
    exact hall .ep2 (by decide)
  · intro hlast
    unfold MainStage.stored at hlast ⊢
    split at hlast <;> first | decide | simp at hlast

/-- A loop is started only when all attributes are there. -/
theorem complete_of_born (hkept : run.Kept) (hborn : run.stage worker ≠ .unborn) :
    run.Complete := by
  have hlate : worker ∉ run.main.unborn := fun hmem ↦ hborn ((hkept.unborn worker).mpr hmem)
  have hall : worker ∈ MainStage.raised.unborn := by cases worker <;> decide
  have hmain : run.main ≠ .raised := by
    intro hmain
    exact hlate (hmain ▸ hall)
  refine (complete_iff hkept hmain).mpr ?_
  by_contra hmissing
  exact hlate (unborn_of_early ⟨hmain, hmissing⟩ ▸ hall)

theorem mem_all (endpoint : Endpoint) : endpoint ∈ Endpoint.all := by
  cases endpoint <;> decide

/-- A statement that does not raise and is not the last. -/
theorem kept_on (hkept : run.Kept) {main : MainStage} {opened stored : List Endpoint}
    {stage : Worker → Stage} (hbefore : run.main ≠ .raised) (hraised : main ≠ .raised)
    (hreturned : main ≠ .returned) (hopened : opened = main.opened) (hstored : stored = main.stored)
    (hmore : run.stored ⊆ stored)
    (hunborn : ∀ worker, stage worker = .unborn ↔ worker ∈ main.unborn) :
    Kept { run with opened := opened, stored := stored, main := main, stage := stage } where
  opened _ := hopened
  stored _ := hstored
  unborn := hunborn
  raised hmain := absurd hmain hraised
  running := hkept.running
  cleared hcleared _ := by
    obtain ⟨hcomplete, hall⟩ := hkept.cleared hcleared hbefore
    exact ⟨fun endpoint hendpoint ↦ hmore (hcomplete endpoint hendpoint), hall⟩
  returned hmain := absurd hmain hreturned

/-- What raises before all attributes are there ends main with nothing started or closed. -/
theorem kept_raise (hkept : run.Kept) (hbefore : run.main ≠ .raised)
    (hincomplete : ¬run.Complete) (running : Bool) :
    Kept { run with running := running, main := .raised } := by
  have hmissing : Endpoint.ep2 ∉ run.main.stored := fun hlast ↦
    hincomplete ((complete_iff hkept hbefore).mpr hlast)
  have hrunning : run.running = true := by
    by_contra hcleared
    exact hincomplete (hkept.cleared (by simpa using hcleared) hbefore).1
  have huntouched := hkept.running hrunning
  refine ⟨?_, ?_, ?_, ?_, fun _ ↦ huntouched, ?_, ?_⟩
  · exact fun hmain ↦ absurd rfl hmain
  · exact fun hmain ↦ absurd rfl hmain
  · intro worker
    rw [hkept.unborn, unborn_of_early ⟨hbefore, hmissing⟩]
  · exact fun _ ↦ ⟨hincomplete, huntouched⟩
  · exact fun _ hmain ↦ absurd rfl hmain
  · exact fun hmain ↦ by cases hmain

theorem kept_mainMove (hkept : run.Kept) (hmove : MainMove run next) : next.Kept := by
  cases hmove with
  | @close endpoint rest hwaits =>
      have hcleared : run.running = false := by
        by_contra hrunning
        have hnone := (hkept.running (by simpa using hrunning)).1
        simp [hnone] at hwaits
      refine ⟨hkept.opened, hkept.stored, hkept.unborn, ?_, ?_, ?_, ?_⟩
      · intro hmain
        have hnone := (hkept.raised hmain).2.1
        simp [hnone] at hwaits
      · intro hrunning
        simp [hcleared] at hrunning
      · intro _ hmain
        obtain ⟨hcomplete, hall⟩ := hkept.cleared hcleared hmain
        refine ⟨hcomplete, fun other ↦ ?_⟩
        have hother := hall other
        rw [hwaits] at hother
        simp only [List.mem_cons] at hother ⊢
        tauto
      · intro hmain
        have hnone := (hkept.returned hmain).2
        simp [hnone] at hwaits
  | @opens endpoint hdone hstands =>
      have hbefore : run.main ≠ .raised := by simp [hstands]
      have hunborn := hkept.unborn
      refine kept_on hkept hbefore ?_ ?_ ?_ ?_ (List.Subset.refl _) ?_
      · cases endpoint <;> simp [MainStage.afterOpening]
      · cases endpoint <;> simp [MainStage.afterOpening]
      · rw [hkept.opened hbefore, hstands]
        cases endpoint <;> rfl
      · rw [hkept.stored hbefore, hstands]
        cases endpoint <;> rfl
      · intro worker
        rw [hunborn, hstands]
        cases endpoint <;> rfl
  | raises hdone hearly =>
      obtain ⟨hbefore, hmissing⟩ := hearly
      have hincomplete : ¬run.Complete := fun hcomplete ↦
        hmissing ((complete_iff hkept hbefore).mp hcomplete)
      exact kept_raise hkept hbefore hincomplete run.running
  | @goes main hdone hleads =>
      obtain ⟨hbefore, hraised, hreturned, hopened, hstored, hunborn⟩ := leads_frame hleads
      refine kept_on hkept hbefore hraised hreturned ?_ ?_ (List.Subset.refl _) ?_
      · rw [hkept.opened hbefore, hopened]
      · rw [hkept.stored hbefore, hstored]
      · intro worker
        rw [hkept.unborn, hunborn]
  | @stores endpoint hdone hstands =>
      have hbefore : run.main ≠ .raised := by simp [hstands]
      refine kept_on hkept hbefore ?_ ?_ ?_ ?_ (List.subset_cons_self _ _) ?_
      · cases endpoint <;> simp [MainStage.afterStoring]
      · cases endpoint <;> simp [MainStage.afterStoring]
      · rw [hkept.opened hbefore, hstands]
        cases endpoint <;> rfl
      · rw [hkept.stored hbefore, hstands]
        cases endpoint <;> rfl
      · intro worker
        rw [hkept.unborn, hstands]
        cases endpoint <;> rfl
  | @starts worker hdone hstands =>
      have hbefore : run.main ≠ .raised := by simp [hstands]
      refine kept_on hkept hbefore ?_ ?_ ?_ ?_ (List.Subset.refl _) ?_
      · cases worker <;> simp [MainStage.afterStarting]
      · cases worker <;> simp [MainStage.afterStarting]
      · rw [hkept.opened hbefore, hstands]
        cases worker <;> rfl
      · rw [hkept.stored hbefore, hstands]
        cases worker <;> rfl
      · intro other
        have hother := hkept.unborn other
        rw [hstands] at hother
        rw [mem_unborn_afterStarting, ← hother]
        by_cases hsame : other = worker
        · subst hsame
          simp
        · simp [hsame]
  | returns hdone hstands hcleared =>
      have hbefore : run.main ≠ .raised := by simp [hstands]
      refine ⟨?_, ?_, ?_, ?_, hkept.running, ?_, ?_⟩
      · intro _
        rw [hkept.opened hbefore, hstands]
        rfl
      · intro _
        rw [hkept.stored hbefore, hstands]
        rfl
      · intro worker
        rw [hkept.unborn, hstands]
        rfl
      · exact fun hmain ↦ by cases hmain
      · exact fun hcleared _ ↦ hkept.cleared hcleared hbefore
      · exact fun _ ↦ ⟨hcleared, hdone⟩

theorem kept_held (hkept : run.Kept) (hheld : run.Held worker next) : next.Kept := by
  obtain ⟨hmain, hclosing, hrunning, hstored, hopened, hclosed, hothers, hstands, hborn⟩ := hheld
  have hcomplete : next.Complete ↔ run.Complete := by rw [Complete, Complete, hstored]
  refine ⟨?_, ?_, ?_, ?_, ?_, ?_, ?_⟩
  · rw [hmain, hopened]
    exact hkept.opened
  · rw [hmain, hstored]
    exact hkept.stored
  · intro other
    rw [hmain, ← hkept.unborn]
    by_cases hother : other = worker
    · subst hother
      exact iff_of_false hborn hstands
    · rw [(hothers other hother).1]
  · rw [hmain, hcomplete, hclosing, hclosed]
    exact hkept.raised
  · rw [hrunning, hclosing, hclosed]
    exact hkept.running
  · rw [hrunning, hmain, hcomplete, hclosing, hclosed]
    exact hkept.cleared
  · rw [hmain, hrunning, hclosing]
    exact hkept.returned

theorem signal_cases (hstep : run.signal = some next) :
    run.main ≠ .returned ∧ run.main ≠ .raised ∧
      (run.Complete ∧ next =
          { run with running := false, closing := Endpoint.all ++ run.closing } ∨
        ¬run.Complete ∧ next = { run with running := false, main := .raised }) := by
  unfold signal at hstep
  split at hstep
  · cases hstep
  · rename_i hlive
    obtain ⟨hreturned, hraised⟩ := not_or.mp hlive
    refine ⟨hreturned, hraised, ?_⟩
    split at hstep <;> cases hstep
    · rename_i hcomplete
      exact .inl ⟨hcomplete, rfl⟩
    · rename_i hincomplete
      exact .inr ⟨hincomplete, rfl⟩

theorem kept_signal (hkept : run.Kept) (hstep : run.signal = some next) : next.Kept := by
  obtain ⟨hreturned, hraised, ⟨hcomplete, rfl⟩ | ⟨hincomplete, rfl⟩⟩ := signal_cases hstep
  · refine ⟨hkept.opened, hkept.stored, hkept.unborn, ?_, ?_, ?_, ?_⟩
    · exact fun hmain ↦ absurd hmain hraised
    · exact fun hrunning ↦ by cases hrunning
    · exact fun _ _ ↦ ⟨hcomplete, fun endpoint ↦
        .inl (List.mem_append_left _ (mem_all endpoint))⟩
    · exact fun hmain ↦ absurd hmain hreturned
  · exact kept_raise hkept hraised hincomplete false

theorem kept_step {action : Action} (hkept : run.Kept)
    (hstep : run.step crc32 action = some next) : next.Kept := by
  cases action with
  | signal => exact kept_signal hkept hstep
  | main outcome => exact kept_mainMove hkept (mainStep_moves hstep)
  | rx outcome => exact kept_held hkept (held_move (rx_moves hstep))
  | tx outcome =>
      have hmove : Move crc32 run .tx next := tx_moves hstep
      exact kept_held hkept (held_move hmove)
  | hb => exact kept_held hkept (held_move (hb_moves hstep))
  | send dst payload =>
      obtain ⟨daemon, -, rfl⟩ := send_outside hstep
      exact ⟨hkept.opened, hkept.stored, hkept.unborn, hkept.raised, hkept.running, hkept.cleared,
        hkept.returned⟩
  | sendPut sender =>
      obtain ⟨daemon, -, rfl⟩ := sendPut_outside hstep
      exact ⟨hkept.opened, hkept.stored, hkept.unborn, hkept.raised, hkept.running, hkept.cleared,
        hkept.returned⟩

/-! ## How far main is from its end -/

/-- The steps that main has left if no further signal comes. -/
def mainRank (run : GadgetRun) : ℕ :=
  run.main.rank + run.closing.length

theorem rank_lt_of_leads {main later : MainStage} (hleads : main.Leads later) :
    later.rank < main.rank := by
  cases hleads <;> simp only [MainStage.rank] <;> omega

theorem rank_pos_of_early {main : MainStage} (hearly : main.Early) : 0 < main.rank := by
  obtain ⟨hraised, hmissing⟩ := hearly
  cases main with
  | raised => exact absurd rfl hraised
  | starting | serving | returned => exact absurd (by simp [MainStage.stored]) hmissing
  | opening endpoint | storing endpoint => cases endpoint <;> decide
  | describing | naming => decide
  | waiting left | polling left =>
      simp only [MainStage.rank]
      omega

theorem mainRank_lt (hmove : MainMove run next) : next.mainRank < run.mainRank := by
  cases hmove with
  | close hwaits => simp [mainRank, hwaits]
  | @opens endpoint hdone hstands =>
      simp only [mainRank, hdone, hstands, List.length_nil, Nat.add_zero]
      cases endpoint <;> decide
  | raises hdone hearly =>
      simpa [mainRank, hdone, MainStage.rank] using rank_pos_of_early hearly
  | goes hdone hleads => simpa [mainRank, hdone] using rank_lt_of_leads hleads
  | @stores endpoint hdone hstands =>
      simp only [mainRank, hdone, hstands, List.length_nil, Nat.add_zero]
      cases endpoint <;> decide
  | @starts worker hdone hstands =>
      simp only [mainRank, place, hdone, hstands, List.length_nil, Nat.add_zero]
      cases worker <;> decide
  | returns hdone hstands => simp [mainRank, hdone, hstands, MainStage.rank]

/-- A signal ends main or gives it three endpoints to close. -/
theorem mainRank_signal (hstep : run.signal = some next) : next.mainRank ≤ run.mainRank + 3 := by
  obtain ⟨-, -, ⟨-, rfl⟩ | ⟨-, rfl⟩⟩ := signal_cases hstep
  · simp only [mainRank, Endpoint.all, List.length_append, List.length_cons, List.length_nil]
    omega
  · simp only [mainRank, MainStage.rank]
    omega

theorem mainRank_held (hheld : run.Held worker next) : next.mainRank = run.mainRank := by
  rw [mainRank, mainRank, hheld.main, hheld.closing]

theorem mainRank_step {action : Action} (hstep : run.step crc32 action = some next) :
    next.mainRank + (if action.Advances then 1 else 0) ≤
      run.mainRank + (if action = .signal then 3 else 0) := by
  cases action with
  | signal => simpa [Action.Advances] using mainRank_signal hstep
  | main outcome => simpa [Action.Advances] using mainRank_lt (mainStep_moves hstep)
  | rx outcome =>
      simpa [Action.Advances] using (mainRank_held (held_move (rx_moves hstep))).le
  | tx outcome =>
      have hmove : Move crc32 run .tx next := tx_moves hstep
      simpa [Action.Advances] using (mainRank_held (held_move hmove)).le
  | hb => simpa [Action.Advances] using (mainRank_held (held_move (hb_moves hstep))).le
  | send dst payload =>
      obtain ⟨daemon, -, rfl⟩ := send_outside hstep
      simp [Action.Advances, mainRank]
  | sendPut sender =>
      obtain ⟨daemon, -, rfl⟩ := sendPut_outside hstep
      simp [Action.Advances, mainRank]

/-- Main goes on whatever its system calls return. -/
theorem stopped_of_mainStep (hstops : run.mainStep none = none) :
    run.main = .returned ∨ run.main = .raised ∨ run.main = .serving ∧ run.running = true := by
  unfold mainStep at hstops
  split at hstops
  · cases hstops
  · cases hmain : run.main with
    | returned => exact .inl rfl
    | raised => exact .inr (.inl rfl)
    | serving =>
        refine .inr (.inr ⟨rfl, ?_⟩)
        by_contra hcleared
        simp [proceed, hmain, hcleared] at hstops
    | opening | describing | naming | storing | starting => simp [proceed, hmain] at hstops
    | waiting left | polling left => cases left <;> simp [proceed, hmain] at hstops

/-- **Start and stop.** In every run of the daemon, whatever the system calls return and wherever
signals come, main makes at most 113 steps and three more for each signal, and where it can make
none it has returned, has raised, or serves with `running` set. Once it has returned, all three
endpoints were opened and each has been closed; once it has raised, no loop has been started and
nothing is closed, so that what is open stays open. Loops are started and endpoints closed only when
every attribute is there, and endpoints only after `running` is cleared. -/
theorem start_ends {nodeId : ℤ} {actions : List Action} {last : GadgetRun}
    (hrun : Run.attempt (step crc32) (fun _ _ ↦ True) (start nodeId) actions = some last) :
    actions.countP (fun action ↦ action.Advances) ≤
        113 + 3 * actions.countP (fun action ↦ action = .signal) ∧
      ((∀ outcome, last.mainStep outcome = none) →
        last.main = .returned ∨ last.main = .raised ∨
          last.main = .serving ∧ last.running = true) ∧
      (last.main = .returned →
        last.opened = [.ep2, .ep1, .ep0] ∧ ∀ endpoint, endpoint ∈ last.closed) ∧
      (last.main = .raised → last.closed = [] ∧ ∀ worker, last.stage worker = .unborn) ∧
      (∀ worker, last.stage worker ≠ .unborn → last.Complete) ∧
      ∀ endpoint ∈ last.closed, last.Complete ∧ last.running = false := by
  have hkept : last.Kept := (Run.Reaches.of_attempt hrun).invariant (kept_start nodeId)
    fun _ _ _ hkept _ hstep ↦ kept_step hkept hstep
  refine ⟨?_, fun hstops ↦ stopped_of_mainStep (hstops none), ?_, ?_, ?_, ?_⟩
  · have hcount := Drain.countP_le_of_attempt mainRank Action.Advances (· = .signal) 3
      (fun _ _ _ _ _ ↦ trivial) (fun _ _ _ _ hstep ↦ mainRank_step hstep)
      (trivial : (fun _ : GadgetRun ↦ True) (start nodeId)) hrun
    have hstart : (start nodeId).mainRank = 113 := rfl
    omega
  · intro hmain
    have hlive : last.main ≠ .raised := by simp [hmain]
    obtain ⟨hcleared, hdone⟩ := hkept.returned hmain
    obtain ⟨-, hall⟩ := hkept.cleared hcleared hlive
    refine ⟨by rw [hkept.opened hlive, hmain, MainStage.opened], fun endpoint ↦ ?_⟩
    simpa [hdone] using hall endpoint
  · intro hmain
    refine ⟨(hkept.raised hmain).2.2, fun worker ↦ ?_⟩
    rw [hkept.unborn, hmain]
    cases worker <;> decide
  · exact fun worker hborn ↦ complete_of_born hkept hborn
  · intro endpoint hclosed
    have hcleared : last.running = false := by
      by_contra hrunning
      have hnone := (hkept.running (by simpa using hrunning)).2
      simp [hnone] at hclosed
    refine ⟨(hkept.cleared hcleared ?_).1, hcleared⟩
    intro hmain
    have hnone := (hkept.raised hmain).2.2
    simp [hnone] at hclosed

/-- The kernel reports `FUNCTIONFS_ENABLE`, all loops are started, and a signal comes while
`_rx_loop` reads. -/
def servingActions : List Action :=
  [.main (some []), .main (some []), .main (some []), .main none, .main none,
    .main (some (FunctionfsEvent.encode ⟨⟨#[2, 0, 0, 0, 0, 0, 0, 0], rfl⟩, 2, ⟨#[0, 0, 0], rfl⟩⟩)),
    .main (some []), .main (some []), .main none, .main (some []), .main none, .main none,
    .main none, .main none, .rx none, .rx none, .signal]

def stoppingActions : List Action :=
  [.main none, .tx .failed, .main none, .hb, .main none, .rx none, .rx none, .main none]

def served : GadgetRun :=
  (Run.attempt (step Crc32.checksum) (fun _ _ ↦ True) (start 1)
    (servingActions ++ stoppingActions)).getD (start 1)

theorem start_ends_signalled :
    (servingActions ++ stoppingActions).countP (fun action ↦ action.Advances) ≤
        113 + 3 * (servingActions ++ stoppingActions).countP (fun action ↦ action = .signal) ∧
      ((∀ outcome, served.mainStep outcome = none) →
        served.main = .returned ∨ served.main = .raised ∨
          served.main = .serving ∧ served.running = true) ∧
      (served.main = .returned →
        served.opened = [.ep2, .ep1, .ep0] ∧ ∀ endpoint, endpoint ∈ served.closed) ∧
      (served.main = .raised → served.closed = [] ∧ ∀ worker, served.stage worker = .unborn) ∧
      (∀ worker, served.stage worker ≠ .unborn → served.Complete) ∧
      ∀ endpoint ∈ served.closed, served.Complete ∧ served.running = false := by
  have hrun : Run.attempt (step Crc32.checksum) (fun _ _ ↦ True) (start 1)
      (servingActions ++ stoppingActions) = some served := rfl
  exact start_ends hrun

end UsbDirectFabric.Daemon.GadgetRun
