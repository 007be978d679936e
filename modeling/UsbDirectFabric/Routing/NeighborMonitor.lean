import Mathlib.Algebra.Field.Rat
import Mathlib.Data.List.Induction
import UsbDirectFabric.Foundation.OrderedDict

/-!
# The neighbour monitor of `common/routing.py`

`NeighborMonitor` keeps the time of the last heartbeat of every neighbour it tracks. A clock reading
is an argument of the call that takes it, an exact number of any ordered field. `trace` lists the
calls of a whole history with what each returned.

Seen from one neighbour the monitor is a single deadline: `mem_entries_step` says how each call
moves it, and `mem_entries_run` reads it off the trace. So a report depends on the calls about that
neighbour and on the checks, and on nothing else.
-/

namespace UsbDirectFabric.Routing

structure NeighborMonitor (τ : Type*) where
  timeoutMs : ℤ
  lastSeen : OrderedDict ℤ τ

namespace NeighborMonitor

variable {τ : Type*}

/-! ## Histories -/

inductive Call (τ : Type*)
  | heartbeatReceived (neighborId : ℤ) (now : τ)
  | checkDead (now : τ)
  | forget (neighborId : ℤ)
deriving DecidableEq, Repr

def Call.concerns (neighborId : ℤ) : Call τ → Bool
  | .heartbeatReceived other _ => other = neighborId
  | .checkDead _ => true
  | .forget other => other = neighborId

/-- A call, given with the neighbours it reports, changes what is known about one neighbour: it is a
heartbeat of it, forgets it or reports it. -/
def Touches (neighborId : ℤ) (entry : Call τ × List ℤ) : Prop :=
  (∃ now, entry.1 = .heartbeatReceived neighborId now) ∨ entry.1 = .forget neighborId ∨
    neighborId ∈ entry.2

/-- The last heartbeat of a neighbour came at the time `seen`, and since then it has neither been
forgotten nor reported. -/
def Beating (history : List (Call τ × List ℤ)) (neighborId : ℤ) (seen : τ) : Prop :=
  ∃ earlier later, history = earlier ++ (.heartbeatReceived neighborId seen, []) :: later ∧
    ∀ entry ∈ later, ¬Touches neighborId entry

theorem not_beating_nil {neighborId : ℤ} {seen : τ} : ¬Beating [] neighborId seen := by
  rintro ⟨earlier, later, hsplit, -⟩
  simp at hsplit

theorem beating_append {history : List (Call τ × List ℤ)} {entry : Call τ × List ℤ}
    {neighborId : ℤ} {seen : τ} :
    Beating (history ++ [entry]) neighborId seen ↔
      entry = (.heartbeatReceived neighborId seen, []) ∨
        (¬Touches neighborId entry ∧ Beating history neighborId seen) := by
  constructor
  · rintro ⟨earlier, later, hsplit, hquiet⟩
    rcases List.eq_nil_or_concat' later with rfl | ⟨between, last, rfl⟩
    · exact .inl (List.append_singleton_inj.mp hsplit).2
    · rw [← List.cons_append, ← List.append_assoc] at hsplit
      obtain ⟨hhistory, rfl⟩ := List.append_singleton_inj.mp hsplit
      refine .inr ⟨hquiet entry (by simp), earlier, between, hhistory, ?_⟩
      intro other hother
      exact hquiet other (List.mem_append_left _ hother)
  · rintro (rfl | ⟨hentry, earlier, later, rfl, hquiet⟩)
    · exact ⟨history, [], rfl, by simp⟩
    · refine ⟨earlier, later ++ [entry], by simp, ?_⟩
      intro other hother
      rcases List.mem_append.mp hother with hlater | hlast
      · exact hquiet other hlater
      · rw [List.mem_singleton.mp hlast]
        exact hentry

/-- A neighbour that is beating after it was reported has sent a heartbeat since. -/
theorem Beating.exists_heartbeat {front between : List (Call τ × List ℤ)}
    {report : Call τ × List ℤ} {neighborId : ℤ} {seen : τ} (hreport : neighborId ∈ report.2)
    (hbeating : Beating (front ++ report :: between) neighborId seen) :
    (.heartbeatReceived neighborId seen, []) ∈ between := by
  induction between using List.reverseRecOn with
  | nil =>
      rcases beating_append.mp hbeating with rfl | ⟨hquiet, -⟩
      · cases hreport
      · exact absurd (.inr (.inr hreport)) hquiet
  | append_singleton between last ih =>
      rw [← List.cons_append, ← List.append_assoc] at hbeating
      rcases beating_append.mp hbeating with rfl | ⟨-, hbefore⟩
      · simp
      · exact List.mem_append_left _ (ih hbefore)

/-! ## The operations -/

variable [Field τ] [LinearOrder τ]

def fresh (timeoutMs : ℤ) : NeighborMonitor τ := ⟨timeoutMs, .empty⟩

/-- `self.timeout_ms / 1000.0`. -/
def threshold (monitor : NeighborMonitor τ) : τ := monitor.timeoutMs / 1000

/-- `heartbeat_received`, at the time `now`. -/
def heartbeatReceived (monitor : NeighborMonitor τ) (neighborId : ℤ) (now : τ) :
    NeighborMonitor τ :=
  { monitor with lastSeen := monitor.lastSeen.insert neighborId now }

def dead (monitor : NeighborMonitor τ) (now : τ) : List ℤ :=
  (monitor.lastSeen.entries.filter fun entry ↦ now - entry.2 > monitor.threshold).map Prod.fst

/-- `check_dead`, at the time `now`: the dead neighbours are deleted one by one and returned. -/
def checkDead (monitor : NeighborMonitor τ) (now : τ) : List ℤ × NeighborMonitor τ :=
  (monitor.dead now,
    { monitor with lastSeen := (monitor.dead now).foldl OrderedDict.erase monitor.lastSeen })

def forget (monitor : NeighborMonitor τ) (neighborId : ℤ) : NeighborMonitor τ :=
  { monitor with lastSeen := monitor.lastSeen.erase neighborId }

/-- The list that a call returns, empty unless it is a check, and the monitor after it. -/
def step (monitor : NeighborMonitor τ) : Call τ → List ℤ × NeighborMonitor τ
  | .heartbeatReceived neighborId now => ([], monitor.heartbeatReceived neighborId now)
  | .checkDead now => monitor.checkDead now
  | .forget neighborId => ([], monitor.forget neighborId)

def run (monitor : NeighborMonitor τ) (calls : List (Call τ)) : NeighborMonitor τ :=
  calls.foldl (fun monitor call ↦ (monitor.step call).2) monitor

/-- The calls of a history, each with the neighbours it reports. -/
def trace : NeighborMonitor τ → List (Call τ) → List (Call τ × List ℤ)
  | _, [] => []
  | monitor, call :: calls =>
      (call, (monitor.step call).1) :: trace (monitor.step call).2 calls

/-- What the checks of a history return, one list for each. -/
def reports (monitor : NeighborMonitor τ) : List (Call τ) → List (List ℤ)
  | [] => []
  | .checkDead now :: calls => (monitor.checkDead now).1 :: reports (monitor.checkDead now).2 calls
  | .heartbeatReceived neighborId now :: calls =>
      reports (monitor.heartbeatReceived neighborId now) calls
  | .forget neighborId :: calls => reports (monitor.forget neighborId) calls

theorem trace_append (monitor : NeighborMonitor τ) (front rest : List (Call τ)) :
    monitor.trace (front ++ rest) = monitor.trace front ++ (monitor.run front).trace rest := by
  induction front generalizing monitor with
  | nil => rfl
  | cons call front ih => simp only [List.cons_append, trace, ih, run, List.foldl_cons]

theorem exists_call_of_mem_trace {monitor : NeighborMonitor τ} {calls : List (Call τ)}
    {entry : Call τ × List ℤ} (hentry : entry ∈ monitor.trace calls) : entry.1 ∈ calls := by
  induction calls generalizing monitor with
  | nil => cases hentry
  | cons call calls ih =>
      rcases List.mem_cons.mp hentry with rfl | hlater
      · exact List.mem_cons_self
      · exact List.mem_cons_of_mem _ (ih hlater)

@[simp]
theorem timeoutMs_step (monitor : NeighborMonitor τ) (call : Call τ) :
    (monitor.step call).2.timeoutMs = monitor.timeoutMs := by
  cases call <;> rfl

theorem timeoutMs_run (monitor : NeighborMonitor τ) (calls : List (Call τ)) :
    (monitor.run calls).timeoutMs = monitor.timeoutMs := by
  induction calls generalizing monitor with
  | nil => rfl
  | cons call calls ih => exact (ih _).trans (timeoutMs_step monitor call)

/-! ## The monitor seen from one neighbour -/

theorem mem_dead {monitor : NeighborMonitor τ} {now : τ} {neighborId : ℤ} :
    neighborId ∈ monitor.dead now ↔
      ∃ seen, (neighborId, seen) ∈ monitor.lastSeen.entries ∧ now - seen > monitor.threshold := by
  simp [dead]

theorem nodup_dead (monitor : NeighborMonitor τ) (now : τ) : (monitor.dead now).Nodup :=
  monitor.lastSeen.nodup_keys.sublist (List.filter_sublist.map Prod.fst)

/-- A heartbeat sets the time of its neighbour, and other touching calls end its tracking. -/
theorem mem_entries_step (monitor : NeighborMonitor τ) (call : Call τ) {neighborId : ℤ} {seen : τ} :
    (neighborId, seen) ∈ (monitor.step call).2.lastSeen.entries ↔
      call = .heartbeatReceived neighborId seen ∨
        (¬Touches neighborId (call, (monitor.step call).1) ∧
          (neighborId, seen) ∈ monitor.lastSeen.entries) := by
  cases call with
  | heartbeatReceived other now =>
      simp only [step, heartbeatReceived, OrderedDict.mem_entries_insert, Touches]
      by_cases hother : neighborId = other
      · simp [hother, eq_comm]
      · simp [hother, Ne.symm hother]
  | checkDead now => simp [step, checkDead, OrderedDict.mem_entries_foldl_erase, Touches]
  | forget other => simp [step, forget, OrderedDict.mem_entries_erase, Touches, eq_comm]

/-- The monitor tracks exactly the neighbours that are beating in its history. -/
theorem mem_entries_run (timeoutMs : ℤ) (calls : List (Call τ)) {neighborId : ℤ} {seen : τ} :
    (neighborId, seen) ∈ ((fresh timeoutMs).run calls).lastSeen.entries ↔
      Beating ((fresh timeoutMs).trace calls) neighborId seen := by
  induction calls using List.reverseRecOn with
  | nil => exact iff_of_false (by simp [run, fresh]) not_beating_nil
  | append_singleton calls call ih =>
      rw [trace_append, trace, trace, beating_append, run, List.foldl_append, List.foldl_cons,
        List.foldl_nil, ← run, mem_entries_step, ih]
      refine or_congr_left ?_
      constructor
      · rintro rfl
        rfl
      · exact congrArg Prod.fst

/-- Two monitors that know the same about one neighbour. -/
structure Alike (neighborId : ℤ) (first second : NeighborMonitor τ) : Prop where
  timeout : first.timeoutMs = second.timeoutMs
  seen (time : τ) :
    (neighborId, time) ∈ first.lastSeen.entries ↔ (neighborId, time) ∈ second.lastSeen.entries

theorem Alike.mem_dead_iff {neighborId : ℤ} {first second : NeighborMonitor τ}
    (halike : Alike neighborId first second) (now : τ) :
    neighborId ∈ first.dead now ↔ neighborId ∈ second.dead now := by
  simp only [mem_dead, threshold, halike.timeout, halike.seen]

theorem Alike.step {neighborId : ℤ} {first second : NeighborMonitor τ}
    (halike : Alike neighborId first second) (call : Call τ) :
    Alike neighborId (first.step call).2 (second.step call).2 := by
  have htouches : Touches neighborId (call, (first.step call).1) ↔
      Touches neighborId (call, (second.step call).1) := by
    cases call with
    | checkDead now => exact or_congr_right (or_congr_right (halike.mem_dead_iff now))
    | heartbeatReceived other now => rfl
    | forget other => rfl
  refine ⟨by simp only [timeoutMs_step, halike.timeout], ?_⟩
  intro time
  rw [mem_entries_step, mem_entries_step, htouches, halike.seen]

/-- Calls about other neighbours leave a monitor alike. -/
theorem Alike.skip {neighborId : ℤ} {first second : NeighborMonitor τ}
    (halike : Alike neighborId first second) {call : Call τ}
    (hother : ¬call.concerns neighborId) : Alike neighborId (first.step call).2 second := by
  refine ⟨by simp only [timeoutMs_step, halike.timeout], ?_⟩
  intro time
  rw [mem_entries_step, halike.seen]
  cases call with
  | checkDead now => exact absurd rfl hother
  | heartbeatReceived other now =>
      simp only [Call.concerns, decide_eq_true_eq] at hother
      simp [Touches, NeighborMonitor.step, hother]
  | forget other =>
      simp only [Call.concerns, decide_eq_true_eq] at hother
      simp [Touches, NeighborMonitor.step, hother]

/-- The checks report one neighbour alike when the calls about others are left out. -/
theorem Alike.reports_eq {neighborId : ℤ} {first second : NeighborMonitor τ}
    (halike : Alike neighborId first second) (calls : List (Call τ)) :
    (first.reports calls).map (fun report ↦ decide (neighborId ∈ report)) =
      (second.reports (calls.filter (·.concerns neighborId))).map fun report ↦
        decide (neighborId ∈ report) := by
  induction calls generalizing first second with
  | nil => rfl
  | cons call calls ih =>
      by_cases hconcerns : call.concerns neighborId
      · rw [List.filter_cons_of_pos hconcerns]
        have hnext := ih (halike.step call)
        cases call with
        | checkDead now =>
            simp only [reports, List.map_cons, checkDead, halike.mem_dead_iff]
            exact congrArg _ hnext
        | heartbeatReceived other now => exact hnext
        | forget other => exact hnext
      · rw [List.filter_cons_of_neg hconcerns]
        have hnext := ih (halike.skip hconcerns)
        cases call with
        | checkDead now => exact absurd rfl hconcerns
        | heartbeatReceived other now => exact hnext
        | forget other => exact hnext

/-! ## Reports over whole histories -/

/-- **Exact death reports.** After any history, and whatever the clock shows, a check reports a
neighbour exactly when it is beating and its last heartbeat is longer ago than the timeout, and
reports it once; between two reports there is a heartbeat; and leaving out the calls about other
neighbours changes nothing. -/
theorem checkDead_exact (timeoutMs : ℤ) (neighborId : ℤ) :
    (∀ (calls : List (Call τ)) (now : τ),
      (neighborId ∈ (((fresh timeoutMs).run calls).checkDead now).1 ↔
        ∃ seen, Beating ((fresh timeoutMs).trace calls) neighborId seen ∧
          now - seen > timeoutMs / 1000) ∧
      (((fresh timeoutMs).run calls).checkDead now).1.count neighborId ≤ 1) ∧
    (∀ (front between : List (Call τ)) (now later : τ),
      neighborId ∈ (((fresh timeoutMs).run front).checkDead now).1 →
      neighborId ∈
        (((fresh timeoutMs).run (front ++ .checkDead now :: between)).checkDead later).1 →
      ∃ time, .heartbeatReceived neighborId time ∈ between) ∧
    ∀ calls : List (Call τ),
      ((fresh timeoutMs).reports calls).map (fun report ↦ decide (neighborId ∈ report)) =
        ((fresh timeoutMs).reports (calls.filter (·.concerns neighborId))).map fun report ↦
          decide (neighborId ∈ report) := by
  have hreports (calls : List (Call τ)) (now : τ) :
      neighborId ∈ (((fresh timeoutMs).run calls).checkDead now).1 ↔
        ∃ seen, Beating ((fresh timeoutMs).trace calls) neighborId seen ∧
          now - seen > timeoutMs / 1000 := by
    simp only [checkDead, mem_dead, mem_entries_run, threshold, timeoutMs_run]
    rfl
  refine ⟨fun calls now ↦ ⟨hreports calls now, ?_⟩, ?_, ?_⟩
  · exact List.nodup_iff_count_le_one.mp (nodup_dead _ now) neighborId
  · intro front between now later hfirst hsecond
    obtain ⟨seen, hbeating, -⟩ := (hreports _ later).mp hsecond
    rw [trace_append, trace] at hbeating
    have hheartbeat := hbeating.exists_heartbeat hfirst
    exact ⟨seen, exists_call_of_mem_trace hheartbeat⟩
  · intro calls
    exact Alike.reports_eq ⟨rfl, fun _ ↦ Iff.rfl⟩ calls

example : ((fresh 100).checkDead (0.15 : ℚ)).1 = [] ∧
    (((fresh 100).run [.heartbeatReceived 2 0]).checkDead (0.15 : ℚ)).1 = [2] ∧
    (((fresh 100).run [.heartbeatReceived 2 0, .checkDead 0.15]).checkDead (0.15 : ℚ)).1 = [] := by
  decide +kernel

end NeighborMonitor

end UsbDirectFabric.Routing
