import Mathlib.Data.ZMod.Basic

/-!
# Walks of a partial step function and distances on a cycle

A partial step function either moves to one next position or stops. `ReachesIn` says that a walk
arrives after exactly `k` moves and visits no position twice; a measure that every move decreases by
one proves it, and an invariant that excludes the target refutes every arrival.

The second half is the arithmetic of `ZMod n` as a cycle of `n` positions: a move of one position
towards a target shortens the distance in that direction by one.
-/

namespace Walk

variable {α : Type*} (step : α → Option α)

/-- The position after `count` moves, or `none` once the walk has stopped. -/
def walk : ℕ → α → Option α
  | 0, start => some start
  | count + 1, start => (step start).bind (walk count)

/-- The walk arrives at `target` after exactly `count` moves and never visits a position twice. -/
structure ReachesIn (count : ℕ) (start target : α) : Prop where
  arrives : walk step count start = some target
  simple : ∀ i ≤ count, ∀ j ≤ count, walk step i start = walk step j start → i = j

variable {step}

theorem walk_succ (count : ℕ) (start : α) :
    walk step (count + 1) start = (walk step count start).bind step := by
  induction count generalizing start with
  | zero => cases h : step start <;> simp [walk, h]
  | succ count ih =>
      rw [walk, walk]
      cases step start with
      | none => rfl
      | some next => exact ih next

/-- An invariant of the moves holds wherever the walk gets. -/
theorem walk_invariant (invariant : α → Prop)
    (hstep : ∀ position next, invariant position → step position = some next → invariant next)
    {count : ℕ} {start position : α} (hstart : invariant start)
    (hwalk : walk step count start = some position) : invariant position := by
  induction count generalizing start with
  | zero => exact Option.some.inj hwalk ▸ hstart
  | succ count ih =>
      rw [walk, Option.bind_eq_some_iff] at hwalk
      obtain ⟨next, hnext, hwalk⟩ := hwalk
      exact ih (hstep start next hstart hnext) hwalk

/-- An invariant of the start that excludes the target refutes arrival. -/
theorem not_reachesIn (invariant : α → Prop)
    (hstep : ∀ position next, invariant position → step position = some next → invariant next)
    {start target : α} (hstart : invariant start) (htarget : ¬ invariant target) :
    ¬ ∃ count, ReachesIn step count start target := by
  rintro ⟨count, hreaches⟩
  exact htarget (walk_invariant invariant hstep hstart hreaches.arrives)

variable (invariant : α → Prop) (measure : α → ℕ)

/-- A measure that decreases by one with every move counts the moves made. -/
theorem walk_measure
    (hstep : ∀ position, invariant position → measure position ≠ 0 →
      ∃ next, step position = some next ∧ invariant next ∧ measure next + 1 = measure position)
    {start : α} (hstart : invariant start) {count : ℕ} (hcount : count ≤ measure start) :
    ∃ position, walk step count start = some position ∧ invariant position ∧
      measure position + count = measure start := by
  induction count with
  | zero => exact ⟨start, rfl, hstart, rfl⟩
  | succ count ih =>
      rcases ih (Nat.le_of_succ_le hcount) with ⟨position, hwalk, hposition, hmeasure⟩
      rcases hstep position hposition (by omega) with ⟨next, hnext, hinvariant, hdecrease⟩
      refine ⟨next, ?_, hinvariant, by omega⟩
      rw [walk_succ, hwalk]
      exact hnext

/-- A measure that vanishes only at the target is the number of moves of a simple walk to it. -/
theorem reachesIn_measure
    (hstep : ∀ position, invariant position → measure position ≠ 0 →
      ∃ next, step position = some next ∧ invariant next ∧ measure next + 1 = measure position)
    {target : α} (hzero : ∀ position, invariant position → measure position = 0 → position = target)
    {start : α} (hstart : invariant start) : ReachesIn step (measure start) start target where
  arrives := by
    rcases walk_measure invariant measure hstep hstart le_rfl with
      ⟨position, hwalk, hposition, hmeasure⟩
    rw [hwalk, hzero position hposition (by omega)]
  simple := by
    intro i hi j hj hequal
    rcases walk_measure invariant measure hstep hstart hi with ⟨first, hfirst, _, hmeasure⟩
    rcases walk_measure invariant measure hstep hstart hj with ⟨second, hsecond, _, hmeasure'⟩
    have hsame : first = second := by
      apply Option.some.inj
      rw [← hfirst, hequal, hsecond]
    subst hsame
    omega

end Walk

namespace Cycle

variable {n : ℕ}

/-- The two distances between distinct positions add up to one turn. -/
theorem val_sub_add_val_sub [NeZero n] {a b : ZMod n} (hne : a ≠ b) :
    (a - b).val + (b - a).val = n := by
  have hlt := (a - b).val_lt
  rw [← neg_sub a b, ZMod.neg_val, if_neg (sub_ne_zero.mpr hne)]
  omega

/-- A step towards a different position shortens the distance by one. -/
theorem val_sub_one {e : ZMod (n + 2)} (hne : e ≠ 0) : (e - 1).val + 1 = e.val := by
  have hone : (1 : ZMod (n + 2)).val = 1 := ZMod.val_one'' (by omega)
  have hpositive : 0 < e.val := Nat.pos_of_ne_zero ((ZMod.val_ne_zero e).mpr hne)
  rw [ZMod.val_sub (by omega), hone]
  omega

/-- Differences of representatives, reduced modulo `n`, are distances. -/
theorem val_sub_emod [NeZero n] (a b : ZMod n) :
    ((a.val : ℤ) - b.val) % n = ((a - b).val : ℤ) := by
  rw [← ZMod.val_intCast]
  push_cast
  rw [ZMod.natCast_zmod_val, ZMod.natCast_zmod_val]

end Cycle
