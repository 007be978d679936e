import UsbDirectFabric.Foundation.Run
import Mathlib.Logic.Hydra

/-!
# Systems that come to rest

Every state owes a finite multiset of dues, which are ordered by a well-founded relation. If each
allowed step pays one due, and may at most incur smaller ones for it, then no run of allowed steps
goes on forever, and from every state a run leads to one that allows no further step.
-/

namespace Drain

open Relation

/-! ## Paying one due -/

section Pay

variable {κ : Type*} {less : κ → κ → Prop} {before after : Multiset κ} {due : κ}

theorem pay (due : κ) (hpaid : before = after + {due}) : CutExpand less after before :=
  ⟨0, due, by simp, by rw [hpaid, add_zero]⟩

theorem replace {other : κ} (hless : less other due) (hpaid : after + {due} = before + {other}) :
    CutExpand less after before :=
  ⟨{other}, due, by simpa using hless, hpaid⟩

theorem split {first second : κ} (hfirst : less first due) (hsecond : less second due)
    (hpaid : after + {due} = before + ({first} + {second})) : CutExpand less after before := by
  refine ⟨{first} + {second}, due, ?_, hpaid⟩
  intro one hone
  rcases Multiset.mem_add.mp hone with hleft | hright
  · exact Multiset.mem_singleton.mp hleft ▸ hfirst
  · exact Multiset.mem_singleton.mp hright ▸ hsecond

end Pay

/-! ## Runs that pay -/

section Runs

variable {σ α κ : Type*} {step : σ → α → Option σ} {condition : σ → α → Prop}
  {less : κ → κ → Prop} {dues : σ → Multiset κ}

def AtRest (step : σ → α → Option σ) (condition : σ → α → Prop) (state : σ) : Prop :=
  ∀ action, condition state action → step state action = none

/-- A system whose allowed steps pay has no infinite run. -/
theorem not_infinite (hwell : WellFounded less)
    (hpays : ∀ state action next, condition state action → step state action = some next →
      CutExpand less (dues next) (dues state)) :
    ¬∃ states : ℕ → σ, ∀ time, ∃ action,
      condition (states time) action ∧ step (states time) action = some (states (time + 1)) := by
  rintro ⟨states, hrun⟩
  have hdescends (time : ℕ) : CutExpand less (dues (states (time + 1))) (dues (states time)) := by
    obtain ⟨action, hallowed, hstep⟩ := hrun time
    exact hpays _ action _ hallowed hstep
  have hempty := wellFounded_iff_isEmpty_descending_chain.mp hwell.cutExpand
  exact hempty.elim ⟨fun time ↦ dues (states time), hdescends⟩

/-- From every state of such a system some run of allowed steps leads to rest. -/
theorem exists_atRest (hwell : WellFounded less)
    (hpays : ∀ state action next, condition state action → step state action = some next →
      CutExpand less (dues next) (dues state)) (state : σ) :
    ∃ last, Run.Reaches step condition state last ∧ AtRest step condition last := by
  have hsteps : WellFounded fun next state ↦ CutExpand less (dues next) (dues state) :=
    InvImage.wf dues hwell.cutExpand
  induction state using hsteps.induction with
  | _ state ih =>
      by_cases hrest : AtRest step condition state
      · exact ⟨state, .refl, hrest⟩
      · obtain ⟨action, hallowed, next, hstep⟩ : ∃ action, condition state action ∧
            ∃ next, step state action = some next := by
          simp only [AtRest, not_forall] at hrest
          obtain ⟨action, hallowed, hsome⟩ := hrest
          exact ⟨action, hallowed, Option.ne_none_iff_exists'.mp hsome⟩
        obtain ⟨last, hreaches, hlast⟩ := ih next (hpays state action next hallowed hstep)
        exact ⟨last, (Run.Reaches.tail action .refl hallowed hstep).trans hreaches, hlast⟩

/-- If working steps lower a rank, and no step but a granting one raises it, a run has at most as
many working steps as the rank at its start and what was granted to it. -/
theorem countP_le_of_attempt (rank : σ → ℕ) (works grants : α → Prop) [DecidablePred works]
    [DecidablePred grants] (gain : ℕ) {invariant : σ → Prop}
    (hkept : ∀ state action next, invariant state → step state action = some next → invariant next)
    (hpays : ∀ state action next, invariant state → step state action = some next →
      rank next + (if works action then 1 else 0) ≤
        rank state + (if grants action then gain else 0))
    {start last : σ} {actions : List α} (hstart : invariant start)
    (hrun : Run.attempt step (fun _ _ ↦ True) start actions = some last) :
    rank last + actions.countP (fun action ↦ works action) ≤
      rank start + gain * actions.countP (fun action ↦ grants action) := by
  induction actions generalizing start with
  | nil =>
      cases hrun
      exact Nat.le_refl _
  | cons action actions ih =>
      simp only [Run.attempt, List.foldlM_cons, if_true, Option.bind_eq_bind,
        Option.bind_eq_some_iff] at hrun
      obtain ⟨next, hstep, hrest⟩ := hrun
      have hnext := hpays start action next hstart hstep
      have hlater := ih (hkept start action next hstart hstep) hrest
      have hgain : gain * (if grants action then 1 else 0) = if grants action then gain else 0 := by
        split <;> simp
      rw [List.countP_cons, List.countP_cons, Nat.mul_add]
      simp only [decide_eq_true_eq]
      omega

end Runs

end Drain
