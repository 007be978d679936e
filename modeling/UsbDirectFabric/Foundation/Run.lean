import Mathlib.Data.List.Induction

/-!
# Runs of a transition function

Two views of a run. For a total step function `Always` speaks about every state that a given list
of actions passes through and `Each` about every step it takes; when a step preserves a property
exactly on a condition, the two agree along the whole run. For a partial step function, where an
action may not be enabled, `Reaches` collects the states reached by steps that all meet a condition.
-/

namespace Run

section Total

variable {σ α : Type*} (step : σ → α → σ)

/-- A property of the start state and of every state after it. -/
def Always (property : σ → Prop) : σ → List α → Prop
  | state, [] => property state
  | state, action :: actions => property state ∧ Always property (step state action) actions

/-- A condition on every step, given the state before it. -/
def Each (condition : σ → α → Prop) : σ → List α → Prop
  | _, [] => True
  | state, action :: actions => condition state action ∧ Each condition (step state action) actions

variable {step}

/-- `Always` is the property of the state after every prefix of the actions. -/
theorem always_iff_forall_prefix {property : σ → Prop} {state : σ} {actions : List α} :
    Always step property state actions ↔
      ∀ front, front <+: actions → property (front.foldl step state) := by
  induction actions generalizing state with
  | nil => simp [Always, List.prefix_nil]
  | cons action actions ih =>
      rw [Always, ih]
      constructor
      · rintro ⟨hstate, hrest⟩ front hfront
        cases front with
        | nil => exact hstate
        | cons first front =>
            rcases List.cons_prefix_cons.mp hfront with ⟨rfl, htail⟩
            exact hrest front htail
      · intro hall
        refine ⟨hall [] List.nil_prefix, ?_⟩
        intro front hfront
        exact hall (action :: front) (List.cons_prefix_cons.mpr ⟨rfl, hfront⟩)

theorem each_append {condition : σ → α → Prop} {state : σ} {front back : List α} :
    Each step condition state (front ++ back) ↔
      Each step condition state front ∧ Each step condition (front.foldl step state) back := by
  induction front generalizing state with
  | nil => simp [Each]
  | cons action front ih => simp only [List.cons_append, Each, ih, List.foldl_cons, and_assoc]

variable {invariant property : σ → Prop} {condition : σ → α → Prop}

/-- If every valid step from a state with the property keeps it exactly on a condition, a run keeps
the property throughout exactly when all of its steps meet the condition. -/
theorem always_iff_each (valid : α → Prop)
    (hinvariant : ∀ state action, invariant state → valid action → invariant (step state action))
    (hstep : ∀ state action, invariant state → valid action → property state →
      (property (step state action) ↔ condition state action))
    {state : σ} {actions : List α} (hstate : invariant state) (hproperty : property state)
    (hvalid : ∀ action ∈ actions, valid action) :
    Always step property state actions ↔ Each step condition state actions := by
  induction actions generalizing state with
  | nil => exact iff_of_true hproperty trivial
  | cons action actions ih =>
      have haction := hvalid action List.mem_cons_self
      have hactions : ∀ later ∈ actions, valid later :=
        fun later hlater ↦ hvalid later (List.mem_cons_of_mem _ hlater)
      have hnext := hinvariant state action hstate haction
      have hexact := hstep state action hstate haction hproperty
      constructor
      · rintro ⟨_, hrest⟩
        have hkept : property (step state action) :=
          always_iff_forall_prefix.mp hrest [] List.nil_prefix
        exact ⟨hexact.mp hkept, (ih hnext hkept hactions).mp hrest⟩
      · rintro ⟨hcondition, hrest⟩
        have hkept := hexact.mpr hcondition
        exact ⟨hproperty, (ih hnext hkept hactions).mpr hrest⟩

/-- A condition on the actions alone. -/
theorem each_iff_forall {allowed : α → Prop} {state : σ} {actions : List α} :
    Each step (fun _ action ↦ allowed action) state actions ↔
      ∀ action ∈ actions, allowed action := by
  induction actions generalizing state with
  | nil => simp [Each]
  | cons action actions ih => rw [Each, ih, List.forall_mem_cons]

/-- If two conditions agree on every step from a state with an invariant, and one of them keeps the
invariant, the steps of a run all meet the one exactly when they all meet the other. -/
theorem each_iff_each {first second : σ → α → Prop}
    (hinvariant : ∀ state action, invariant state → second state action →
      invariant (step state action))
    (hagree : ∀ state action, invariant state → (first state action ↔ second state action))
    {state : σ} {actions : List α} (hstate : invariant state) :
    Each step first state actions ↔ Each step second state actions := by
  induction actions generalizing state with
  | nil => exact Iff.rfl
  | cons action actions ih =>
      have hexact := hagree state action hstate
      constructor
      · rintro ⟨hfirst, hrest⟩
        have hsecond := hexact.mp hfirst
        exact ⟨hsecond, (ih (hinvariant state action hstate hsecond)).mp hrest⟩
      · rintro ⟨hsecond, hrest⟩
        exact ⟨hexact.mpr hsecond, (ih (hinvariant state action hstate hsecond)).mpr hrest⟩

end Total

section Enabled

variable {σ α : Type*} (step : σ → α → Option σ)

/-- The states reached by enabled steps that all meet `condition`. -/
inductive Reaches (condition : σ → α → Prop) (start : σ) : σ → Prop
  | refl : Reaches condition start start
  | tail {state next : σ} (action : α) (earlier : Reaches condition start state)
      (allowed : condition state action) (enabled : step state action = some next) :
      Reaches condition start next

abbrev Reachable (start : σ) : σ → Prop :=
  Reaches step (fun _ _ ↦ True) start

/-- The state after a list of actions, if each of them is allowed and enabled in its turn. -/
def attempt (condition : σ → α → Prop) [∀ state action, Decidable (condition state action)]
    (start : σ) (actions : List α) : Option σ :=
  actions.foldlM (fun state action ↦ if condition state action then step state action else none)
    start

variable {step}

/-- What holds at the start and is kept by every allowed step holds in every reached state. -/
theorem Reaches.invariant {condition : σ → α → Prop} {invariant : σ → Prop} {start state : σ}
    (hreaches : Reaches step condition start state) (hstart : invariant start)
    (hstep : ∀ state action next, invariant state → condition state action →
      step state action = some next → invariant next) : invariant state := by
  induction hreaches with
  | refl => exact hstart
  | tail action _ hallowed henabled ih => exact hstep _ action _ ih hallowed henabled

/-- What is reached under a condition is reached under a weaker one. -/
theorem Reaches.weaken {condition weaker : σ → α → Prop} {start state : σ}
    (hreaches : Reaches step condition start state)
    (hweaker : ∀ state action, condition state action → weaker state action) :
    Reaches step weaker start state := by
  induction hreaches with
  | refl => exact .refl
  | tail action _ hallowed henabled ih => exact .tail action ih (hweaker _ _ hallowed) henabled

theorem Reaches.trans {condition : σ → α → Prop} {start middle state : σ}
    (hfront : Reaches step condition start middle) (hback : Reaches step condition middle state) :
    Reaches step condition start state := by
  induction hback with
  | refl => exact hfront
  | tail action _ hallowed henabled ih => exact .tail action ih hallowed henabled

/-- A list of allowed actions that can be executed one after the other reaches its last state. -/
theorem Reaches.of_attempt {condition : σ → α → Prop}
    [∀ state action, Decidable (condition state action)] {start state : σ} {actions : List α}
    (hrun : attempt step condition start actions = some state) :
    Reaches step condition start state := by
  unfold attempt at hrun
  induction actions using List.reverseRecOn generalizing state with
  | nil =>
      cases hrun
      exact .refl
  | append_singleton actions action ih =>
      rw [List.foldlM_append, Option.bind_eq_bind, Option.bind_eq_some_iff] at hrun
      obtain ⟨earlier, hearlier, hlast⟩ := hrun
      simp only [List.foldlM_cons, List.foldlM_nil, bind_pure] at hlast
      split at hlast
      · rename_i hallowed
        exact .tail action (ih hearlier) hallowed hlast
      · cases hlast

/-- What is observed after a list of actions is observed in a reached state. -/
theorem exists_of_attempt {β : Type*} {condition : σ → α → Prop}
    [∀ state action, Decidable (condition state action)] {start : σ} {actions : List α}
    {observe : σ → β} {value : β}
    (hrun : (attempt step condition start actions).map observe = some value) :
    ∃ state, Reaches step condition start state ∧ observe state = value := by
  obtain ⟨state, hstate, hvalue⟩ := Option.map_eq_some_iff.mp hrun
  exact ⟨state, .of_attempt hstate, hvalue⟩

end Enabled

end Run
