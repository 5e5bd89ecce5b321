import Mathlib.Tactic

/-! Runs of a labelled machine.

A machine is a partial step function: `step state label` is `none` when the label is
not enabled there. A run is a list of labels, so quantifying over all lists that a
machine accepts quantifies over every interleaving and over every state reached. -/

namespace OtaMqtt.Lib.Trace

variable {State Label : Type}

def run (step : State → Label → Option State) : State → List Label → Option State
  | state, [] => some state
  | state, label :: labels => (step state label).bind fun next => run step next labels

/-- Every label of the run meets `guard` in the state in which it is taken. -/
def Guarded (step : State → Label → Option State) (guard : State → Label → Prop) :
    State → List Label → Prop
  | _, [] => True
  | state, label :: labels =>
      guard state label ∧ ∀ next, step state label = some next → Guarded step guard next labels

instance decideGuarded (step : State → Label → Option State) (guard : State → Label → Prop)
    [decideGuard : ∀ state label, Decidable (guard state label)] :
    ∀ state labels, Decidable (Guarded step guard state labels)
  | _, [] => inferInstanceAs (Decidable True)
  | state, label :: labels =>
      match decideGuard state label with
      | .isFalse refused => .isFalse fun guarded => refused guarded.1
      | .isTrue accepted =>
          match found : step state label with
          | none => .isTrue ⟨accepted, fun next taken => by rw [found] at taken; cases taken⟩
          | some next =>
              match decideGuarded step guard next labels with
              | .isTrue later => .isTrue ⟨accepted, fun other taken => by
                  rw [found] at taken
                  cases taken
                  exact later⟩
              | .isFalse never => .isFalse fun guarded => never (guarded.2 next found)

def Always (step : State → Label → Option State) (good : State → Prop)
    (state : State) (labels : List Label) : Prop :=
  ∀ front back reached, front ++ back = labels → run step state front = some reached → good reached

variable {step : State → Label → Option State} {guard : State → Label → Prop}
  {inv good : State → Prop}

theorem run_cons (state : State) (label : Label) (labels : List Label) :
    run step state (label :: labels) = (step state label).bind fun next => run step next labels :=
  rfl

/-- The invariant rule: what guarded steps preserve holds wherever a guarded run ends. -/
theorem run_invariant
    (preserved : ∀ state label next, inv state → guard state label →
      step state label = some next → inv next)
    (labels : List Label) (state reached : State) (start : inv state)
    (guarded : Guarded step guard state labels) (ran : run step state labels = some reached) :
    inv reached := by
  induction labels generalizing state with
  | nil =>
      cases ran
      exact start
  | cons label labels ih =>
      rw [run_cons] at ran
      obtain ⟨next, taken, rest⟩ := Option.bind_eq_some_iff.mp ran
      exact ih next (preserved state label next start guarded.1 taken) (guarded.2 next taken) rest

/-- A machine that is never stuck in the states of an invariant runs to the end. -/
theorem run_total
    (progress : ∀ state label, inv state → ∃ next, step state label = some next ∧ inv next)
    (labels : List Label) (state : State) (start : inv state) :
    ∃ last, run step state labels = some last ∧ inv last := by
  induction labels generalizing state with
  | nil => exact ⟨state, rfl, start⟩
  | cons label labels ih =>
      obtain ⟨next, taken, kept⟩ := progress state label start
      obtain ⟨last, ran, kept'⟩ := ih next kept
      refine ⟨last, ?_, kept'⟩
      rw [run_cons, taken, Option.bind_some, ran]

theorem guarded_of_forall (labels : List Label) (state : State)
    (all : ∀ state, ∀ label ∈ labels, guard state label) : Guarded step guard state labels := by
  induction labels generalizing state with
  | nil => trivial
  | cons label labels ih =>
      refine ⟨all state label List.mem_cons_self, fun next _ => ih next ?_⟩
      exact fun state other member => all state other (List.mem_cons_of_mem _ member)

/-- The invariant rule when every step is allowed. -/
theorem run_preserves
    (preserved : ∀ state label next, inv state → step state label = some next → inv next)
    (labels : List Label) (state reached : State) (start : inv state)
    (ran : run step state labels = some reached) : inv reached :=
  run_invariant (fun state label next holds (_ : True) => preserved state label next holds) labels
    state reached start (guarded_of_forall labels state fun _ _ _ => trivial) ran

/-- What every step preserves holds of every state on the way. -/
theorem preserves_always
    (preserved : ∀ state label next, inv state → step state label = some next → inv next)
    (implies : ∀ state, inv state → good state) (labels : List Label) (state : State)
    (start : inv state) : Always step good state labels := by
  intro front back reached _ ran
  exact implies reached (run_preserves preserved front state reached start ran)

/-- The rule of the first offence: from where the guard is broken the run stays in `lost`. -/
theorem run_dichotomy {lost : State → Prop}
    (preserved : ∀ state label next, inv state → guard state label →
      step state label = some next → inv next)
    (broken : ∀ state label next, inv state → ¬ guard state label →
      step state label = some next → lost next)
    (stays : ∀ state label next, lost state → step state label = some next → lost next)
    (labels : List Label) (state reached : State) (start : inv state)
    (ran : run step state labels = some reached) :
    (Guarded step guard state labels ∧ inv reached) ∨
      (¬ Guarded step guard state labels ∧ lost reached) := by
  induction labels generalizing state with
  | nil =>
      cases ran
      exact .inl ⟨trivial, start⟩
  | cons label labels ih =>
      rw [run_cons] at ran
      obtain ⟨next, taken, rest⟩ := Option.bind_eq_some_iff.mp ran
      by_cases now : guard state label
      · rcases ih next (preserved state label next start now taken) rest with
          ⟨later, holds⟩ | ⟨never, fails⟩
        · refine .inl ⟨⟨now, fun other taken' => ?_⟩, holds⟩
          rw [taken] at taken'
          cases taken'
          exact later
        · exact .inr ⟨fun guarded => never (guarded.2 next taken), fails⟩
      · have fails := run_preserves stays labels next reached
          (broken state label next start now taken) rest
        exact .inr ⟨fun guarded => now guarded.1, fails⟩

theorem guarded_front (front back : List Label) (state : State)
    (guarded : Guarded step guard state (front ++ back)) : Guarded step guard state front := by
  induction front generalizing state with
  | nil => trivial
  | cons label front ih =>
      exact ⟨guarded.1, fun next taken => ih next (guarded.2 next taken)⟩

theorem guarded_both {allowed : State → Label → Prop} {labels : List Label} {state : State}
    (within : Guarded step allowed state labels) (guarded : Guarded step guard state labels) :
    Guarded step (fun state label => allowed state label ∧ guard state label) state labels := by
  induction labels generalizing state with
  | nil => trivial
  | cons label labels ih =>
      exact ⟨⟨within.1, guarded.1⟩, fun next taken => ih (within.2 next taken) (guarded.2 next taken)⟩

/-- In the states of an invariant one guard may imply another. -/
theorem guarded_implies {implied : State → Label → Prop}
    (preserved : ∀ state label next, inv state → guard state label →
      step state label = some next → inv next)
    (implies : ∀ state label, inv state → guard state label → implied state label)
    (labels : List Label) (state : State) (start : inv state)
    (guarded : Guarded step guard state labels) : Guarded step implied state labels := by
  induction labels generalizing state with
  | nil => trivial
  | cons label labels ih =>
      refine ⟨implies state label start guarded.1, fun next taken => ?_⟩
      exact ih next (preserved state label next start guarded.1 taken) (guarded.2 next taken)

/-- Guards that agree in the states of an invariant allow the same runs. -/
theorem guarded_congr {other : State → Label → Prop}
    (preserved : ∀ state label next, inv state → step state label = some next → inv next)
    (agree : ∀ state label, inv state → (guard state label ↔ other state label))
    (labels : List Label) (state : State) (start : inv state) :
    Guarded step guard state labels ↔ Guarded step other state labels := by
  constructor
  · exact guarded_implies (fun state label next holds _ => preserved state label next holds)
      (fun state label holds => (agree state label holds).mp) labels state start
  · exact guarded_implies (fun state label next holds _ => preserved state label next holds)
      (fun state label holds => (agree state label holds).mpr) labels state start

theorem guarded_always
    (preserved : ∀ state label next, inv state → guard state label →
      step state label = some next → inv next)
    (sound : ∀ state, inv state → good state)
    (labels : List Label) (state : State) (start : inv state)
    (guarded : Guarded step guard state labels) : Always step good state labels := by
  intro front back reached split ran
  subst split
  exact sound reached
    (run_invariant preserved front state reached start (guarded_front front back state guarded) ran)

/-- When an unguarded step is always enabled and always leaves the good states, a run is
good throughout exactly when it is guarded throughout. What the environment promises about
its labels is `allowed`. -/
theorem always_iff_guarded_within {allowed : State → Label → Prop}
    (preserved : ∀ state label next, inv state → allowed state label → guard state label →
      step state label = some next → inv next)
    (sound : ∀ state, inv state → good state)
    (exact : ∀ state label, inv state → allowed state label → ¬ guard state label →
      ∃ next, step state label = some next ∧ ¬ good next)
    (labels : List Label) (state : State) (start : inv state)
    (within : Guarded step allowed state labels) :
    Always step good state labels ↔ Guarded step guard state labels := by
  constructor
  · induction labels generalizing state with
    | nil => intro _; trivial
    | cons label labels ih =>
        intro always
        have now : guard state label := by
          by_contra refused
          obtain ⟨next, taken, bad⟩ := exact state label start within.1 refused
          exact bad (always [label] labels next rfl (by rw [run_cons, taken]; rfl))
        refine ⟨now, fun next taken =>
          ih next (preserved state label next start within.1 now taken) (within.2 next taken) ?_⟩
        intro front back reached split ran
        exact always (label :: front) back reached (by rw [List.cons_append, split])
          (by rw [run_cons, taken]; exact ran)
  · intro guarded
    apply guarded_always _ sound labels state start (guarded_both within guarded)
    intro state label next holds both taken
    exact preserved state label next holds both.1 both.2 taken

theorem always_iff_guarded
    (preserved : ∀ state label next, inv state → guard state label →
      step state label = some next → inv next)
    (sound : ∀ state, inv state → good state)
    (exact : ∀ state label, inv state → ¬ guard state label →
      ∃ next, step state label = some next ∧ ¬ good next)
    (labels : List Label) (state : State) (start : inv state) :
    Always step good state labels ↔ Guarded step guard state labels :=
  always_iff_guarded_within (fun state label next holds _ => preserved state label next holds) sound
    (fun state label holds _ => exact state label holds) labels state start
    (guarded_of_forall labels state (fun _ _ _ => trivial))

/-- Any state of the run stands in a relation to all states behind it. -/
def Lasting (step : State → Label → Option State) (related : State → State → Prop)
    (state : State) (labels : List Label) : Prop :=
  ∀ front middle back before after, front ++ middle ++ back = labels →
    run step state front = some before → run step before middle = some after → related before after

theorem guarded_back (front back : List Label) (state middle : State)
    (guarded : Guarded step guard state (front ++ back)) (ran : run step state front = some middle) :
    Guarded step guard middle back := by
  induction front generalizing state with
  | nil =>
      cases ran
      exact guarded
  | cons label front ih =>
      rw [run_cons] at ran
      obtain ⟨next, taken, rest⟩ := Option.bind_eq_some_iff.mp ran
      exact ih next (guarded.2 next taken) rest

/-- A reflexive and transitive relation lasts over a run exactly when every step keeps to it. -/
theorem lasting_iff_guarded {related : State → State → Prop} (same : ∀ state, related state state)
    (chain : ∀ first second third, related first second → related second third → related first third)
    (labels : List Label) (state : State) :
    Lasting step related state labels ↔
      Guarded step (fun state label => ∀ next, step state label = some next → related state next) state
        labels := by
  constructor
  · intro lasting
    induction labels generalizing state with
    | nil => trivial
    | cons label labels ih =>
        refine ⟨fun next taken => ?_, fun next taken => ih next ?_⟩
        · exact lasting [] [label] labels state next rfl rfl (by rw [run_cons, taken]; rfl)
        · intro front middle back before after split ran later
          exact lasting (label :: front) middle back before after (by rw [← split]; rfl)
            (by rw [run_cons, taken]; exact ran) later
  · intro guarded front middle back before after split ran later
    subst split
    have rest := guarded_front middle back before
      (guarded_back front (middle ++ back) state before (by rwa [← List.append_assoc]) ran)
    exact run_invariant (fun reached label next (holds : related before reached) keeps taken =>
      chain before reached next holds (keeps next taken)) middle before after (same before) rest later

/-- The machine of an operation that may fault: a fault is a last state. -/
def faulting {ε : Type} (operation : State → Label → Except ε State) :
    Except ε State → Label → Option (Except ε State)
  | .ok state, label => some (operation state label)
  | .error _, _ => none

end OtaMqtt.Lib.Trace
