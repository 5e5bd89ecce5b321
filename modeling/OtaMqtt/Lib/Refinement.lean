import OtaMqtt.Lib.Execution
import OtaMqtt.Lib.Trace

/-! Sequences of calls on an object, and refinement of a total specification object.

The implementation's calls may fault; the specification's cannot. A guard says which
calls are issued, in terms of the implementation state at the moment of the call.

A labelled machine may go along with another one: it has a run of the same labels wherever
the other one has. -/

namespace OtaMqtt.Lib.Refinement

variable {ε Impl Spec Call Reply : Type}

def exec (call : Impl → Call → Except ε (Reply × Impl)) :
    Impl → List Call → Except ε (List Reply × Impl)
  | impl, [] => .ok ([], impl)
  | impl, first :: rest => do
      let (reply, next) ← call impl first
      let (replies, last) ← exec call next rest
      .ok (reply :: replies, last)

def execSpec (call : Spec → Call → Reply × Spec) : Spec → List Call → List Reply × Spec
  | spec, [] => ([], spec)
  | spec, first :: rest =>
      let outcome := call spec first
      let later := execSpec call outcome.2 rest
      (outcome.1 :: later.1, later.2)

def answers (call : Impl → Call → Except ε (Reply × Impl)) (impl : Impl) (calls : List Call) :
    Except ε (List Reply) :=
  (exec call impl calls).map Prod.fst

theorem answers_cons (call : Impl → Call → Except ε (Reply × Impl)) (impl : Impl) (first : Call)
    (rest : List Call) (replies : List Reply) :
    answers call impl (first :: rest) = .ok replies ↔
      ∃ reply next later, call impl first = .ok (reply, next) ∧
        answers call next rest = .ok later ∧ replies = reply :: later := by
  unfold answers
  rw [exec]
  cases call impl first with
  | error reason => simp [Except.map]
  | ok outcome =>
      obtain ⟨reply, next⟩ := outcome
      simp only [Execution.ok_bind]
      cases ran : exec call next rest with
      | error reason => simp [Except.map, ran]
      | ok last => simp [Except.map, ran, eq_comm]

/-- Every call of the sequence meets `guard` when it is issued. -/
def Issued (call : Impl → Call → Except ε (Reply × Impl)) (guard : Impl → Call → Prop) :
    Impl → List Call → Prop
  | _, [] => True
  | impl, first :: rest =>
      guard impl first ∧
        match call impl first with
        | .ok outcome => Issued call guard outcome.2 rest
        | .error _ => True

instance decideIssued (call : Impl → Call → Except ε (Reply × Impl)) (guard : Impl → Call → Prop)
    [decideGuard : ∀ impl first, Decidable (guard impl first)] :
    ∀ impl calls, Decidable (Issued call guard impl calls)
  | _, [] => inferInstanceAs (Decidable True)
  | impl, first :: rest =>
      match decideGuard impl first with
      | .isFalse refused => .isFalse fun issued => refused issued.1
      | .isTrue accepted =>
          match found : call impl first with
          | .error _ => .isTrue ⟨accepted, by rw [found]; trivial⟩
          | .ok outcome =>
              match decideIssued call guard outcome.2 rest with
              | .isTrue later => .isTrue ⟨accepted, by rw [found]; exact later⟩
              | .isFalse never => .isFalse fun issued => never (by
                  have tail := issued.2
                  rw [found] at tail
                  exact tail)

/-- A guard that does not look at the state. -/
theorem issued_of_forall (call : Impl → Call → Except ε (Reply × Impl)) (allowed : Call → Prop)
    (impl : Impl) (calls : List Call) (all : ∀ first ∈ calls, allowed first) :
    Issued call (fun _ first => allowed first) impl calls := by
  induction calls generalizing impl with
  | nil => trivial
  | cons first rest ih =>
      refine ⟨all first List.mem_cons_self, ?_⟩
      split
      · exact ih _ (fun other member => all other (List.mem_cons_of_mem _ member))
      · trivial

section
variable {call : Impl → Call → Except ε (Reply × Impl)} {specCall : Spec → Call → Reply × Spec}
  {guard : Impl → Call → Prop} {Related : Impl → Spec → Prop}

/-- The simulation rule: when every guarded call answers as the specification does and
stays related to it, whole guarded sequences run without a fault and answer alike. -/
theorem exec_refines
    (simulated : ∀ impl spec first, Related impl spec → guard impl first →
      ∃ next, call impl first = .ok ((specCall spec first).1, next) ∧
        Related next (specCall spec first).2)
    (calls : List Call) (impl : Impl) (spec : Spec) (related : Related impl spec)
    (issued : Issued call guard impl calls) :
    ∃ last, exec call impl calls = .ok ((execSpec specCall spec calls).1, last) ∧
      Related last (execSpec specCall spec calls).2 := by
  induction calls generalizing impl spec with
  | nil => exact ⟨impl, rfl, related⟩
  | cons first rest ih =>
      obtain ⟨next, answered, kept⟩ := simulated impl spec first related issued.1
      have later := issued.2
      rw [answered] at later
      obtain ⟨last, ran, related'⟩ := ih next _ kept later
      refine ⟨last, ?_, related'⟩
      simp only [exec, execSpec, answered, Execution.ok_bind, ran]

theorem answers_refine
    (simulated : ∀ impl spec first, Related impl spec → guard impl first →
      ∃ next, call impl first = .ok ((specCall spec first).1, next) ∧
        Related next (specCall spec first).2)
    (calls : List Call) (impl : Impl) (spec : Spec) (related : Related impl spec)
    (issued : Issued call guard impl calls) :
    answers call impl calls = .ok (execSpec specCall spec calls).1 := by
  obtain ⟨last, ran, _⟩ := exec_refines simulated calls impl spec related issued
  rw [answers, ran]
  rfl

end

/-- The simulation rule for calls that cannot fault. -/
theorem execSpec_refines {call : Impl → Call → Reply × Impl} {specCall : Spec → Call → Reply × Spec}
    {Related : Impl → Spec → Prop}
    (simulated : ∀ impl spec first, Related impl spec →
      (call impl first).1 = (specCall spec first).1 ∧
        Related (call impl first).2 (specCall spec first).2)
    (calls : List Call) (impl : Impl) (spec : Spec) (related : Related impl spec) :
    (execSpec call impl calls).1 = (execSpec specCall spec calls).1 ∧
      Related (execSpec call impl calls).2 (execSpec specCall spec calls).2 := by
  induction calls generalizing impl spec with
  | nil => exact ⟨rfl, related⟩
  | cons first rest ih =>
      obtain ⟨answered, kept⟩ := simulated impl spec first related
      obtain ⟨later, last⟩ := ih _ _ kept
      refine ⟨?_, last⟩
      rw [execSpec, execSpec, answered, later]

section
variable {State Other Label : Type} {step : State → Label → Option State}
  {spec : Other → Label → Option Other} {view related : State → Other → Prop}
  {guard : State → Label → Prop}

open OtaMqtt.Lib.Trace

/-- Wherever the first machine gets, the second gets with the same labels, and what is seen of
the two agrees. -/
def Along (step : State → Label → Option State) (spec : Other → Label → Option Other)
    (view : State → Other → Prop) (state : State) (other : Other) (labels : List Label) : Prop :=
  ∀ front back reached, front ++ back = labels → run step state front = some reached →
    ∃ there, run spec other front = some there ∧ view reached there

/-- When an unguarded step is enabled and leaves what the second machine shows, the second
machine goes along exactly with the guarded runs. -/
theorem along_iff_guarded
    (simulated : ∀ state other label next, related state other → guard state label →
      step state label = some next → ∃ there, spec other label = some there ∧ related next there)
    (sound : ∀ state other, related state other → view state other)
    (exact : ∀ state other label, related state other → ¬ guard state label →
      ∃ next, step state label = some next ∧ ∀ there, spec other label = some there → ¬ view next there)
    (labels : List Label) (state : State) (other : Other) (start : related state other) :
    Along step spec view state other labels ↔ Guarded step guard state labels := by
  constructor
  · induction labels generalizing state other with
    | nil =>
        intro _
        trivial
    | cons label labels ih =>
        intro along
        have now : guard state label := by
          by_contra refused
          obtain ⟨next, taken, apart⟩ := exact state other label start refused
          obtain ⟨there, went, seen⟩ := along [label] labels next rfl (by rw [run_cons, taken]; rfl)
          rw [run_cons] at went
          obtain ⟨first, stepped, last⟩ := Option.bind_eq_some_iff.mp went
          cases last
          exact apart there stepped seen
        refine ⟨now, fun next taken => ?_⟩
        obtain ⟨first, stepped, kept⟩ := simulated state other label next start now taken
        apply ih next first kept
        intro front back reached split ran
        obtain ⟨there, went, seen⟩ := along (label :: front) back reached
          (by rw [List.cons_append, split]) (by rw [run_cons, taken]; exact ran)
        rw [run_cons, stepped] at went
        exact ⟨there, went, seen⟩
  · intro guarded front back reached split ran
    subst split
    suffices ∃ there, run spec other front = some there ∧ related reached there by
      obtain ⟨there, went, kept⟩ := this
      exact ⟨there, went, sound reached there kept⟩
    have within := guarded_front front back state guarded
    clear guarded
    induction front generalizing state other with
    | nil =>
        cases ran
        exact ⟨other, rfl, start⟩
    | cons label front ih =>
        rw [run_cons] at ran
        obtain ⟨next, taken, rest⟩ := Option.bind_eq_some_iff.mp ran
        obtain ⟨first, stepped, kept⟩ := simulated state other label next start within.1 taken
        obtain ⟨there, went, kept'⟩ := ih next first kept rest (within.2 next taken)
        exact ⟨there, by rw [run_cons, stepped]; exact went, kept'⟩

end

end OtaMqtt.Lib.Refinement
