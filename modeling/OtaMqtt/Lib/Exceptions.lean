import OtaMqtt.Lib.Execution

/-! Computations whose exceptions keep the state they were thrown in.

`Except` over a state forgets the state when something is thrown; an object that outlives the
exception does not. -/

namespace OtaMqtt.Lib.Exceptions

open OtaMqtt.Lib.Execution

variable {ε σ α β : Type}

def Attempt (ε σ α : Type) : Type := σ → Except ε α × σ

def returning (value : α) : Attempt ε σ α := fun state => (.ok value, state)

def andThen (first : Attempt ε σ α) (next : α → Attempt ε σ β) : Attempt ε σ β := fun state =>
  match first state with
  | (.ok value, later) => next value later
  | (.error reason, later) => (.error reason, later)

instance : Monad (Attempt ε σ) where
  pure := returning
  bind := andThen

def lift (run : Except ε α) : Attempt ε σ α := fun state => (run, state)

/-- An operation that leaves the state alone when it throws. -/
def guarded (operation : σ → Except ε (α × σ)) : Attempt ε σ α := fun state =>
  match operation state with
  | .ok (value, later) => (.ok value, later)
  | .error reason => (.error reason, state)

def forget (attempt : Attempt ε σ α) (state : σ) : Except ε (α × σ) :=
  (attempt state).1.map fun value => (value, (attempt state).2)

theorem bind_apply (first : Attempt ε σ α) (next : α → Attempt ε σ β) (state : σ) :
    (first >>= next) state =
      match first state with
      | (.ok value, later) => next value later
      | (.error reason, later) => (.error reason, later) := rfl

theorem bind_thrown (first : Attempt ε σ α) (next : α → Attempt ε σ β) (state last : σ) (reason : ε)
    (thrown : (first >>= next) state = (.error reason, last)) :
    first state = (.error reason, last) ∨
      ∃ value later, first state = (.ok value, later) ∧ next value later = (.error reason, last) := by
  rw [bind_apply] at thrown
  match found : first state with
  | (.ok value, later) =>
      rw [found] at thrown
      exact .inr ⟨value, later, rfl, thrown⟩
  | (.error other, later) =>
      rw [found] at thrown
      dsimp only at thrown
      rw [Prod.mk.injEq, Except.error.injEq] at thrown
      rw [thrown.1, thrown.2]
      exact .inl rfl

theorem bind_returned (first : Attempt ε σ α) (next : α → Attempt ε σ β) (state last : σ) (result : β)
    (returned : (first >>= next) state = (.ok result, last)) :
    ∃ value later, first state = (.ok value, later) ∧ next value later = (.ok result, last) := by
  rw [bind_apply] at returned
  match found : first state with
  | (.ok value, later) =>
      rw [found] at returned
      exact ⟨value, later, rfl, returned⟩
  | (.error other, later) =>
      rw [found] at returned
      cases returned

@[simp] theorem forget_pure (value : α) (state : σ) :
    forget (pure value : Attempt ε σ α) state = .ok (value, state) := rfl

@[simp] theorem forget_lift (run : Except ε α) (state : σ) :
    forget (lift run) state = run.map fun value => (value, state) := rfl

@[simp] theorem forget_guarded (operation : σ → Except ε (α × σ)) (state : σ) :
    forget (guarded operation) state = operation state := by
  rw [forget, guarded]
  cases operation state with
  | error reason => rfl
  | ok outcome => rfl

@[simp] theorem forget_bind (first : Attempt ε σ α) (next : α → Attempt ε σ β) (state : σ) :
    forget (first >>= next) state = (do
      let (value, later) ← forget first state
      forget (next value) later) := by
  simp only [forget, bind_apply]
  match first state with
  | (.ok value, later) => rfl
  | (.error reason, later) => rfl

theorem forget_ok (attempt : Attempt ε σ α) (state last : σ) (value : α)
    (returned : attempt state = (.ok value, last)) : forget attempt state = .ok (value, last) := by
  rw [forget, returned]
  rfl

end OtaMqtt.Lib.Exceptions
