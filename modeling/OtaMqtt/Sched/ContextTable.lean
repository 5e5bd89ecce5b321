import OtaMqtt.Lib.Execution
import OtaMqtt.Lib.Trace

/-! The table of descriptor contexts under concurrent calls of `addEvent` (sherry/iomanager.cc,
http/http_server.cc).

`addEvent` looks at the size of the table under the read lock and, when the descriptor lies behind
it, resizes the table under the write lock later. A context is the number of its making. -/

namespace OtaMqtt.Sched.ContextTable

open OtaMqtt.Lib.Execution OtaMqtt.Lib.Trace

/-- `made` counts the contexts that `new` has made, and `waiting` holds the descriptors of the
callers that are about to resize. -/
structure World where
  fdContexts : List (Option Nat)
  made : Nat
  waiting : List Nat
  deriving DecidableEq

/-- `std::vector::resize`; new entries are null. -/
def resize (table : List (Option Nat)) (size : Nat) : List (Option Nat) :=
  table.take size ++ List.replicate (size - table.length) none

def fill : List (Option Nat) → Nat → List (Option Nat) × Nat
  | [], made => ([], made)
  | some ctx :: table, made =>
      let (rest, made) := fill table made
      (some ctx :: rest, made)
  | none :: table, made =>
      let (rest, last) := fill table (made + 1)
      (some made :: rest, last)

def contextResize (world : World) (size : Nat) : World :=
  let (table, made) := fill (resize world.fdContexts size) world.made
  { world with fdContexts := table, made := made }

inductive Label where
  | test (fd : Nat)
  | resize (fd : Nat)
  deriving DecidableEq

/-- The two sections of `addEvent`; `fd * 1.5` is rounded down. -/
def step (world : World) : Label → Option World
  | .test fd =>
      if castInt world.fdContexts.length > fd then some world
      else some { world with waiting := fd :: world.waiting }
  | .resize fd =>
      if fd ∈ world.waiting then
        some { contextResize world (fd * 3 / 2) with waiting := world.waiting.erase fd }
      else none

/-- The constructors make room for 32 descriptors. -/
def constructed (size : Nat) : World := contextResize ⟨[], 0, []⟩ size

def ioManager : World := constructed 32

def httpServer : World := constructed 32

/-- The table has not got shorter, and every context is where it was. -/
structure Keeps (before after : World) : Prop where
  size : before.fdContexts.length ≤ after.fdContexts.length
  contexts : ∀ fd ctx : Nat, before.fdContexts[fd]? = some (some ctx) →
    after.fdContexts[fd]? = some (some ctx)

/-- A caller resizes only to a table that is not shorter by then. -/
def Growing (world : World) : Label → Prop
  | .test _ => True
  | .resize fd => fd ∈ world.waiting → world.fdContexts.length ≤ fd * 3 / 2

instance (world : World) (label : Label) : Decidable (Growing world label) :=
  match label with
  | .test _ => inferInstanceAs (Decidable True)
  | .resize _ => inferInstanceAs (Decidable (_ → _))

section
variable {world next : World}

theorem fill_length (table : List (Option Nat)) (made : Nat) : (fill table made).1.length = table.length := by
  induction table generalizing made with
  | nil => rfl
  | cons entry table ih =>
      cases entry with
      | none => exact congrArg Nat.succ (ih (made + 1))
      | some ctx => exact congrArg Nat.succ (ih made)

theorem fill_keeps (table : List (Option Nat)) (made fd ctx : Nat) (there : table[fd]? = some (some ctx)) :
    (fill table made).1[fd]? = some (some ctx) := by
  induction table generalizing made fd with
  | nil => cases there
  | cons entry table ih =>
      cases fd with
      | zero =>
          cases Option.some.inj there
          rfl
      | succ fd =>
          cases entry with
          | none => exact ih (made + 1) fd there
          | some other => exact ih made fd there

theorem resize_length (table : List (Option Nat)) (size : Nat) : (resize table size).length = size := by
  rw [resize, List.length_append, List.length_take, List.length_replicate]
  omega

theorem contextResize_length (size : Nat) : (contextResize world size).fdContexts.length = size :=
  (fill_length _ _).trans (resize_length _ size)

theorem contextResize_keeps (size : Nat) (longer : world.fdContexts.length ≤ size) :
    Keeps world (contextResize world size) := by
  refine ⟨?_, fun fd ctx there => ?_⟩
  · rw [contextResize_length]
    exact longer
  · apply fill_keeps
    have inside := List.getElem?_eq_some_iff.mp there
    rw [resize, List.take_of_length_le longer, List.getElem?_append_left inside.1]
    exact there

theorem step_keeps_iff (label : Label) :
    (∀ next, step world label = some next → Keeps world next) ↔ Growing world label := by
  cases label with
  | test fd =>
      refine ⟨fun _ => trivial, fun _ next taken => ?_⟩
      simp only [step] at taken
      split at taken
      · cases taken
        exact ⟨Nat.le_refl _, fun _ _ there => there⟩
      · cases taken
        exact ⟨Nat.le_refl _, fun _ _ there => there⟩
  | resize fd =>
      constructor
      · intro keeps waits
        have size := (keeps _ (if_pos waits)).size
        dsimp only at size
        rwa [contextResize_length] at size
      · intro growing next taken
        simp only [step] at taken
        split at taken
        · rename_i waits
          cases taken
          have keeps := contextResize_keeps (fd * 3 / 2) (growing waits)
          exact ⟨keeps.size, keeps.contexts⟩
        · cases taken

theorem keeps_trans (first second third : World) (earlier : Keeps first second)
    (later : Keeps second third) : Keeps first third :=
  ⟨Nat.le_trans earlier.size later.size, fun fd ctx there =>
    later.contexts fd ctx (earlier.contexts fd ctx there)⟩

theorem keeps_iff_growing (labels : List Label) :
    Lasting step Keeps world labels ↔ Guarded step Growing world labels :=
  (lasting_iff_guarded (fun _ => ⟨Nat.le_refl _, fun _ _ there => there⟩) keeps_trans labels world).trans
    (guarded_congr (fun _ _ _ _ _ => trivial) (fun _ label _ => step_keeps_iff label) labels world trivial)

end

/-- In either class the table never gets shorter and no context is ever replaced, exactly when no
caller resizes to less than the table has by then. -/
theorem tables_keep_iff_growing (labels : List Label) :
    (Lasting step Keeps ioManager labels ↔ Guarded step Growing ioManager labels) ∧
      (Lasting step Keeps httpServer labels ↔ Guarded step Growing httpServer labels) :=
  ⟨keeps_iff_growing labels, keeps_iff_growing labels⟩

/-- The caller with the smaller descriptor resizes last. -/
def crossedResizes : List Label := [.test 40, .test 100, .resize 100, .resize 40]

theorem crossed_resizes_shrink :
    ¬ ∀ labels, Lasting step Keeps ioManager labels ∧ Lasting step Keeps httpServer labels := by
  intro always_keep
  have growing := (keeps_iff_growing crossedResizes).mp (always_keep crossedResizes).1
  revert growing
  decide +kernel

end OtaMqtt.Sched.ContextTable
