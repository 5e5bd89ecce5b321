import OtaMqtt.Lib.Trace
import OtaMqtt.Log.Formatting

/-! Which appenders a log call reaches.

`delAppender` erases the first appender of the list, whichever one it is given. -/

namespace OtaMqtt.Log.Attachments

open OtaMqtt.Lib.Trace

/-- What an appender's members hold; `level` is whatever stands in `m_level`. -/
structure Appender where
  level : Nat
  formatter : Option LogFormatter
  deriving DecidableEq, Repr

/-- A logger and the appenders behind the pointers; `root` tells whether `m_root` is set. -/
structure SharedLogger where
  level : Nat
  formatter : Option LogFormatter
  root : Bool
  objects : Nat → Appender
  appenders : List Nat

/-- What `Logger::log` calls for an event and what passes its level there. -/
inductive Reached where
  | appender (pointer : Nat) (event : LogEvent)
  | root (event : LogEvent)
  deriving DecidableEq, Repr

namespace SharedLogger

/-- An appender without a formatter takes the logger's. -/
def addAppender (logger : SharedLogger) (pointer : Nat) : SharedLogger :=
  let appender := logger.objects pointer
  { logger with
    objects :=
      if appender.formatter.isSome then logger.objects
      else Function.update logger.objects pointer { appender with formatter := logger.formatter },
    appenders := logger.appenders ++ [pointer] }

/-- The loop erases the element it begins with and ends. -/
def delAppender (logger : SharedLogger) (_appender : Nat) : SharedLogger :=
  match logger.appenders with
  | [] => logger
  | _ :: appenders => { logger with appenders }

def clearAppenders (logger : SharedLogger) : SharedLogger := { logger with appenders := [] }

/-- `log` of an appender, which writes the event or drops it. -/
def write (logger : SharedLogger) (level : Nat) (event : LogEvent) (pointer : Nat) : List Reached :=
  if (logger.objects pointer).level ≤ level then [.appender pointer event] else []

def log (logger : SharedLogger) (level : Nat) (event : LogEvent) : List Reached :=
  if logger.level ≤ level then
    if logger.appenders ≠ [] then logger.appenders.flatMap (logger.write level event)
    else if logger.root then [.root event]
    else []
  else []

end SharedLogger

inductive Call where
  | addAppender (pointer : Nat)
  | delAppender (pointer : Nat)
  | clearAppenders
  | log (level : Nat) (event : LogEvent)

/-- The logger beside the appenders that were added and not removed since. -/
structure World where
  logger : SharedLogger
  attached : List Nat

namespace World

def step (world : World) : Call → Option World
  | .addAppender pointer =>
      some ⟨world.logger.addAppender pointer, world.attached ++ [pointer]⟩
  | .delAppender pointer => some ⟨world.logger.delAppender pointer, world.attached.erase pointer⟩
  | .clearAppenders => some ⟨world.logger.clearAppenders, []⟩
  | .log _ _ => some world

def Passes (world : World) (level : Nat) : Prop :=
  world.logger.level ≤ level ∧
    ∀ pointer ∈ world.logger.appenders ++ world.attached, (world.logger.objects pointer).level ≤ level

/-- The attached appenders in their order, and the root logger if there are none. -/
def meant (world : World) (event : LogEvent) : List Reached :=
  if world.attached ≠ [] then world.attached.map (.appender · event)
  else if world.logger.root then [.root event]
  else []

def Exactly (world : World) : Prop :=
  ∀ level event, world.Passes level → world.logger.log level event = world.meant event

end World

/-- An appender is removed when there is none or when it is the one that was added first. -/
def First (world : World) : Call → Prop
  | .delAppender pointer => world.attached = [] ∨ world.attached.head? = some pointer
  | _ => True

def Agrees (world : World) : Prop := world.logger.appenders = world.attached

theorem flatMap_write {logger : SharedLogger} {level : Nat} {pointers : List Nat}
    (passes : ∀ pointer ∈ pointers, (logger.objects pointer).level ≤ level) (event : LogEvent) :
    pointers.flatMap (logger.write level event) = pointers.map (.appender · event) := by
  induction pointers with
  | nil => rfl
  | cons pointer pointers ih =>
      obtain ⟨here, rest⟩ := List.forall_mem_cons.mp passes
      rw [List.flatMap_cons, List.map_cons, ih rest, SharedLogger.write, if_pos here]
      rfl

theorem log_passes {world : World} {level : Nat} (passes : world.Passes level) (event : LogEvent) :
    world.logger.log level event =
      World.meant ⟨world.logger, world.logger.appenders⟩ event := by
  obtain ⟨own, appenders⟩ := passes
  have written := @flatMap_write world.logger level world.logger.appenders
    (fun pointer member => appenders pointer (List.mem_append_left _ member)) event
  rw [SharedLogger.log, if_pos own, written]
  rfl

theorem exactly_of_agrees {world : World} (agrees : Agrees world) : world.Exactly := by
  intro level event passes
  rw [log_passes passes, agrees]

theorem meant_injective {logger : SharedLogger} {first second : List Nat} (event : LogEvent)
    (same : World.meant ⟨logger, first⟩ event = World.meant ⟨logger, second⟩ event) :
    first = second := by
  have injective : Function.Injective (Reached.appender · event) := fun _ _ equal =>
    (Reached.appender.inj equal).1
  cases first with
  | nil =>
      cases second with
      | nil => rfl
      | cons pointer second =>
          simp only [World.meant] at same
          cases root : logger.root <;> simp [root] at same
  | cons pointer first =>
      cases second with
      | nil =>
          simp only [World.meant] at same
          cases root : logger.root <;> simp [root] at same
      | cons other second => exact List.map_injective_iff.mpr injective same

theorem passes_some (world : World) : ∃ level, world.Passes level := by
  let bound := (world.logger.appenders ++ world.attached).toFinset.sup
    fun pointer => (world.logger.objects pointer).level
  refine ⟨max world.logger.level bound, Nat.le_max_left _ _, fun pointer member => ?_⟩
  have below := Finset.le_sup (f := fun pointer => (world.logger.objects pointer).level)
    (List.mem_toFinset.mpr member)
  exact below.trans (Nat.le_max_right _ _)

theorem agrees_of_exactly {world : World} (exactly : world.Exactly) : Agrees world := by
  obtain ⟨level, passes⟩ := passes_some world
  have reached := exactly level ⟨"", 0, 0, 0, 0, 0, "", "", ""⟩ passes
  rw [log_passes passes] at reached
  exact meant_injective _ reached

theorem delAppender_appenders (logger : SharedLogger) (pointer : Nat) :
    (logger.delAppender pointer).appenders = logger.appenders.tail := by
  unfold SharedLogger.delAppender
  split
  · rename_i empty
    rw [empty, List.tail_nil]
  · rename_i others
    rw [others, List.tail_cons]

theorem tail_ne_erase {first pointer : Nat} (others : List Nat) (apart : first ≠ pointer) :
    others ≠ (first :: others).erase pointer := by
  rw [List.erase_cons_tail (by simpa using apart)]
  intro same
  by_cases present : pointer ∈ others
  · have counts := congrArg (List.count pointer) same
    rw [List.count_cons_of_ne apart, List.count_erase_self] at counts
    have positive := List.count_pos_iff.mpr present
    omega
  · rw [List.erase_of_not_mem present] at same
    exact List.cons_ne_self _ _ same.symm

theorem agrees_step (world : World) (call : Call) (next : World) (agrees : Agrees world)
    (first : First world call) (taken : world.step call = some next) : Agrees next := by
  cases call with
  | addAppender pointer =>
      cases taken
      exact congrArg (· ++ [pointer]) agrees
  | delAppender pointer =>
      cases taken
      rw [Agrees, delAppender_appenders, agrees]
      cases listed : world.attached with
      | nil => rfl
      | cons head others =>
          rw [First, listed] at first
          rcases first with none | same
          · cases none
          · rw [Option.some.inj same, List.erase_cons_head, List.tail_cons]
  | clearAppenders =>
      cases taken
      rfl
  | log level event =>
      cases taken
      exact agrees

theorem wrong_removed (world : World) (call : Call) (agrees : Agrees world)
    (other : ¬ First world call) :
    ∃ next, world.step call = some next ∧ ¬ next.Exactly := by
  cases call with
  | delAppender pointer =>
      refine ⟨_, rfl, fun exactly => ?_⟩
      have same := agrees_of_exactly exactly
      rw [Agrees, delAppender_appenders, agrees] at same
      obtain ⟨some', notFirst⟩ := not_or.mp other
      obtain ⟨first, others, listed⟩ := List.exists_cons_of_ne_nil some'
      rw [listed] at same notFirst
      exact tail_ne_erase others (fun equal => notFirst (congrArg some equal)) same
  | addAppender pointer => exact absurd trivial other
  | clearAppenders => exact absurd trivial other
  | log level event => exact absurd trivial other

/-- A logger that the manager has just made. -/
def World.start (level : Nat) (formatter : Option LogFormatter) (root : Bool)
    (objects : Nat → Appender) : World := ⟨⟨level, formatter, root, objects, []⟩, []⟩

/-- Log calls reach the attached appenders throughout a run exactly when every removal in it is
of the first one or of none. -/
theorem exactly_iff_first (level : Nat) (formatter : Option LogFormatter) (root : Bool)
    (objects : Nat → Appender) (calls : List Call) :
    Always World.step World.Exactly (.start level formatter root objects) calls ↔
      Guarded World.step First (.start level formatter root objects) calls :=
  always_iff_guarded agrees_step (fun _ => exactly_of_agrees) wrong_removed calls _ rfl

/-- Removing the second of two appenders detaches the first. -/
theorem second_removed : ¬ ∀ level formatter root objects calls,
    Always World.step World.Exactly (.start level formatter root objects) calls := by
  intro every
  have exactly := every 0 none true (fun _ => ⟨0, none⟩) [.addAppender 0, .addAppender 1, .delAppender 1]
    [.addAppender 0, .addAppender 1, .delAppender 1] [] _ rfl rfl
  have agrees := agrees_of_exactly exactly
  exact absurd agrees (by simp [Agrees, SharedLogger.delAppender, SharedLogger.addAppender, World.start])

end OtaMqtt.Log.Attachments
