import OtaMqtt.Lib.Execution
import OtaMqtt.Lib.OrderedSet

/-! Timers and their manager (sherry/timer.h, timer.cc).

A timer is named by the order of its creation, which also stands for its address in the
comparator. A function that reads the clock is given the reading. -/

namespace OtaMqtt.Timers

open OtaMqtt.Lib OtaMqtt.Lib.Execution OtaMqtt.Lib.OrderedSet

/-- The defaults are those of the member initialisers. -/
structure Timer (Callback : Type) where
  recurring : Bool := false
  ms : UInt64 := 0
  next : UInt64 := 0
  cb : Option Callback := none

structure TimerManager (Callback : Type) where
  objects : Nat → Timer Callback
  created : Nat
  timers : List Nat
  tickled : Bool
  previouseTime : UInt64
  wakeups : Nat

namespace TimerManager

variable {Callback : Type}

def fresh (now : UInt64) : TimerManager Callback := ⟨fun _ => {}, 0, [], false, now, 0⟩

/-- `Timer::Comparator`; no pointer in the set is null. -/
def less (objects : Nat → Timer Callback) (lhs rhs : Nat) : Bool :=
  if (objects lhs).next < (objects rhs).next then true
  else if (objects rhs).next < (objects lhs).next then false
  else lhs < rhs

def modify (manager : TimerManager Callback) (id : Nat)
    (change : Timer Callback → Timer Callback) : TimerManager Callback :=
  { manager with objects := Function.update manager.objects id (change (manager.objects id)) }

def insert (manager : TimerManager Callback) (id : Nat) : TimerManager Callback :=
  { manager with timers := OrderedSet.insert (less manager.objects) id manager.timers }

/-- The protected `addTimer`; the calls of `onTimerInsertedAtFront` are counted. -/
def add (manager : TimerManager Callback) (id : Nat) : TimerManager Callback :=
  let manager := manager.insert id
  if manager.timers.head? = some id ∧ manager.tickled = false then
    { manager with tickled := true, wakeups := manager.wakeups + 1 }
  else manager

def addTimer (manager : TimerManager Callback) (now ms : UInt64) (cb : Callback) (recurring : Bool) :
    Nat × TimerManager Callback :=
  let id := manager.created
  let manager := { manager with
    created := manager.created + 1
    objects := Function.update manager.objects id ⟨recurring, ms, now + ms, some cb⟩ }
  (id, manager.add id)

/-- `erase(find(..))` is undefined when the timer is not in the set. -/
def erase (manager : TimerManager Callback) (id : Nat) : Run (TimerManager Callback) :=
  match OrderedSet.remove (less manager.objects) id manager.timers with
  | some timers => .ok { manager with timers := timers }
  | none => .error .outOfBounds

def cancel (manager : TimerManager Callback) (id : Nat) : Run (Bool × TimerManager Callback) :=
  if (manager.objects id).cb.isSome then do
    let manager ← (manager.modify id fun timer => { timer with cb := none }).erase id
    .ok (true, manager)
  else .ok (false, manager)

def refresh (manager : TimerManager Callback) (id : Nat) (now : UInt64) :
    Bool × TimerManager Callback :=
  if (manager.objects id).cb.isNone then (false, manager)
  else
    match OrderedSet.remove (less manager.objects) id manager.timers with
    | none => (false, manager)
    | some timers =>
        let manager := { manager with timers := timers }
        (true, (manager.modify id fun timer => { timer with next := now + timer.ms }).insert id)

def reset (manager : TimerManager Callback) (id : Nat) (ms : UInt64) (fromNow : Bool) (now : UInt64) :
    Bool × TimerManager Callback :=
  let timer := manager.objects id
  if ms = timer.ms ∧ fromNow = false then (true, manager)
  else if timer.cb.isNone then (false, manager)
  else
    match OrderedSet.remove (less manager.objects) id manager.timers with
    | none => (false, manager)
    | some timers =>
        let manager := { manager with timers := timers }
        let start := if fromNow then now else timer.next - timer.ms
        (true, (manager.modify id fun timer => { timer with ms := ms, next := start + ms }).add id)

def getNextTimer (manager : TimerManager Callback) (now : UInt64) : UInt64 × TimerManager Callback :=
  let manager := { manager with tickled := false }
  match manager.timers with
  | [] => (~~~0, manager)
  | next :: _ =>
      (if (manager.objects next).next ≤ now then 0 else (manager.objects next).next - now, manager)

def detectClockRollover (manager : TimerManager Callback) (now : UInt64) :
    Bool × TimerManager Callback :=
  (now < manager.previouseTime && now < manager.previouseTime - 60 * 60 * 1000,
    { manager with previouseTime := now })

/-- Splits the set where the search for `now_timer` and the loop behind it stop. -/
def splitExpired (manager : TimerManager Callback) (now : UInt64) (rollover : Bool) :
    List Nat × List Nat :=
  if rollover then (manager.timers, [])
  else
    let nowTimer := manager.created
    let objects := Function.update manager.objects nowTimer { next := now }
    let lower := manager.timers.span fun id => less objects id nowTimer
    let same := lower.2.span fun id => (manager.objects id).next == now
    (lower.1 ++ same.1, same.2)

/-- The loop over the expired timers. -/
def collect (now : UInt64) :
    TimerManager Callback → List Nat → List (Option Callback) × TimerManager Callback
  | manager, [] => ([], manager)
  | manager, id :: expired =>
      let timer := manager.objects id
      let manager :=
        if timer.recurring then
          (manager.modify id fun timer => { timer with next := now + timer.ms }).insert id
        else manager.modify id fun timer => { timer with cb := none }
      let later := collect now manager expired
      (timer.cb :: later.1, later.2)

def listExpiredCb (manager : TimerManager Callback) (now : UInt64) :
    List (Option Callback) × TimerManager Callback :=
  match manager.timers with
  | [] => ([], manager)
  | first :: _ =>
      let (rollover, manager) := manager.detectClockRollover now
      if rollover = false ∧ now < (manager.objects first).next then ([], manager)
      else
        let (expired, rest) := manager.splitExpired now rollover
        collect now { manager with timers := rest } expired

end TimerManager

end OtaMqtt.Timers
