import OtaMqtt.Timers.TimerSet

/-! The hooked sleeps and the timers that wake their fibers.

`sleep` multiplies in 32 bits, `nanosleep` hands seconds to a timer that counts milliseconds,
and without the hook `nanosleep` calls itself. -/

namespace OtaMqtt.Hook.Sleeps

open OtaMqtt.Timers OtaMqtt.Timers.TimerSet

variable {Callback : Type}

/-- A legal `timespec` whose value in milliseconds fits an `int`. -/
structure Timespec where
  tvSec : Int
  tvNsec : Int
  sec_nonneg : 0 ≤ tvSec
  nsec_nonneg : 0 ≤ tvNsec
  nsec_small : tvNsec < 1000000000
  fits : tvSec * 1000 + tvNsec / 1000000 < 2 ^ 31

inductive Request where
  | sleep (seconds : UInt32)
  | usleep (usec : UInt32)
  | nanosleep (req : Timespec)

/-- The function of the C library was called, or a timer was added and the fiber left. -/
inductive Outcome (Callback : Type) where
  | libc (request : Request)
  | sleeping (timer : Nat) (manager : TimerManager Callback)

/-- `addTimer` with the callback that schedules the fiber, then `YieldToHold`. -/
def holdFor (manager : TimerManager Callback) (now ms : UInt64) (cb : Callback) : Outcome Callback :=
  let added := manager.addTimer now ms cb false
  .sleeping added.1 added.2

def sleep (hookEnable : Bool) (manager : TimerManager Callback) (now : UInt64) (cb : Callback)
    (seconds : UInt32) : Outcome Callback :=
  if hookEnable = false then .libc (.sleep seconds)
  else holdFor manager now (seconds * 1000).toUInt64 cb

def usleep (hookEnable : Bool) (manager : TimerManager Callback) (now : UInt64) (cb : Callback)
    (usec : UInt32) : Outcome Callback :=
  if hookEnable = false then .libc (.usleep usec)
  else holdFor manager now (usec / 1000).toUInt64 cb

def timeoutMs (req : Timespec) : Int :=
  Int.bmod (req.tvSec * 1000 + (req.tvNsec.tdiv 1000).tdiv 1000) (2 ^ 32)

def toUint64 (value : Int) : UInt64 := .ofNat (value % 2 ^ 64).toNat

/-- `nanosleep` on a stack of some depth; `none` when the calls exceed it. -/
def nanosleep (hookEnable : Bool) (manager : TimerManager Callback) (now : UInt64) (cb : Callback)
    (req : Timespec) : Nat → Option (Outcome Callback)
  | 0 => none
  | depth + 1 =>
      if hookEnable = false then nanosleep hookEnable manager now cb req depth
      else some (holdFor manager now (toUint64 ((timeoutMs req).tdiv 1000)) cb)

def Request.call (hookEnable : Bool) (manager : TimerManager Callback) (now : UInt64)
    (cb : Callback) (request : Request) (depth : Nat) : Option (Outcome Callback) :=
  match request with
  | .sleep seconds => some (Sleeps.sleep hookEnable manager now cb seconds)
  | .usleep usec => some (Sleeps.usleep hookEnable manager now cb usec)
  | .nanosleep req => Sleeps.nanosleep hookEnable manager now cb req depth

/-- The duration that is asked for, in whole milliseconds. -/
def Request.milliseconds : Request → Nat
  | .sleep seconds => seconds.toNat * 1000
  | .usleep usec => usec.toNat / 1000
  | .nanosleep req => (req.tvSec * 1000 + req.tvNsec / 1000000).toNat

/-- With the hook the call adds a timer that is due no earlier than asked for, and without it
the library's function is called. -/
def Rests (hookEnable : Bool) (manager : TimerManager Callback) (now : UInt64) (cb : Callback)
    (request : Request) : Prop :=
  ∃ depth outcome, request.call hookEnable manager now cb depth = some outcome ∧
    match outcome with
    | .libc asked => hookEnable = false ∧ asked = request
    | .sleeping timer manager => hookEnable = true ∧
        now.toNat + request.milliseconds ≤ (manager.objects timer).next.toNat

/-- The requests that the conversions were written for. -/
def Converts (hookEnable : Bool) (now : UInt64) : Request → Prop
  | .sleep seconds => hookEnable = true →
      seconds.toNat * 1000 < 2 ^ 32 ∧ now.toNat + seconds.toNat * 1000 < 2 ^ 64
  | .usleep usec => hookEnable = true → now.toNat + usec.toNat / 1000 < 2 ^ 64
  | .nanosleep req => hookEnable = true ∧ req.tvSec * 1000 + req.tvNsec / 1000000 = 0

theorem holdFor_due (manager : TimerManager Callback) (now ms : UInt64) (cb : Callback) :
    ∃ timer manager', holdFor manager now ms cb = .sleeping timer manager' ∧
      (manager'.objects timer).next.toNat = (now.toNat + ms.toNat) % 2 ^ 64 := by
  refine ⟨_, _, rfl, ?_⟩
  rw [TimerManager.addTimer, (add_objects _).1]
  simp only [Function.update_self, UInt64.toNat_add]

theorem due_iff {now ms asked : Nat} (start : now < 2 ^ 64) (time : ms < 2 ^ 64) (short : ms ≤ asked) :
    now + asked ≤ (now + ms) % 2 ^ 64 ↔ ms = asked ∧ now + asked < 2 ^ 64 := by
  omega

theorem rests_held {hookEnable : Bool} {manager : TimerManager Callback} {now ms : UInt64}
    {cb : Callback} {request : Request} (enabled : hookEnable = true)
    (held : ∀ depth, request.call hookEnable manager now cb (depth + 1) =
      some (holdFor manager now ms cb))
    (ground : request.call hookEnable manager now cb 0 = none ∨
      request.call hookEnable manager now cb 0 = some (holdFor manager now ms cb))
    (short : ms.toNat ≤ request.milliseconds) : Rests hookEnable manager now cb request ↔
      ms.toNat = request.milliseconds ∧ now.toNat + request.milliseconds < 2 ^ 64 := by
  obtain ⟨timer, manager', added, due⟩ := holdFor_due manager now ms cb
  rw [← due_iff now.toNat_lt ms.toNat_lt short, ← due]
  constructor
  · rintro ⟨depth, outcome, called, kept⟩
    have same : outcome = .sleeping timer manager' := by
      cases depth with
      | zero =>
          rcases ground with none | some'
          · rw [none] at called
            cases called
          · rw [some', added] at called
            exact (Option.some.inj called).symm
      | succ depth =>
          rw [held, added] at called
          exact (Option.some.inj called).symm
    subst same
    exact kept.2
  · intro enough
    exact ⟨1, _, (held 0).trans (congrArg some added), enabled, enough⟩

theorem timeoutMs_value (req : Timespec) :
    timeoutMs req = req.tvSec * 1000 + req.tvNsec / 1000000 := by
  obtain ⟨sec, nsec, secs, nsecs, small, fits⟩ := req
  have halves : (nsec.tdiv 1000).tdiv 1000 = nsec / 1000000 := by
    rw [Int.tdiv_eq_ediv_of_nonneg nsecs, Int.tdiv_eq_ediv_of_nonneg (by omega)]
    omega
  rw [timeoutMs, halves, Int.bmod_eq_of_le] <;> dsimp only <;> omega

theorem nanosleep_time (req : Timespec) : (toUint64 ((timeoutMs req).tdiv 1000)).toNat =
    (Request.nanosleep req).milliseconds / 1000 := by
  have value := timeoutMs_value req
  obtain ⟨sec, nsec, secs, nsecs, small, fits⟩ := req
  dsimp only at value fits
  rw [toUint64, UInt64.toNat_ofNat', value, Int.tdiv_eq_ediv_of_nonneg (by omega),
    Request.milliseconds]
  dsimp only
  omega

theorem sleep_time (seconds : UInt32) :
    (seconds * 1000).toUInt64.toNat = seconds.toNat * 1000 % 2 ^ 32 := by
  rw [UInt32.toNat_toUInt64, UInt32.toNat_mul]
  rfl

theorem usleep_time (usec : UInt32) : (usec / 1000).toUInt64.toNat = usec.toNat / 1000 := by
  rw [UInt32.toNat_toUInt64, UInt32.toNat_div]
  rfl

theorem nanosleep_recurs (manager : TimerManager Callback) (now : UInt64) (cb : Callback)
    (req : Timespec) (depth : Nat) : nanosleep false manager now cb req depth = none := by
  induction depth with
  | zero => rfl
  | succ depth ih =>
      rw [nanosleep, if_pos rfl]
      exact ih

theorem nanosleep_rests_iff (manager : TimerManager Callback) (now : UInt64) (cb : Callback)
    (req : Timespec) : Rests true manager now cb (.nanosleep req) ↔
      req.tvSec * 1000 + req.tvNsec / 1000000 = 0 := by
  have short : (toUint64 ((timeoutMs req).tdiv 1000)).toNat ≤
      (Request.nanosleep req).milliseconds := by
    rw [nanosleep_time]
    exact Nat.div_le_self _ _
  rw [rests_held rfl (fun _ => rfl) (.inl rfl) short, nanosleep_time]
  have start := now.toNat_lt
  obtain ⟨sec, nsec, secs, nsecs, small, fits⟩ := req
  simp only [Request.milliseconds]
  omega

/-- A call rests as long as it was asked to exactly in the range of its conversions. -/
theorem rests_iff_converts (hookEnable : Bool) (manager : TimerManager Callback) (now : UInt64)
    (cb : Callback) (request : Request) :
    Rests hookEnable manager now cb request ↔ Converts hookEnable now request := by
  cases request with
  | sleep seconds =>
      cases hookEnable with
      | false => exact iff_of_true ⟨0, _, rfl, rfl, rfl⟩ nofun
      | true =>
          have short : (seconds * 1000).toUInt64.toNat ≤ seconds.toNat * 1000 := by
            rw [sleep_time]
            exact Nat.mod_le _ _
          rw [rests_held rfl (fun _ => rfl) (.inr rfl) short, sleep_time]
          simp only [Request.milliseconds, Converts, forall_const]
          omega
  | usleep usec =>
      cases hookEnable with
      | false => exact iff_of_true ⟨0, _, rfl, rfl, rfl⟩ nofun
      | true =>
          rw [rests_held rfl (fun _ => rfl) (.inr rfl) (Nat.le_of_eq (usleep_time usec)), usleep_time]
          simp only [Request.milliseconds, Converts, forall_const, true_and]
  | nanosleep req =>
      cases hookEnable with
      | false =>
          constructor
          · rintro ⟨depth, outcome, called, -⟩
            rw [Request.call, nanosleep_recurs] at called
            cases called
          · exact fun converts => absurd converts.1 Bool.false_ne_true
      | true =>
          rw [nanosleep_rests_iff]
          exact (and_iff_right rfl).symm

/-- A sleep of half a second by `nanosleep` is over at once. -/
theorem half_second_lost : ¬ ∀ (hookEnable : Bool) (manager : TimerManager Unit) (now : UInt64)
    (request : Request), Rests hookEnable manager now () request := by
  intro every
  have rests := every true (.fresh 0) 0
    (.nanosleep ⟨0, 500000000, by decide, by decide, by decide, by decide⟩)
  exact absurd ((nanosleep_rests_iff ..).mp rests) (by decide)

end OtaMqtt.Hook.Sleeps
