import OtaMqtt.Timers.Expiry

/-! How long the idle loops wait.

The distance to the next timer is compared and passed on as an `int`: what does not fit one
may come out negative, and a negative timeout has no limit. -/

namespace OtaMqtt.Sched.IdleTimeout

open OtaMqtt.Lib.Execution OtaMqtt.Lib.OrderedSet
open OtaMqtt.Timers OtaMqtt.Timers.TimerManager OtaMqtt.Timers.TimerSet OtaMqtt.Timers.Expiry

variable {Callback : Type}

def maxTimeout : Int := 3000

/-- `stopping(timeout)`: whether to stop, and the distance to the next timer. -/
def stopping (manager : TimerManager Callback) (now : UInt64) (pendingEventCount : Nat)
    (schedulerStopping : Bool) : Bool × UInt64 :=
  let timeout := (manager.getNextTimer now).1
  (timeout == ~~~0 && pendingEventCount == 0 && schedulerStopping, timeout)

/-- `next_timeout` after its assignment in front of `epoll_wait`. -/
def limited (nextTimeout : UInt64) : UInt64 :=
  if nextTimeout ≠ ~~~0 then
    if castInt nextTimeout.toNat > maxTimeout then 3000 else nextTimeout
  else 3000

/-- The timeouts of the calls of `epoll_wait` when so many of them are interrupted. -/
def timeouts (nextTimeout : UInt64) : Nat → List Int
  | 0 => [castInt (limited nextTimeout).toNat]
  | interrupts + 1 =>
      castInt (limited nextTimeout).toNat :: timeouts (limited nextTimeout) interrupts

/-- A turn of the outer loop up to its wait; `none` where the loop is left. -/
def idleTurn (manager : TimerManager Callback) (now : UInt64) (pendingEventCount : Nat)
    (schedulerStopping : Bool) (interrupts : Nat) : Option (List Int) :=
  let asked := stopping manager now pendingEventCount schedulerStopping
  if asked.1 ∧ asked.2 = ~~~0 then none else some (timeouts asked.2 interrupts)

/-- `IOManager::idle`. -/
def ioManagerIdle (manager : TimerManager Callback) (now : UInt64) (pendingEventCount : Nat)
    (schedulerStopping : Bool) (interrupts : Nat) : Option (List Int) :=
  idleTurn manager now pendingEventCount schedulerStopping interrupts

/-- `HttpServer::idle`. -/
def httpServerIdle (manager : TimerManager Callback) (now : UInt64) (pendingEventCount : Nat)
    (schedulerStopping : Bool) (interrupts : Nat) : Option (List Int) :=
  idleTurn manager now pendingEventCount schedulerStopping interrupts

def timeTo (manager : TimerManager Callback) (now : UInt64) (id : Nat) : Nat :=
  (manager.objects id).next.toNat - now.toNat

/-- Every wait of a turn is within the limit and ends before any timer is due. -/
def WithinLimit (idle : Nat → Bool → Nat → Option (List Int)) (manager : TimerManager Callback)
    (now : UInt64) : Prop :=
  ∀ pendingEventCount schedulerStopping interrupts waits,
    idle pendingEventCount schedulerStopping interrupts = some waits → ∀ timeout ∈ waits,
      0 ≤ timeout ∧ timeout ≤ 3000 ∧ ∀ id ∈ manager.timers, timeout ≤ timeTo manager now id

/-- The earliest timer is at a distance whose low half is no negative `int`, or at the distance
that stands for no timer. -/
def Near (manager : TimerManager Callback) (now : UInt64) : Prop :=
  ∀ first ∈ manager.timers.head?,
    timeTo manager now first = 2 ^ 64 - 1 ∨ timeTo manager now first % 2 ^ 32 < 2 ^ 31

theorem castInt_low {value : Nat} (low : value % 2 ^ 32 < 2 ^ 31) :
    castInt value = (value % 2 ^ 32 : Nat) := by
  unfold castInt Int.bmod
  dsimp only
  split_ifs <;> omega

theorem castInt_high {value : Nat} (high : ¬ value % 2 ^ 32 < 2 ^ 31) : castInt value < 0 := by
  unfold castInt Int.bmod
  dsimp only
  split_ifs <;> omega

theorem limited_none : limited (~~~0) = 3000 := if_neg (not_not.mpr rfl)

theorem limited_some {value : UInt64} (given : value ≠ ~~~0) :
    limited value = if castInt value.toNat > maxTimeout then 3000 else value := if_pos given

theorem limited_limited (value : UInt64) : limited (limited value) = limited value := by
  have fixed : limited 3000 = 3000 := by decide
  by_cases given : value = ~~~0
  · rw [given, limited_none, fixed]
  · rw [limited_some given]
    split_ifs with far
    · exact fixed
    · rw [limited_some given, if_neg far]

theorem timeouts_same {value : UInt64} {interrupts : Nat} {timeout : Int}
    (passed : timeout ∈ timeouts value interrupts) : timeout = castInt (limited value).toNat := by
  induction interrupts generalizing value with
  | zero => exact List.mem_singleton.mp passed
  | succ interrupts ih =>
      rcases List.mem_cons.mp passed with first | retry
      · exact first
      · rw [ih retry, limited_limited]

theorem timeouts_first (value : UInt64) (interrupts : Nat) :
    castInt (limited value).toNat ∈ timeouts value interrupts := by
  cases interrupts with
  | zero => exact List.mem_singleton_self _
  | succ interrupts => exact List.mem_cons_self

theorem limited_near {value : UInt64} (low : value.toNat % 2 ^ 32 < 2 ^ 31) :
    0 ≤ castInt (limited value).toNat ∧ castInt (limited value).toNat ≤ 3000 ∧
      castInt (limited value).toNat ≤ value.toNat := by
  have cast := castInt_low low
  have limit : castInt (3000 : UInt64).toNat = 3000 := by decide
  have given : value ≠ ~~~0 := by
    rintro rfl
    exact absurd low (by decide)
  rw [limited_some given]
  split_ifs with far
  · rw [maxTimeout, cast] at far
    rw [limit]
    omega
  · rw [maxTimeout, cast] at far
    rw [cast]
    omega

theorem limited_far {value : UInt64} (given : value ≠ ~~~0) (high : ¬ value.toNat % 2 ^ 32 < 2 ^ 31) :
    castInt (limited value).toNat < 0 := by
  have negative := castInt_high high
  rw [limited_some given, if_neg (by rw [maxTimeout]; omega)]
  exact negative

theorem next_none {manager : TimerManager Callback} (empty : manager.timers = []) (now : UInt64) :
    (manager.getNextTimer now).1 = ~~~0 := by
  simp only [getNextTimer, empty]

theorem next_some {manager : TimerManager Callback} {first : Nat} {others : List Nat}
    (listed : manager.timers = first :: others) (now : UInt64) :
    (manager.getNextTimer now).1.toNat = timeTo manager now first := by
  simp only [getNextTimer, listed, timeTo]
  split_ifs with past
  · rw [Nat.sub_eq_zero_of_le (UInt64.le_iff_toNat_le.mp past)]
    rfl
  · exact UInt64.toNat_sub_of_le _ _ (UInt64.le_of_lt (UInt64.not_le.mp past))

theorem first_nearest {manager : TimerManager Callback} (reached : Reached manager) {first : Nat}
    {others : List Nat} (listed : manager.timers = first :: others) (now : UInt64) :
    ∀ id ∈ manager.timers, timeTo manager now first ≤ timeTo manager now id := by
  intro id member
  rw [listed] at member
  rcases List.mem_cons.mp member with rfl | later
  · exact Nat.le_refl _
  · have ordered := reached.sound.ordered
    rw [listed] at ordered
    have before := less_next ((List.pairwise_cons.mp ordered).1 id later)
    exact Nat.sub_le_sub_right (UInt64.le_iff_toNat_le.mp before) _

theorem idleTurn_some {manager : TimerManager Callback} {now : UInt64} {pendingEventCount : Nat}
    {schedulerStopping : Bool} {interrupts : Nat} {waits : List Int}
    (turned : idleTurn manager now pendingEventCount schedulerStopping interrupts = some waits) :
    waits = timeouts (manager.getNextTimer now).1 interrupts := by
  unfold idleTurn stopping at turned
  dsimp only at turned
  split_ifs at turned
  exact (Option.some.inj turned).symm

theorem idleTurn_goes {manager : TimerManager Callback} {now : UInt64}
    (given : (manager.getNextTimer now).1 ≠ ~~~0) (pendingEventCount : Nat)
    (schedulerStopping : Bool) (interrupts : Nat) :
    idleTurn manager now pendingEventCount schedulerStopping interrupts =
      some (timeouts (manager.getNextTimer now).1 interrupts) :=
  if_neg fun stops => given stops.2

theorem largest_toNat : (~~~0 : UInt64).toNat = 2 ^ 64 - 1 := by decide

theorem idleTurn_within_iff {manager : TimerManager Callback} (reached : Reached manager)
    (now : UInt64) : WithinLimit (idleTurn manager now) manager now ↔ Near manager now := by
  have limit : castInt (3000 : UInt64).toNat = 3000 := by decide
  cases listed : manager.timers with
  | nil =>
      refine iff_of_true ?_ fun first absent => ?_
      · intro pendingEventCount schedulerStopping interrupts waits turned timeout passed
        rw [idleTurn_some turned, next_none listed] at passed
        rw [timeouts_same passed, limited_none, limit, listed]
        exact ⟨by decide, by decide, fun id absent => absurd absent List.not_mem_nil⟩
      · rw [listed] at absent
        cases absent
  | cons first others =>
      have distance := next_some listed now
      have nearest := first_nearest reached listed now
      constructor
      · intro within head member
        rw [listed] at member
        obtain rfl : first = head := Option.some.inj member
        by_contra far
        obtain ⟨given, high⟩ := not_or.mp far
        rw [← distance] at given high
        have value : (manager.getNextTimer now).1 ≠ ~~~0 := fun none =>
          given (by rw [none, largest_toNat])
        have bounds := within 0 false 0 _ (idleTurn_goes value 0 false 0) _ (timeouts_first _ 0)
        exact absurd bounds.1 (Int.not_le.mpr (limited_far value high))
      · intro near pendingEventCount schedulerStopping interrupts waits turned timeout passed
        rw [idleTurn_some turned] at passed
        rw [timeouts_same passed]
        rcases near first (by rw [listed]; rfl) with none | low
        · have value : (manager.getNextTimer now).1 = ~~~0 := by
            rw [← UInt64.toNat_inj, distance, none, largest_toNat]
          rw [value, limited_none, limit]
          refine ⟨by decide, by decide, fun id member => ?_⟩
          have behind := nearest id member
          omega
        · rw [← distance] at low
          obtain ⟨positive, small, before⟩ := limited_near low
          refine ⟨positive, small, fun id member => ?_⟩
          have behind := nearest id member
          omega

/-- The idle loops wait within their limit exactly when the earliest timer is near in this
sense. -/
theorem idle_within_iff_near {manager : TimerManager Callback} (reached : Reached manager)
    (now : UInt64) : (WithinLimit (ioManagerIdle manager now) manager now ∧
      WithinLimit (httpServerIdle manager now) manager now) ↔ Near manager now :=
  (and_self_iff).trans (idleTurn_within_iff reached now)

def oneSecond : TimerManager Unit := addTimerAt (.fresh 0) 0 0 1000 () false

theorem one_second_within : WithinLimit (ioManagerIdle oneSecond 7) oneSecond 7 := by
  refine ((idle_within_iff_near (.added _ 0 0 1000 () false (.fresh 0) rfl) 7).mpr ?_).1
  intro first head
  obtain rfl : 0 = first := Option.some.inj head
  exact .inr (by decide)

def twentyFiveDays : TimerManager Unit := addTimerAt (.fresh 0) 0 0 2160000000 () false

/-- The loops wait for it without a limit. -/
theorem twenty_five_days_unlimited : ¬ ∀ (manager : TimerManager Unit) (now : UInt64),
    Reached manager → WithinLimit (ioManagerIdle manager now) manager now := by
  intro every
  have within := every twentyFiveDays 0 (.added _ 0 0 2160000000 () false (.fresh 0) rfl)
  have near := (idleTurn_within_iff (.added _ 0 0 2160000000 () false (.fresh 0) rfl) 0).mp within
  exact absurd (near 0 (by decide)) (by decide)

end OtaMqtt.Sched.IdleTimeout
