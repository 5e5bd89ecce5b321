import OtaMqtt.Http.Server

/-! A hooked call with a timeout (`do_io` of sherry/hook.cc) on a descriptor of `HttpServer`.

The calling fiber, the expiry and the callbacks of its timers, and the readiness that `idle`
reports take turns in any order. The descriptor's context is the one of `HttpServer`; whether
the kernel's calls succeed is an input. -/

namespace OtaMqtt.Hook.DoIo

open OtaMqtt.Lib.Trace OtaMqtt.Http.Server

inductive Phase where
  | call
  | arm
  | register
  | refused
  | yield
  | parked
  | resumed
  | test
  | returned
  deriving DecidableEq, Repr

/-- A timer is in the manager's set, or its callback was taken out of it to be run, or has
been run; `cancel` only reaches the first of these. -/
inductive TimerStatus where
  | pending
  | collected
  | ran
  | dropped
  deriving DecidableEq, Repr

/-- `cancelled` is `tinfo->cancelled`, `timers` the timers of the call, one for each turn of
its loop, and `queued` how often the fiber waits in the scheduler's queue. -/
structure Call (Cb Fib Sock : Type) where
  ctx : FdContext Cb Fib Sock
  phase : Phase
  cancelled : Bool
  timers : List TimerStatus
  queued : Nat

inductive Act where
  | call (again : Bool)
  | addConditionTimer
  | addEvent (ctl : Bool)
  | yieldToHold
  | resume
  | cancelTimer
  | test
  | expire (timer : Nat)
  | runTimer (timer : Nat) (ctl : Bool)
  | ready (ctl : Bool)
  deriving DecidableEq, Repr

variable {Cb Fib Sock : Type}

namespace Call
variable [DecidableEq Fib] (me : Fib) (event : Event)

def start (ctx : FdContext Cb Fib Sock) : Call Cb Fib Sock := ⟨ctx, .call, false, [], 0⟩

/-- `triggerEvent`: the task goes to the scheduler. -/
def trigger (call : Call Cb Fib Sock) : Call Cb Fib Sock :=
  let fired := call.ctx.triggerEvent event
  { call with
    ctx := fired.2,
    queued :=
      match fired.1 with
      | some (.fiber fiber) => if fiber = me then call.queued + 1 else call.queued
      | _ => call.queued }

def cancelEvent (call : Call Cb Fib Sock) (ctl : Bool) : Call Cb Fib Sock :=
  if !call.ctx.events event then call
  else if ctl then { call with ctx := call.ctx.setPersistent event false }.trigger me event
  else call

/-- The callback of a timer, behind `OnTimer`: `tinfo` is gone once the call has returned. -/
def onTimer (call : Call Cb Fib Sock) (ctl : Bool) : Call Cb Fib Sock :=
  if call.phase = .returned || call.cancelled then call
  else { call with cancelled := true }.cancelEvent me event ctl

/-- `timer->cancel()` of the last timer. -/
def cancelTimer (timers : List TimerStatus) : List TimerStatus :=
  match timers.getLast? with
  | some .pending => timers.dropLast ++ [.dropped]
  | _ => timers

/-- `addEvent(fd, event)` by the fiber, without a callback. -/
def addEvent (call : Call Cb Fib Sock) (ctl : Bool) : Call Cb Fib Sock :=
  if call.ctx.events event || !ctl then { call with phase := .refused }
  else { call with ctx := call.ctx.register event none none me false, phase := .yield }

def step (call : Call Cb Fib Sock) : Act → Option (Call Cb Fib Sock)
  | .call again =>
      if call.phase = .call then some { call with phase := if again then .arm else .returned } else none
  | .addConditionTimer =>
      if call.phase = .arm then
        some { call with phase := .register, timers := call.timers ++ [.pending] }
      else none
  | .addEvent ctl => if call.phase = .register then some (call.addEvent me event ctl) else none
  | .yieldToHold => if call.phase = .yield then some { call with phase := .parked } else none
  | .resume =>
      if call.phase = .parked ∧ 0 < call.queued then
        some { call with phase := .resumed, queued := call.queued - 1 }
      else none
  | .cancelTimer =>
      if call.phase = .resumed then some { call with phase := .test, timers := cancelTimer call.timers }
      else if call.phase = .refused then
        some { call with phase := .returned, timers := cancelTimer call.timers }
      else none
  | .test =>
      if call.phase = .test then
        some { call with phase := if call.cancelled then .returned else .call }
      else none
  | .expire timer =>
      if call.timers[timer]? = some .pending then
        some { call with timers := call.timers.set timer .collected }
      else none
  | .runTimer timer ctl =>
      if call.timers[timer]? = some .collected then
        some ({ call with timers := call.timers.set timer .ran }.onTimer me event ctl)
      else none
  | .ready ctl => if call.ctx.events event && ctl then some (call.trigger me event) else none

end Call

/-- The fiber is parked, a callback of its timers has run, and nothing will resume it. -/
def Missed (call : Call Cb Fib Sock) : Prop :=
  call.phase = .parked ∧ .ran ∈ call.timers ∧ call.queued = 0

/-- The fiber is between its registration and its look at `cancelled`, or on its way out. -/
def Phase.Covered : Phase → Prop
  | call => False
  | arm => False
  | register => False
  | _ => True

/-- A callback that has not been forestalled runs while the fiber is covered, and its
`cancelEvent` is not refused by the kernel; and the fiber registers in a slot without a
callback of an earlier registration, which would be run in its place. -/
def Timely (event : Event) (call : Call Cb Fib Sock) : Act → Prop
  | .runTimer _ ctl => call.cancelled = false → call.phase ≠ .returned →
      call.phase.Covered ∧ (call.ctx.events event → ctl = true)
  | .addEvent _ => (call.ctx.slot event).cb = none
  | _ => True

instance decideCovered : ∀ phase : Phase, Decidable phase.Covered
  | .call => .isFalse id
  | .arm => .isFalse id
  | .register => .isFalse id
  | .refused => .isTrue trivial
  | .yield => .isTrue trivial
  | .parked => .isTrue trivial
  | .resumed => .isTrue trivial
  | .test => .isTrue trivial
  | .returned => .isTrue trivial

instance decideTimely (event : Event) (call : Call Cb Fib Sock) :
    ∀ act, Decidable (Timely event call act)
  | .runTimer _ ctl => inferInstanceAs (Decidable (call.cancelled = false → call.phase ≠ .returned →
      call.phase.Covered ∧ (call.ctx.events event → ctl = true)))
  | .addEvent _ => decidable_of_iff (((call.ctx.slot event).cb).isNone = true) Option.isNone_iff_eq_none
  | .call _ => .isTrue trivial
  | .addConditionTimer => .isTrue trivial
  | .yieldToHold => .isTrue trivial
  | .resume => .isTrue trivial
  | .cancelTimer => .isTrue trivial
  | .test => .isTrue trivial
  | .expire _ => .isTrue trivial
  | .ready _ => .isTrue trivial

structure Awaits (me : Fib) (event : Event) (ctx : FdContext Cb Fib Sock) : Prop where
  set : ctx.events event
  fiber : (ctx.slot event).fiber = some me
  cb : (ctx.slot event).cb = none

def Phase.waits : Phase → Bool
  | yield => true
  | parked => true
  | _ => false

/-- While the fiber is not covered it has not been cancelled; while it is about to park or
parked it is queued, or it awaits the event and has not been cancelled. -/
structure Safe (me : Fib) (event : Event) (call : Call Cb Fib Sock) : Prop where
  ahead : ¬ call.phase.Covered → call.cancelled = false
  waiting : call.phase.waits →
    0 < call.queued ∨ call.cancelled = false ∧ Awaits me event call.ctx
  ran : .ran ∈ call.timers → call.cancelled ∨ call.phase = .returned

section
variable {me : Fib} {event : Event} {call : Call Cb Fib Sock}

theorem safe_start (ctx : FdContext Cb Fib Sock) : Safe me event (.start ctx) where
  ahead := fun _ => rfl
  waiting := fun waits => nomatch waits
  ran := fun member => nomatch member

theorem Safe.not_missed (safe : Safe me event call) : ¬ Missed call := by
  rintro ⟨parked, ran, idle⟩
  rcases safe.waiting (by rw [parked]; rfl) with queued | ⟨going, -⟩
  · omega
  · rcases safe.ran ran with stopped | gone
    · rw [going] at stopped
      cases stopped
    · rw [parked] at gone
      cases gone

theorem safe_awake (ahead : ¬ call.phase.Covered → call.cancelled = false)
    (awake : call.phase.waits = false)
    (ran : .ran ∈ call.timers → call.cancelled ∨ call.phase = .returned) : Safe me event call := by
  refine ⟨ahead, fun waits => ?_, ran⟩
  rw [awake] at waits
  cases waits

theorem Safe.stopped (safe : Safe me event call) {phase : Phase} (now : call.phase = phase)
    (live : phase ≠ .returned) (ran : .ran ∈ call.timers) : call.cancelled := by
  rcases safe.ran ran with stopped | gone
  · exact stopped
  · exact absurd (now.symm.trans gone) live

theorem Safe.going (safe : Safe me event call) {phase : Phase} (now : call.phase = phase)
    (bare : ¬ phase.Covered) : call.cancelled = false :=
  safe.ahead (by rw [now]; exact bare)

theorem Safe.addEvent (safe : Safe me event call) {ctl : Bool} (register : call.phase = .register)
    (bare : (call.ctx.slot event).cb = none) : Safe me event (call.addEvent me event ctl) := by
  have going := safe.going register fun covered => covered
  have unran : .ran ∉ call.timers := by
    intro ran
    have stopped := safe.stopped register (by decide) ran
    rw [going] at stopped
    cases stopped
  rw [Call.addEvent]
  split
  · exact safe_awake (fun _ => going) rfl fun ran => absurd ran unran
  · refine ⟨fun _ => going, fun _ => .inr ⟨going, ?_⟩, fun ran => absurd ran unran⟩
    exact ⟨by simp [FdContext.register], by simp [FdContext.register],
      by simpa [FdContext.register] using bare⟩

theorem ran_of_cancelTimer {timers : List TimerStatus} (ran : .ran ∈ Call.cancelTimer timers) :
    .ran ∈ timers := by
  rw [Call.cancelTimer] at ran
  split at ran
  · rcases List.mem_append.mp ran with earlier | last
    · exact List.dropLast_subset _ earlier
    · cases List.mem_singleton.mp last
  · exact ran

variable [DecidableEq Fib]

theorem trigger_queued : call.queued ≤ (call.trigger me event).queued := by
  rw [Call.trigger]
  dsimp only
  split
  · split
    · exact Nat.le_succ _
    · exact Nat.le_refl _
  · exact Nat.le_refl _

theorem trigger_awaits (awaits : Awaits me event call.ctx) : 0 < (call.trigger me event).queued := by
  simp [Call.trigger, FdContext.triggerEvent, awaits.set, awaits.cb, awaits.fiber]

theorem Safe.trigger (safe : Safe me event call) : Safe me event (call.trigger me event) := by
  refine ⟨safe.ahead, fun waits => .inl ?_, safe.ran⟩
  rcases safe.waiting waits with queued | ⟨-, awaits⟩
  · exact Nat.lt_of_lt_of_le queued trigger_queued
  · exact trigger_awaits awaits

theorem Safe.onTimer {ctl : Bool} (ahead : ¬ call.phase.Covered → call.cancelled = false)
    (waiting : call.phase.waits →
      0 < call.queued ∨ call.cancelled = false ∧ Awaits me event call.ctx)
    (timely : call.cancelled = false → call.phase ≠ .returned →
      call.phase.Covered ∧ (call.ctx.events event → ctl = true)) :
    Safe me event (call.onTimer me event ctl) := by
  rw [Call.onTimer]
  by_cases over_ : (decide (call.phase = .returned) || call.cancelled) = true
  · rw [if_pos over_]
    refine ⟨ahead, waiting, fun _ => ?_⟩
    rw [Bool.or_eq_true, decide_eq_true_eq] at over_
    exact over_.symm
  · rw [if_neg over_]
    simp only [Bool.or_eq_true, decide_eq_true_eq, not_or, Bool.not_eq_true] at over_
    obtain ⟨covered, granted⟩ := timely over_.2 over_.1
    rw [Call.cancelEvent]
    by_cases set : call.ctx.events event
    · rw [if_neg (by simp [set]), if_pos (granted set)]
      refine ⟨fun bare => absurd covered bare, fun waits => .inl ?_, fun _ => .inl rfl⟩
      rcases waiting waits with queued | ⟨-, awaits⟩
      · refine Nat.lt_of_lt_of_le ?_ trigger_queued
        exact queued
      · apply trigger_awaits
        exact ⟨awaits.set, by simpa [FdContext.setPersistent] using awaits.fiber,
          by simpa [FdContext.setPersistent] using awaits.cb⟩
    · rw [if_pos (by simp [set])]
      refine ⟨fun bare => absurd covered bare, fun waits => .inl ?_, fun _ => .inl rfl⟩
      rcases waiting waits with queued | ⟨-, awaits⟩
      · exact queued
      · exact absurd awaits.set set

end

theorem step_safe [DecidableEq Fib] (me : Fib) (event : Event) (call : Call Cb Fib Sock) (act : Act)
    (next : Call Cb Fib Sock) (safe : Safe me event call) (timely : Timely event call act)
    (taken : call.step me event act = some next) : Safe me event next := by
  cases act with
  | call again =>
      obtain ⟨phase, ⟨⟩⟩ := Option.ite_none_right_eq_some.mp taken
      apply safe_awake
      · exact fun _ => safe.going phase fun covered => covered
      · cases again <;> rfl
      · exact fun ran => .inl (safe.stopped phase (by decide) ran)
  | addConditionTimer =>
      obtain ⟨phase, ⟨⟩⟩ := Option.ite_none_right_eq_some.mp taken
      apply safe_awake
      · exact fun _ => safe.going phase fun covered => covered
      · rfl
      · intro ran
        rcases List.mem_append.mp ran with earlier | last
        · exact .inl (safe.stopped phase (by decide) earlier)
        · cases List.mem_singleton.mp last
  | addEvent ctl =>
      obtain ⟨phase, ⟨⟩⟩ := Option.ite_none_right_eq_some.mp taken
      exact safe.addEvent phase timely
  | yieldToHold =>
      obtain ⟨phase, ⟨⟩⟩ := Option.ite_none_right_eq_some.mp taken
      exact ⟨fun bare => absurd trivial bare, fun _ => safe.waiting (by rw [phase]; rfl),
        fun ran => .inl (safe.stopped phase (by decide) ran)⟩
  | resume =>
      obtain ⟨⟨phase, -⟩, ⟨⟩⟩ := Option.ite_none_right_eq_some.mp taken
      apply safe_awake
      · exact fun bare => absurd trivial bare
      · rfl
      · exact fun ran => .inl (safe.stopped phase (by decide) ran)
  | cancelTimer =>
      rw [Call.step] at taken
      split at taken
      · rename_i phase
        cases taken
        apply safe_awake
        · exact fun bare => absurd trivial bare
        · rfl
        · exact fun ran => .inl (safe.stopped phase (by decide) (ran_of_cancelTimer ran))
      · obtain ⟨phase, ⟨⟩⟩ := Option.ite_none_right_eq_some.mp taken
        apply safe_awake
        · exact fun bare => absurd trivial bare
        · rfl
        · exact fun _ => .inr rfl
  | test =>
      obtain ⟨phase, ⟨⟩⟩ := Option.ite_none_right_eq_some.mp taken
      cases going : call.cancelled with
      | true =>
          apply safe_awake
          · exact fun bare => absurd trivial bare
          · rfl
          · exact fun _ => .inr rfl
      | false =>
          apply safe_awake
          · exact fun _ => rfl
          · rfl
          · exact fun ran => .inl (going ▸ safe.stopped phase (by decide) ran)
  | expire timer =>
      obtain ⟨pending, ⟨⟩⟩ := Option.ite_none_right_eq_some.mp taken
      refine ⟨safe.ahead, safe.waiting, fun ran => safe.ran ?_⟩
      rcases List.mem_or_eq_of_mem_set ran with earlier | new
      · exact earlier
      · cases new
  | runTimer timer ctl =>
      obtain ⟨collected, ⟨⟩⟩ := Option.ite_none_right_eq_some.mp taken
      exact Safe.onTimer safe.ahead safe.waiting timely
  | ready ctl =>
      obtain ⟨set, ⟨⟩⟩ := Option.ite_none_right_eq_some.mp taken
      exact safe.trigger

/-- In a run whose steps are timely the fiber is never left parked behind its timer. -/
theorem timely_never_missed [DecidableEq Fib] (me : Fib) (event : Event)
    (ctx : FdContext Cb Fib Sock) (acts : List Act)
    (timely : Guarded (Call.step me event) (Timely event) (.start ctx) acts) :
    Always (Call.step me event) (fun call => ¬ Missed call) (.start ctx) acts :=
  guarded_always (step_safe me event) (fun _ safe => safe.not_missed) acts _ (safe_start ctx) timely

/-- A read that times out while the fiber is parked. -/
theorem timeout_while_parked :
    Always (Call.step () .read) (fun call => ¬ Missed call)
      (.start (FdContext.fresh fun _ => false : FdContext Unit Unit Unit))
      [.call true, .addConditionTimer, .addEvent true, .yieldToHold, .expire 0, .runTimer 0 true,
        .resume, .cancelTimer, .test] := by
  apply timely_never_missed
  decide

/-- The timer expires and its callback runs before the event is registered. -/
theorem timeout_before_registration :
    ¬ Always (Call.step () .read) (fun call => ¬ Missed call)
      (.start (FdContext.fresh fun _ => false : FdContext Unit Unit Unit))
      [.call true, .addConditionTimer, .expire 0, .runTimer 0 true, .addEvent true,
        .yieldToHold] := by
  intro always
  refine always _ [] _ (List.append_nil _) rfl ⟨?_, ?_, ?_⟩
  · decide
  · decide
  · decide

end OtaMqtt.Hook.DoIo
