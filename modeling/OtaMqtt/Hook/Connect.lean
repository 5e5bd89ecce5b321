import OtaMqtt.Hook.DoIo

/-! A hooked connect (`connect_with_timeout` of sherry/hook.cc) on a descriptor of `HttpServer`
whose context says that it is a socket which the user did not make non-blocking.

The parts that it shares with a call of `do_io` are those of Hook/DoIo: where `do_io` would call
the original function again, `connect_with_timeout` asks the socket for its error. -/

namespace OtaMqtt.Hook.Connect

open OtaMqtt.Lib.Trace OtaMqtt.Http.Server OtaMqtt.Hook.DoIo

/-- What is returned: the answer of `connect_f` itself, `ETIMEDOUT`, the failure of `getsockopt`,
or the error of the socket. An error of zero is a success. -/
inductive Answer where
  | immediate (error : Nat)
  | timedOut
  | unreadable
  | socket (error : Nat)
  deriving DecidableEq, Repr

/-- `asking` is the fiber before `getsockopt`, in the phase `call`; `refused` remembers that
`addEvent` failed, and `reported` that the socket was reported writable. -/
structure Attempt (Cb Fib Sock : Type) where
  call : Call Cb Fib Sock
  asking : Bool
  refused : Bool
  reported : Bool
  answer : Option Answer

/-- A connect that is in progress, and a `getsockopt` that fails, are `none`. -/
inductive Act where
  | connect (error : Option Nat)
  | addConditionTimer
  | addEvent (ctl : Bool)
  | yieldToHold
  | resume
  | cancelTimer
  | test
  | getsockopt (error : Option Nat)
  | expire (timer : Nat)
  | runTimer (timer : Nat) (ctl : Bool)
  | ready (ctl : Bool)
  deriving DecidableEq, Repr

variable {Cb Fib Sock : Type}

namespace Attempt
variable [DecidableEq Fib] (me : Fib) (timed : Bool)

def start (ctx : FdContext Cb Fib Sock) : Attempt Cb Fib Sock := ⟨.start ctx, false, false, false, none⟩

def finish (attempt : Attempt Cb Fib Sock) (answer : Answer) : Attempt Cb Fib Sock :=
  { attempt with call := { attempt.call with phase := .returned }, answer := some answer }

/-- A step that the call takes as in `do_io`. -/
def along (attempt : Attempt Cb Fib Sock) (act : DoIo.Act) : Option (Attempt Cb Fib Sock) :=
  (attempt.call.step me .write act).map fun call => { attempt with call := call }

/-- The fiber goes on to `getsockopt`. -/
def ask (attempt : Attempt Cb Fib Sock) (timers : List TimerStatus) : Attempt Cb Fib Sock :=
  { attempt with call := { attempt.call with phase := .call, timers := timers }, asking := true }

def step (attempt : Attempt Cb Fib Sock) : Act → Option (Attempt Cb Fib Sock)
  | .connect error =>
      if attempt.call.phase = .call ∧ attempt.asking = false then
        match error with
        | none => some { attempt with call := { attempt.call with phase := .arm } }
        | some error => some (attempt.finish (.immediate error))
      else none
  | .addConditionTimer =>
      if attempt.call.phase = .arm then
        some { attempt with
          call := { attempt.call with
            phase := .register
            timers := if timed then attempt.call.timers ++ [.pending] else attempt.call.timers } }
      else none
  | .addEvent ctl =>
      (attempt.along me (.addEvent ctl)).map fun next =>
        { next with refused := next.call.phase == .refused }
  | .yieldToHold => attempt.along me .yieldToHold
  | .resume => attempt.along me .resume
  | .cancelTimer =>
      if attempt.call.phase = .refused then
        some (attempt.ask (Call.cancelTimer attempt.call.timers))
      else attempt.along me .cancelTimer
  | .test =>
      if attempt.call.phase = .test then
        some (if attempt.call.cancelled then attempt.finish .timedOut
          else attempt.ask attempt.call.timers)
      else none
  | .getsockopt error =>
      if attempt.call.phase = .call ∧ attempt.asking then
        some (attempt.finish (match error with
          | none => .unreadable
          | some error => .socket error))
      else none
  | .expire timer => attempt.along me (.expire timer)
  | .runTimer timer ctl => attempt.along me (.runTimer timer ctl)
  | .ready ctl => (attempt.along me (.ready ctl)).map fun next => { next with reported := true }

end Attempt

def Answer.Explained (timers : List TimerStatus) (reported refused : Bool) : Answer → Prop
  | .immediate _ => True
  | .timedOut => .ran ∈ timers
  | .unreadable => reported ∨ refused
  | .socket _ => reported ∨ refused

/-- `ETIMEDOUT` is returned only after the timer's callback has run, and the socket is asked only
after it was reported writable or its registration was refused; a connect that has returned
leaves no timer behind, and no registration of its own. -/
structure Sound (attempt : Attempt Cb Fib Sock) : Prop where
  explained : ∀ answer ∈ attempt.answer,
    answer.Explained attempt.call.timers attempt.reported attempt.refused
  quiet : attempt.call.phase = .returned → .pending ∉ attempt.call.timers
  gone : ∀ answer ∈ attempt.answer, (∀ error, answer ≠ .immediate error) →
    attempt.refused = false → attempt.call.ctx.events .write = false

/-- The fiber has not come to `addEvent`, or never will. -/
def Early (attempt : Attempt Cb Fib Sock) : Prop :=
  attempt.call.phase = .arm ∨ attempt.call.phase = .register ∨
    (attempt.call.phase = .call ∧ attempt.asking = false) ∨
    ∃ error, attempt.answer = some (.immediate error)

/-- The fiber is queued, or has been woken and has not looked around yet. -/
def Woken (call : Call Cb Fib Sock) : Prop :=
  0 < call.queued ∨ call.phase = .resumed ∨ call.phase = .test

/-- Nothing of the fiber is registered, and nothing wakes it. -/
def Unregistered (me : Fib) (call : Call Cb Fib Sock) : Prop :=
  call.queued = 0 ∧ (call.ctx.slot .write).fiber ≠ some me

/-- What the fiber's registration, its timer and its answer have in common with its place in the
function. -/
structure Kept (me : Fib) (attempt : Attempt Cb Fib Sock) : Prop where
  early : Early attempt → Unregistered me attempt.call
  refused : attempt.refused → Unregistered me attempt.call ∧
    (attempt.call.phase = .refused ∨ attempt.asking)
  refusing : attempt.call.phase = .refused → attempt.refused
  parking : attempt.call.phase.waits → (attempt.call.ctx.slot .write).persistent = false
  asking : attempt.asking → attempt.call.phase = .call ∨ attempt.call.phase = .returned
  untimed : attempt.call.phase = .arm ∨ (attempt.call.phase = .call ∧ attempt.asking = false) →
    attempt.call.timers = []
  single : attempt.call.timers.length ≤ 1
  stopped : attempt.call.phase = .test ∨ attempt.asking ∨ attempt.call.phase = .returned →
    .pending ∉ attempt.call.timers
  ran : attempt.call.cancelled → .ran ∈ attempt.call.timers
  woken : Woken attempt.call → attempt.reported ∨ attempt.call.cancelled
  asked : attempt.asking → attempt.reported ∨ attempt.refused
  cleared : attempt.refused = false →
    Woken attempt.call ∨ attempt.asking ∨ attempt.answer = some .timedOut →
    attempt.call.ctx.events .write = false
  answered : attempt.answer ≠ none ↔ attempt.call.phase = .returned
  causes : ∀ answer ∈ attempt.answer,
    (∃ error, answer = .immediate error) ∨ answer = .timedOut ∨ attempt.asking
  explained : ∀ answer ∈ attempt.answer,
    answer.Explained attempt.call.timers attempt.reported attempt.refused

theorem Kept.sound {me : Fib} {attempt : Attempt Cb Fib Sock} (kept : Kept me attempt) :
    Sound attempt where
  explained := kept.explained
  quiet := fun returned => kept.stopped (.inr (.inr returned))
  gone := by
    intro answer member own accepted
    apply kept.cleared accepted
    rcases kept.causes answer member with ⟨error, is⟩ | is | asking
    · exact absurd is (own error)
    · exact .inr (.inr (is ▸ member))
    · exact .inr (.inl asking)

theorem kept_start (me : Fib) (ctx : FdContext Cb Fib Sock) (away : (ctx.slot .write).fiber ≠ some me) :
    Kept me (.start ctx) where
  early := fun _ => ⟨rfl, away⟩
  refused := fun refused => nomatch refused
  refusing := fun phase => nomatch phase
  parking := fun waits => nomatch waits
  asking := fun asking => nomatch asking
  untimed := fun _ => rfl
  single := Nat.zero_le 1
  stopped := fun _ member => nomatch member
  ran := fun cancelled => nomatch cancelled
  woken := by
    rintro (queued | phase | phase)
    · exact absurd queued (Nat.lt_irrefl 0)
    · cases phase
    · cases phase
  asked := fun asking => nomatch asking
  cleared := by
    rintro - ((queued | phase | phase) | asking | answer)
    · exact absurd queued (Nat.lt_irrefl 0)
    · cases phase
    · cases phase
    · cases asking
    · cases answer
  answered := ⟨fun answer => absurd rfl answer, fun phase => nomatch phase⟩
  causes := fun _ member => nomatch member
  explained := fun _ member => nomatch member

/-- What the timer and the readiness may do to the registration and the queue: nothing, or they
trigger the event that is registered. -/
structure Stirred (me : Fib) (call next : Call Cb Fib Sock) : Prop where
  phase : next.phase = call.phase
  queued : call.queued ≤ next.queued
  unregistered : Unregistered me call → Unregistered me next
  persistent : (call.ctx.slot .write).persistent = false → (next.ctx.slot .write).persistent = false
  events : call.ctx.events .write = false → next.ctx.events .write = false
  changed : (next.queued = call.queued ∧ next.ctx = call.ctx) ∨
    (call.ctx.events .write = true ∧
      ((call.ctx.slot .write).persistent = false → next.ctx.events .write = false))

section
variable {me : Fib} {call : Call Cb Fib Sock}

theorem stirred_same (next : Call Cb Fib Sock) (phase : next.phase = call.phase)
    (queued : next.queued = call.queued) (ctx : next.ctx = call.ctx) : Stirred me call next where
  phase := phase
  queued := queued.ge
  unregistered := by
    rw [Unregistered, Unregistered, queued, ctx]
    exact id
  persistent := by
    rw [ctx]
    exact id
  events := by
    rw [ctx]
    exact id
  changed := .inl ⟨queued, ctx⟩

theorem explained_mono {timers timers' : List TimerStatus} {reported reported' refused : Bool}
    {answer : Answer} (ran : .ran ∈ timers → .ran ∈ timers') (more : reported → reported')
    (explained : answer.Explained timers reported refused) :
    answer.Explained timers' reported' refused := by
  cases answer with
  | immediate error => trivial
  | timedOut => exact ran explained
  | unreadable => exact explained.imp_left more
  | socket error => exact explained.imp_left more

theorem Kept.registered {attempt : Attempt Cb Fib Sock} (kept : Kept me attempt)
    (idle : ¬ (Woken attempt.call ∨ attempt.asking ∨ attempt.answer = some .timedOut))
    (accepted : attempt.refused = false) (awake : ¬ Unregistered me attempt.call) :
    attempt.call.phase.waits := by
  rw [not_or, not_or] at idle
  obtain ⟨sleeping, unasked, going⟩ := idle
  have unasked : attempt.asking = false := by simpa using unasked
  cases phase : attempt.call.phase with
  | call => exact absurd (kept.early (.inr (.inr (.inl ⟨phase, unasked⟩)))) awake
  | arm => exact absurd (kept.early (.inl phase)) awake
  | register => exact absurd (kept.early (.inr (.inl phase))) awake
  | refused => exact absurd (kept.refusing phase) (by simp [accepted])
  | yield => rfl
  | parked => rfl
  | resumed => exact absurd (.inr (.inl phase)) sleeping
  | test => exact absurd (.inr (.inr phase)) sleeping
  | returned =>
      obtain ⟨answer, found⟩ := Option.ne_none_iff_exists'.mp (kept.answered.mpr phase)
      rcases kept.causes answer found with ⟨error, is⟩ | is | asking
      · exact absurd (kept.early (.inr (.inr (.inr ⟨error, is ▸ found⟩)))) awake
      · exact absurd (is ▸ found) going
      · rw [unasked] at asking
        cases asking

theorem Kept.stir {attempt : Attempt Cb Fib Sock} (kept : Kept me attempt) {next : Call Cb Fib Sock}
    {reported : Bool} (stirred : Stirred me attempt.call next)
    (ran : .ran ∈ attempt.call.timers → .ran ∈ next.timers)
    (pending : .pending ∈ next.timers → .pending ∈ attempt.call.timers)
    (length : next.timers.length = attempt.call.timers.length)
    (cancelled : attempt.call.cancelled → next.cancelled)
    (marked : next.cancelled → .ran ∈ next.timers) (more : attempt.reported → reported)
    (cause : next.queued = attempt.call.queued ∨ reported ∨ next.cancelled) :
    Kept me { attempt with call := next, reported := reported } := by
  have phase := stirred.phase
  have still : Woken attempt.call → reported ∨ next.cancelled :=
    fun woken => (kept.woken woken).imp more cancelled
  have wakes : Woken next → Woken attempt.call ∨ attempt.call.queued < next.queued := by
    rintro (queued | resumed | test)
    · by_cases before : 0 < attempt.call.queued
      · exact .inl (.inl before)
      · exact .inr (by omega)
    · exact .inl (.inr (.inl (phase.symm.trans resumed)))
    · exact .inl (.inr (.inr (phase.symm.trans test)))
  refine ⟨fun early => ?_, fun refused => ?_, fun refusing => ?_, fun parking => ?_, fun asking => ?_,
    fun untimed => ?_, length ▸ kept.single, fun stopped member => ?_, marked, fun woken => ?_,
    fun asking => (kept.asked asking).imp_left more, fun accepted woken => ?_, ?_, kept.causes,
    fun answer member => explained_mono ran more (kept.explained answer member)⟩
  · unfold Early at early
    rw [phase] at early
    exact stirred.unregistered (kept.early early)
  · dsimp only
    rw [phase]
    exact (kept.refused refused).imp_left stirred.unregistered
  · exact kept.refusing (phase ▸ refusing)
  · exact stirred.persistent (kept.parking (phase ▸ parking))
  · dsimp only
    rw [phase]
    exact kept.asking asking
  · dsimp only at untimed
    rw [phase] at untimed
    exact List.eq_nil_of_length_eq_zero (length.trans (by rw [kept.untimed untimed]; rfl))
  · dsimp only at stopped
    rw [phase] at stopped
    exact kept.stopped stopped (pending member)
  · rcases wakes woken with before | grown
    · exact still before
    · rcases cause with same | caused
      · omega
      · exact caused
  · by_cases before : Woken attempt.call ∨ attempt.asking ∨ attempt.answer = some .timedOut
    · exact stirred.events (kept.cleared accepted before)
    · rcases woken with woken | later
      · rcases wakes woken with earlier | grown
        · exact absurd (.inl earlier) before
        · rcases stirred.changed with ⟨same, -⟩ | ⟨-, clears⟩
          · omega
          · apply clears
            apply kept.parking
            apply kept.registered before accepted
            intro unregistered
            have none_ := (stirred.unregistered unregistered).1
            omega
      · exact absurd (.inr later) before
  · dsimp only
    rw [phase]
    exact kept.answered

variable [DecidableEq Fib]

theorem trigger_events (set : call.ctx.events .write = true)
    (transient : (call.ctx.slot .write).persistent = false) :
    (call.trigger me .write).ctx.events .write = false := by
  have triggered : (call.trigger me .write).ctx = (call.ctx.triggerEvent .write).2 := rfl
  rw [triggered, FdContext.triggerEvent, if_pos set, transient]
  simp only [Bool.false_eq_true, if_false]
  cases (call.ctx.slot .write).cb with
  | some cb =>
      dsimp only
      rw [Function.update_self]
  | none =>
      dsimp only
      rw [Function.update_self]

theorem trigger_unregistered (set : call.ctx.events .write = true)
    (unregistered : Unregistered me call) : Unregistered me (call.trigger me .write) := by
  obtain ⟨none_, away⟩ := unregistered
  rw [Unregistered, Call.trigger, FdContext.triggerEvent, if_pos set]
  dsimp only
  cases (call.ctx.slot .write).cb with
  | some cb => exact ⟨none_, away⟩
  | none =>
      dsimp only
      rw [Function.update_self]
      refine ⟨?_, fun is => by cases is⟩
      cases found : (call.ctx.slot .write).fiber with
      | none => exact none_
      | some fiber =>
          have other : fiber ≠ me := fun same => away (by rw [found, same])
          simpa [other] using none_

theorem trigger_stirred (set : call.ctx.events .write = true) : Stirred me call (call.trigger me .write) := by
  refine ⟨rfl, ?_, trigger_unregistered set, ?_, ?_, .inr ⟨set, trigger_events set⟩⟩
  · exact DoIo.trigger_queued
  · intro transient
    have triggered : (call.trigger me .write).ctx = (call.ctx.triggerEvent .write).2 := rfl
    rw [triggered, FdContext.triggerEvent, if_pos set]
    dsimp only
    cases (call.ctx.slot .write).cb with
    | some cb => exact transient
    | none =>
        dsimp only
        rw [Function.update_self]
        exact transient
  · intro unset
    rw [set] at unset
    cases unset

theorem cancelled_stirred (set : call.ctx.events .write = true) (timers : List TimerStatus)
    {marked : Call Cb Fib Sock} (is : marked = { call with
      timers := timers, cancelled := true, ctx := call.ctx.setPersistent .write false }) :
    Stirred me call (marked.trigger me .write) := by
  have events : marked.ctx.events = call.ctx.events := by
    rw [is]
    rfl
  have slot : (marked.ctx.slot .write).persistent = false ∧
      (marked.ctx.slot .write).fiber = (call.ctx.slot .write).fiber := by
    rw [is]
    simp [FdContext.setPersistent]
  have set' : marked.ctx.events .write = true := by rw [events, set]
  have stirred : Stirred me marked (marked.trigger me .write) := trigger_stirred set'
  refine ⟨?_, ?_, fun unregistered => ?_, fun _ => stirred.persistent slot.1, ?_,
    .inr ⟨set, fun _ => trigger_events set' slot.1⟩⟩
  · rw [stirred.phase, is]
  · have queued := stirred.queued
    rwa [is] at queued ⊢
  · apply stirred.unregistered
    refine ⟨?_, ?_⟩
    · rw [is]
      exact unregistered.1
    · rw [slot.2]
      exact unregistered.2
  · intro unset
    rw [set] at unset
    cases unset

theorem onTimer_stirred (timer : Nat) (ctl : Bool) {next : Call Cb Fib Sock}
    (is : next = { call with timers := call.timers.set timer .ran }.onTimer me .write ctl) :
    Stirred me call next ∧ next.timers = call.timers.set timer .ran ∧
      (call.cancelled → next.cancelled) ∧ (next.queued = call.queued ∨ next.cancelled) := by
  subst is
  rw [Call.onTimer]
  split
  · exact ⟨stirred_same _ rfl rfl rfl, rfl, id, .inl rfl⟩
  · rw [Call.cancelEvent]
    split
    · exact ⟨stirred_same _ rfl rfl rfl, rfl, fun _ => rfl, .inl rfl⟩
    · rename_i unset
      split
      · have set : call.ctx.events .write = true := by simpa using unset
        exact ⟨cancelled_stirred set _ rfl, rfl, fun _ => rfl, .inr rfl⟩
      · exact ⟨stirred_same _ rfl rfl rfl, rfl, fun _ => rfl, .inl rfl⟩

end

section
variable {me : Fib} {attempt : Attempt Cb Fib Sock}

theorem connect_kept (kept : Kept me attempt) (phase : attempt.call.phase = .call)
    (unasked : attempt.asking = false) :
    Kept me { attempt with call := { attempt.call with phase := .arm } } := by
  have unregistered := kept.early (.inr (.inr (.inl ⟨phase, unasked⟩)))
  cases kept
  constructor <;> grind [Early, Woken, Unregistered, Phase.waits]

theorem immediate_kept (kept : Kept me attempt) (phase : attempt.call.phase = .call)
    (unasked : attempt.asking = false) (error : Nat) :
    Kept me (attempt.finish (.immediate error)) := by
  have unregistered := kept.early (.inr (.inr (.inl ⟨phase, unasked⟩)))
  have untimed := kept.untimed (.inr ⟨phase, unasked⟩)
  unfold Attempt.finish
  cases kept
  constructor <;> grind [Early, Woken, Unregistered, Phase.waits, Answer.Explained]

theorem arm_kept (kept : Kept me attempt) (phase : attempt.call.phase = .arm) (timed : Bool) :
    Kept me { attempt with
      call := { attempt.call with
        phase := .register
        timers := if timed then attempt.call.timers ++ [.pending] else attempt.call.timers } } := by
  have unregistered := kept.early (.inl phase)
  have untimed := kept.untimed (.inl phase)
  cases kept
  constructor <;> grind [Early, Woken, Unregistered, Phase.waits, Answer.Explained]

/-- The registration is not persistent, so that the first trigger ends it. -/
theorem addEvent_kept (kept : Kept me attempt) (phase : attempt.call.phase = .register) (ctl : Bool)
    {next : Call Cb Fib Sock} (is : next = attempt.call.addEvent me .write ctl) :
    Kept me { attempt with call := next, refused := next.phase == .refused } := by
  have unregistered := kept.early (.inr (.inl phase))
  subst is
  rw [Call.addEvent]
  split
  · cases kept
    constructor <;> grind [Early, Woken, Unregistered, Phase.waits, Answer.Explained]
  · have transient : ((attempt.call.ctx.register .write none none me false).slot
        .write).persistent = false := by
      simp [FdContext.register]
    cases kept
    constructor <;> grind [Early, Woken, Unregistered, Phase.waits, Answer.Explained]

theorem yield_kept (kept : Kept me attempt) (phase : attempt.call.phase = .yield) :
    Kept me { attempt with call := { attempt.call with phase := .parked } } := by
  have transient := kept.parking (by rw [phase]; rfl)
  cases kept
  constructor <;> grind [Early, Woken, Unregistered, Phase.waits, Answer.Explained]

theorem resume_kept (kept : Kept me attempt) (phase : attempt.call.phase = .parked)
    (queued : 0 < attempt.call.queued) :
    Kept me { attempt with
      call := { attempt.call with phase := .resumed, queued := attempt.call.queued - 1 } } := by
  have woken : Woken attempt.call := .inl queued
  cases kept
  constructor <;> grind [Early, Woken, Unregistered, Phase.waits, Answer.Explained]

theorem cancelTimer_spec {timers : List TimerStatus} (single : timers.length ≤ 1) :
    (Call.cancelTimer timers).length ≤ 1 ∧ .pending ∉ Call.cancelTimer timers ∧
      (.ran ∈ Call.cancelTimer timers ↔ .ran ∈ timers) := by
  cases timers with
  | nil => exact ⟨Nat.zero_le 1, List.not_mem_nil, Iff.rfl⟩
  | cons timer rest =>
      cases rest with
      | nil => cases timer <;> decide
      | cons other rest => exact absurd single (by simp)

theorem cancelTimer_kept (kept : Kept me attempt) (phase : attempt.call.phase = .resumed) :
    Kept me { attempt with
      call := { attempt.call with
        phase := .test, timers := Call.cancelTimer attempt.call.timers } } := by
  obtain ⟨single, stopped, ran⟩ := cancelTimer_spec kept.single
  have woken : Woken attempt.call := .inr (.inl phase)
  cases kept
  constructor <;> grind [Early, Woken, Unregistered, Phase.waits, Answer.Explained]

theorem refused_kept (kept : Kept me attempt) (phase : attempt.call.phase = .refused) :
    Kept me (attempt.ask (Call.cancelTimer attempt.call.timers)) := by
  obtain ⟨single, stopped, ran⟩ := cancelTimer_spec kept.single
  have refused := kept.refusing phase
  unfold Attempt.ask
  cases kept
  constructor <;> grind [Early, Woken, Unregistered, Phase.waits, Answer.Explained]

theorem test_kept (kept : Kept me attempt) (phase : attempt.call.phase = .test) :
    Kept me (if attempt.call.cancelled then attempt.finish .timedOut
      else attempt.ask attempt.call.timers) := by
  have woken : Woken attempt.call := .inr (.inr phase)
  have cause := kept.woken woken
  unfold Attempt.finish Attempt.ask
  split
  · cases kept
    constructor <;> grind [Early, Woken, Unregistered, Phase.waits, Answer.Explained]
  · cases kept
    constructor <;> grind [Early, Woken, Unregistered, Phase.waits, Answer.Explained]

theorem getsockopt_kept (kept : Kept me attempt) (phase : attempt.call.phase = .call)
    (asking : attempt.asking) (answer : Answer)
    (is : answer = .unreadable ∨ ∃ error, answer = .socket error) :
    Kept me (attempt.finish answer) := by
  have cause := kept.asked asking
  have explained : answer.Explained attempt.call.timers attempt.reported attempt.refused := by
    rcases is with rfl | ⟨error, rfl⟩
    · exact cause
    · exact cause
  unfold Attempt.finish
  cases kept
  constructor <;> grind [Early, Woken, Unregistered, Phase.waits]

theorem expire_kept (kept : Kept me attempt) {timer : Nat}
    (pending : attempt.call.timers[timer]? = some .pending) :
    Kept me { attempt with
      call := { attempt.call with timers := attempt.call.timers.set timer .collected } } := by
  have unran : .ran ∉ attempt.call.timers := by
    intro member
    have single := kept.single
    have inside := (List.getElem?_eq_some_iff.mp pending).1
    obtain ⟨only, is⟩ := List.length_eq_one_iff.mp (by omega : attempt.call.timers.length = 1)
    have first : timer = 0 := by omega
    rw [is] at member pending
    rw [← List.mem_singleton.mp member, first] at pending
    cases pending
  refine kept.stir (stirred_same _ rfl rfl rfl) (fun member => absurd member unran) (fun member => ?_)
    List.length_set id (fun cancelled => absurd (kept.ran cancelled) unran) id (.inl rfl)
  rcases List.mem_or_eq_of_mem_set member with old | new
  · exact old
  · cases new

theorem runTimer_kept [DecidableEq Fib] (kept : Kept me attempt) {timer : Nat} {ctl : Bool}
    (collected : attempt.call.timers[timer]? = some .collected) {next : Call Cb Fib Sock}
    (is : next = { attempt.call with timers := attempt.call.timers.set timer .ran }.onTimer me .write ctl) :
    Kept me { attempt with call := next } := by
  obtain ⟨stirred, timers, cancelled, cause⟩ := onTimer_stirred timer ctl is
  have ran : .ran ∈ next.timers := by
    rw [timers]
    exact List.mem_set (List.getElem?_eq_some_iff.mp collected).1 .ran
  refine kept.stir stirred (fun _ => ran) (fun member => ?_) ?_ cancelled (fun _ => ran) id
    (cause.imp_right .inr)
  · rw [timers] at member
    rcases List.mem_or_eq_of_mem_set member with old | new
    · exact old
    · cases new
  · rw [timers, List.length_set]

theorem ready_kept [DecidableEq Fib] (kept : Kept me attempt)
    (set : attempt.call.ctx.events .write = true) :
    Kept me { attempt with call := attempt.call.trigger me .write, reported := true } :=
  kept.stir (trigger_stirred set) id id rfl id kept.ran (fun _ => rfl) (.inr (.inl rfl))

end

theorem along_eq [DecidableEq Fib] {me : Fib} {attempt next : Attempt Cb Fib Sock} {act : DoIo.Act}
    (taken : attempt.along me act = some next) :
    ∃ call, attempt.call.step me .write act = some call ∧ next = { attempt with call := call } := by
  obtain ⟨call, stepped, rfl⟩ := Option.map_eq_some_iff.mp taken
  exact ⟨call, stepped, rfl⟩

theorem step_kept [DecidableEq Fib] (me : Fib) (timed : Bool) (attempt : Attempt Cb Fib Sock) (act : Act)
    (next : Attempt Cb Fib Sock) (kept : Kept me attempt) (taken : attempt.step me timed act = some next) :
    Kept me next := by
  cases act with
  | connect error =>
      obtain ⟨⟨phase, unasked⟩, done⟩ := Option.ite_none_right_eq_some.mp taken
      cases error with
      | none =>
          cases done
          exact connect_kept kept phase unasked
      | some error =>
          cases done
          exact immediate_kept kept phase unasked error
  | addConditionTimer =>
      obtain ⟨phase, ⟨⟩⟩ := Option.ite_none_right_eq_some.mp taken
      exact arm_kept kept phase timed
  | addEvent ctl =>
      obtain ⟨_, along, rfl⟩ := Option.map_eq_some_iff.mp taken
      obtain ⟨call, stepped, rfl⟩ := along_eq along
      obtain ⟨phase, ⟨⟩⟩ := Option.ite_none_right_eq_some.mp stepped
      exact addEvent_kept kept phase ctl rfl
  | yieldToHold =>
      obtain ⟨call, stepped, rfl⟩ := along_eq taken
      obtain ⟨phase, ⟨⟩⟩ := Option.ite_none_right_eq_some.mp stepped
      exact yield_kept kept phase
  | resume =>
      obtain ⟨call, stepped, rfl⟩ := along_eq taken
      obtain ⟨⟨phase, queued⟩, ⟨⟩⟩ := Option.ite_none_right_eq_some.mp stepped
      exact resume_kept kept phase queued
  | cancelTimer =>
      rw [Attempt.step] at taken
      split at taken
      · rename_i phase
        cases taken
        exact refused_kept kept phase
      · rename_i apart
        obtain ⟨call, stepped, rfl⟩ := along_eq taken
        rw [Call.step, if_neg apart] at stepped
        obtain ⟨phase, ⟨⟩⟩ := Option.ite_none_right_eq_some.mp stepped
        exact cancelTimer_kept kept phase
  | test =>
      obtain ⟨phase, ⟨⟩⟩ := Option.ite_none_right_eq_some.mp taken
      exact test_kept kept phase
  | getsockopt error =>
      obtain ⟨⟨phase, asking⟩, ⟨⟩⟩ := Option.ite_none_right_eq_some.mp taken
      cases error with
      | none => exact getsockopt_kept kept phase asking .unreadable (.inl rfl)
      | some error => exact getsockopt_kept kept phase asking (.socket error) (.inr ⟨error, rfl⟩)
  | expire timer =>
      obtain ⟨call, stepped, rfl⟩ := along_eq taken
      obtain ⟨pending, ⟨⟩⟩ := Option.ite_none_right_eq_some.mp stepped
      exact expire_kept kept pending
  | runTimer timer ctl =>
      obtain ⟨call, stepped, rfl⟩ := along_eq taken
      obtain ⟨collected, ⟨⟩⟩ := Option.ite_none_right_eq_some.mp stepped
      exact runTimer_kept kept collected rfl
  | ready ctl =>
      obtain ⟨_, along, rfl⟩ := Option.map_eq_some_iff.mp taken
      obtain ⟨call, stepped, rfl⟩ := along_eq along
      obtain ⟨granted, ⟨⟩⟩ := Option.ite_none_right_eq_some.mp stepped
      exact ready_kept kept (Bool.and_eq_true_iff.mp granted).1

/-- Of a registration that is refused nothing is known of the connection, and still the socket is
asked, whose error is zero while the connection is in progress. -/
example : ((run (Attempt.step () true)
    (.start (FdContext.fresh fun _ => false : FdContext Unit Unit Unit))
    [.connect none, .addConditionTimer, .addEvent false, .cancelTimer, .getsockopt (some 0)]).map
      Attempt.answer) = some (some (.socket 0)) := by
  decide

/-- As for `do_io`; once the fiber asks the socket a callback can do no harm. -/
def Timely (attempt : Attempt Cb Fib Sock) : Act → Prop
  | .runTimer timer ctl => attempt.asking = false → DoIo.Timely .write attempt.call (.runTimer timer ctl)
  | .addEvent ctl => DoIo.Timely .write attempt.call (.addEvent ctl)
  | _ => True

instance decideTimely (attempt : Attempt Cb Fib Sock) : ∀ act, Decidable (Timely attempt act)
  | .runTimer timer ctl => inferInstanceAs (Decidable (attempt.asking = false →
      DoIo.Timely .write attempt.call (.runTimer timer ctl)))
  | .addEvent ctl => inferInstanceAs (Decidable (DoIo.Timely .write attempt.call (.addEvent ctl)))
  | .connect _ => .isTrue trivial
  | .addConditionTimer => .isTrue trivial
  | .yieldToHold => .isTrue trivial
  | .resume => .isTrue trivial
  | .cancelTimer => .isTrue trivial
  | .test => .isTrue trivial
  | .getsockopt _ => .isTrue trivial
  | .expire _ => .isTrue trivial
  | .ready _ => .isTrue trivial

/-- Until it asks or returns the fiber is as safe as in `do_io`. -/
structure Attended (me : Fib) (attempt : Attempt Cb Fib Sock) : Prop where
  kept : Kept me attempt
  safe : attempt.asking = false → attempt.call.phase ≠ .returned → Safe me .write attempt.call

theorem Attended.not_missed {me : Fib} {attempt : Attempt Cb Fib Sock}
    (attended : Attended me attempt) : ¬ Missed attempt.call := by
  intro missed
  have phase := missed.1
  refine (attended.safe ?_ ?_).not_missed missed
  · rw [← Bool.not_eq_true]
    intro asking
    rcases attended.kept.asking asking with calling | returned
    · rw [phase] at calling
      cases calling
    · rw [phase] at returned
      cases returned
  · rw [phase]
    exact fun returned => nomatch returned

theorem along_safe [DecidableEq Fib] {me : Fib} {attempt : Attempt Cb Fib Sock} {act : DoIo.Act}
    {call : Call Cb Fib Sock} (safe : Safe me .write attempt.call)
    (stepped : attempt.call.step me .write act = some call)
    (timely : DoIo.Timely .write attempt.call act) : Safe me .write call :=
  step_safe me .write attempt.call act call safe timely stepped

theorem Attended.before {me : Fib} {attempt : Attempt Cb Fib Sock} {phase : Phase}
    (attended : Attended me attempt) (unasked : attempt.asking = false)
    (now : attempt.call.phase = phase) (live : phase ≠ .returned) : Safe me .write attempt.call :=
  attended.safe unasked (now ▸ live)

theorem step_attended [DecidableEq Fib] (me : Fib) (timed : Bool) (attempt : Attempt Cb Fib Sock)
    (act : Act) (next : Attempt Cb Fib Sock) (attended : Attended me attempt)
    (timely : Timely attempt act) (taken : attempt.step me timed act = some next) :
    Attended me next := by
  refine ⟨step_kept me timed attempt act next attended.kept taken, fun unasked live => ?_⟩
  cases act with
  | connect error =>
      obtain ⟨⟨phase, unasked⟩, done⟩ := Option.ite_none_right_eq_some.mp taken
      cases error with
      | none =>
          cases done
          have safe := attended.before unasked phase (by decide)
          have stepped : attempt.call.step me .write (.call true) =
              some { attempt.call with phase := .arm } := if_pos phase
          exact along_safe safe stepped trivial
      | some error =>
          cases done
          exact absurd rfl live
  | addConditionTimer =>
      obtain ⟨phase, ⟨⟩⟩ := Option.ite_none_right_eq_some.mp taken
      have safe := attended.before unasked phase (by decide)
      cases timed with
      | true =>
          have stepped : attempt.call.step me .write .addConditionTimer = some { attempt.call with
              phase := .register, timers := attempt.call.timers ++ [.pending] } := if_pos phase
          exact along_safe safe stepped trivial
      | false =>
          apply safe_awake
          · exact fun _ => safe.going phase fun covered => covered
          · rfl
          · exact fun ran => .inl (safe.stopped phase (by decide) ran)
  | addEvent ctl =>
      obtain ⟨_, along, rfl⟩ := Option.map_eq_some_iff.mp taken
      obtain ⟨call, stepped, rfl⟩ := along_eq along
      obtain ⟨phase, -⟩ := Option.ite_none_right_eq_some.mp stepped
      have safe := attended.before unasked phase (by decide)
      exact along_safe safe stepped timely
  | yieldToHold =>
      obtain ⟨call, stepped, rfl⟩ := along_eq taken
      obtain ⟨phase, -⟩ := Option.ite_none_right_eq_some.mp stepped
      have safe := attended.before unasked phase (by decide)
      exact along_safe safe stepped trivial
  | resume =>
      obtain ⟨call, stepped, rfl⟩ := along_eq taken
      obtain ⟨⟨phase, -⟩, -⟩ := Option.ite_none_right_eq_some.mp stepped
      have safe := attended.before unasked phase (by decide)
      exact along_safe safe stepped trivial
  | cancelTimer =>
      rw [Attempt.step] at taken
      split at taken
      · cases taken
        cases unasked
      · rename_i apart
        obtain ⟨call, stepped, rfl⟩ := along_eq taken
        have stepped' := stepped
        rw [Call.step, if_neg apart] at stepped'
        obtain ⟨phase, -⟩ := Option.ite_none_right_eq_some.mp stepped'
        have safe := attended.before unasked phase (by decide)
        exact along_safe safe stepped trivial
  | test =>
      obtain ⟨-, ⟨⟩⟩ := Option.ite_none_right_eq_some.mp taken
      split at live
      · exact absurd rfl live
      · rename_i going
        rw [if_neg going] at unasked
        cases unasked
  | getsockopt error =>
      obtain ⟨-, ⟨⟩⟩ := Option.ite_none_right_eq_some.mp taken
      exact absurd rfl live
  | expire timer =>
      obtain ⟨call, stepped, rfl⟩ := along_eq taken
      have stepped' := stepped
      obtain ⟨pending, ⟨⟩⟩ := Option.ite_none_right_eq_some.mp stepped'
      exact along_safe (attended.safe unasked live) stepped trivial
  | runTimer timer ctl =>
      obtain ⟨call, stepped, rfl⟩ := along_eq taken
      have stepped' := stepped
      obtain ⟨collected, is⟩ := Option.ite_none_right_eq_some.mp stepped'
      have phase := (onTimer_stirred timer ctl (Option.some.inj is).symm).1.phase
      exact along_safe (attended.safe unasked (phase ▸ live)) stepped (timely unasked)
  | ready ctl =>
      obtain ⟨_, along, rfl⟩ := Option.map_eq_some_iff.mp taken
      obtain ⟨call, stepped, rfl⟩ := along_eq along
      have stepped' := stepped
      obtain ⟨granted, ⟨⟩⟩ := Option.ite_none_right_eq_some.mp stepped'
      exact along_safe (attended.safe unasked live) stepped trivial

theorem attended_start (me : Fib) (ctx : FdContext Cb Fib Sock)
    (away : (ctx.slot .write).fiber ≠ some me) : Attended me (.start ctx) :=
  ⟨kept_start me ctx away, fun _ _ => safe_start ctx⟩

/-- In a run whose steps are timely a connect is never left parked behind its timer. -/
theorem timely_connect_wakes [DecidableEq Fib] (me : Fib) (timed : Bool) (ctx : FdContext Cb Fib Sock)
    (away : (ctx.slot .write).fiber ≠ some me) (acts : List Act)
    (timely : Guarded (Attempt.step me timed) Timely (.start ctx) acts) :
    Always (Attempt.step me timed) (fun attempt => ¬ Missed attempt.call) (.start ctx) acts :=
  guarded_always (step_attended me timed) (fun _ attended => attended.not_missed) acts _
    (attended_start me ctx away) timely

/-- The timer's callback runs behind the answer of the socket. -/
theorem late_callback_harmless :
    Always (Attempt.step () true) (fun attempt => ¬ Missed attempt.call)
      (.start (FdContext.fresh fun _ => false : FdContext Unit Unit Unit))
      [.connect none, .addConditionTimer, .addEvent true, .yieldToHold, .ready true, .expire 0, .resume,
        .cancelTimer, .test, .runTimer 0 true, .getsockopt (some 111)] :=
  timely_connect_wakes () true _ (by decide) _ (by decide)

end OtaMqtt.Hook.Connect
