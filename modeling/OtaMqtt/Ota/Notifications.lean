import OtaMqtt.Lib.Trace
import OtaMqtt.Ota.Manager
import OtaMqtt.Timers.Expiry

/-! The publish timers that `ota_notify` and `ota_stop_notify` leave in the timer manager. -/

namespace OtaMqtt.Ota.Notifications

open OtaMqtt.Lib.Execution OtaMqtt.Lib.Trace
open OtaMqtt.Timers OtaMqtt.Timers.TimerSet OtaMqtt.Timers.Expiry OtaMqtt.Ota.OTAManager

/-- The calls on the registry and the wake-ups of the timer thread come in between. -/
inductive Request where
  | addDevice (deviceType : UInt16) (deviceNo : UInt32)
  | removeDevice (deviceType : UInt16) (deviceNo : UInt32)
  | notify (deviceType : UInt16) (msg : OTAMessage) (connectId : Int) (now : UInt64)
  | stopNotify (deviceType : UInt16) (name version : String) (connectId : Int)
  | nextTimer (now : UInt64)
  | expire (now : UInt64)

/-- The manager, and the topics that were stopped with success and not notified since. -/
structure Watch where
  manager : OTAManager
  stopped : List String

namespace Watch

def fresh (now : UInt64) : Watch := ⟨OTAManager.fresh now, []⟩

def withTimers (watch : Watch) (timers : TimerManager String) : Watch :=
  { watch with manager := { watch.manager with timers := timers } }

/-- The step is missing where the code would leave its defined behaviour. -/
def step (watch : Watch) : Request → Option Watch
  | .addDevice deviceType deviceNo =>
      some { watch with manager := (watch.manager.addDevice deviceType deviceNo).2 }
  | .removeDevice deviceType deviceNo =>
      some { watch with manager := (watch.manager.removeDevice deviceType deviceNo).2 }
  | .notify deviceType msg connectId now =>
      some ⟨(watch.manager.otaNotify deviceType msg connectId now).2,
        watch.stopped.filter (· ≠ notifyTopic deviceType msg.name msg.version)⟩
  | .stopNotify deviceType name version connectId =>
      match watch.manager.otaStopNotify deviceType name version connectId with
      | .error _ => none
      | .ok (response, manager) => some ⟨manager,
          if response.success then notifyTopic deviceType name version :: watch.stopped
          else watch.stopped⟩
  | .nextTimer now => some (watch.withTimers (watch.manager.timers.getNextTimer now).2)
  | .expire now => some (watch.withTimers (watch.manager.timers.listExpiredCb now).2)

end Watch

/-- The recurring timers in the set whose callback publishes to the topic. -/
def live (timers : TimerManager String) (topic : String) : List Nat :=
  timers.timers.filter fun id =>
    (timers.objects id).recurring && (timers.objects id).cb == some topic

/-- No topic has two live timers, and a stopped one has none. -/
def Quiet (watch : Watch) : Prop :=
  (∀ topic, (live watch.manager.timers topic).length ≤ 1) ∧
    ∀ topic ∈ watch.stopped, live watch.manager.timers topic = []

def accepted (manager : OTAManager) (deviceType : UInt16) : Bool :=
  (manager.deviceTypeNums.lookup deviceType).any fun numbers => numbers.card ≠ 0

/-- `m_timer` of the notifier under a topic. -/
def held (manager : OTAManager) (topic : String) : Option Nat :=
  (manager.otaNotifierMap.lookup topic).bind OTANotifier.timer

/-- An accepted `ota_notify` finds no notifier that still holds a timer. -/
def Rests (watch : Watch) : Request → Prop
  | .notify deviceType msg _ _ => accepted watch.manager deviceType = true →
      held watch.manager (notifyTopic deviceType msg.name msg.version) = none
  | _ => True

section
variable (manager : OTAManager)

theorem addDevice_frame (deviceType : UInt16) (deviceNo : UInt32) :
    (manager.addDevice deviceType deviceNo).2.timers = manager.timers ∧
      (manager.addDevice deviceType deviceNo).2.otaNotifierMap = manager.otaNotifierMap := by
  unfold addDevice
  split
  · exact ⟨rfl, rfl⟩
  · split
    · exact ⟨rfl, rfl⟩
    · exact ⟨rfl, rfl⟩

theorem removeDevice_frame (deviceType : UInt16) (deviceNo : UInt32) :
    (manager.removeDevice deviceType deviceNo).2.timers = manager.timers ∧
      (manager.removeDevice deviceType deviceNo).2.otaNotifierMap = manager.otaNotifierMap := by
  unfold removeDevice
  split
  · exact ⟨rfl, rfl⟩
  · split
    · dsimp only
      split
      · exact ⟨rfl, rfl⟩
      · exact ⟨rfl, rfl⟩
    · exact ⟨rfl, rfl⟩

theorem otaNotify_eq (deviceType : UInt16) (msg : OTAMessage) (connectId : Int) (now : UInt64) :
    (manager.otaNotify deviceType msg connectId now).2 =
      if accepted manager deviceType then
        manager.startNotifier (notifyTopic deviceType msg.name msg.version)
          (manager.notifierFor deviceType (notifyTopic deviceType msg.name msg.version) msg) now
      else manager := by
  unfold otaNotify accepted
  split
  · rename_i missing
    simp [missing]
  · rename_i numbers found
    rw [found, Option.any_some]
    by_cases empty : numbers.card = 0
    · rw [if_pos empty, if_neg (by rw [decide_eq_true_iff]; exact not_not_intro empty)]
    · rw [if_neg empty, if_pos (decide_eq_true empty)]

def Named (manager : OTAManager) : Prop :=
  ∀ topic notifier, manager.otaNotifierMap.lookup topic = some notifier → notifier.topic = topic

theorem notifierFor_topic (named : Named manager) (deviceType : UInt16) (topic : String)
    (msg : OTAMessage) : (manager.notifierFor deviceType topic msg).topic = topic := by
  unfold notifierFor
  split
  · rename_i notifier found
    exact named topic notifier found
  · rfl

theorem named_insert (topic : String) (notifier : OTANotifier) (timers : TimerManager String)
    (named : Named manager) (same : notifier.topic = topic) :
    Named { manager with
      timers := timers
      otaNotifierMap := manager.otaNotifierMap.insert topic notifier } := by
  intro other found here
  by_cases equal : other = topic
  · subst equal
    rw [AList.lookup_insert, Option.some.injEq] at here
    rw [← here, same]
  · rw [AList.lookup_insert_ne equal] at here
    exact named other found here

theorem held_insert (topic other : String) (notifier : OTANotifier) (timers : TimerManager String) :
    held { manager with
      timers := timers
      otaNotifierMap := manager.otaNotifierMap.insert topic notifier } other =
      if other = topic then notifier.timer else held manager other := by
  unfold held
  split
  · rename_i same
    rw [same, AList.lookup_insert, Option.bind_some]
  · rename_i apart
    rw [AList.lookup_insert_ne apart]

theorem startNotifier_spec (topic : String) (notifier : OTANotifier) (now : UInt64)
    (sound : Sound manager.timers) (named : Named manager) (same : notifier.topic = topic) :
    Sound (manager.startNotifier topic notifier now).timers ∧
      Named (manager.startNotifier topic notifier now) ∧
      (manager.startNotifier topic notifier now).timers.objects =
        Function.update manager.timers.objects manager.timers.created
          ⟨true, notifier.intervalMs, now + notifier.intervalMs, some topic⟩ ∧
      ∀ other, held (manager.startNotifier topic notifier now) other =
        if other = topic then some manager.timers.created else held manager other := by
  obtain ⟨sound', -, -, objects⟩ :=
    addTimer_sound now notifier.intervalMs notifier.topic true sound
  refine ⟨sound', named_insert manager topic _ _ named same, ?_, fun other => ?_⟩
  · rw [← same]
    exact objects
  · exact held_insert manager topic other _ _

/-- Stopping never fails; it clears the timer that the notifier holds and no other. -/
theorem otaStopNotify_spec (deviceType : UInt16) (name version : String) (connectId : Int)
    (sound : Sound manager.timers) (named : Named manager) :
    ∃ response next, manager.otaStopNotify deviceType name version connectId = .ok (response, next) ∧
      Sound next.timers ∧ Named next ∧
      (∀ other, held next other =
        if other = notifyTopic deviceType name version then none else held manager other) ∧
      (∀ id, (next.timers.objects id).recurring = (manager.timers.objects id).recurring) ∧
      ∀ id, (next.timers.objects id).cb =
        if held manager (notifyTopic deviceType name version) = some id then none
        else (manager.timers.objects id).cb := by
  unfold otaStopNotify
  dsimp only
  generalize notifyTopic deviceType name version = topic
  cases found : manager.otaNotifierMap.lookup topic with
  | none =>
      have empty : held manager topic = none := by rw [held, found, Option.bind_none]
      refine ⟨_, manager, rfl, sound, named, fun other => ?_, fun _ => rfl, fun id => ?_⟩
      · split
        · rename_i same
          rw [same, empty]
        · rfl
      · rw [empty, if_neg (by simp)]
  | some notifier =>
      have timer : held manager topic = notifier.timer := by rw [held, found, Option.bind_some]
      have same := named topic notifier found
      dsimp only
      unfold OTANotifier.stop
      cases holds : notifier.timer with
      | none =>
          refine ⟨_, _, rfl, sound, named_insert manager topic _ _ named same, fun other => ?_,
            fun _ => rfl, fun id => ?_⟩
          · rw [held_insert, holds]
          · rw [timer, holds, if_neg (by simp)]
      | some id =>
          obtain ⟨canceled, timers, ran, sound', -, cleared, others, recurring⟩ :=
            cancel_sound id sound
          dsimp only
          rw [ran, ok_bind, ok_bind]
          refine ⟨_, _, rfl, sound', named_insert manager topic _ _ named same, fun other => ?_,
            recurring, fun other => ?_⟩
          · rw [held_insert]
          · rw [timer, holds]
            by_cases equal : other = id
            · rw [if_pos (congrArg some equal.symm), equal]
              exact cleared
            · rw [if_neg (fun same => equal (Option.some.inj same).symm)]
              exact congrArg Timer.cb (others other equal)

end

section
variable {timers : TimerManager String}

theorem mem_live (sound : Sound timers) (topic : String) (id : Nat) :
    id ∈ live timers topic ↔
      (timers.objects id).recurring = true ∧ (timers.objects id).cb = some topic := by
  rw [live, List.mem_filter, sound.mem_iff, Bool.and_eq_true, beq_iff_eq]
  constructor
  · exact And.right
  · intro both
    exact ⟨by rw [both.2]; rfl, both⟩

theorem live_nodup (sound : Sound timers) (topic : String) : (live timers topic).Nodup :=
  (sound.ordered.nodup (less_strict _)).filter _

theorem live_unique (topic : String) (short : (live timers topic).length ≤ 1) (first second : Nat)
    (one : first ∈ live timers topic) (two : second ∈ live timers topic) : first = second := by
  cases shape : live timers topic with
  | nil =>
      rw [shape] at one
      cases one
  | cons only rest =>
      rw [shape, List.length_cons] at short
      have alone : rest = [] := List.eq_nil_of_length_eq_zero (by omega)
      rw [shape, alone, List.mem_singleton] at one two
      rw [one, two]

end

theorem defined_same {manager next : OTAManager} (sound : Sound manager.timers)
    (named : Named manager) (timers : next.timers = manager.timers)
    (notifiers : next.otaNotifierMap = manager.otaNotifierMap) : Sound next.timers ∧ Named next := by
  constructor
  · rw [timers]
    exact sound
  · intro topic notifier found
    rw [notifiers] at found
    exact named topic notifier found

structure Tracked (watch : Watch) : Prop where
  sound : Sound watch.manager.timers
  named : Named watch.manager
  recurring : ∀ id, (watch.manager.timers.objects id).cb.isSome →
    (watch.manager.timers.objects id).recurring = true
  owned : ∀ id topic, (watch.manager.timers.objects id).cb = some topic ↔
    held watch.manager topic = some id
  silent : ∀ topic ∈ watch.stopped, held watch.manager topic = none

theorem fresh_tracked (now : UInt64) : Tracked (Watch.fresh now) where
  sound := fresh_sound now
  named := by
    intro topic notifier found
    cases found
  recurring := by
    intro id holds
    cases holds
  owned := by
    intro id topic
    constructor
    · intro holds
      cases holds
    · intro holds
      cases holds
  silent := by
    intro topic member
    cases member

section
variable {watch : Watch}

theorem Tracked.quiet (tracked : Tracked watch) : Quiet watch := by
  constructor
  · intro topic
    have nodup := live_nodup tracked.sound topic
    cases shape : live watch.manager.timers topic with
    | nil => exact Nat.zero_le 1
    | cons first rest =>
        have owner : ∀ id ∈ first :: rest, held watch.manager topic = some id := by
          intro id member
          rw [← shape, mem_live tracked.sound] at member
          exact (tracked.owned id topic).mp member.2
        have same : ∀ id ∈ rest, id = first := fun id member => Option.some.inj
          ((owner id (List.mem_cons_of_mem _ member)).symm.trans (owner first List.mem_cons_self))
        rw [shape, List.eq_replicate_of_mem same, ← List.replicate_succ, List.nodup_replicate] at nodup
        exact nodup
  · intro topic stopped
    apply List.eq_nil_iff_forall_not_mem.mpr
    intro id member
    have holds := (tracked.owned id topic).mp ((mem_live tracked.sound topic id).mp member).2
    rw [tracked.silent topic stopped] at holds
    cases holds

theorem tracked_same (next : OTAManager) (stopped : List String) (tracked : Tracked watch)
    (timers : next.timers = watch.manager.timers)
    (notifiers : next.otaNotifierMap = watch.manager.otaNotifierMap)
    (fewer : ∀ topic ∈ stopped, topic ∈ watch.stopped) : Tracked ⟨next, stopped⟩ := by
  have holds : ∀ topic, held next topic = held watch.manager topic := by
    intro topic
    rw [held, held, notifiers]
  obtain ⟨sound, named⟩ := defined_same tracked.sound tracked.named timers notifiers
  refine ⟨sound, named, ?_, ?_, ?_⟩
  · dsimp only
    rw [timers]
    exact tracked.recurring
  · intro id topic
    dsimp only
    rw [timers, holds]
    exact tracked.owned id topic
  · intro topic member
    dsimp only
    rw [holds]
    exact tracked.silent topic (fewer topic member)

theorem tracked_kept (timers : TimerManager String) (tracked : Tracked watch) (sound : Sound timers)
    (kept : Kept watch.manager.timers timers) : Tracked (watch.withTimers timers) := by
  have cb : ∀ id, (timers.objects id).cb = (watch.manager.timers.objects id).cb := by
    intro id
    cases old : (watch.manager.timers.objects id).cb with
    | none => exact kept.idle id old
    | some topic =>
        rw [← old]
        exact kept.cb id (tracked.recurring id (by rw [old]; rfl))
  refine ⟨sound, tracked.named, fun id holding => ?_, fun id topic => ?_, tracked.silent⟩
  · have before : (timers.objects id).cb.isSome := holding
    rw [cb] at before
    exact (kept.recurring id).trans (tracked.recurring id before)
  · have same : (timers.objects id).cb = some topic ↔ held watch.manager topic = some id := by
      rw [cb]
      exact tracked.owned id topic
    exact same

theorem start_tracked (topic : String) (notifier : OTANotifier) (now : UInt64)
    (stopped : List String) (tracked : Tracked watch) (same : notifier.topic = topic)
    (free : held watch.manager topic = none)
    (others : ∀ other ∈ stopped, other ∈ watch.stopped ∧ other ≠ topic) :
    Tracked ⟨watch.manager.startNotifier topic notifier now, stopped⟩ := by
  obtain ⟨sound, named, objects, holds⟩ :=
    startNotifier_spec watch.manager topic notifier now tracked.sound tracked.named same
  have unused : (watch.manager.timers.objects watch.manager.timers.created).cb = none := by
    rw [← Option.not_isSome_iff_eq_none]
    exact fun holding => Nat.lt_irrefl _ (tracked.sound.created _ holding)
  refine ⟨sound, named, fun id holding => ?_, fun id other => ?_, fun other member => ?_⟩
  · dsimp only at holding ⊢
    rw [objects] at holding ⊢
    by_cases new : id = watch.manager.timers.created
    · rw [new, Function.update_self]
    · rw [Function.update_of_ne new] at holding ⊢
      exact tracked.recurring id holding
  · dsimp only
    rw [objects, holds]
    have old := tracked.owned id other
    by_cases new : id = watch.manager.timers.created
    · rw [new, Function.update_self]
      rw [new, unused] at old
      by_cases here : other = topic
      · simp [here]
      · rw [if_neg here, ← old]
        simp [Ne.symm here]
    · rw [Function.update_of_ne new]
      by_cases here : other = topic
      · rw [here, free] at old
        rw [if_pos here, here, old]
        simp [Ne.symm new]
      · rw [if_neg here]
        exact old
  · dsimp only
    obtain ⟨before, apart⟩ := others other member
    rw [holds, if_neg apart]
    exact tracked.silent other before

theorem stop_tracked (deviceType : UInt16) (name version : String) (connectId : Int)
    (response : Response) (next : OTAManager) (stopped : List String) (tracked : Tracked watch)
    (ran : watch.manager.otaStopNotify deviceType name version connectId = .ok (response, next))
    (others : ∀ other ∈ stopped,
      other = notifyTopic deviceType name version ∨ other ∈ watch.stopped) :
    Tracked ⟨next, stopped⟩ := by
  obtain ⟨response', next', ran', sound, named, holds, recurring, cb⟩ := otaStopNotify_spec
    watch.manager deviceType name version connectId tracked.sound tracked.named
  rw [ran'] at ran
  cases ran
  refine ⟨sound, named, fun id holding => ?_, fun id other => ?_, fun other member => ?_⟩
  · dsimp only at holding ⊢
    rw [cb] at holding
    rw [recurring]
    split at holding
    · cases holding
    · exact tracked.recurring id holding
  · dsimp only
    rw [cb, holds]
    have mine := tracked.owned id (notifyTopic deviceType name version)
    have old := tracked.owned id other
    by_cases here : other = notifyTopic deviceType name version
    · rw [if_pos here, here]
      split
      · simp
      · rename_i apart
        rw [mine]
        simp [apart]
    · rw [if_neg here]
      split
      · rename_i own
        rw [← old, mine.mpr own]
        simp [Ne.symm here]
      · exact old
  · dsimp only
    rw [holds]
    split
    · rfl
    · rename_i apart
      exact tracked.silent other ((others other member).resolve_left apart)

end

theorem step_tracked (watch : Watch) (request : Request) (next : Watch) (tracked : Tracked watch)
    (rests : Rests watch request) (taken : watch.step request = some next) : Tracked next := by
  cases request with
  | addDevice deviceType deviceNo =>
      cases taken
      obtain ⟨timers, notifiers⟩ := addDevice_frame watch.manager deviceType deviceNo
      exact tracked_same _ _ tracked timers notifiers fun _ member => member
  | removeDevice deviceType deviceNo =>
      cases taken
      obtain ⟨timers, notifiers⟩ := removeDevice_frame watch.manager deviceType deviceNo
      exact tracked_same _ _ tracked timers notifiers fun _ member => member
  | notify deviceType msg connectId now =>
      cases taken
      rw [otaNotify_eq]
      split
      · rename_i taken
        apply start_tracked _ _ _ _ tracked
        · exact notifierFor_topic watch.manager tracked.named deviceType _ msg
        · exact rests taken
        · intro other member
          rw [List.mem_filter, decide_eq_true_iff] at member
          exact member
      · exact tracked_same _ _ tracked rfl rfl fun _ member => (List.mem_filter.mp member).1
  | stopNotify deviceType name version connectId =>
      rw [Watch.step] at taken
      split at taken
      · cases taken
      · rename_i response manager ran
        cases taken
        apply stop_tracked _ _ _ _ _ _ _ tracked ran
        intro other member
        split at member
        · exact List.mem_cons.mp member
        · exact .inr member
  | nextTimer now =>
      cases taken
      obtain ⟨sound, kept⟩ := getNextTimer_sound now tracked.sound
      exact tracked_kept _ tracked sound kept
  | expire now =>
      cases taken
      obtain ⟨sound, kept⟩ := listExpiredCb_sound now tracked.sound
      exact tracked_kept _ tracked sound kept

theorem restart_live (watch : Watch) (tracked : Tracked watch) (topic : String)
    (notifier : OTANotifier) (now : UInt64) (same : notifier.topic = topic) (id : Nat)
    (holds : held watch.manager topic = some id) :
    ¬ (live (watch.manager.startNotifier topic notifier now).timers topic).length ≤ 1 := by
  intro short
  obtain ⟨sound, -, objects, -⟩ :=
    startNotifier_spec watch.manager topic notifier now tracked.sound tracked.named same
  have cb := (tracked.owned id topic).mpr holds
  have older : id < watch.manager.timers.created := tracked.sound.created id (by rw [cb]; rfl)
  have first := (mem_live sound topic id).mpr (by
    rw [objects, Function.update_of_ne (by omega)]
    exact ⟨tracked.recurring id (by rw [cb]; rfl), cb⟩)
  have second := (mem_live sound topic watch.manager.timers.created).mpr (by
    rw [objects, Function.update_self]
    exact ⟨rfl, rfl⟩)
  have equal := live_unique topic short id watch.manager.timers.created first second
  omega

theorem restart_not_quiet (watch : Watch) (request : Request) (tracked : Tracked watch)
    (busy : ¬ Rests watch request) : ∃ next, watch.step request = some next ∧ ¬ Quiet next := by
  cases request with
  | notify deviceType msg connectId now =>
      obtain ⟨taken, holds⟩ := Classical.not_imp.mp busy
      obtain ⟨id, holds⟩ := Option.ne_none_iff_exists'.mp holds
      refine ⟨_, rfl, fun quiet => ?_⟩
      have short := quiet.1 (notifyTopic deviceType msg.name msg.version)
      rw [otaNotify_eq, if_pos taken] at short
      exact restart_live watch tracked _ _ now
        (notifierFor_topic watch.manager tracked.named deviceType _ msg) id holds short
  | _ => exact absurd trivial busy

theorem step_defined (watch : Watch) (request : Request)
    (defined : Sound watch.manager.timers ∧ Named watch.manager) :
    ∃ next, watch.step request = some next ∧ Sound next.manager.timers ∧ Named next.manager := by
  obtain ⟨sound, named⟩ := defined
  cases request with
  | addDevice deviceType deviceNo =>
      obtain ⟨timers, notifiers⟩ := addDevice_frame watch.manager deviceType deviceNo
      exact ⟨_, rfl, defined_same sound named timers notifiers⟩
  | removeDevice deviceType deviceNo =>
      obtain ⟨timers, notifiers⟩ := removeDevice_frame watch.manager deviceType deviceNo
      exact ⟨_, rfl, defined_same sound named timers notifiers⟩
  | notify deviceType msg connectId now =>
      refine ⟨_, rfl, ?_⟩
      dsimp only
      rw [otaNotify_eq]
      split
      · obtain ⟨sound', named', -, -⟩ := startNotifier_spec watch.manager _ _ now sound named
          (notifierFor_topic watch.manager named deviceType _ msg)
        exact ⟨sound', named'⟩
      · exact ⟨sound, named⟩
  | stopNotify deviceType name version connectId =>
      obtain ⟨response, next, ran, sound', named', -⟩ :=
        otaStopNotify_spec watch.manager deviceType name version connectId sound named
      rw [Watch.step, ran]
      exact ⟨_, rfl, sound', named'⟩
  | nextTimer now => exact ⟨_, rfl, (getNextTimer_sound now sound).1, named⟩
  | expire now => exact ⟨_, rfl, (listExpiredCb_sound now sound).1, named⟩

/-- Every sequence of requests runs to its end. It is quiet throughout, with at most one live
timer a topic and none behind a stop, exactly when no accepted `ota_notify` in it comes to a
notifier that still holds a timer. -/
theorem quiet_iff_rests (start : UInt64) (requests : List Request) :
    (∃ last, run Watch.step (Watch.fresh start) requests = some last) ∧
      (Always Watch.step Quiet (Watch.fresh start) requests ↔
        Guarded Watch.step Rests (Watch.fresh start) requests) := by
  have begins := fresh_tracked start
  constructor
  · obtain ⟨last, ran, -⟩ := run_total step_defined requests (Watch.fresh start)
      ⟨begins.sound, begins.named⟩
    exact ⟨last, ran⟩
  · exact always_iff_guarded step_tracked (fun _ tracked => tracked.quiet) restart_not_quiet
      requests (Watch.fresh start) begins

/-- A package is announced twice and stopped once. -/
def announcedTwice : List Request :=
  [.addDevice 1 7, .notify 1 { name := "app", version := "2" } 5 100,
    .notify 1 { name := "app", version := "2" } 5 200, .stopNotify 1 "app" "2" 5]

theorem announced_twice_not_quiet :
    ¬ ∀ (start : UInt64) (requests : List Request),
      Always Watch.step Quiet (Watch.fresh start) requests := by
  intro always_quiet
  have quiet := always_quiet 0 announcedTwice announcedTwice [] _ (by simp) rfl
  have silent := quiet.2 (notifyTopic 1 "app" "2") (by decide +kernel)
  revert silent
  decide +kernel

end OtaMqtt.Ota.Notifications
