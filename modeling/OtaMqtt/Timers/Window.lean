import OtaMqtt.Lib.Trace
import OtaMqtt.Timers.Expiry

/-! `listExpiredCb` between its two sections (sherry/timer.cc).

It asks under the read lock whether there are timers, and takes the write lock afterwards.
Every section that holds a lock is one step here; a thread that has asked and not yet taken
the write lock waits with the clock reading it came with. -/

namespace OtaMqtt.Timers.Window

open OtaMqtt.Lib.Execution OtaMqtt.Lib.Trace
open OtaMqtt.Timers.TimerManager OtaMqtt.Timers.TimerSet OtaMqtt.Timers.Expiry

variable {Callback : Type}

/-- The section of `listExpiredCb` that holds the write lock. Without a rollover it looks at
`*m_timers.begin()`, whatever is there. -/
def expireSection (manager : TimerManager Callback) (probe : Nat) (now : UInt64) :
    Run (List (Option Callback) × TimerManager Callback) :=
  let (rollover, manager) := manager.detectClockRollover now
  let (expired, rest) := splitExpiredAt manager probe now rollover
  if rollover then .ok (collect now { manager with timers := rest } expired)
  else
    match manager.timers with
    | [] => .error .outOfBounds
    | first :: _ =>
        if now < (manager.objects first).next then .ok ([], manager)
        else .ok (collect now { manager with timers := rest } expired)

structure World (Callback : Type) where
  manager : TimerManager Callback
  waiting : List (Nat × UInt64)

inductive Action (Callback : Type) where
  | addTimer (address : Nat) (now ms : UInt64) (cb : Callback) (recurring : Bool)
  | cancel (id : Nat)
  | refresh (id : Nat) (now : UInt64)
  | reset (id : Nat) (ms : UInt64) (fromNow : Bool) (now : UInt64)
  | check (thread : Nat) (now : UInt64)
  | expire (thread probe : Nat)

namespace World

def fresh (now : UInt64) : World Callback := ⟨.fresh now, []⟩

/-- The threads that wait, `thread` left out. -/
def without (world : World Callback) (thread : Nat) : List (Nat × UInt64) :=
  world.waiting.filter fun entry => entry.1 != thread

/-- An allocation answers an address that no timer of the set has; a thread that waits does
not ask again. -/
def operate (world : World Callback) : Action Callback → Option (Run (World Callback))
  | .addTimer address now ms cb recurring =>
      if (world.manager.objects address).cb.isNone then
        some (.ok { world with manager := addTimerAt world.manager address now ms cb recurring })
      else none
  | .cancel id =>
      some ((world.manager.cancel id).map fun outcome => { world with manager := outcome.2 })
  | .refresh id now => some (.ok { world with manager := (world.manager.refresh id now).2 })
  | .reset id ms fromNow now =>
      some (.ok { world with manager := (world.manager.reset id ms fromNow now).2 })
  | .check thread now =>
      if (world.waiting.lookup thread).isSome then none
      else if world.manager.timers = [] then some (.ok world)
      else some (.ok { world with waiting := (thread, now) :: world.waiting })
  | .expire thread probe =>
      match world.waiting.lookup thread with
      | none => none
      | some now =>
          if probe ∈ world.manager.timers then none
          else some ((expireSection world.manager probe now).map fun outcome =>
            ⟨outcome.2, world.without thread⟩)

end World

def step : Run (World Callback) → Action Callback → Option (Run (World Callback))
  | .ok world, action => world.operate action
  | .error _, _ => none

/-- No section has looked at the first timer of an empty set. -/
def Safe (state : Run (World Callback)) : Prop := ∃ world, state = .ok world

def Empties (world : World Callback) : Action Callback → Prop
  | .cancel id => world.manager.timers = [id]
  | .expire thread _ =>
      match world.waiting.lookup thread with
      | none => False
      | some now => ∀ id ∈ world.manager.timers, (world.manager.objects id).recurring = false ∧
          ((world.manager.objects id).next ≤ now ∨ (world.manager.detectClockRollover now).1 = true)
  | _ => False

def others (world : World Callback) : Action Callback → List (Nat × UInt64)
  | .expire thread _ => world.without thread
  | _ => world.waiting

/-- The last timer is taken out only while no other thread waits. -/
def Unhurried : Run (World Callback) → Action Callback → Prop
  | .ok world, action => Empties world action → others world action = []
  | .error _, _ => True

instance (world : World Callback) : (action : Action Callback) → Decidable (Empties world action)
  | .cancel id => inferInstanceAs (Decidable (_ = _))
  | .expire thread _ =>
      match found : world.waiting.lookup thread with
      | none => .isFalse (by simp [Empties, found])
      | some now =>
          decidable_of_iff (∀ id ∈ world.manager.timers, (world.manager.objects id).recurring = false ∧
            ((world.manager.objects id).next ≤ now ∨ (world.manager.detectClockRollover now).1 = true))
            (by simp [Empties, found])
  | .addTimer _ _ _ _ _ => .isFalse id
  | .refresh _ _ => .isFalse id
  | .reset _ _ _ _ => .isFalse id
  | .check _ _ => .isFalse id

instance : (state : Run (World Callback)) → (action : Action Callback) → Decidable (Unhurried state action)
  | .ok _, _ => inferInstanceAs (Decidable (_ → _))
  | .error _, _ => .isTrue trivial

structure Ready (world : World Callback) : Prop where
  sound : Sound world.manager
  nonempty : world.waiting ≠ [] → world.manager.timers ≠ []

theorem expireSection_eq (manager : TimerManager Callback) (probe : Nat) (now : UInt64)
    (nonempty : manager.timers ≠ []) :
    expireSection manager probe now = .ok (listExpiredCbAt manager probe now) := by
  unfold expireSection listExpiredCbAt
  have kept : (manager.detectClockRollover now).2.timers = manager.timers := rfl
  cases timers : manager.timers with
  | nil => exact absurd timers nonempty
  | cons first rest =>
      rw [timers] at kept
      dsimp only
      cases rollover : (manager.detectClockRollover now).1 with
      | true => simp
      | false =>
          by_cases later : now < ((manager.detectClockRollover now).2.objects first).next
          · simp [kept, later]
          · simp [kept, later]

section
variable {manager : TimerManager Callback}

theorem nonempty_of_mem {id : Nat} {timers : List Nat} (member : id ∈ timers) : timers ≠ [] := by
  rintro rfl
  cases member

theorem other_member (id : Nat) (sound : Sound manager) (nonempty : manager.timers ≠ [])
    (more : manager.timers ≠ [id]) : ∃ other ∈ manager.timers, other ≠ id := by
  have nodup := sound.ordered.nodup (less_strict _)
  cases timers : manager.timers with
  | nil => exact absurd timers nonempty
  | cons first rest =>
      rw [timers] at nodup more
      by_cases same : first = id
      · cases rest with
        | nil => exact absurd (congrArg ([·]) same) more
        | cons second rest =>
            refine ⟨second, by simp, ?_⟩
            rintro rfl
            exact (List.nodup_cons.mp nodup).1 (same ▸ List.mem_cons_self)
      · exact ⟨first, List.mem_cons_self, same⟩

theorem addTimerAt_nonempty (address : Nat) (now ms : UInt64) (cb : Callback) (recurring : Bool)
    (sound : Sound manager) (free : (manager.objects address).cb = none) :
    (addTimerAt manager address now ms cb recurring).timers ≠ [] := by
  have after := addTimerAt_sound address now ms cb recurring sound free
  apply @nonempty_of_mem address
  rw [after.mem_iff, addTimerAt, (add_objects address).1]
  dsimp only
  rw [Function.update_self]
  rfl

theorem cancel_nonempty (id : Nat) (answer : Bool) (next : TimerManager Callback)
    (sound : Sound manager) (canceled : manager.cancel id = .ok (answer, next))
    (nonempty : manager.timers ≠ []) (more : manager.timers ≠ [id]) : next.timers ≠ [] := by
  obtain ⟨answer', next', canceled', after, -, -, unchanged, -⟩ := cancel_sound id sound
  rw [canceled, Except.ok.injEq, Prod.mk.injEq] at canceled'
  rw [← canceled'.2] at after unchanged
  obtain ⟨other, member, apart⟩ := other_member id sound nonempty more
  apply @nonempty_of_mem other
  rw [after.mem_iff, unchanged other apart, ← sound.mem_iff]
  exact member

theorem moved_nonempty (next : TimerManager Callback) (sound : Sound manager) (after : Sound next)
    (moved : Moved manager next) (nonempty : manager.timers ≠ []) : next.timers ≠ [] := by
  obtain ⟨id, member⟩ := List.exists_mem_of_ne_nil _ nonempty
  apply @nonempty_of_mem id
  rw [after.mem_iff, moved.cb, ← sound.mem_iff]
  exact member

theorem expire_nonempty (probe : Nat) (now : UInt64) (sound : Sound manager)
    (free : probe ∉ manager.timers)
    (stays : ¬ ∀ id ∈ manager.timers, (manager.objects id).recurring = false ∧
      ((manager.objects id).next ≤ now ∨ (manager.detectClockRollover now).1 = true)) :
    (listExpiredCbAt manager probe now).2.timers ≠ [] := by
  obtain ⟨expired, expires, -⟩ := listExpiredCbAt_expires probe now sound free
  push Not at stays
  obtain ⟨id, member, stays⟩ := stays
  apply @nonempty_of_mem id
  rw [expires.set]
  by_cases handed : id ∈ expired
  · refine .inr ⟨handed, ?_⟩
    by_contra once
    obtain ⟨late, noRollover⟩ := stays (by simpa using once)
    have due := (expires.due (by simpa using noRollover) id).mp handed
    exact late due.2
  · exact .inl ⟨member, handed⟩

end

theorem lookup_waits {thread : Nat} {now : UInt64} {waiting : List (Nat × UInt64)}
    (found : waiting.lookup thread = some now) : waiting ≠ [] := by
  rintro rfl
  cases found

theorem step_ready (state next : Run (World Callback)) (action : Action Callback)
    (ready : ∃ world, state = .ok world ∧ Ready world) (unhurried : Unhurried state action)
    (taken : step state action = some next) : ∃ world, next = .ok world ∧ Ready world := by
  obtain ⟨world, rfl, ready⟩ := ready
  have sound := ready.sound
  rw [step] at taken
  cases action with
  | addTimer address now ms cb recurring =>
      rw [World.operate] at taken
      split at taken
      · rename_i free
        have free : (world.manager.objects address).cb = none := Option.isNone_iff_eq_none.mp free
        refine ⟨_, (Option.some.inj taken).symm, addTimerAt_sound address now ms cb recurring sound free,
          fun _ => addTimerAt_nonempty address now ms cb recurring sound free⟩
      · cases taken
  | cancel id =>
      obtain ⟨answer, later, canceled, after, -⟩ := cancel_sound id sound
      rw [World.operate, canceled] at taken
      refine ⟨_, (Option.some.inj taken).symm, after, fun waits => ?_⟩
      apply cancel_nonempty id answer later sound canceled (ready.nonempty waits)
      exact fun last => waits (unhurried last)
  | refresh id now =>
      obtain ⟨after, moved⟩ := refresh_sound id now sound
      exact ⟨_, (Option.some.inj taken).symm, after,
        fun waits => moved_nonempty _ sound after moved (ready.nonempty waits)⟩
  | reset id ms fromNow now =>
      obtain ⟨after, moved⟩ := reset_sound id ms fromNow now sound
      exact ⟨_, (Option.some.inj taken).symm, after,
        fun waits => moved_nonempty _ sound after moved (ready.nonempty waits)⟩
  | check thread now =>
      rw [World.operate] at taken
      split at taken
      · cases taken
      · split at taken
        · exact ⟨_, (Option.some.inj taken).symm, ready⟩
        · rename_i nonempty
          exact ⟨_, (Option.some.inj taken).symm, sound, fun _ => nonempty⟩
  | expire thread probe =>
      rw [World.operate] at taken
      rw [Unhurried, Empties, others] at unhurried
      cases found : world.waiting.lookup thread with
      | none =>
          rw [found] at taken
          cases taken
      | some now =>
          rw [found] at taken unhurried
          dsimp only at taken unhurried
          split at taken
          · cases taken
          · rename_i free
            obtain ⟨expired, -, after⟩ := listExpiredCbAt_expires probe now sound free
            rw [expireSection_eq _ _ _ (ready.nonempty (lookup_waits found))] at taken
            refine ⟨_, (Option.some.inj taken).symm, after, fun waits => ?_⟩
            exact expire_nonempty probe now sound free fun all => waits (unhurried all)

theorem fresh_ready (now : UInt64) : Ready (World.fresh now : World Callback) :=
  ⟨fresh_sound now, fun waits => absurd rfl waits⟩

/-- In every interleaving in which the last timer is taken out of the set only while no other
thread waits, no section of `listExpiredCb` looks at the first timer of an empty set. -/
theorem unhurried_runs_safe (start : UInt64) (actions : List (Action Callback))
    (unhurried : Guarded step Unhurried (.ok (World.fresh start)) actions) :
    Always step Safe (.ok (World.fresh start)) actions :=
  guarded_always (fun state action next ready guarded taken =>
      step_ready state next action ready guarded taken)
    (fun _ ⟨world, is, _⟩ => ⟨world, is⟩) actions _ ⟨_, rfl, fresh_ready start⟩ unhurried

/-- A timer is canceled while another one keeps the set filled. -/
def unhurriedRun : List (Action Nat) :=
  [.addTimer 3 0 10 1 false, .addTimer 5 0 20 2 false, .check 1 12, .cancel 3, .expire 1 7]

theorem unhurried_run_safe : Always step Safe (.ok (World.fresh 0)) unhurriedRun :=
  unhurried_runs_safe 0 unhurriedRun (by decide)

/-- The only timer is canceled between the two sections. -/
def hurriedRun : List (Action Nat) :=
  [.addTimer 3 0 10 1 false, .check 1 12, .cancel 3, .expire 1 7]

theorem hurried_run_faults :
    ¬ ∀ (start : UInt64) (actions : List (Action Nat)),
      Always step Safe (.ok (World.fresh start)) actions := by
  intro always_safe
  have reached : (run step (.ok (World.fresh 0)) hurriedRun).map (fun state => state.toBool) =
      some false := by decide
  cases ran : run step (.ok (World.fresh 0)) hurriedRun with
  | none =>
      rw [ran] at reached
      cases reached
  | some last =>
      obtain ⟨world, is⟩ := always_safe 0 hurriedRun hurriedRun [] last (List.append_nil _) ran
      rw [ran, is] at reached
      cases reached

end OtaMqtt.Timers.Window
