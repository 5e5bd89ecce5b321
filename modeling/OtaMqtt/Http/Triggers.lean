import OtaMqtt.Http.Server

/-! What a trigger hands to the scheduler, against what was registered. -/

namespace OtaMqtt.Http.Triggers

open OtaMqtt.Lib.Trace
open OtaMqtt.Http.Server

variable {Cb Fib Sock : Type}

/-- A registration as the history shows it: its task, whether it is persistent, and
whether it has been scheduled since. -/
structure Registration (Cb Fib : Type) where
  task : Task Cb Fib
  persistent : Bool
  served : Bool

def latest (fd : Nat) (event : Event) : List (Entry Cb Fib) → Option (Registration Cb Fib)
  | [] => none
  | .registered other kind task persistent :: older =>
      if other = fd ∧ kind = event then some ⟨task, persistent, false⟩ else latest fd event older
  | .scheduled other kind _ :: older =>
      if other = fd ∧ kind = event then
        (latest fd event older).map fun registration => { registration with served := true }
      else latest fd event older

/-- Whatever was scheduled was the task of the latest registration, and a registration
that is not persistent was scheduled at most once. -/
def Faithful : List (Entry Cb Fib) → Prop
  | [] => True
  | .registered _ _ _ _ :: older => Faithful older
  | .scheduled fd event task :: older =>
      (∃ registration, latest fd event older = some registration ∧ registration.task = task ∧
        (registration.persistent = false → registration.served = false)) ∧ Faithful older

/-- A successful `addEvent` without a callback finds the callback slot of its event empty. -/
def Vacant (server : HttpServer Cb Fib Sock) : Label Cb Fib Sock → Prop
  | .addEvent fd event _ none _ _ ctl =>
      (server.contexts fd).events event = false → ctl = true →
        ((server.contexts fd).slot event).cb = none
  | _ => True

instance (server : HttpServer Cb Fib Sock) (label : Label Cb Fib Sock) :
    Decidable (Vacant server label) :=
  match label with
  | .addEvent fd event _ none _ _ ctl =>
      decidable_of_iff ((server.contexts fd).events event = false → ctl = true →
        ((server.contexts fd).slot event).cb.isNone = true) (by simp [Vacant])
  | .addEvent _ _ _ (some _) _ _ _ => .isTrue trivial
  | .delEvent _ _ _ => .isTrue trivial
  | .cancelEvent _ _ _ => .isTrue trivial
  | .cancelAll _ _ => .isTrue trivial
  | .dispatch _ _ _ => .isTrue trivial
  | .reset _ => .isTrue trivial

/-- The slot will schedule `task`, or nothing when its fiber has been taken already. -/
def Armed (slot : EventContext Cb Fib) : Task Cb Fib → Prop
  | .callback cb => slot.cb = some cb
  | .fiber fiber => slot.cb = none ∧ (slot.fiber = some fiber ∨ slot.fiber = none)

structure Agrees (slot : EventContext Cb Fib) (registration : Registration Cb Fib) : Prop where
  armed : Armed slot registration.task
  lasting : slot.persistent = true → registration.persistent = true
  once : registration.persistent = false → registration.served = false

def Matches (ctx : FdContext Cb Fib Sock) (fd : Nat) (history : List (Entry Cb Fib)) (event : Event) :
    Prop :=
  ctx.events event = true →
    ∃ registration, latest fd event history = some registration ∧ Agrees (ctx.slot event) registration

structure Sound (server : HttpServer Cb Fib Sock) : Prop where
  faithful : Faithful server.history
  slots : ∀ fd event, Matches (server.contexts fd) fd server.history event

def Concerns (fd : Nat) (event : Event) : Entry Cb Fib → Prop
  | .registered other kind _ _ => other = fd ∧ kind = event
  | .scheduled other kind _ => other = fd ∧ kind = event

theorem latest_elsewhere (fd other : Nat) (event kind : Event)
    (entries history : List (Entry Cb Fib)) (local' : ∀ entry ∈ entries, Concerns fd event entry)
    (elsewhere : ¬ (fd = other ∧ event = kind)) :
    latest other kind (entries ++ history) = latest other kind history := by
  induction entries with
  | nil => rfl
  | cons entry entries ih =>
      have here := local' entry List.mem_cons_self
      have later := ih (fun entry member => local' entry (List.mem_cons_of_mem _ member))
      cases entry with
      | registered =>
          obtain ⟨rfl, rfl⟩ := here
          rw [List.cons_append, latest, if_neg elsewhere, later]
      | scheduled =>
          obtain ⟨rfl, rfl⟩ := here
          rw [List.cons_append, latest, if_neg elsewhere, later]

theorem edit_sound (server : HttpServer Cb Fib Sock) (fd : Nat) (event : Event)
    (ctx : FdContext Cb Fib Sock) (count : Nat) (entries : List (Entry Cb Fib)) (sound : Sound server)
    (faithful : Faithful (entries ++ server.history))
    (local' : ∀ entry ∈ entries, Concerns fd event entry)
    (others : ∀ other, other ≠ event →
      ctx.events other = (server.contexts fd).events other ∧
        ctx.slot other = (server.contexts fd).slot other)
    (here : Matches ctx fd (entries ++ server.history) event) :
    Sound (server.edit fd ctx count entries) := by
  refine ⟨faithful, fun other kind => ?_⟩
  simp only [HttpServer.edit]
  by_cases same : other = fd
  · subst same
    rw [Function.update_self]
    by_cases alike : kind = event
    · subst alike
      exact here
    · obtain ⟨events, slot⟩ := others kind alike
      have kept := sound.slots other kind
      rw [Matches, events, slot, latest_elsewhere other other event kind entries server.history local'
        (fun equal => alike equal.2.symm)]
      exact kept
  · rw [Function.update_of_ne same, Matches,
      latest_elsewhere fd other event kind entries server.history local' (fun equal => same equal.1.symm)]
    exact sound.slots other kind

theorem fresh_sound (junk : Nat → Event → Bool) :
    Sound (HttpServer.fresh junk : HttpServer Cb Fib Sock) where
  faithful := trivial
  slots := by
    intro fd event set
    cases set

theorem latest_scheduled (fd : Nat) (event : Event) (task : Task Cb Fib)
    (history : List (Entry Cb Fib)) (registration : Registration Cb Fib)
    (found : latest fd event history = some registration) :
    latest fd event (.scheduled fd event task :: history) =
      some { registration with served := true } := by
  rw [latest, if_pos ⟨rfl, rfl⟩, found]
  rfl

theorem triggerEvent_armed (ctx : FdContext Cb Fib Sock) (event : Event) (task : Task Cb Fib)
    (set : ctx.events event = true) (armed : Armed (ctx.slot event) task) :
    ((ctx.triggerEvent event).1 = some task ∨ (ctx.triggerEvent event).1 = none) ∧
      Armed ((ctx.triggerEvent event).2.slot event) task ∧
      ((ctx.triggerEvent event).2.slot event).persistent = (ctx.slot event).persistent ∧
      ((ctx.triggerEvent event).2.events event = true → (ctx.slot event).persistent = true) := by
  unfold FdContext.triggerEvent
  rw [if_pos set]
  cases task with
  | callback cb =>
      have held : (ctx.slot event).cb = some cb := armed
      simp only [held]
      refine ⟨.inl trivial, armed, trivial, ?_⟩
      split
      · intro _
        assumption
      · simp
  | fiber fiber =>
      obtain ⟨held, taken⟩ := armed
      simp only [held, Function.update_self]
      refine ⟨?_, ⟨rfl, .inr rfl⟩, trivial, ?_⟩
      · rcases taken with present | absent
        · left
          rw [present]
          rfl
        · right
          rw [absent]
          rfl
      · split
        · intro _
          assumption
        · simp

theorem fire_sound (server : HttpServer Cb Fib Sock) (fd : Nat) (event : Event)
    (sound : Sound server) : Sound (server.fire fd event) := by
  rw [HttpServer.fire_eq]
  have others := fun other different => (server.contexts fd).triggerEvent_other event other different
  cases set : (server.contexts fd).events event with
  | false =>
      have idle : (server.contexts fd).triggerEvent event = (none, server.contexts fd) := by
        rw [FdContext.triggerEvent, if_neg (by simp [set])]
      rw [idle]
      exact edit_sound server fd event _ _ [] sound sound.faithful (by simp) (fun _ _ => ⟨rfl, rfl⟩)
        (sound.slots fd event)
  | true =>
      obtain ⟨registration, found, agrees⟩ := sound.slots fd event set
      obtain ⟨task, armed, lasting, stays⟩ := triggerEvent_armed (server.contexts fd) event
        registration.task set agrees.armed
      rcases task with scheduled | nothing
      · rw [scheduled]
        apply edit_sound server fd event _ _ [.scheduled fd event registration.task] sound
        · exact ⟨⟨registration, found, rfl, agrees.once⟩, sound.faithful⟩
        · simp [Concerns]
        · exact others
        · intro still
          refine ⟨_, latest_scheduled fd event _ _ registration found, armed, ?_, ?_⟩
          · rw [lasting]
            exact agrees.lasting
          · intro brief
            rw [agrees.lasting (stays still)] at brief
            cases brief
      · rw [nothing]
        apply edit_sound server fd event _ _ [] sound sound.faithful (by simp) others
        intro _
        exact ⟨registration, found, armed, by rw [lasting]; exact agrees.lasting, agrees.once⟩

theorem setPersistent_sound (server : HttpServer Cb Fib Sock) (fd : Nat) (event : Event)
    (sound : Sound server) : Sound (server.setPersistent fd event) := by
  apply edit_sound server fd event _ _ [] sound sound.faithful (by simp)
  · intro other different
    exact ⟨rfl, Function.update_of_ne different ..⟩
  · intro set
    obtain ⟨registration, found, agrees⟩ := sound.slots fd event set
    refine ⟨registration, found, ?_, ?_, agrees.once⟩
    · have armed := agrees.armed
      simp only [FdContext.setPersistent, Function.update_self]
      cases task : registration.task <;> rw [task] at armed <;> exact armed
    · simp [FdContext.setPersistent]

theorem cancelOne_sound (server : HttpServer Cb Fib Sock) (fd : Nat) (event : Event)
    (sound : Sound server) : Sound (server.cancelOne fd event) := by
  unfold HttpServer.cancelOne
  split
  · exact fire_sound _ fd event (setPersistent_sound server fd event sound)
  · exact sound

theorem register_sound (server : HttpServer Cb Fib Sock) (fd : Nat) (event : Event)
    (sock : Option Sock) (cb : Option Cb) (caller : Fib) (persistent : Bool) (count : Nat)
    (sound : Sound server)
    (vacant : cb = none → ((server.contexts fd).slot event).cb = none) :
    Sound (server.edit fd ((server.contexts fd).register event sock cb caller persistent) count
      [.registered fd event (.supplied cb caller) persistent]) := by
  apply edit_sound server fd event _ _ _ sound
  · exact sound.faithful
  · simp [Concerns]
  · intro other different
    exact ⟨Function.update_of_ne different .., Function.update_of_ne different ..⟩
  · intro _
    refine ⟨_, if_pos ⟨rfl, rfl⟩, ?_, ?_, fun _ => rfl⟩
    · simp only [FdContext.register, Function.update_self]
      cases cb with
      | some cb => exact rfl
      | none => exact ⟨vacant rfl, .inl rfl⟩
    · simp only [FdContext.register, Function.update_self]
      cases cb <;> exact id

theorem addEvent_sound (server : HttpServer Cb Fib Sock) (fd : Nat) (event : Event)
    (sock : Option Sock) (cb : Option Cb) (caller : Fib) (persistent ctl : Bool)
    (sound : Sound server)
    (vacant : Vacant server (.addEvent fd event sock cb caller persistent ctl)) :
    Sound (server.addEvent fd event sock cb caller persistent ctl).2 := by
  obtain ⟨table, -, contexts, history, outcome⟩ :=
    HttpServer.addEvent_cases server fd event sock cb caller persistent ctl
  have tableSound : Sound table := by
    refine ⟨by rw [history]; exact sound.faithful, ?_⟩
    rw [contexts, history]
    exact sound.slots
  rcases outcome with refused | ⟨unset, accepted, added⟩
  · rw [refused]
    exact tableSound
  · rw [added]
    apply register_sound table fd event sock cb caller persistent _ tableSound
    rintro rfl
    rw [contexts]
    exact vacant unset accepted

theorem delEvent_sound (server : HttpServer Cb Fib Sock) (fd : Nat) (event : Event) (ctl : Bool)
    (sound : Sound server) : Sound (server.delEvent fd event ctl).2 := by
  unfold HttpServer.delEvent
  dsimp only
  split
  · exact sound
  · split
    · exact sound
    · split
      · apply edit_sound server fd event _ _ [] sound sound.faithful (by simp)
        · intro other different
          simp [FdContext.unregister, FdContext.resetContext, FdContext.setPersistent,
            Function.update_of_ne different]
        · intro set
          simp [FdContext.unregister, FdContext.resetContext] at set
      · exact sound

theorem cancelEvent_sound (server : HttpServer Cb Fib Sock) (fd : Nat) (event : Event) (ctl : Bool)
    (sound : Sound server) : Sound (server.cancelEvent fd event ctl).2 := by
  unfold HttpServer.cancelEvent
  split
  · exact sound
  · split
    · exact sound
    · split
      · exact fire_sound _ fd event (setPersistent_sound server fd event sound)
      · exact sound

theorem cancelAll_sound (server : HttpServer Cb Fib Sock) (fd : Nat) (ctl : Bool)
    (sound : Sound server) : Sound (server.cancelAll fd ctl).2 := by
  unfold HttpServer.cancelAll
  dsimp only
  split
  · exact sound
  · split
    · exact sound
    · split
      · exact cancelOne_sound _ fd .write (cancelOne_sound server fd .read sound)
      · exact sound

theorem dispatch_sound (server : HttpServer Cb Fib Sock) (fd : Nat) (revents : EpollEvents)
    (ctl : Bool) (sound : Sound server) : Sound (server.dispatch fd revents ctl) := by
  unfold HttpServer.dispatch
  have first : Sound (if revents.real .read then server.fire fd .read else server) := by
    split
    · exact fire_sound server fd .read sound
    · exact sound
  split
  · dsimp only
    split
    · exact fire_sound _ fd .write first
    · exact first
  · exact sound

theorem resetFd_sound (server : HttpServer Cb Fib Sock) (fd : Nat) (sound : Sound server) :
    Sound (server.resetFd fd) := by
  refine ⟨sound.faithful, fun other event => ?_⟩
  simp only [HttpServer.resetFd, HttpServer.edit]
  by_cases same : other = fd
  · subst same
    rw [Function.update_self]
    intro set
    cases set
  · rw [Function.update_of_ne same]
    exact sound.slots other event

theorem step_sound (server : HttpServer Cb Fib Sock) (label : Label Cb Fib Sock)
    (next : HttpServer Cb Fib Sock) (sound : Sound server) (vacant : Vacant server label)
    (taken : server.step label = some next) : Sound next := by
  cases label with
  | addEvent fd event sock cb caller persistent ctl =>
      rw [HttpServer.step] at taken
      split at taken
      · cases taken
        exact addEvent_sound server fd event sock cb caller persistent ctl sound vacant
      · cases taken
  | delEvent fd event ctl =>
      cases taken
      exact delEvent_sound server fd event ctl sound
  | cancelEvent fd event ctl =>
      cases taken
      exact cancelEvent_sound server fd event ctl sound
  | cancelAll fd ctl =>
      cases taken
      exact cancelAll_sound server fd ctl sound
  | dispatch fd revents ctl =>
      rw [HttpServer.step] at taken
      split at taken
      · cases taken
        exact dispatch_sound server fd revents ctl sound
      · cases taken
  | reset fd =>
      rw [HttpServer.step] at taken
      split at taken
      · cases taken
        exact resetFd_sound server fd sound
      · cases taken

/-- In a run in which no registration of a fiber meets an older callback, every trigger
schedules what was registered last, and nothing twice unless it is persistent. -/
theorem vacant_runs_faithful (junk : Nat → Event → Bool) (labels : List (Label Cb Fib Sock))
    (vacant : Guarded HttpServer.step Vacant (HttpServer.fresh junk) labels) :
    Always HttpServer.step (fun server => Faithful server.history) (HttpServer.fresh junk) labels :=
  guarded_always step_sound (fun _ sound => sound.faithful) labels _ (fresh_sound junk) vacant

def readable : EpollEvents := ⟨true, false, false, false⟩

/-- A fiber waits for descriptor 5 to become readable, then a callback does. -/
def fiberThenCallback : List (Label Nat Nat Unit) :=
  [.addEvent 5 .read none none 2 false true, .dispatch 5 readable true,
    .addEvent 5 .read none (some 1) 3 false true, .dispatch 5 readable true]

theorem fiber_then_callback_faithful :
    Always HttpServer.step (fun server => Faithful server.history) (HttpServer.fresh fun _ _ => false)
      fiberThenCallback :=
  vacant_runs_faithful (fun _ _ => false) fiberThenCallback (by decide +kernel)

/-- A callback is served, then a fiber waits on the same descriptor. -/
def callbackThenFiber : List (Label Nat Nat Unit) :=
  [.addEvent 5 .read none (some 1) 3 false true, .dispatch 5 readable true,
    .addEvent 5 .read none none 2 false true, .dispatch 5 readable true]

/-- The second trigger runs the old callback again and the fiber stays asleep. -/
theorem old_callback_scheduled_for_fiber :
    ¬ ∀ (junk : Nat → Event → Bool) (labels : List (Label Nat Nat Unit)),
      Always HttpServer.step (fun server => Faithful server.history) (HttpServer.fresh junk) labels := by
  intro always_faithful
  have faithful := always_faithful (fun _ _ => false) callbackThenFiber callbackThenFiber [] _ (by simp) rfl
  obtain ⟨⟨registration, found, same, _⟩, _⟩ := faithful
  cases found
  cases same

end OtaMqtt.Http.Triggers
