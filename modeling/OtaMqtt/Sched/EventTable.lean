import OtaMqtt.Lib.Tally
import OtaMqtt.Sched.IOManager

/-! The bookkeeping of `IOManager` and its assertions. -/

namespace OtaMqtt.Sched.EventTable

open OtaMqtt.Lib.Execution OtaMqtt.Lib.Tally OtaMqtt.Lib.Trace
open OtaMqtt.Http.Server (Event EpollEvents events_le events_clear)
open OtaMqtt.Sched

variable {Sched Cb Fib : Type}

def bits (ctx : FdContext Sched Cb Fib) : Nat := (ctx.events .read).toNat + (ctx.events .write).toNat

def registered (manager : IOManager Sched Cb Fib) : Nat :=
  tally manager.size fun fd => bits (manager.contexts fd)

/-- The counter is exact, and what is not registered holds nothing. -/
structure Consistent (manager : IOManager Sched Cb Fib) : Prop where
  count : manager.pendingEventCount = registered manager
  vacant : ∀ fd event, (manager.contexts fd).events event = false →
    (manager.contexts fd).slot event = .empty

/-- No assertion has failed, and while the process lives the table is consistent. -/
def Intact : Run (IOManager Sched Cb Fib) → Prop
  | .ok manager => Consistent manager
  | .error fault => fault ≠ .assertion

/-- `addEvent` is called by a running fiber for an event that is not registered, on a descriptor
that is an `int`; epoll names contexts of the table. -/
def Allowed : Run (IOManager Sched Cb Fib) → Label Sched Cb Fib → Prop
  | .ok manager, .addEvent fd event _ _ _ state _ =>
      fd < 2 ^ 31 ∧ (manager.contexts fd).events event = false ∧ state = .exec
  | .ok manager, .dispatch fd _ _ => fd < manager.size
  | _, _ => True

/-- A dispatch that passes the checks of `idle` triggers registered events only. -/
def Reported : Run (IOManager Sched Cb Fib) → Label Sched Cb Fib → Prop
  | .ok manager, .dispatch fd revents ctl => manager.passes fd revents ctl = true →
      ∀ event, revents.real event = true → (manager.contexts fd).events event = true
  | _, _ => True

instance : ∀ (state : Run (IOManager Sched Cb Fib)) (label : Label Sched Cb Fib),
    Decidable (Allowed state label)
  | .ok _, .addEvent .. => inferInstanceAs (Decidable (_ ∧ _ ∧ _))
  | .ok _, .dispatch .. => inferInstanceAs (Decidable (_ < _))
  | .ok _, .delEvent .. => .isTrue trivial
  | .ok _, .cancelEvent .. => .isTrue trivial
  | .ok _, .cancelAll .. => .isTrue trivial
  | .error _, _ => .isTrue trivial

instance : ∀ (state : Run (IOManager Sched Cb Fib)) (label : Label Sched Cb Fib),
    Decidable (Reported state label)
  | .ok _, .dispatch .. => inferInstanceAs (Decidable (_ → ∀ _, _ → _))
  | .ok _, .addEvent .. => .isTrue trivial
  | .ok _, .delEvent .. => .isTrue trivial
  | .ok _, .cancelEvent .. => .isTrue trivial
  | .ok _, .cancelAll .. => .isTrue trivial
  | .error _, _ => .isTrue trivial

/-- A registered event has a scheduler and either a callback or a fiber. -/
def Armed (ctx : EventContext Sched Cb Fib) : Prop :=
  ctx.scheduler.isSome = true ∧ (ctx.cb.isSome = true → ctx.fiber = none)

structure Kept (manager : IOManager Sched Cb Fib) : Prop extends Consistent manager where
  armed : ∀ fd event, (manager.contexts fd).events event = true →
    Armed ((manager.contexts fd).slot event)
  beyond : ∀ fd event, manager.size ≤ fd → (manager.contexts fd).events event = false
  large : 32 ≤ manager.size
  small : manager.size ≤ 2 ^ 32

def Alive : Run (IOManager Sched Cb Fib) → Prop
  | .ok manager => Kept manager
  | .error _ => False

theorem bits_le (ctx : FdContext Sched Cb Fib) : bits ctx ≤ 2 := events_le ctx.events

theorem bits_clear (ctx next : FdContext Sched Cb Fib) (event : Event)
    (set : ctx.events event = true)
    (cleared : next.events = Function.update ctx.events event false) : bits next + 1 = bits ctx := by
  unfold bits
  rw [cleared]
  exact events_clear ctx.events event set

theorem register_events (ctx : FdContext Sched Cb Fib) (event : Event) (scheduler : Sched)
    (cb : Option Cb) (caller : Fib) :
    (ctx.register event scheduler cb caller).events = Function.update ctx.events event true := rfl

theorem register_slot (ctx : FdContext Sched Cb Fib) (event : Event) (scheduler : Sched)
    (cb : Option Cb) (caller : Fib) :
    (ctx.register event scheduler cb caller).slot event = match cb with
      | some cb => { ctx.slot event with scheduler := some scheduler, cb := some cb }
      | none => { ctx.slot event with scheduler := some scheduler, fiber := some caller } :=
  Function.update_self ..

theorem unregister_events (ctx : FdContext Sched Cb Fib) (event : Event) :
    (ctx.unregister event).events = Function.update ctx.events event false := rfl

theorem left_empty (ctx : EventContext Sched Cb Fib) (armed : Armed ctx) : ctx.left = .empty := by
  obtain ⟨scheduler, fiber, cb⟩ := ctx
  cases cb with
  | none => rfl
  | some cb =>
      have none : fiber = none := armed.2 rfl
      subst none
      rfl

section
variable {manager : IOManager Sched Cb Fib}

theorem registered_bound (small : manager.size ≤ 2 ^ 32) : registered manager ≤ 2 ^ 33 := by
  have total := @tally_le manager.size (fun fd => bits (manager.contexts fd)) 2
    fun fd => bits_le (manager.contexts fd)
  unfold registered
  omega

theorem edit_kept (fd : Nat) (event : Event) (ctx : FdContext Sched Cb Fib) (count : Nat)
    (tasks : List (Sched × Task Cb Fib)) (kept : Kept manager) (inside : fd < manager.size)
    (others : ∀ other, other ≠ event → ctx.events other = (manager.contexts fd).events other ∧
      ctx.slot other = (manager.contexts fd).slot other)
    (vacant : ctx.events event = false → ctx.slot event = .empty)
    (armed : ctx.events event = true → Armed (ctx.slot event))
    (balance : count + bits (manager.contexts fd) = manager.pendingEventCount + bits ctx) :
    Kept (manager.edit fd ctx count tasks) := by
  have here : ∀ other, (ctx.events other = false → ctx.slot other = .empty) ∧
      (ctx.events other = true → Armed (ctx.slot other)) := by
    intro other
    by_cases same : other = event
    · rw [same]
      exact ⟨vacant, armed⟩
    · obtain ⟨events, slot⟩ := others other same
      rw [events, slot]
      exact ⟨kept.vacant fd other, kept.armed fd other⟩
  have change := @tally_change manager.size (fun fd => bits (manager.contexts fd))
    (fun other => bits (Function.update manager.contexts fd ctx other)) fd inside
    fun other apart => by rw [Function.update_of_ne apart]
  simp only [Function.update_self] at change
  have total := kept.count
  refine ⟨⟨?_, fun other => ?_⟩, fun other => ?_, fun other which past => ?_, kept.large, kept.small⟩
  · show count = tally manager.size fun other => bits (Function.update manager.contexts fd ctx other)
    unfold registered at total
    omega
  · show ∀ which, (Function.update manager.contexts fd ctx other).events which = false →
      (Function.update manager.contexts fd ctx other).slot which = .empty
    by_cases same : other = fd
    · rw [same, Function.update_self]
      exact fun which => (here which).1
    · rw [Function.update_of_ne same]
      exact kept.vacant other
  · show ∀ which, (Function.update manager.contexts fd ctx other).events which = true →
      Armed ((Function.update manager.contexts fd ctx other).slot which)
    by_cases same : other = fd
    · rw [same, Function.update_self]
      exact fun which => (here which).2
    · rw [Function.update_of_ne same]
      exact kept.armed other
  · have apart : other ≠ fd := by
      rintro rfl
      exact absurd inside (Nat.not_lt.mpr past)
    show (Function.update manager.contexts fd ctx other).events which = false
    rw [Function.update_of_ne apart]
    exact kept.beyond other which past

theorem pending_less (fd : Nat) (event : Event) (kept : Kept manager) (inside : fd < manager.size)
    (set : (manager.contexts fd).events event = true) :
    subSize manager.pendingEventCount 1 + 1 = manager.pendingEventCount := by
  have few : bits (manager.contexts fd) ≤ registered manager :=
    @le_tally manager.size (fun fd => bits (manager.contexts fd)) fd inside
  have one := bits_clear (manager.contexts fd) ((manager.contexts fd).unregister event) event set rfl
  have bound := registered_bound kept.small
  have total := kept.count
  rw [subSize_of_le (by omega) (by omega)]
  omega

theorem fire_kept (fd : Nat) (event : Event) (kept : Kept manager) (inside : fd < manager.size)
    (set : (manager.contexts fd).events event = true) :
    ∃ next, manager.fire fd event = .ok next ∧ Kept next ∧ next.size = manager.size ∧
      (next.contexts fd).events = Function.update (manager.contexts fd).events event false := by
  have armed := kept.armed fd event set
  obtain ⟨scheduler, found⟩ := Option.isSome_iff_exists.mp armed.1
  have less := pending_less fd event kept inside set
  unfold IOManager.fire FdContext.triggerEvent
  rw [if_pos set, found]
  refine ⟨_, rfl, ?_, rfl, ?_⟩
  · apply edit_kept fd event _ _ _ kept inside
    · intro other apart
      exact ⟨Function.update_of_ne apart _ _, Function.update_of_ne apart _ _⟩
    · intro _
      exact (Function.update_self ..).trans (left_empty _ armed)
    · intro still
      dsimp only at still
      rw [Function.update_self] at still
      cases still
    · have one := bits_clear (manager.contexts fd) ((manager.contexts fd).unregister event) event set rfl
      have same : bits (⟨Function.update (manager.contexts fd).slot event
          ((manager.contexts fd).slot event).left, Function.update (manager.contexts fd).events event
          false⟩ : FdContext Sched Cb Fib) = bits ((manager.contexts fd).unregister event) := rfl
      rw [same]
      omega
  · show (Function.update manager.contexts fd _ fd).events = _
    rw [Function.update_self]

theorem fire_fails (fd : Nat) (event : Event) (unset : (manager.contexts fd).events event = false) :
    manager.fire fd event = .error .assertion := by
  unfold IOManager.fire FdContext.triggerEvent
  rw [if_neg (by rw [unset]; decide)]
  rfl

theorem fireIf_kept (fd : Nat) (event : Event) (wanted : Bool) (kept : Kept manager)
    (inside : fd < manager.size)
    (set : wanted = true → (manager.contexts fd).events event = true) :
    ∃ next, manager.fireIf fd event wanted = .ok next ∧ Kept next ∧ next.size = manager.size ∧
      (∀ other, other ≠ event → (next.contexts fd).events other = (manager.contexts fd).events other) ∧
      (wanted = true → (next.contexts fd).events event = false) := by
  cases wanted with
  | false => exact ⟨manager, rfl, kept, rfl, fun _ _ => rfl, fun wanted => by cases wanted⟩
  | true =>
      obtain ⟨next, fired, kept', size, events⟩ := fire_kept fd event kept inside (set rfl)
      refine ⟨next, fired, kept', size, fun other apart => ?_, fun _ => ?_⟩
      · rw [events, Function.update_of_ne apart]
      · rw [events, Function.update_self]

theorem addEvent_kept (fd : Nat) (event : Event) (scheduler : Sched) (cb : Option Cb) (caller : Fib)
    (ctl : Bool) (kept : Kept manager) (int : fd < 2 ^ 31)
    (unset : (manager.contexts fd).events event = false) :
    ∃ code next, manager.addEvent fd event scheduler cb caller .exec ctl = .ok (code, next) ∧
      Kept next := by
  have grown : ∃ table : IOManager Sched Cb Fib,
      (if fd < manager.size then manager else manager.contextResize (fd * 3 / 2)) = table ∧
      Kept table ∧ fd < table.size ∧ table.contexts = manager.contexts := by
    have large := kept.large
    by_cases inside : fd < manager.size
    · exact ⟨manager, if_pos inside, kept, inside, rfl⟩
    · refine ⟨_, if_neg inside, ⟨⟨?_, kept.vacant⟩, kept.armed, ?_, ?_, ?_⟩, ?_, rfl⟩
      · have same := @tally_grow manager.size (fun fd => bits (manager.contexts fd)) (fd * 3 / 2)
          (by omega) fun entry past => by
            rw [bits, kept.beyond entry .read past, kept.beyond entry .write past]
            rfl
        exact kept.count.trans same.symm
      · intro other which past
        have far : fd * 3 / 2 ≤ other := past
        exact kept.beyond other which (by omega)
      · show 32 ≤ fd * 3 / 2
        omega
      · show fd * 3 / 2 ≤ 2 ^ 32
        omega
      · show fd < fd * 3 / 2
        omega
  obtain ⟨table, same, tableKept, inside, contexts⟩ := grown
  unfold IOManager.addEvent
  simp only [same]
  have clear : (table.contexts fd).events event = false := by rw [contexts, unset]
  have vacant := tableKept.vacant fd event clear
  rw [if_neg (by rw [clear]; decide)]
  cases ctl with
  | false => exact ⟨_, table, rfl, tableKept⟩
  | true =>
      rw [if_neg (by decide), if_neg (by rw [vacant]; exact Bool.false_ne_true),
        if_neg (by simp)]
      refine ⟨_, _, rfl, ?_⟩
      have bound := registered_bound tableKept.small
      have total := tableKept.count
      have more := bits_clear ((table.contexts fd).register event scheduler cb caller)
        (table.contexts fd) event (Function.update_self ..)
        (by rw [register_events, Function.update_idem, ← clear, Function.update_eq_self])
      apply edit_kept fd event _ _ _ tableKept inside
      · intro other apart
        exact ⟨Function.update_of_ne apart _ _, Function.update_of_ne apart _ _⟩
      · intro still
        rw [register_events, Function.update_self] at still
        cases still
      · intro _
        rw [register_slot, vacant]
        cases cb with
        | none => exact ⟨rfl, fun some => by cases some⟩
        | some cb => exact ⟨rfl, fun _ => rfl⟩
      · omega

theorem delEvent_kept (fd : Nat) (event : Event) (ctl : Bool) (kept : Kept manager) :
    Kept (manager.delEvent fd event ctl).2 := by
  unfold IOManager.delEvent
  dsimp only
  split
  · exact kept
  · rename_i past
    split
    · exact kept
    · rename_i set
      have set : (manager.contexts fd).events event = true := by simpa using set
      split
      · have inside : fd < manager.size := by omega
        have one := bits_clear (manager.contexts fd) ((manager.contexts fd).unregister event) event
          set rfl
        have less := pending_less fd event kept inside set
        apply edit_kept fd event _ _ _ kept inside
        · intro other apart
          exact ⟨Function.update_of_ne apart _ _, Function.update_of_ne apart _ _⟩
        · intro _
          exact Function.update_self ..
        · intro still
          rw [unregister_events, Function.update_self] at still
          cases still
        · omega
      · exact kept

theorem cancelBoth_kept (fd : Nat) (kept : Kept manager) (inside : fd < manager.size) :
    ∃ next, manager.cancelBoth fd = .ok next ∧ Kept next := by
  obtain ⟨middle, first, kept', size, others, clear⟩ := fireIf_kept fd .read
    ((manager.contexts fd).events .read) kept inside id
  obtain ⟨next, second, kept'', -, others', clear'⟩ := fireIf_kept fd .write
    ((middle.contexts fd).events .write) kept' (by omega) id
  have read : (next.contexts fd).events .read = false := by
    rw [others' .read (by decide)]
    cases set : (manager.contexts fd).events .read with
    | true => exact clear set
    | false =>
        rw [set] at first
        cases first
        exact set
  have write : (next.contexts fd).events .write = false := by
    cases set : (middle.contexts fd).events .write with
    | true => exact clear' set
    | false =>
        rw [set] at second
        cases second
        exact set
  refine ⟨next, ?_, kept''⟩
  rw [IOManager.cancelBoth, first, ok_bind, second, ok_bind, read, write]
  rfl

theorem cancelEvent_kept (fd : Nat) (event : Event) (ctl : Bool) (kept : Kept manager) :
    ∃ answer next, manager.cancelEvent fd event ctl = .ok (answer, next) ∧ Kept next := by
  unfold IOManager.cancelEvent
  split
  · exact ⟨false, manager, rfl, kept⟩
  · rename_i past
    split
    · exact ⟨false, manager, rfl, kept⟩
    · rename_i set
      split
      · obtain ⟨next, fired, kept', -⟩ := fire_kept fd event kept (by omega) (by simpa using set)
        exact ⟨true, next, by rw [fired, ok_bind], kept'⟩
      · exact ⟨false, manager, rfl, kept⟩

theorem cancelAll_kept (fd : Nat) (ctl : Bool) (kept : Kept manager) :
    ∃ answer next, manager.cancelAll fd ctl = .ok (answer, next) ∧ Kept next := by
  unfold IOManager.cancelAll
  dsimp only
  split
  · exact ⟨false, manager, rfl, kept⟩
  · rename_i past
    split
    · exact ⟨false, manager, rfl, kept⟩
    · split
      · obtain ⟨next, canceled, kept'⟩ := cancelBoth_kept fd kept (by omega)
        exact ⟨true, next, by rw [canceled, ok_bind], kept'⟩
      · exact ⟨false, manager, rfl, kept⟩

theorem dispatch_kept (fd : Nat) (revents : EpollEvents) (ctl : Bool) (kept : Kept manager)
    (inside : fd < manager.size)
    (reported : manager.passes fd revents ctl = true → ∀ event, revents.real event = true →
      (manager.contexts fd).events event = true) :
    ∃ next, manager.dispatch fd revents ctl = .ok next ∧ Kept next := by
  unfold IOManager.dispatch
  split
  · rename_i passed
    obtain ⟨middle, first, kept', size, others, -⟩ := fireIf_kept fd .read (revents.real .read) kept
      inside (reported passed .read)
    obtain ⟨next, second, kept'', -⟩ := fireIf_kept fd .write (revents.real .write) kept' (by omega)
      (fun wanted => (others .write (by decide)).trans (reported passed .write wanted))
    refine ⟨next, ?_, kept''⟩
    rw [first, ok_bind, second]
  · exact ⟨manager, rfl, kept⟩

/-- A dispatch that triggers an event that is not registered fails its assertion. -/
theorem dispatch_fails (fd : Nat) (revents : EpollEvents) (ctl : Bool) (kept : Kept manager)
    (inside : fd < manager.size) (passed : manager.passes fd revents ctl = true) (event : Event)
    (wanted : revents.real event = true) (unset : (manager.contexts fd).events event = false) :
    manager.dispatch fd revents ctl = .error .assertion := by
  rw [IOManager.dispatch, if_pos passed]
  by_cases early : revents.real .read = true ∧ (manager.contexts fd).events .read = false
  · rw [IOManager.fireIf, if_pos early.1, fire_fails fd .read early.2]
    rfl
  · have registered : revents.real .read = true → (manager.contexts fd).events .read = true := by
      intro wanted
      by_contra off
      exact early ⟨wanted, by simpa using off⟩
    obtain ⟨middle, first, -, -, others, -⟩ := fireIf_kept fd .read (revents.real .read) kept inside
      registered
    cases event with
    | read => exact absurd ⟨wanted, unset⟩ early
    | write =>
        have unset' : (middle.contexts fd).events .write = false := by
          rw [others .write (by decide), unset]
        rw [first, ok_bind, IOManager.fireIf, if_pos wanted, fire_fails fd .write unset']

end

theorem fresh_kept : Kept (IOManager.fresh : IOManager Sched Cb Fib) where
  count := by
    unfold registered tally
    rw [Finset.sum_eq_zero]
    · rfl
    · intro fd _
      rfl
  vacant := fun _ _ _ => rfl
  armed := by
    intro fd event set
    cases set
  beyond := fun _ _ _ => rfl
  large := Nat.le_refl 32
  small := by
    have size : (IOManager.fresh : IOManager Sched Cb Fib).size = 32 := rfl
    omega

theorem alive_intact (state : Run (IOManager Sched Cb Fib)) (alive : Alive state) : Intact state := by
  cases state with
  | ok manager => exact alive.toConsistent
  | error fault => exact alive.elim

theorem operate_kept (manager : IOManager Sched Cb Fib) (label : Label Sched Cb Fib)
    (kept : Kept manager) (allowed : Allowed (.ok manager) label)
    (reported : Reported (.ok manager) label) :
    ∃ next, manager.operate label = .ok next ∧ Kept next := by
  cases label with
  | addEvent fd event scheduler cb caller state ctl =>
      obtain ⟨int, unset, rfl⟩ := allowed
      obtain ⟨code, next, added, kept'⟩ :=
        addEvent_kept fd event scheduler cb caller ctl kept int unset
      exact ⟨next, by rw [IOManager.operate, added, ok_bind], kept'⟩
  | delEvent fd event ctl => exact ⟨_, rfl, delEvent_kept fd event ctl kept⟩
  | cancelEvent fd event ctl =>
      obtain ⟨answer, next, canceled, kept'⟩ := cancelEvent_kept fd event ctl kept
      exact ⟨next, by rw [IOManager.operate, canceled, ok_bind], kept'⟩
  | cancelAll fd ctl =>
      obtain ⟨answer, next, canceled, kept'⟩ := cancelAll_kept fd ctl kept
      exact ⟨next, by rw [IOManager.operate, canceled, ok_bind], kept'⟩
  | dispatch fd revents ctl => exact dispatch_kept fd revents ctl kept allowed reported

theorem step_alive (state : Run (IOManager Sched Cb Fib)) (label : Label Sched Cb Fib)
    (next : Run (IOManager Sched Cb Fib)) (alive : Alive state) (allowed : Allowed state label)
    (reported : Reported state label) (taken : faulting IOManager.operate state label = some next) :
    Alive next := by
  cases state with
  | error fault => exact alive.elim
  | ok manager =>
      obtain ⟨after, operated, kept⟩ := operate_kept manager label alive allowed reported
      cases taken
      rw [operated]
      exact kept

theorem unreported_fails (state : Run (IOManager Sched Cb Fib)) (label : Label Sched Cb Fib)
    (alive : Alive state) (allowed : Allowed state label) (unreported : ¬ Reported state label) :
    ∃ next, faulting IOManager.operate state label = some next ∧ ¬ Intact next := by
  cases state with
  | error fault => exact alive.elim
  | ok manager =>
      cases label with
      | dispatch fd revents ctl =>
          simp only [Reported, Classical.not_imp, not_forall] at unreported
          obtain ⟨passed, event, wanted, unset⟩ := unreported
          have failed := dispatch_fails fd revents ctl alive allowed passed event wanted
            (by simpa using unset)
          refine ⟨.error .assertion, ?_, fun intact => intact rfl⟩
          rw [faulting, IOManager.operate, failed]
      | _ => exact absurd trivial unreported

/-- In a run of allowed calls and epoll results no assertion fails and the bookkeeping stays
consistent exactly when every dispatch that `idle` makes triggers registered events only. -/
theorem intact_iff_reported (labels : List (Label Sched Cb Fib))
    (allowed : Guarded (faulting IOManager.operate) Allowed (.ok IOManager.fresh) labels) :
    Always (faulting IOManager.operate) Intact (.ok IOManager.fresh) labels ↔
      Guarded (faulting IOManager.operate) Reported (.ok IOManager.fresh) labels :=
  always_iff_guarded_within step_alive alive_intact unreported_fails labels _ fresh_kept allowed

/-- A pipe of which only the read end is watched, closed by its writer. -/
def hungUp : List (Label Unit Unit Unit) :=
  [.addEvent 7 .read () none () .exec true, .dispatch 7 ⟨false, false, false, true⟩ true]

theorem hung_up_fails_assertion :
    ¬ ∀ labels : List (Label Unit Unit Unit),
      Guarded (faulting IOManager.operate) Allowed (.ok IOManager.fresh) labels →
        Always (faulting IOManager.operate) Intact (.ok IOManager.fresh) labels := by
  intro always_intact
  have intact := always_intact hungUp (by decide +kernel) hungUp [] (.error .assertion) (by simp) rfl
  exact intact rfl

/-- The same pipe becomes readable, is watched again and given up. -/
def readable : List (Label Unit Unit Unit) :=
  [.addEvent 7 .read () none () .exec true, .dispatch 7 ⟨true, false, false, false⟩ true,
    .addEvent 7 .read () (some ()) () .exec true, .cancelAll 7 true]

theorem readable_intact :
    Always (faulting IOManager.operate) Intact (.ok IOManager.fresh) readable :=
  (intact_iff_reported readable (by decide +kernel)).mpr (by decide +kernel)

end OtaMqtt.Sched.EventTable
