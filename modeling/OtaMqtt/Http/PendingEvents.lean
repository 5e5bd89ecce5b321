import OtaMqtt.Http.Server
import OtaMqtt.Lib.Tally

/-! `m_pendingEventCount` against the event bits of the table. -/

namespace OtaMqtt.Http.PendingEvents

open OtaMqtt.Lib.Execution OtaMqtt.Lib.Tally OtaMqtt.Lib.Trace
open OtaMqtt.Http.Server

variable {Cb Fib Sock : Type}

def bits (ctx : FdContext Cb Fib Sock) : Nat := (ctx.events .read).toNat + (ctx.events .write).toNat

def registered (server : HttpServer Cb Fib Sock) : Nat :=
  ∑ fd ∈ Finset.range server.size, bits (server.contexts fd)

/-- The counter is exact, so a stop is possible exactly when nothing is registered. -/
structure Exact (server : HttpServer Cb Fib Sock) : Prop where
  count : server.pendingEventCount = registered server
  idle : server.stopping (2 ^ 64 - 1) true = true ↔
    ∀ fd event, (server.contexts fd).events event = false

/-- What keeps the counter exact: `idle` triggers only events that are registered and not
persistent, and a context is reset only when nothing is registered in it. -/
def Balanced (server : HttpServer Cb Fib Sock) : Label Cb Fib Sock → Prop
  | .dispatch fd revents ctl =>
      fd < server.size → server.passes fd revents ctl = true → ∀ event, revents.real event = true →
        (server.contexts fd).events event = true ∧ ((server.contexts fd).slot event).persistent = false
  | .reset fd => fd < server.size → ∀ event, (server.contexts fd).events event = false
  | _ => True

/-- Contexts that were never used have no event bit; the table stays within `int`. -/
structure Tabled (server : HttpServer Cb Fib Sock) : Prop where
  beyond : ∀ fd event, server.size ≤ fd → (server.contexts fd).events event = false
  large : 32 ≤ server.size
  small : server.size ≤ 2 ^ 32

/-- The counter is `drift` short of the number of registered events. -/
def Drifted (server : HttpServer Cb Fib Sock) (drift : Nat) : Prop :=
  server.pendingEventCount = subSize (registered server) drift

theorem bits_le (ctx : FdContext Cb Fib Sock) : bits ctx ≤ 2 := events_le ctx.events

theorem registered_bound (server : HttpServer Cb Fib Sock) (tabled : Tabled server) :
    registered server < 2 ^ 34 := by
  have total : registered server ≤ server.size * 2 :=
    tally_le 2 fun fd => bits_le (server.contexts fd)
  have small := tabled.small
  omega

theorem bits_eq_zero (ctx : FdContext Cb Fib Sock) :
    bits ctx = 0 ↔ ∀ event, ctx.events event = false := by
  unfold bits
  rw [Nat.add_eq_zero_iff, Bool.toNat_eq_zero, Bool.toNat_eq_zero]
  constructor
  · intro both event
    cases event with
    | read => exact both.1
    | write => exact both.2
  · intro all
    exact ⟨all .read, all .write⟩

theorem registered_eq_zero (server : HttpServer Cb Fib Sock) (tabled : Tabled server) :
    registered server = 0 ↔ ∀ fd event, (server.contexts fd).events event = false := by
  unfold registered
  rw [Finset.sum_eq_zero_iff]
  constructor
  · intro none fd event
    by_cases inside : fd < server.size
    · exact (bits_eq_zero _).mp (none fd (Finset.mem_range.mpr inside)) event
    · exact tabled.beyond fd event (by omega)
  · intro all fd _
    exact (bits_eq_zero _).mpr (all fd)

theorem exact_of_drifted (server : HttpServer Cb Fib Sock) (tabled : Tabled server)
    (drifted : Drifted server 0) : Exact server := by
  have bound := registered_bound server tabled
  have count : server.pendingEventCount = registered server := by
    rw [drifted, subSize_of_le (Nat.zero_le _) (by omega), Nat.sub_zero]
  refine ⟨count, ?_⟩
  rw [← registered_eq_zero server tabled, ← count]
  simp [HttpServer.stopping]

theorem not_exact_of_drifted (server : HttpServer Cb Fib Sock) (tabled : Tabled server) (drift : Nat)
    (drifted : Drifted server drift) (positive : 0 < drift) (little : drift ≤ 2) : ¬ Exact server := by
  intro exact
  have bound := registered_bound server tabled
  have count := exact.count
  rw [drifted, subSize] at count
  omega

theorem registered_edit (server : HttpServer Cb Fib Sock) (fd : Nat) (ctx : FdContext Cb Fib Sock)
    (count : Nat) (entries : List (Entry Cb Fib)) (inside : fd < server.size) :
    registered (server.edit fd ctx count entries) + bits (server.contexts fd) =
      registered server + bits ctx := by
  have change := @tally_change server.size (fun other => bits (server.contexts other))
    (fun other => bits (Function.update server.contexts fd ctx other)) fd inside
    fun other different => congrArg bits (Function.update_of_ne different _ _)
  rw [Function.update_self] at change
  exact change

theorem edit_tabled (server : HttpServer Cb Fib Sock) (fd : Nat) (ctx : FdContext Cb Fib Sock)
    (count : Nat) (entries : List (Entry Cb Fib)) (inside : fd < server.size)
    (tabled : Tabled server) : Tabled (server.edit fd ctx count entries) where
  beyond := by
    intro other event past
    have different : other ≠ fd := by
      rintro rfl
      exact absurd inside (Nat.not_lt.mpr past)
    simp only [HttpServer.edit, Function.update_of_ne different]
    exact tabled.beyond other event past
  large := tabled.large
  small := tabled.small

theorem bits_clear (ctx next : FdContext Cb Fib Sock) (event : Event)
    (set : ctx.events event = true)
    (cleared : next.events = Function.update ctx.events event false) : bits next + 1 = bits ctx := by
  unfold bits
  rw [cleared]
  exact events_clear ctx.events event set

theorem bits_set (ctx next : FdContext Cb Fib Sock) (event : Event)
    (unset : ctx.events event = false)
    (raised : next.events = Function.update ctx.events event true) : bits next = bits ctx + 1 := by
  have back : ctx.events = Function.update next.events event false := by
    rw [raised, Function.update_idem, ← unset, Function.update_eq_self]
  exact (bits_clear next ctx event (by rw [raised, Function.update_self]) back).symm

def cleared (ctx : FdContext Cb Fib Sock) (event : Event) : Bool :=
  ctx.events event && !(ctx.slot event).persistent

theorem triggerEvent_events (ctx : FdContext Cb Fib Sock) (event : Event) :
    (ctx.triggerEvent event).2.events =
      if cleared ctx event then Function.update ctx.events event false else ctx.events := by
  unfold FdContext.triggerEvent cleared
  cases set : ctx.events event with
  | false => simp
  | true =>
      cases persistent : (ctx.slot event).persistent <;> cases (ctx.slot event).cb <;> simp

theorem fire_tabled (server : HttpServer Cb Fib Sock) (fd : Nat) (event : Event)
    (inside : fd < server.size) (tabled : Tabled server) : Tabled (server.fire fd event) :=
  edit_tabled server fd _ _ _ inside tabled

theorem subSize_step (before after drift taken : Nat) (total : before = after + taken)
    (one : taken ≤ 1) (little : drift ≤ 2) :
    subSize (subSize before drift) 1 = subSize after (drift + (1 - taken)) := by
  unfold subSize
  omega

theorem fire_drifted (server : HttpServer Cb Fib Sock) (fd : Nat) (event : Event) (drift : Nat)
    (inside : fd < server.size) (little : drift ≤ 2) (drifted : Drifted server drift) :
    Drifted (server.fire fd event)
      (drift + if cleared (server.contexts fd) event then 0 else 1) := by
  have total := registered_edit server fd ((server.contexts fd).triggerEvent event).2
    (subSize server.pendingEventCount 1)
    (((server.contexts fd).triggerEvent event).1.toList.map (.scheduled fd event)) inside
  have events := triggerEvent_events (server.contexts fd) event
  unfold Drifted
  rw [HttpServer.fire_eq]
  show subSize server.pendingEventCount 1 = _
  rw [drifted] at total ⊢
  cases taken : cleared (server.contexts fd) event with
  | true =>
      rw [taken, if_pos rfl] at events
      have set := (Bool.and_eq_true_iff.mp taken).1
      have fewer := bits_clear _ _ event set events
      exact subSize_step _ _ drift 1 (by omega) (Nat.le_refl 1) little
  | false =>
      rw [taken, if_neg (by decide)] at events
      have same : bits ((server.contexts fd).triggerEvent event).2 = bits (server.contexts fd) := by
        rw [bits, events, bits]
      exact subSize_step _ _ drift 0 (by omega) (Nat.zero_le 1) little

structure Kept (server : HttpServer Cb Fib Sock) : Prop where
  tabled : Tabled server
  exact : Drifted server 0

theorem fresh_kept (junk : Nat → Event → Bool) :
    Kept (HttpServer.fresh junk : HttpServer Cb Fib Sock) where
  tabled := ⟨fun _ _ _ => rfl, Nat.le_refl 32, by show 32 ≤ 2 ^ 32; omega⟩
  exact := by
    have none : registered (HttpServer.fresh junk : HttpServer Cb Fib Sock) = 0 :=
      Finset.sum_eq_zero fun _ _ => rfl
    unfold Drifted
    rw [none, subSize_of_le (Nat.le_refl 0) (by omega)]
    rfl

theorem contextResize_kept (server : HttpServer Cb Fib Sock) (fd : Nat) (kept : Kept server)
    (past : server.size ≤ fd) (int : fd < 2 ^ 31) :
    Kept (server.contextResize (fd * 3 / 2)) ∧ fd < fd * 3 / 2 := by
  have large := kept.tabled.large
  have beyond := kept.tabled.beyond
  have same : registered (server.contextResize (fd * 3 / 2)) = registered server := by
    apply tally_grow (fd * 3 / 2) (by omega)
    exact fun other far => (bits_eq_zero _).mpr fun event => beyond other event far
  refine ⟨⟨⟨?_, ?_, ?_⟩, ?_⟩, by omega⟩
  · intro other event far
    have wide : fd * 3 / 2 ≤ other := far
    exact beyond other event (by omega)
  · show 32 ≤ fd * 3 / 2
    omega
  · show fd * 3 / 2 ≤ 2 ^ 32
    omega
  · unfold Drifted
    rw [same]
    exact kept.exact

theorem edit_kept (server : HttpServer Cb Fib Sock) (fd : Nat) (ctx : FdContext Cb Fib Sock)
    (count : Nat) (entries : List (Entry Cb Fib)) (kept : Kept server) (inside : fd < server.size)
    (balance : count + bits (server.contexts fd) = server.pendingEventCount + bits ctx) :
    Kept (server.edit fd ctx count entries) := by
  have tabled := edit_tabled server fd ctx count entries inside kept.tabled
  refine ⟨tabled, ?_⟩
  have total := registered_edit server fd ctx count entries inside
  have bound := registered_bound _ tabled
  have count' := (exact_of_drifted server kept.tabled kept.exact).count
  unfold Drifted
  rw [subSize_of_le (Nat.zero_le _) (by omega)]
  show count = _
  omega

theorem pending_bound (server : HttpServer Cb Fib Sock) (fd : Nat) (kept : Kept server)
    (inside : fd < server.size) :
    bits (server.contexts fd) ≤ server.pendingEventCount ∧ server.pendingEventCount < 2 ^ 34 := by
  have bound := registered_bound server kept.tabled
  have count := (exact_of_drifted server kept.tabled kept.exact).count
  have within : bits (server.contexts fd) ≤ registered server :=
    @le_tally server.size (fun other => bits (server.contexts other)) fd inside
  omega

theorem addEvent_kept (server : HttpServer Cb Fib Sock) (fd : Nat) (event : Event)
    (sock : Option Sock) (cb : Option Cb) (caller : Fib) (persistent ctl : Bool)
    (kept : Kept server) (int : fd < 2 ^ 31) :
    Kept (server.addEvent fd event sock cb caller persistent ctl).2 := by
  obtain ⟨table, grown, contexts, -, outcome⟩ :=
    HttpServer.addEvent_cases server fd event sock cb caller persistent ctl
  have tableKept : Kept table ∧ fd < table.size := by
    by_cases inside : fd < server.size
    · rw [grown, if_pos inside]
      exact ⟨kept, inside⟩
    · rw [grown, if_neg inside]
      exact contextResize_kept server fd kept (by omega) int
  obtain ⟨tableKept, inside⟩ := tableKept
  rcases outcome with refused | ⟨unset, -, added⟩
  · rw [refused]
    exact tableKept
  · rw [added]
    have more := bits_set (table.contexts fd)
      ((table.contexts fd).register event sock cb caller persistent) event
      (by rw [contexts]; exact unset) rfl
    have bound := pending_bound table fd tableKept inside
    exact edit_kept table fd _ _ _ tableKept inside (by omega)

theorem delEvent_kept (server : HttpServer Cb Fib Sock) (fd : Nat) (event : Event) (ctl : Bool)
    (kept : Kept server) : Kept (server.delEvent fd event ctl).2 := by
  unfold HttpServer.delEvent
  dsimp only
  split
  · exact kept
  · split
    · exact kept
    · rename_i inside set
      split
      · have inside : fd < server.size := by omega
        have bound := pending_bound server fd kept inside
        have fewer := bits_clear (server.contexts fd) ((server.contexts fd).unregister event) event
          (by simpa using set) rfl
        have less : subSize server.pendingEventCount 1 = server.pendingEventCount - 1 :=
          subSize_of_le (by omega) (by omega)
        exact edit_kept server fd _ _ _ kept inside (by omega)
      · exact kept

theorem setPersistent_kept (server : HttpServer Cb Fib Sock) (fd : Nat) (event : Event)
    (kept : Kept server) (inside : fd < server.size) : Kept (server.setPersistent fd event) :=
  edit_kept server fd _ _ _ kept inside rfl

theorem setPersistent_cleared (server : HttpServer Cb Fib Sock) (fd : Nat) (event : Event)
    (set : (server.contexts fd).events event = true) :
    cleared ((server.setPersistent fd event).contexts fd) event = true := by
  simp [HttpServer.setPersistent, HttpServer.edit, FdContext.setPersistent, cleared, set]

theorem cancel_kept (server : HttpServer Cb Fib Sock) (fd : Nat) (event : Event)
    (kept : Kept server) (inside : fd < server.size)
    (set : (server.contexts fd).events event = true) :
    Kept ((server.setPersistent fd event).fire fd event) := by
  have prepared := setPersistent_kept server fd event kept inside
  refine ⟨fire_tabled _ fd event inside prepared.tabled, ?_⟩
  have fired := fire_drifted (server.setPersistent fd event) fd event 0 inside (Nat.zero_le 2)
    prepared.exact
  rw [setPersistent_cleared server fd event set] at fired
  exact fired

theorem cancelOne_kept (server : HttpServer Cb Fib Sock) (fd : Nat) (event : Event)
    (kept : Kept server) (inside : fd < server.size) :
    Kept (server.cancelOne fd event) ∧ (server.cancelOne fd event).size = server.size := by
  unfold HttpServer.cancelOne
  split
  · rename_i set
    exact ⟨cancel_kept server fd event kept inside set, rfl⟩
  · exact ⟨kept, rfl⟩

theorem dispatch_drifted (server : HttpServer Cb Fib Sock) (fd : Nat) (revents : EpollEvents)
    (ctl : Bool) (kept : Kept server) (inside : fd < server.size)
    (passed : server.passes fd revents ctl = true) :
    Tabled (server.dispatch fd revents ctl) ∧
      Drifted (server.dispatch fd revents ctl)
        ((if revents.real .read && !cleared (server.contexts fd) .read then 1 else 0) +
          if revents.real .write && !cleared (server.contexts fd) .write then 1 else 0) := by
  unfold HttpServer.dispatch
  rw [if_pos passed]
  have first : ∃ middle, (if revents.real .read then server.fire fd .read else server) = middle ∧
      Tabled middle ∧ middle.size = server.size ∧
      cleared (middle.contexts fd) .write = cleared (server.contexts fd) .write ∧
      Drifted middle (if revents.real .read && !cleared (server.contexts fd) .read then 1 else 0) := by
    cases reported : revents.real .read with
    | false => exact ⟨server, rfl, kept.tabled, rfl, rfl, kept.exact⟩
    | true =>
        refine ⟨_, rfl, fire_tabled server fd .read inside kept.tabled, rfl, ?_, ?_⟩
        · have other := (server.contexts fd).triggerEvent_other .read .write (by decide)
          rw [if_pos rfl, HttpServer.fire_eq]
          simp only [cleared, HttpServer.edit, Function.update_self, other.1, other.2]
        · have fired := fire_drifted server fd .read 0 inside (Nat.zero_le 2) kept.exact
          cases taken : cleared (server.contexts fd) .read <;> rw [taken] at fired <;> exact fired
  obtain ⟨middle, same, tabled, size, kept', drifted⟩ := first
  simp only [same]
  cases reported : revents.real .write with
  | false => exact ⟨tabled, drifted⟩
  | true =>
      refine ⟨fire_tabled middle fd .write (by omega) tabled, ?_⟩
      have fired := fire_drifted middle fd .write _ (by omega) (by split <;> omega) drifted
      rw [kept'] at fired
      rw [if_pos rfl]
      cases taken : cleared (server.contexts fd) .write <;> rw [taken] at fired <;> exact fired

theorem cancelEvent_kept (server : HttpServer Cb Fib Sock) (fd : Nat) (event : Event) (ctl : Bool)
    (kept : Kept server) : Kept (server.cancelEvent fd event ctl).2 := by
  unfold HttpServer.cancelEvent
  split
  · exact kept
  · split
    · exact kept
    · rename_i inside set
      split
      · exact cancel_kept server fd event kept (by omega) (by simpa using set)
      · exact kept

theorem cancelAll_kept (server : HttpServer Cb Fib Sock) (fd : Nat) (ctl : Bool)
    (kept : Kept server) : Kept (server.cancelAll fd ctl).2 := by
  unfold HttpServer.cancelAll
  dsimp only
  split
  · exact kept
  · split
    · exact kept
    · split
      · obtain ⟨once, size⟩ := cancelOne_kept server fd .read kept (by omega)
        exact (cancelOne_kept _ fd .write once (by omega)).1
      · exact kept

theorem dispatch_kept (server : HttpServer Cb Fib Sock) (fd : Nat) (revents : EpollEvents)
    (ctl : Bool) (kept : Kept server) (inside : fd < server.size)
    (balanced : Balanced server (.dispatch fd revents ctl)) :
    Kept (server.dispatch fd revents ctl) := by
  by_cases passed : server.passes fd revents ctl = true
  · obtain ⟨tabled, drifted⟩ := dispatch_drifted server fd revents ctl kept inside passed
    refine ⟨tabled, ?_⟩
    have exactly (event : Event) :
        (revents.real event && !cleared (server.contexts fd) event) = false := by
      cases reported : revents.real event with
      | false => rfl
      | true =>
          obtain ⟨set, once⟩ := balanced inside passed event reported
          simp [cleared, set, once]
    rw [exactly, exactly] at drifted
    exact drifted
  · rw [HttpServer.dispatch, if_neg passed]
    exact kept

theorem step_kept (server : HttpServer Cb Fib Sock) (label : Label Cb Fib Sock)
    (next : HttpServer Cb Fib Sock) (kept : Kept server) (balanced : Balanced server label)
    (taken : server.step label = some next) : Kept next := by
  cases label with
  | addEvent fd event sock cb caller persistent ctl =>
      rw [HttpServer.step] at taken
      split at taken
      · rename_i int
        cases taken
        exact addEvent_kept server fd event sock cb caller persistent ctl kept int
      · cases taken
  | delEvent fd event ctl =>
      cases taken
      exact delEvent_kept server fd event ctl kept
  | cancelEvent fd event ctl =>
      cases taken
      exact cancelEvent_kept server fd event ctl kept
  | cancelAll fd ctl =>
      cases taken
      exact cancelAll_kept server fd ctl kept
  | dispatch fd revents ctl =>
      rw [HttpServer.step] at taken
      split at taken
      · rename_i inside
        cases taken
        exact dispatch_kept server fd revents ctl kept inside balanced
      · cases taken
  | reset fd =>
      rw [HttpServer.step] at taken
      split at taken
      · rename_i inside
        cases taken
        have empty := (bits_eq_zero (server.contexts fd)).mpr (balanced inside)
        exact edit_kept server fd _ _ _ kept inside (by rw [empty]; rfl)
      · cases taken

theorem unbalanced_step (server : HttpServer Cb Fib Sock) (label : Label Cb Fib Sock)
    (kept : Kept server) (unbalanced : ¬ Balanced server label) :
    ∃ next, server.step label = some next ∧ ¬ Exact next := by
  cases label with
  | addEvent fd event sock cb caller persistent ctl => exact absurd trivial unbalanced
  | delEvent fd event ctl => exact absurd trivial unbalanced
  | cancelEvent fd event ctl => exact absurd trivial unbalanced
  | cancelAll fd ctl => exact absurd trivial unbalanced
  | dispatch fd revents ctl =>
      simp only [Balanced, Classical.not_imp, not_forall] at unbalanced
      obtain ⟨inside, passed, event, reported, wrong⟩ := unbalanced
      refine ⟨server.dispatch fd revents ctl, by rw [HttpServer.step, if_pos inside], ?_⟩
      obtain ⟨tabled, drifted⟩ := dispatch_drifted server fd revents ctl kept inside passed
      have missed : (revents.real event && !cleared (server.contexts fd) event) = true := by
        rw [reported, Bool.true_and, Bool.not_eq_true']
        by_contra taken
        apply wrong
        simpa [cleared] using taken
      apply not_exact_of_drifted _ tabled _ drifted
      · cases event with
        | read =>
            rw [missed, if_pos rfl]
            omega
        | write =>
            rw [missed, if_pos rfl]
            omega
      · split <;> split <;> omega
  | reset fd =>
      simp only [Balanced, Classical.not_imp, not_forall] at unbalanced
      obtain ⟨inside, event, set⟩ := unbalanced
      refine ⟨server.resetFd fd, by rw [HttpServer.step, if_pos inside], ?_⟩
      intro exact
      have total := registered_edit server fd (server.contexts fd).reset server.pendingEventCount []
        inside
      have empty : bits (server.contexts fd).reset = 0 := (bits_eq_zero _).mpr fun _ => rfl
      have some : bits (server.contexts fd) ≠ 0 := by
        intro zero
        exact set ((bits_eq_zero _).mp zero event)
      have before := (exact_of_drifted server kept.tabled kept.exact).count
      have after : server.pendingEventCount = registered (server.resetFd fd) := exact.count
      unfold HttpServer.resetFd at after
      omega

/-- The counter is exact in every state of a run exactly when every step of it is balanced. -/
theorem exact_always_iff_balanced (junk : Nat → Event → Bool) (labels : List (Label Cb Fib Sock)) :
    Always HttpServer.step Exact (HttpServer.fresh junk) labels ↔
      Guarded HttpServer.step Balanced (HttpServer.fresh junk) labels :=
  always_iff_guarded step_kept (fun server kept => exact_of_drifted server kept.tabled kept.exact)
    unbalanced_step labels (HttpServer.fresh junk) (fresh_kept junk)

/-- The listening socket: registered as persistent, it is readable once. -/
def acceptOnce : List (Label Unit Unit Unit) :=
  [.addEvent 3 .read (some ()) (some ()) () true true, .dispatch 3 ⟨true, false, false, false⟩ true]

/-- One accepted connection, and nothing is counted while the listener is registered. -/
theorem listener_uncounted :
    ¬ ∀ (junk : Nat → Event → Bool) (labels : List (Label Unit Unit Unit)),
      Always HttpServer.step Exact (HttpServer.fresh junk) labels := by
  intro always_exact
  have exact := always_exact (fun _ _ => false) acceptOnce acceptOnce [] _ (by simp) rfl
  have idle := exact.idle.mp (by decide +kernel) 3 .read
  revert idle
  decide +kernel

end OtaMqtt.Http.PendingEvents
