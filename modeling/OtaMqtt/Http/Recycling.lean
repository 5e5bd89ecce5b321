import OtaMqtt.Http.Server

/-! Deferred resets against descriptor numbers that the kernel hands out again.

Connections are numbered in the order of their `accept`; sockets, callbacks and fibers are
named by the connection they belong to. -/

namespace OtaMqtt.Http.Recycling

open OtaMqtt.Lib.Trace
open OtaMqtt.Http.Server

/-- `holder` is the kernel's view of the open descriptors. An entry of `resetQueue` is the
context pushed by `regist_event`, given by its descriptor, with the connection that was
closed; in `closing` are those whose READ callback stands between the two. `wiped` lists
the entries whose reset found something of a newer connection. -/
structure Site where
  server : HttpServer Nat Nat Nat
  holder : Nat → Option Nat
  accepted : Nat
  closing : List (Nat × Nat)
  resetQueue : List (Nat × Nat)
  wiped : List (Nat × Nat)

inductive Action where
  | accept (fd : Nat) (ctl : Bool)
  | addEvent (fd : Nat) (event : Event) (ctl : Bool)
  | dispatch (fd : Nat) (revents : EpollEvents) (ctl : Bool)
  | close (fd : Nat)
  | push (entry : Nat × Nat)
  | reset

/-- The socket, a callback or a fiber in the context belongs to a newer connection. An event
bit that a connection registers comes with its socket. -/
def newer (ctx : FdContext Nat Nat Nat) (connection : Nat) : Bool :=
  ctx.sock.any (connection < ·) ||
    (ctx.slot .read).cb.any (connection < ·) || (ctx.slot .read).fiber.any (connection < ·) ||
    (ctx.slot .write).cb.any (connection < ·) || (ctx.slot .write).fiber.any (connection < ·)

namespace Site

def fresh (junk : Nat → Event → Bool) : Site :=
  ⟨HttpServer.fresh junk, fun _ => none, 0, [], [], []⟩

/-- A registration made by the connection that holds `fd`. -/
def register (site : Site) (fd connection : Nat) (event : Event) (ctl : Bool) : Site :=
  { site with
    server := (site.server.addEvent fd event (some connection) (some connection) connection false ctl).2 }

/-- The steps: the accept callback of `start`, the registrations of `handleClient`, of the
session and of its sends, a dispatch of `idle`, the READ callback that sees its peer gone
(it closes the socket and then pushes the context), and one turn of the reset loop of
`idle`. -/
def step (site : Site) : Action → Option Site
  | .accept fd ctl =>
      if fd < 2 ^ 31 ∧ site.holder fd = none then
        let connection := site.accepted + 1
        some (register { site with
          holder := Function.update site.holder fd (some connection)
          accepted := connection } fd connection .read ctl)
      else none
  | .addEvent fd event ctl =>
      (site.holder fd).map fun connection => site.register fd connection event ctl
  | .dispatch fd revents ctl =>
      if fd < site.server.size then
        some { site with server := site.server.dispatch fd revents ctl }
      else none
  | .close fd =>
      (site.holder fd).map fun connection => { site with
        holder := Function.update site.holder fd none
        closing := (fd, connection) :: site.closing }
  | .push entry =>
      if entry ∈ site.closing then some { site with
        closing := site.closing.erase entry
        resetQueue := site.resetQueue ++ [entry] }
      else none
  | .reset =>
      match site.resetQueue with
      | [] => none
      | (fd, connection) :: queue => some { site with
          server := site.server.resetFd fd
          resetQueue := queue
          wiped := if newer (site.server.contexts fd) connection
            then (fd, connection) :: site.wiped else site.wiped }

end Site

/-- `accept` returns no descriptor whose context is about to be queued or still waits for
its reset. -/
def Unqueued (site : Site) : Action → Prop
  | .accept fd _ => ∀ entry ∈ site.closing ++ site.resetQueue, entry.1 ≠ fd
  | _ => True

instance (site : Site) : (action : Action) → Decidable (Unqueued site action)
  | .accept fd _ =>
      inferInstanceAs (Decidable (∀ entry ∈ site.closing ++ site.resetQueue, entry.1 ≠ fd))
  | .addEvent _ _ _ => .isTrue trivial
  | .dispatch _ _ _ => .isTrue trivial
  | .close _ => .isTrue trivial
  | .push _ => .isTrue trivial
  | .reset => .isTrue trivial

structure UpTo (connection : Nat) (ctx : FdContext Nat Nat Nat) : Prop where
  sock : ∀ owner ∈ ctx.sock, owner ≤ connection
  cb : ∀ event, ∀ owner ∈ (ctx.slot event).cb, owner ≤ connection
  fiber : ∀ event, ∀ owner ∈ (ctx.slot event).fiber, owner ≤ connection

theorem UpTo.mono {connection later : Nat} {ctx : FdContext Nat Nat Nat}
    (upTo : UpTo connection ctx) (order : connection ≤ later) : UpTo later ctx where
  sock owner member := (upTo.sock owner member).trans order
  cb event owner member := (upTo.cb event owner member).trans order
  fiber event owner member := (upTo.fiber event owner member).trans order

theorem UpTo.not_newer {connection : Nat} {ctx : FdContext Nat Nat Nat}
    (upTo : UpTo connection ctx) : newer ctx connection = false := by
  have small (owner : Option Nat) (bound : ∀ other ∈ owner, other ≤ connection) :
      owner.any (connection < ·) = false := by
    cases owner with
    | none => rfl
    | some other => simpa using bound other rfl
  simp only [newer, small _ upTo.sock, small _ (upTo.cb _), small _ (upTo.fiber _), Bool.or_false]

theorem triggerEvent_upTo (connection : Nat) (ctx : FdContext Nat Nat Nat) (event : Event)
    (upTo : UpTo connection ctx) : UpTo connection (ctx.triggerEvent event).2 := by
  unfold FdContext.triggerEvent
  split
  · dsimp only
    split
    · exact ⟨upTo.sock, upTo.cb, upTo.fiber⟩
    · refine ⟨upTo.sock, fun other => ?_, fun other => ?_⟩
      · by_cases same : other = event
        · subst same
          simp only [Function.update_self]
          exact upTo.cb other
        · simp only [Function.update_of_ne same]
          exact upTo.cb other
      · by_cases same : other = event
        · subst same
          simp
        · simp only [Function.update_of_ne same]
          exact upTo.fiber other
  · exact upTo

theorem register_upTo (owner connection : Nat) (ctx : FdContext Nat Nat Nat) (event : Event)
    (upTo : UpTo connection ctx) (order : owner ≤ connection) :
    UpTo connection (ctx.register event (some owner) (some owner) owner false) := by
  refine ⟨by simpa [FdContext.register] using order, fun other => ?_, fun other => ?_⟩
  · by_cases same : other = event
    · subst same
      simpa [FdContext.register] using order
    · simp only [FdContext.register, Function.update_of_ne same]
      exact upTo.cb other
  · by_cases same : other = event
    · subst same
      simp only [FdContext.register, Function.update_self]
      exact upTo.fiber other
    · simp only [FdContext.register, Function.update_of_ne same]
      exact upTo.fiber other

theorem reset_upTo (connection : Nat) (ctx : FdContext Nat Nat Nat) : UpTo connection ctx.reset := by
  refine ⟨by simp [FdContext.reset], fun event => ?_, fun event => ?_⟩ <;>
    cases event <;> simp [FdContext.reset, FdContext.resetContext, Function.update]

theorem edit_contexts (server : HttpServer Nat Nat Nat) (fd other connection count : Nat)
    (ctx : FdContext Nat Nat Nat) (entries : List (Entry Nat Nat))
    (here : other = fd → UpTo connection ctx) (there : UpTo connection (server.contexts other)) :
    UpTo connection ((server.edit fd ctx count entries).contexts other) := by
  simp only [HttpServer.edit]
  by_cases same : other = fd
  · rw [same, Function.update_self]
    exact here same
  · rw [Function.update_of_ne same]
    exact there

theorem fire_upTo (server : HttpServer Nat Nat Nat) (fd other connection : Nat) (event : Event)
    (upTo : UpTo connection (server.contexts other)) :
    UpTo connection ((server.fire fd event).contexts other) := by
  rw [HttpServer.fire_eq]
  apply edit_contexts server fd other connection _ _ _ _ upTo
  rintro rfl
  exact triggerEvent_upTo connection _ event upTo

theorem dispatch_upTo (server : HttpServer Nat Nat Nat) (fd other connection : Nat)
    (revents : EpollEvents) (ctl : Bool) (upTo : UpTo connection (server.contexts other)) :
    UpTo connection ((server.dispatch fd revents ctl).contexts other) := by
  unfold HttpServer.dispatch
  have first : UpTo connection
      ((if revents.real .read then server.fire fd .read else server).contexts other) := by
    split
    · exact fire_upTo server fd other connection .read upTo
    · exact upTo
  split
  · dsimp only
    split
    · exact fire_upTo _ fd other connection .write first
    · exact first
  · exact upTo

theorem resetFd_upTo (server : HttpServer Nat Nat Nat) (fd other connection : Nat)
    (upTo : UpTo connection (server.contexts other)) :
    UpTo connection ((server.resetFd fd).contexts other) :=
  edit_contexts server fd other connection _ _ _ (fun _ => reset_upTo connection _) upTo

theorem register_site_upTo (site : Site) (fd other owner connection : Nat) (event : Event) (ctl : Bool)
    (upTo : UpTo connection (site.server.contexts other)) (order : other = fd → owner ≤ connection) :
    UpTo connection ((site.register fd owner event ctl).server.contexts other) := by
  obtain ⟨table, -, contexts, -, outcome⟩ :=
    HttpServer.addEvent_cases site.server fd event (some owner) (some owner) owner false ctl
  rw [← contexts] at upTo
  unfold Site.register
  dsimp only
  rcases outcome with refused | ⟨-, -, added⟩
  · rw [refused]
    exact upTo
  · rw [added]
    apply edit_contexts table fd other connection _ _ _ _ upTo
    rintro rfl
    exact register_upTo owner connection _ event upTo (order rfl)

/-- Between steps: what an open descriptor's context holds is no newer than its holder, and
what waits for a reset is closed and holds nothing newer than the connection it was. -/
structure Tidy (site : Site) : Prop where
  clean : site.wiped = []
  known : ∀ fd, UpTo site.accepted (site.server.contexts fd)
  held : ∀ fd connection, site.holder fd = some connection →
    UpTo connection (site.server.contexts fd) ∧ connection ≤ site.accepted
  queued : ∀ entry ∈ site.closing ++ site.resetQueue,
    site.holder entry.1 = none ∧ UpTo entry.2 (site.server.contexts entry.1)

theorem fresh_tidy (junk : Nat → Event → Bool) : Tidy (Site.fresh junk) where
  clean := rfl
  known := by
    intro fd
    exact ⟨by simp [Site.fresh, HttpServer.fresh, FdContext.fresh],
      by simp [Site.fresh, HttpServer.fresh, FdContext.fresh],
      by simp [Site.fresh, HttpServer.fresh, FdContext.fresh]⟩
  held := by
    intro fd connection holds
    cases holds
  queued := by simp [Site.fresh]

theorem accept_tidy (site : Site) (fd : Nat) (ctl : Bool) (tidy : Tidy site)
    (free : site.holder fd = none) (unqueued : ∀ entry ∈ site.closing ++ site.resetQueue, entry.1 ≠ fd) :
    Tidy (Site.register { site with
      holder := Function.update site.holder fd (some (site.accepted + 1))
      accepted := site.accepted + 1 } fd (site.accepted + 1) .read ctl) where
  clean := tidy.clean
  known := by
    intro other
    exact register_site_upTo _ fd other _ _ .read ctl ((tidy.known other).mono (Nat.le_succ _))
      (fun _ => Nat.le_refl _)
  held := by
    intro other connection holds
    by_cases same : other = fd
    · subst same
      have mine : Function.update site.holder other (some (site.accepted + 1)) other =
        some connection := holds
      rw [Function.update_self] at mine
      cases mine
      exact ⟨register_site_upTo _ other other _ _ .read ctl ((tidy.known other).mono (Nat.le_succ _))
        (fun _ => Nat.le_refl _), Nat.le_refl _⟩
    · have before : Function.update site.holder fd (some (site.accepted + 1)) other =
        some connection := holds
      rw [Function.update_of_ne same] at before
      obtain ⟨upTo, order⟩ := tidy.held other connection before
      exact ⟨register_site_upTo _ fd other _ _ .read ctl upTo (fun equal => absurd equal same),
        Nat.le_succ_of_le order⟩
  queued := by
    intro entry member
    have apart := unqueued entry member
    obtain ⟨closed, upTo⟩ := tidy.queued entry member
    exact ⟨(Function.update_of_ne apart ..).trans closed,
      register_site_upTo _ fd entry.1 _ _ .read ctl upTo (fun equal => absurd equal apart)⟩

theorem addEvent_tidy (site : Site) (fd connection : Nat) (event : Event) (ctl : Bool)
    (tidy : Tidy site) (holds : site.holder fd = some connection) :
    Tidy (site.register fd connection event ctl) where
  clean := tidy.clean
  known := by
    intro other
    exact register_site_upTo site fd other _ _ event ctl (tidy.known other)
      (fun _ => (tidy.held fd connection holds).2)
  held := by
    intro other owner holds'
    obtain ⟨upTo, order⟩ := tidy.held other owner holds'
    refine ⟨register_site_upTo site fd other _ _ event ctl upTo ?_, order⟩
    rintro rfl
    have same : some owner = some connection := holds'.symm.trans holds
    cases same
    exact Nat.le_refl _
  queued := by
    intro entry member
    obtain ⟨closed, upTo⟩ := tidy.queued entry member
    refine ⟨closed, register_site_upTo site fd entry.1 _ _ event ctl upTo ?_⟩
    rintro rfl
    rw [closed] at holds
    cases holds

theorem close_tidy (site : Site) (fd connection : Nat) (tidy : Tidy site)
    (holds : site.holder fd = some connection) :
    Tidy { site with
      holder := Function.update site.holder fd none
      closing := (fd, connection) :: site.closing } where
  clean := tidy.clean
  known := tidy.known
  held := by
    intro other owner holds'
    by_cases same : other = fd
    · subst same
      simp at holds'
    · simp only [Function.update_of_ne same] at holds'
      exact tidy.held other owner holds'
  queued := by
    intro entry member
    rcases List.mem_cons.mp member with rfl | old
    · exact ⟨Function.update_self .., (tidy.held fd connection holds).1⟩
    · obtain ⟨closed, upTo⟩ := tidy.queued entry old
      have apart : entry.1 ≠ fd := by
        rintro rfl
        rw [closed] at holds
        cases holds
      exact ⟨(Function.update_of_ne apart ..).trans closed, upTo⟩

theorem step_tidy (site : Site) (action : Action) (next : Site) (tidy : Tidy site)
    (unqueued : Unqueued site action) (taken : site.step action = some next) : Tidy next := by
  cases action with
  | accept fd ctl =>
      rw [Site.step] at taken
      split at taken
      · rename_i free
        cases taken
        exact accept_tidy site fd ctl tidy free.2 unqueued
      · cases taken
  | addEvent fd event ctl =>
      obtain ⟨connection, holds, rfl⟩ := Option.map_eq_some_iff.mp taken
      exact addEvent_tidy site fd connection event ctl tidy holds
  | dispatch fd revents ctl =>
      rw [Site.step] at taken
      split at taken
      · cases taken
        refine ⟨tidy.clean, fun other => ?_, fun other connection holds => ?_, fun entry member => ?_⟩
        · exact dispatch_upTo _ fd other _ revents ctl (tidy.known other)
        · obtain ⟨upTo, order⟩ := tidy.held other connection holds
          exact ⟨dispatch_upTo _ fd other _ revents ctl upTo, order⟩
        · obtain ⟨closed, upTo⟩ := tidy.queued entry member
          exact ⟨closed, dispatch_upTo _ fd entry.1 _ revents ctl upTo⟩
      · cases taken
  | close fd =>
      obtain ⟨connection, holds, rfl⟩ := Option.map_eq_some_iff.mp taken
      exact close_tidy site fd connection tidy holds
  | push entry =>
      rw [Site.step] at taken
      split at taken
      · rename_i closing
        cases taken
        refine ⟨tidy.clean, tidy.known, tidy.held, fun other member => tidy.queued other ?_⟩
        simp only [List.mem_append, List.mem_singleton] at member ⊢
        rcases member with rest | queued | rfl
        · exact .inl (List.mem_of_mem_erase rest)
        · exact .inr queued
        · exact .inl closing
      · cases taken
  | reset =>
      rw [Site.step] at taken
      split at taken
      · cases taken
      · rename_i fd connection queue shape
        cases taken
        have waiting := tidy.queued
        rw [shape] at waiting
        have intact := (waiting (fd, connection) (by simp)).2.not_newer
        refine ⟨?_, fun other => ?_, fun other owner holds => ?_, fun entry member => ?_⟩
        · simp only [intact, Bool.false_eq_true, if_false]
          exact tidy.clean
        · exact resetFd_upTo _ fd other _ (tidy.known other)
        · obtain ⟨upTo, order⟩ := tidy.held other owner holds
          exact ⟨resetFd_upTo _ fd other _ upTo, order⟩
        · obtain ⟨closed, upTo⟩ := waiting entry (by
            rcases List.mem_append.mp member with closing | queued
            · exact List.mem_append_left _ closing
            · exact List.mem_append_right _ (List.mem_cons_of_mem _ queued))
          exact ⟨closed, resetFd_upTo _ fd entry.1 _ upTo⟩

def readable : EpollEvents := ⟨true, false, false, false⟩

/-- A connection on descriptor 5 is served until its peer closes it. -/
def visit (connection : Nat) : List Action :=
  [.accept 5 true, .dispatch 5 readable true, .addEvent 5 .read true, .dispatch 5 readable true,
    .close 5, .push (5, connection)]

end OtaMqtt.Http.Recycling
