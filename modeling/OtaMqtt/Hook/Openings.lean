import OtaMqtt.Hook.UserMode

/-! Which opening of a number its context was made for. -/

namespace OtaMqtt.Hook.Openings

open OtaMqtt.Lib.Trace OtaMqtt.Hook.UserMode

/-- The calls that open and close numbers, by threads with the hook on or off. `file` is any
call that opens something else than a socket. -/
inductive Call where
  | socket (hooked : Bool) (fd : Nat) (flags : BitVec 32)
  | accept (hooked : Bool) (fd : Nat) (flags : BitVec 32)
  | file (fd : Nat) (flags : BitVec 32)
  | close (hooked : Bool) (fd : Nat)
  deriving DecidableEq, Repr

/-- The kernel hands out free numbers only. -/
def step (system : System) : Call → Option System
  | .socket hooked fd flags =>
      if (system.files fd).isNone then some (system.socket hooked fd flags) else none
  | .accept _ fd flags => if (system.files fd).isNone then some (system.accept fd flags) else none
  | .file fd flags => if (system.files fd).isNone then some (system.opened fd false flags) else none
  | .close hooked fd => some (system.close hooked fd)

/-- The context was made for this opening, with the fields that `init` gave it, and a socket
is non-blocking in the kernel. -/
structure Describes (ctx : FdCtx) (file : File) : Prop where
  opening : ctx.opening = some file.opening
  isSocket : ctx.isSocket = file.isSocket
  userNonblock : ctx.userNonblock = false
  recvTimeout : ctx.recvTimeout = -1
  sendTimeout : ctx.sendTimeout = -1
  kernel : ctx.isSocket → isNonblock file.flags

/-- The contexts of the open numbers describe what is open there. -/
def Current (system : System) : Prop :=
  ∀ fd file ctx, system.files fd = some file → system.manager.get fd = some ctx → Describes ctx file

def Call.opens : Call → Option Nat
  | socket _ fd _ => some fd
  | accept _ fd _ => some fd
  | file fd _ => some fd
  | close _ _ => none

/-- A call that opens no number under which a context is left. -/
def Clean (system : System) (call : Call) : Prop :=
  ∀ fd, call.opens = some fd → system.files fd = none → system.manager.get fd = none

/-- Openings are numbered in order, and contexts were made for earlier ones. -/
structure Kept (system : System) : Prop where
  current : Current system
  past : ∀ fd ctx number, system.manager.get fd = some ctx → ctx.opening = some number →
    number < system.openings

theorem kept_fresh : Kept .fresh where
  current := by
    intro fd file ctx found
    cases found
  past := by
    intro fd ctx number found
    rw [System.fresh, FdManager.get_fresh] at found
    cases found

theorem init_describes (file : File) : ∃ made, (FdCtx.init (some file)).2 = some made ∧
    Describes (FdCtx.init (some file)).1 made := by
  by_cases socket : file.isSocket
  · simp only [FdCtx.init, socket, if_true]
    refine ⟨_, rfl, ?_, ?_, rfl, rfl, rfl, ?_⟩
    · split <;> rfl
    · split <;> simp [File.setFlags, socket]
    · intro _
      split
      · assumption
      · simp
  · simp only [FdCtx.init, socket]
    refine ⟨file, rfl, rfl, by simp [socket], rfl, rfl, rfl, ?_⟩
    intro is_socket
    cases is_socket

section
variable {system : System} {fd : Nat}

theorem opened_kept (kept : Kept system) (isSocket : Bool) (flags : BitVec 32)
    (clean : system.manager.get fd = none) : Kept (system.opened fd isSocket flags) := by
  constructor
  · intro other file ctx found made
    by_cases same : other = fd
    · subst same
      rw [System.opened, clean] at made
      cases made
    · simp only [System.opened, Function.update_of_ne same] at found
      exact kept.current other file ctx found made
  · intro other ctx number made opening
    exact Nat.lt_succ_of_lt (kept.past other ctx number made opening)

theorem autoCreate_kept (kept : Kept system) {file : File} (there : system.files fd = some file)
    (known : file.opening < system.openings) : Kept (system.autoCreate fd) := by
  rw [System.autoCreate]
  cases found : system.manager.get fd with
  | some ctx => exact kept
  | none =>
      obtain ⟨made, stored, describes⟩ := init_describes file
      have opening : (FdCtx.init (some file)).1.opening = some file.opening := by
        rw [FdCtx.init]
        split <;> rfl
      constructor
      · intro other other_file ctx is_open is_made
        by_cases same : other = fd
        · subst same
          simp only [there, Function.update_self, stored, FdManager.get_store, if_true] at is_open is_made
          cases is_open
          cases is_made
          exact describes
        · simp only [Function.update_of_ne same, FdManager.get_store, if_neg same] at is_open is_made
          exact kept.current other other_file ctx is_open is_made
      · intro other ctx number is_made is_opening
        by_cases same : other = fd
        · subst same
          simp only [there, FdManager.get_store, if_true] at is_made
          cases is_made
          rw [opening] at is_opening
          cases is_opening
          exact known
        · simp only [FdManager.get_store, if_neg same] at is_made
          exact kept.past other ctx number is_made is_opening

theorem accept_kept (kept : Kept system) (flags : BitVec 32) (clean : system.manager.get fd = none) :
    Kept (system.accept fd flags) :=
  autoCreate_kept (opened_kept kept true flags clean) (Function.update_self ..) (Nat.lt_succ_self _)

theorem close_kept (kept : Kept system) (hooked : Bool) (fd : Nat) :
    Kept (system.close hooked fd) := by
  have less : ∀ other ctx, (system.close hooked fd).manager.get other = some ctx →
      system.manager.get other = some ctx := by
    intro other ctx made
    rw [System.close] at made
    split at made
    · rw [FdManager.get_del] at made
      split at made
      · cases made
      · exact made
    · exact made
  constructor
  · intro other file ctx found made
    by_cases same : other = fd
    · subst same
      simp [System.close] at found
    · have kept_file : system.files other = some file := by
        rw [System.close] at found
        simp only [Function.update_of_ne same] at found
        split at found <;> exact found
      exact kept.current other file ctx kept_file (less other ctx made)
  · intro other ctx number made opening
    have count : (system.close hooked fd).openings = system.openings := by
      rw [System.close]
      split <;> rfl
    rw [count]
    exact kept.past other ctx number (less other ctx made) opening

end

theorem step_kept (system : System) (call : Call) (next : System) (kept : Kept system)
    (clean : Clean system call) (taken : step system call = some next) : Kept next := by
  cases call with
  | socket hooked fd flags =>
      obtain ⟨free, ⟨⟩⟩ := Option.ite_none_right_eq_some.mp taken
      have unmade := clean fd rfl (Option.isNone_iff_eq_none.mp free)
      cases hooked with
      | true => exact accept_kept kept flags unmade
      | false => exact opened_kept kept true flags unmade
  | accept hooked fd flags =>
      obtain ⟨free, ⟨⟩⟩ := Option.ite_none_right_eq_some.mp taken
      exact accept_kept kept flags (clean fd rfl (Option.isNone_iff_eq_none.mp free))
  | file fd flags =>
      obtain ⟨free, ⟨⟩⟩ := Option.ite_none_right_eq_some.mp taken
      exact opened_kept kept false flags (clean fd rfl (Option.isNone_iff_eq_none.mp free))
  | close hooked fd =>
      cases taken
      exact close_kept kept hooked fd

theorem stale_not_current {system next : System} {fd : Nat} {ctx : FdCtx} {file : File}
    (kept : Kept system) (left : system.manager.get fd = some ctx)
    (same : next.manager.get fd = some ctx) (opened : next.files fd = some file)
    (new : file.opening = system.openings) : ¬ Current next := by
  intro current
  have opening := (current fd file ctx opened same).opening
  rw [new] at opening
  exact Nat.lt_irrefl _ (kept.past fd ctx _ left opening)

theorem autoCreate_stale {system : System} {fd : Nat} {ctx : FdCtx}
    (left : system.manager.get fd = some ctx) : system.autoCreate fd = system := by
  rw [System.autoCreate, left]

theorem unclean_not_current (system : System) (call : Call) (kept : Kept system)
    (unclean : ¬ Clean system call) : ∃ next, step system call = some next ∧ ¬ Current next := by
  simp only [Clean, not_forall] at unclean
  obtain ⟨fd, opens, free, left⟩ := unclean
  obtain ⟨ctx, left⟩ := Option.ne_none_iff_exists'.mp left
  have stays : ∀ isSocket flags, (system.opened fd isSocket flags).autoCreate fd =
      system.opened fd isSocket flags := fun isSocket flags => autoCreate_stale left
  have wrong : ∀ isSocket flags, ¬ Current (system.opened fd isSocket flags) :=
    fun isSocket flags => stale_not_current kept left left (Function.update_self ..) rfl
  cases call with
  | socket hooked other flags =>
      cases opens
      refine ⟨_, if_pos (by rw [free]; rfl), ?_⟩
      cases hooked with
      | true =>
          rw [System.socket, if_pos rfl, stays]
          exact wrong true flags
      | false => exact wrong true flags
  | accept hooked other flags =>
      cases opens
      refine ⟨_, if_pos (by rw [free]; rfl), ?_⟩
      rw [System.accept, stays]
      exact wrong true flags
  | file other flags =>
      cases opens
      exact ⟨_, if_pos (by rw [free]; rfl), wrong false flags⟩
  | close hooked other => cases opens

/-- Contexts are current throughout a run exactly when no number is opened under which a
context is left. -/
theorem current_iff_clean (calls : List Call) :
    Always step Current .fresh calls ↔ Guarded step Clean .fresh calls :=
  always_iff_guarded step_kept (fun _ kept => kept.current) unclean_not_current calls _ kept_fresh

/-- A thread with the hook on opens a socket, one with the hook off closes it, and the number
goes to a file. -/
theorem unhooked_close_not_current :
    ¬ Always step Current .fresh [.socket true 3 2, .close false 3, .file 3 0] := by
  intro always
  have current := always _ [] _ (List.append_nil _) rfl
  have describes := current 3 ⟨1, false, 0⟩ ⟨some 0, true, true, true, false, false, -1, -1⟩
    (by decide) (by decide)
  cases describes.isSocket

end OtaMqtt.Hook.Openings
