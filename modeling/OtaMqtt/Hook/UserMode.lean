import OtaMqtt.Hook.FdManager
import OtaMqtt.Lib.Trace

/-! The blocking mode of a hooked socket, as the kernel has it and as the user sees it. -/

namespace OtaMqtt.Hook.UserMode

open OtaMqtt.Lib.Trace

inductive Request where
  | setfl (arg : BitVec 32) (accepted : Bool)
  | getfl
  | fionbio (value : BitVec 32) (accepted : Bool)
  deriving DecidableEq, Repr

/-- The system, and whether the last request for a mode asked for a non-blocking one. -/
structure Mode where
  system : System
  asked : Bool

/-- One call on `fd`. -/
def step (fd : Nat) (mode : Mode) : Request → Option Mode
  | .setfl arg accepted => some ⟨mode.system.fcntlSetfl fd arg accepted, isNonblock arg⟩
  | .getfl => some mode
  | .fionbio value accepted => some ⟨mode.system.ioctlFionbio fd value accepted, value ≠ 0⟩

/-- The kernel has the mode that the context relies on, and `F_GETFL` the one asked for. -/
structure Faithful (fd : Nat) (mode : Mode) : Prop where
  kernel : ∀ file ctx, mode.system.files fd = some file → mode.system.manager.get fd = some ctx →
    ctx.sysNonblock → isNonblock file.flags
  reported : isNonblock (mode.system.fcntlGetfl fd) = mode.asked

/-- The context under `fd` was made for the socket that is open there. -/
def Attached (system : System) (fd : Nat) : Prop :=
  ∃ socket : File, socket.isSocket ∧ system.files fd = (FdCtx.init (some socket)).2 ∧
    system.manager.get fd = some (FdCtx.init (some socket)).1

/-- A request that does not ask the kernel for blocking through `ioctl`, or is refused. -/
def Translated (_ : Mode) : Request → Prop
  | .fionbio value accepted => value = 0 → accepted = false
  | _ => True

/-- What a call keeps: the context stands for a socket that is not blocking. -/
structure Forced (fd : Nat) (mode : Mode) (file : File) (ctx : FdCtx) : Prop where
  opened : mode.system.files fd = some file
  made : mode.system.manager.get fd = some ctx
  socket : ctx.isSocket
  unclosed : ctx.isClosed = false
  sys : ctx.sysNonblock
  kernel : isNonblock file.flags
  asked : ctx.userNonblock = mode.asked

theorem isNonblock_eq (flags : BitVec 32) : isNonblock flags = flags.getLsbD 11 := by
  have power : nonblock = BitVec.twoPow 32 11 := by decide
  rw [isNonblock, power, BitVec.and_twoPow]
  cases flags.getLsbD 11 <;> decide

@[simp] theorem isNonblock_or (flags : BitVec 32) : isNonblock (flags ||| nonblock) = true := by
  simp [isNonblock_eq, nonblock]

@[simp] theorem isNonblock_clear (flags : BitVec 32) :
    isNonblock (flags &&& ~~~nonblock) = false := by
  simp [isNonblock_eq, nonblock]

@[simp] theorem isNonblock_setFlags (file : File) (arg : BitVec 32) :
    isNonblock (file.setFlags arg).flags = isNonblock arg := by
  simp [isNonblock_eq, File.setFlags, settable]

section
variable {fd : Nat} {mode : Mode} {file : File} {ctx : FdCtx}

theorem Forced.userCtx (forced : Forced fd mode file ctx) : mode.system.userCtx fd = some ctx := by
  rw [System.userCtx, forced.made]
  simp [forced.socket, forced.unclosed]

theorem Forced.faithful (forced : Forced fd mode file ctx) : Faithful fd mode := by
  constructor
  · intro other found there is_there _
    rw [forced.opened] at there
    cases there
    exact forced.kernel
  · rw [System.fcntlGetfl, forced.userCtx]
    simp only [← forced.asked]
    cases ctx.userNonblock <;> simp

theorem attached_forced {system : System} (attached : Attached system fd) :
    ∃ file ctx, Forced fd ⟨system, false⟩ file ctx := by
  obtain ⟨socket, isSocket, opened, made⟩ := attached
  simp only [FdCtx.init, isSocket, if_true] at opened made
  refine ⟨_, _, opened, made, rfl, rfl, rfl, ?_, rfl⟩
  split
  · assumption
  · simp

theorem setfl_forced (forced : Forced fd mode file ctx) (arg : BitVec 32) (accepted : Bool) :
    ∃ file ctx, Forced fd ⟨mode.system.fcntlSetfl fd arg accepted, isNonblock arg⟩ file ctx := by
  have noted : ∀ value, (mode.system.setUserNonblock fd ctx value).manager.get fd =
      some { ctx with userNonblock := value } := by
    intro value
    rw [System.setUserNonblock, FdManager.get_store, if_pos rfl]
  rw [System.fcntlSetfl, forced.userCtx]
  simp only [forced.sys, if_true]
  cases accepted with
  | true =>
      refine ⟨file.setFlags (arg ||| nonblock), { ctx with userNonblock := isNonblock arg }, ?_, ?_,
        forced.socket, forced.unclosed, forced.sys, by simp, rfl⟩
      · simp [System.kernelSetfl, System.setUserNonblock, forced.opened]
      · exact noted _
  | false =>
      exact ⟨file, { ctx with userNonblock := isNonblock arg }, forced.opened, noted _, forced.socket,
        forced.unclosed, forced.sys, forced.kernel, rfl⟩

theorem fionbio_state (forced : Forced fd mode file ctx) (value : BitVec 32) (accepted : Bool) :
    (mode.system.ioctlFionbio fd value accepted).files fd =
        some (if accepted then file.setNonblock value else file) ∧
      (mode.system.ioctlFionbio fd value accepted).manager.get fd =
        some { ctx with userNonblock := value ≠ 0 } := by
  rw [System.ioctlFionbio, forced.userCtx]
  cases accepted with
  | true => simp [System.setUserNonblock, forced.opened, FdManager.get_store]
  | false => simp [System.setUserNonblock, forced.opened, FdManager.get_store]

theorem step_forced (fd : Nat) (mode : Mode) (request : Request) (next : Mode)
    (kept : ∃ file ctx, Forced fd mode file ctx) (translated : Translated mode request)
    (taken : step fd mode request = some next) : ∃ file ctx, Forced fd next file ctx := by
  obtain ⟨file, ctx, forced⟩ := kept
  cases request with
  | setfl arg accepted =>
      cases taken
      exact setfl_forced forced arg accepted
  | getfl =>
      cases taken
      exact ⟨file, ctx, forced⟩
  | fionbio value accepted =>
      cases taken
      obtain ⟨stored, made⟩ := fionbio_state forced value accepted
      refine ⟨_, _, stored, made, forced.socket, forced.unclosed, forced.sys, ?_, rfl⟩
      cases accepted with
      | false => exact forced.kernel
      | true =>
          have on : value ≠ 0 := fun off => nomatch translated off
          simp only [if_true, File.setNonblock, if_neg on]
          exact isNonblock_or _

theorem fionbio_unfaithful (fd : Nat) (mode : Mode) (request : Request)
    (kept : ∃ file ctx, Forced fd mode file ctx) (forwarded : ¬ Translated mode request) :
    ∃ next, step fd mode request = some next ∧ ¬ Faithful fd next := by
  obtain ⟨file, ctx, forced⟩ := kept
  cases request with
  | setfl arg accepted => exact absurd trivial forwarded
  | getfl => exact absurd trivial forwarded
  | fionbio value accepted =>
      simp only [Translated, Classical.not_imp, Bool.not_eq_false] at forwarded
      obtain ⟨rfl, rfl⟩ := forwarded
      refine ⟨_, rfl, fun faithful => ?_⟩
      obtain ⟨stored, made⟩ := fionbio_state forced 0 true
      have wrong := faithful.kernel _ _ stored made forced.sys
      simp [File.setNonblock] at wrong

/-- The modes stay faithful through a sequence of calls exactly when no `ioctl` that the
kernel accepts asks for blocking: that value is forwarded unchanged. -/
theorem faithful_iff_translated (system : System) (fd : Nat) (attached : Attached system fd)
    (requests : List Request) :
    Always (step fd) (Faithful fd) ⟨system, false⟩ requests ↔
      Guarded (step fd) Translated ⟨system, false⟩ requests :=
  always_iff_guarded (step_forced fd)
    (fun _ kept => by obtain ⟨file, ctx, forced⟩ := kept; exact forced.faithful)
    (fionbio_unfaithful fd) requests _ (attached_forced attached)

end

theorem attached_socket : Attached (System.fresh.socket true 3 2) 3 :=
  ⟨⟨0, true, 2⟩, rfl, by decide, by decide⟩

/-- The user asks for both modes through `fcntl`, and for non-blocking through `ioctl`. -/
theorem socket_modes_faithful :
    Always (step 3) (Faithful 3) ⟨System.fresh.socket true 3 2, false⟩
      [.setfl 0x802 true, .getfl, .setfl 2 true, .fionbio 1 true] :=
  (faithful_iff_translated (System.fresh.socket true 3 2) 3 attached_socket _).mpr (by
    simp [Guarded, Translated])

/-- The user asks for blocking through `ioctl`, and the kernel makes the socket blocking. -/
theorem blocking_ioctl_unfaithful :
    Attached (System.fresh.socket true 3 2) 3 ∧
      ¬ Always (step 3) (Faithful 3) ⟨System.fresh.socket true 3 2, false⟩ [.fionbio 0 true] := by
  refine ⟨attached_socket, fun always => ?_⟩
  have faithful := always [.fionbio 0 true] [] _ rfl rfl
  have wrong := faithful.kernel ⟨0, true, 2⟩ ⟨some 0, true, true, true, false, false, -1, -1⟩
    (by decide) (by decide) rfl
  exact absurd wrong (by decide)

end OtaMqtt.Hook.UserMode
