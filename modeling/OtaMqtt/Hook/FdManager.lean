import Mathlib.Tactic

/-! Descriptor contexts and the hooked calls that make, change and drop them.

The kernel's side is the table of open files. `File.opening` numbers the openings, so that a
file that gets the number of a closed one is told from it; a context remembers for which
opening `FdCtx::init` ran. -/

namespace OtaMqtt.Hook

def nonblock : BitVec 32 := 0x800

/-- What `F_SETFL` can change: `O_APPEND`, `O_NONBLOCK`, `O_ASYNC`, `O_DIRECT`, `O_NOATIME`. -/
def settable : BitVec 32 := 0x46c00

/-- The truth value of `flags & O_NONBLOCK`. -/
def isNonblock (flags : BitVec 32) : Bool := flags &&& nonblock ≠ 0

structure File where
  opening : Nat
  isSocket : Bool
  flags : BitVec 32
  deriving DecidableEq, Repr

/-- `fcntl(fd, F_SETFL, arg)` of the kernel. -/
def File.setFlags (file : File) (arg : BitVec 32) : File :=
  { file with flags := (file.flags &&& ~~~settable) ||| (arg &&& settable) }

/-- `ioctl(fd, FIONBIO, &value)` of the kernel. -/
def File.setNonblock (file : File) (value : BitVec 32) : File :=
  { file with flags := if value = 0 then file.flags &&& ~~~nonblock else file.flags ||| nonblock }

structure FdCtx where
  opening : Option Nat
  isInit : Bool
  isSocket : Bool
  sysNonblock : Bool
  userNonblock : Bool
  isClosed : Bool
  recvTimeout : BitVec 64
  sendTimeout : BitVec 64
  deriving DecidableEq, Repr

/-- The constructor, which runs `init`: a socket is made non-blocking in the kernel. -/
def FdCtx.init : Option File → FdCtx × Option File
  | none => (⟨none, false, false, false, false, false, -1, -1⟩, none)
  | some file =>
      if file.isSocket then
        (⟨some file.opening, true, true, true, false, false, -1, -1⟩,
          some (if isNonblock file.flags then file else file.setFlags (file.flags ||| nonblock)))
      else (⟨some file.opening, true, false, false, false, false, -1, -1⟩, some file)

/-- `m_datas`, which is made with 64 places and never gets shorter. -/
structure FdManager where
  datas : List (Option FdCtx)
  sized : 64 ≤ datas.length

namespace FdManager

def fresh : FdManager := ⟨List.replicate 64 none, by simp⟩

def get (manager : FdManager) (fd : Nat) : Option FdCtx := manager.datas[fd]?.join

/-- `m_datas[fd] = ctx`, behind `m_datas.resize(fd * 1.5)` where the place is missing. -/
def store (manager : FdManager) (fd : Nat) (ctx : Option FdCtx) : FdManager where
  datas :=
    (if manager.datas.length ≤ fd then
      manager.datas ++ List.replicate (fd * 3 / 2 - manager.datas.length) none
    else manager.datas).set fd ctx
  sized := by
    have enough := manager.sized
    split <;> simp <;> omega

def del (manager : FdManager) (fd : Nat) : FdManager :=
  if manager.datas.length ≤ fd then manager else manager.store fd none

@[simp] theorem get_fresh (fd : Nat) : fresh.get fd = none := by
  simp only [fresh, get, List.getElem?_replicate]
  split <;> rfl

theorem get_store (manager : FdManager) (fd other : Nat) (ctx : Option FdCtx) :
    (manager.store fd ctx).get other = if other = fd then ctx else manager.get other := by
  have enough := manager.sized
  by_cases same : other = fd
  · subst same
    rw [if_pos rfl, store, get]
    by_cases short : manager.datas.length ≤ other
    · simp only [if_pos short]
      rw [List.getElem?_set_self (by simp; omega)]
      rfl
    · simp only [if_neg short]
      rw [List.getElem?_set_self (by omega)]
      rfl
  · rw [if_neg same, store, get, get, List.getElem?_set_ne (Ne.symm same)]
    split
    · rename_i short
      by_cases inside : other < manager.datas.length
      · rw [List.getElem?_append_left inside]
      · rw [List.getElem?_append_right (Nat.le_of_not_lt inside), List.getElem?_replicate,
          List.getElem?_eq_none (Nat.le_of_not_lt inside)]
        split <;> rfl
    · rfl

theorem get_del (manager : FdManager) (fd other : Nat) :
    (manager.del fd).get other = if other = fd then none else manager.get other := by
  rw [del]
  split
  · rename_i short
    by_cases same : other = fd
    · subst same
      rw [if_pos rfl, get, List.getElem?_eq_none short]
      rfl
    · rw [if_neg same]
  · exact get_store manager fd other none

end FdManager

structure System where
  files : Nat → Option File
  openings : Nat
  manager : FdManager

namespace System

def fresh : System := ⟨fun _ => none, 0, .fresh⟩

/-- `FdManager::get(fd, true)`: a context that is there is returned as it is. -/
def autoCreate (system : System) (fd : Nat) : System :=
  match system.manager.get fd with
  | some _ => system
  | none =>
      let made := FdCtx.init (system.files fd)
      { system with
        files := Function.update system.files fd made.2,
        manager := system.manager.store fd (some made.1) }

/-- The kernel opens a file under a free number. -/
def opened (system : System) (fd : Nat) (isSocket : Bool) (flags : BitVec 32) : System :=
  { system with
    files := Function.update system.files fd (some ⟨system.openings, isSocket, flags⟩),
    openings := system.openings + 1 }

/-- `socket`, where the kernel answers `fd`. -/
def socket (system : System) (hooked : Bool) (fd : Nat) (flags : BitVec 32) : System :=
  if hooked then (system.opened fd true flags).autoCreate fd else system.opened fd true flags

/-- `accept`, where the kernel answers `fd`; the context is asked for with the hook on or off. -/
def accept (system : System) (fd : Nat) (flags : BitVec 32) : System :=
  (system.opened fd true flags).autoCreate fd

/-- `close`: with the hook on, a context is dropped first. -/
def close (system : System) (hooked : Bool) (fd : Nat) : System :=
  let dropped :=
    if hooked && (system.manager.get fd).isSome then
      { system with manager := system.manager.del fd }
    else system
  { dropped with files := Function.update dropped.files fd none }

/-- The kernel's `F_SETFL`; `accepted` says whether it succeeds. -/
def kernelSetfl (system : System) (fd : Nat) (arg : BitVec 32) (accepted : Bool) : System :=
  if accepted then
    { system with files := Function.update system.files fd ((system.files fd).map (·.setFlags arg)) }
  else system

/-- The context that `fcntl` and `ioctl` go by. -/
def userCtx (system : System) (fd : Nat) : Option FdCtx :=
  (system.manager.get fd).filter fun ctx => !ctx.isClosed && ctx.isSocket

def setUserNonblock (system : System) (fd : Nat) (ctx : FdCtx) (value : Bool) : System :=
  { system with manager := system.manager.store fd (some { ctx with userNonblock := value }) }

def fcntlSetfl (system : System) (fd : Nat) (arg : BitVec 32) (accepted : Bool) : System :=
  match system.userCtx fd with
  | none => system.kernelSetfl fd arg accepted
  | some ctx =>
      (system.setUserNonblock fd ctx (isNonblock arg)).kernelSetfl fd
        (if ctx.sysNonblock then arg ||| nonblock else arg &&& ~~~nonblock) accepted

def fcntlGetfl (system : System) (fd : Nat) : BitVec 32 :=
  let arg := ((system.files fd).map (·.flags)).getD (-1)
  match system.userCtx fd with
  | none => arg
  | some ctx => if ctx.userNonblock then arg ||| nonblock else arg &&& ~~~nonblock

/-- `ioctl(fd, FIONBIO, &value)`: the value goes to the kernel as it is. -/
def ioctlFionbio (system : System) (fd : Nat) (value : BitVec 32) (accepted : Bool) : System :=
  let noted :=
    match system.userCtx fd with
    | none => system
    | some ctx => system.setUserNonblock fd ctx (value ≠ 0)
  if accepted then
    { noted with
      files := Function.update noted.files fd ((noted.files fd).map (·.setNonblock value)) }
  else noted

end System

end OtaMqtt.Hook
