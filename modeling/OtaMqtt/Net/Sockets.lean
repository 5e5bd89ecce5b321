import OtaMqtt.Hook.FdManager
import OtaMqtt.Lib.Ownership
import OtaMqtt.Lib.Trace

/-! Socket objects and the descriptors they open (sherry/socket.h, socket.cc).

The kernel's answers are inputs: the number under which it opens a descriptor, whether a call
succeeds, and the names that `getsockname` and `getpeername` give. Of an address only its family
matters here. Descriptors that other code has open take part in the runs. -/

namespace OtaMqtt.Net.Sockets

open OtaMqtt.Hook OtaMqtt.Lib.Ownership OtaMqtt.Lib.Trace

structure Address where
  family : Int
  text : String
  deriving DecidableEq, Repr

/-- `sock` is `none` for -1. -/
structure Socket where
  sock : Option Nat
  family : Int
  type : Int
  protocol : Int
  isConnected : Bool
  localAddress : Option Address
  remoteAddress : Option Address

abbrev Opening := Nat × BitVec 32

/-- What `getsockname` and `getpeername` answer, if they succeed. -/
structure Names where
  sockname : Option Address
  peername : Option Address

namespace Socket

def create (family type protocol : Int) : Socket := ⟨none, family, type, protocol, false, none, none⟩

/-- `getLocalAddress`: an address that is known is not asked for again. -/
def getLocalAddress (socket : Socket) (names : Names) : Socket :=
  { socket with localAddress := socket.localAddress.or names.sockname }

def getRemoteAddress (socket : Socket) (names : Names) : Socket :=
  { socket with remoteAddress := socket.remoteAddress.or names.peername }

variable (hooked : Bool) (system : System) (socket : Socket)

/-- What `initSock` sets in the kernel is not looked at. -/
def newSock (opening : Option Opening) : System × Socket :=
  match opening with
  | none => (system, { socket with sock := none })
  | some (fd, flags) => (system.socket hooked fd flags, { socket with sock := some fd })

/-- The beginning of `bind` and of `connect`. -/
def makeValid (opening : Option Opening) : System × Socket :=
  if socket.sock.isNone then newSock hooked system socket opening else (system, socket)

def close : Bool × System × Socket :=
  match socket.sock with
  | none => (!socket.isConnected, system, { socket with isConnected := false })
  | some fd => (false, system.close hooked fd, { socket with sock := none, isConnected := false })

def bind (addr : Address) (opening : Option Opening) (bound : Bool) (names : Names) :
    Bool × System × Socket :=
  let (system, socket) := makeValid hooked system socket opening
  if socket.sock.isNone then (false, system, socket)
  else if addr.family ≠ socket.family then (false, system, socket)
  else if bound then (true, system, socket.getLocalAddress names)
  else (false, system, socket)

/-- `connected` is the result of the hooked `connect`, with a timeout or without one. -/
def connect (addr : Address) (opening : Option Opening) (connected : Bool) (names : Names) :
    Bool × System × Socket :=
  let (system, socket) :=
    makeValid hooked system { socket with remoteAddress := some addr } opening
  if socket.sock.isNone then (false, system, socket)
  else if addr.family ≠ socket.family then (false, system, socket)
  else if connected then
    (true, system, (({ socket with isConnected := true }).getRemoteAddress names).getLocalAddress names)
  else (false, (close hooked system socket).2)

/-- `init` of the object that `accept` makes. -/
def init (fd : Nat) (names : Names) : Option Socket :=
  match system.manager.get fd with
  | none => none
  | some ctx =>
      if ctx.isSocket && !ctx.isClosed then
        some (({ socket with sock := some fd, isConnected := true }.getLocalAddress
          names).getRemoteAddress names)
      else none

/-- The system call fails for the number -1. -/
def accept (opening : Option Opening) (names : Names) : System × Option Socket :=
  match socket.sock, opening with
  | some _, some (fd, flags) =>
      let system := system.accept fd flags
      (system, init system (create socket.family socket.type socket.protocol) fd names)
  | _, _ => (system, none)

end Socket

/-- `foreign` are the descriptors that other code has open. -/
structure World where
  system : System
  sockets : Nat → Option Socket
  created : Nat
  foreign : List Nat

/-- A socket is named by the number of its making. -/
inductive Label where
  | create (family type protocol : Int)
  | createUDP (hooked : Bool) (family : Int) (opening : Option Opening)
  | bind (hooked : Bool) (socket : Nat) (addr : Address) (opening : Option Opening) (bound : Bool)
      (names : Names)
  | connect (hooked : Bool) (socket : Nat) (addr : Address) (opening : Option Opening)
      (connected : Bool) (names : Names)
  | accept (socket : Nat) (opening : Option Opening) (names : Names)
  | close (hooked : Bool) (socket : Nat)
  | destroy (hooked : Bool) (socket : Nat)
  | openFile (fd : Nat) (flags : BitVec 32)
  | openSocket (hooked : Bool) (fd : Nat) (flags : BitVec 32)
  | acceptSocket (fd : Nat) (flags : BitVec 32)
  | closeFile (hooked : Bool) (fd : Nat)

namespace World

def fresh : World := ⟨.fresh, fun _ => none, 0, []⟩

/-- The kernel hands out free numbers only. -/
def Free (world : World) (fd : Nat) : Bool := (world.system.files fd).isNone

def FreeOpening (world : World) (opening : Option Opening) : Bool :=
  opening.all fun opening => world.Free opening.1

def put (world : World) (socket : Nat) (done : System × Socket) : World :=
  { world with system := done.1, sockets := Function.update world.sockets socket (some done.2) }

def add (world : World) (system : System) (socket : Socket) : World :=
  { world with
    system := system
    sockets := Function.update world.sockets world.created (some socket)
    created := world.created + 1 }

def openForeign (world : World) (fd : Nat) (system : System) : World :=
  { world with system := system, foreign := fd :: world.foreign }

def step (world : World) : Label → Option World
  | .create family type protocol =>
      some (world.add world.system (.create family type protocol))
  | .createUDP hooked family opening =>
      if world.FreeOpening opening then
        let (system, socket) :=
          Socket.newSock hooked world.system (.create family 2 0) opening
        some (world.add system { socket with isConnected := true })
      else none
  | .bind hooked socket addr opening bound names =>
      if world.FreeOpening opening then
        (world.sockets socket).map fun object =>
          world.put socket (object.bind hooked world.system addr opening bound names).2
      else none
  | .connect hooked socket addr opening connected names =>
      if world.FreeOpening opening then
        (world.sockets socket).map fun object =>
          world.put socket (object.connect hooked world.system addr opening connected names).2
      else none
  | .accept socket opening names =>
      if world.FreeOpening opening then
        (world.sockets socket).map fun object =>
          match object.accept world.system opening names with
          | (system, none) => { world with system := system }
          | (system, some accepted) => world.add system accepted
      else none
  | .close hooked socket =>
      (world.sockets socket).map fun object => world.put socket (object.close hooked world.system).2
  | .destroy hooked socket =>
      (world.sockets socket).map fun object =>
        { world with
          system := (object.close hooked world.system).2.1
          sockets := Function.update world.sockets socket none }
  | .openFile fd flags =>
      if world.Free fd then some (world.openForeign fd (world.system.opened fd false flags)) else none
  | .openSocket hooked fd flags =>
      if world.Free fd then some (world.openForeign fd (world.system.socket hooked fd flags)) else none
  | .acceptSocket fd flags =>
      if world.Free fd then some (world.openForeign fd (world.system.accept fd flags)) else none
  | .closeFile hooked fd =>
      if fd ∈ world.foreign then
        some { world with
          system := world.system.close hooked fd
          foreign := world.foreign.filter (· ≠ fd) }
      else none

/-- The descriptor of a socket object, or of other code, which owns each of its own. -/
def held (world : World) : Nat ⊕ Nat → Option Nat
  | .inl socket => (world.sockets socket).bind Socket.sock
  | .inr fd => if fd ∈ world.foreign then some fd else none

def Open (world : World) (fd : Nat) : Prop := world.system.files fd ≠ none

end World

/-- Every open descriptor belongs to one socket object or to other code, and each that is held
is open: none is closed twice, none under another's hands, and none is lost. -/
def Owned (world : World) : Prop := Partition world.Open world.held

/-- Contexts are only made for sockets, and never marked as closed. -/
def Contexts (system : System) : Prop :=
  ∀ fd ctx, system.manager.get fd = some ctx → ctx.isSocket ∧ ctx.isClosed = false

def Opens (system : System) (fd : Nat) (next : System) : Prop :=
  ∀ other, next.files other ≠ none ↔ other = fd ∨ system.files other ≠ none

def Closes (system : System) (fd : Nat) (next : System) : Prop :=
  ∀ other, next.files other ≠ none ↔ other ≠ fd ∧ system.files other ≠ none

section
variable {system : System}

theorem opened_opens (fd : Nat) (isSocket : Bool) (flags : BitVec 32) :
    Opens system fd (system.opened fd isSocket flags) := by
  intro other
  unfold System.opened
  dsimp only
  by_cases same : other = fd
  · rw [same, Function.update_self]
    exact ⟨fun _ => .inl rfl, fun _ => Option.some_ne_none _⟩
  · rw [Function.update_of_ne same]
    exact ⟨.inr, fun is => is.resolve_left same⟩

theorem init_some (file : Option File) : (FdCtx.init file).2 ≠ none ↔ file ≠ none := by
  cases file with
  | none => exact Iff.rfl
  | some file =>
      simp only [FdCtx.init]
      split
      · simp
      · simp

theorem autoCreate_files (fd other : Nat) :
    (system.autoCreate fd).files other ≠ none ↔ system.files other ≠ none := by
  unfold System.autoCreate
  split
  · exact Iff.rfl
  · dsimp only
    by_cases same : other = fd
    · rw [same, Function.update_self]
      exact init_some _
    · rw [Function.update_of_ne same]

theorem accept_opens (fd : Nat) (flags : BitVec 32) : Opens system fd (system.accept fd flags) :=
  fun other => (autoCreate_files fd other).trans (opened_opens fd true flags other)

theorem socket_opens (hooked : Bool) (fd : Nat) (flags : BitVec 32) :
    Opens system fd (system.socket hooked fd flags) := by
  cases hooked with
  | false => exact opened_opens fd true flags
  | true => exact accept_opens fd flags

theorem close_closes (hooked : Bool) (fd : Nat) : Closes system fd (system.close hooked fd) := by
  intro other
  have files : (system.close hooked fd).files = Function.update system.files fd none := by
    unfold System.close
    dsimp only
    split
    · rfl
    · rfl
  rw [files]
  by_cases same : other = fd
  · rw [same, Function.update_self]
    simp
  · rw [Function.update_of_ne same]
    simp [same]

theorem init_socket {file : File} (socket : file.isSocket) :
    (FdCtx.init (some file)).1.isSocket ∧ (FdCtx.init (some file)).1.isClosed = false := by
  simp [FdCtx.init, socket]

theorem accept_contexts (contexts : Contexts system) (fd : Nat) (flags : BitVec 32) :
    Contexts (system.accept fd flags) := by
  intro other ctx found
  unfold System.accept System.autoCreate at found
  split at found
  · exact contexts other ctx found
  · dsimp only at found
    rw [FdManager.get_store] at found
    split at found
    · unfold System.opened at found
      dsimp only at found
      rw [Function.update_self] at found
      rw [← Option.some.inj found]
      exact init_socket rfl
    · exact contexts other ctx found

theorem socket_contexts (contexts : Contexts system) (hooked : Bool) (fd : Nat) (flags : BitVec 32) :
    Contexts (system.socket hooked fd flags) := by
  cases hooked with
  | false => exact contexts
  | true => exact accept_contexts contexts fd flags

theorem close_contexts (contexts : Contexts system) (hooked : Bool) (fd : Nat) :
    Contexts (system.close hooked fd) := by
  intro other ctx found
  unfold System.close at found
  dsimp only at found
  split at found
  · rw [FdManager.get_del] at found
    split at found
    · cases found
    · exact contexts other ctx found
  · exact contexts other ctx found

theorem accept_context (contexts : Contexts system) (fd : Nat) (flags : BitVec 32) :
    ∃ ctx, (system.accept fd flags).manager.get fd = some ctx ∧ ctx.isSocket ∧ ctx.isClosed = false := by
  have kept := accept_contexts contexts fd flags
  cases found : (system.accept fd flags).manager.get fd with
  | some ctx => exact ⟨ctx, rfl, kept fd ctx found⟩
  | none =>
      unfold System.accept System.autoCreate at found
      split at found
      · rename_i ctx there
        rw [there] at found
        cases found
      · rw [FdManager.get_store, if_pos rfl] at found
        cases found

end

inductive Moved (system : System) (before : Option Nat) (next : System) : Option Nat → Prop where
  | kept (same : ∀ fd, next.files fd ≠ none ↔ system.files fd ≠ none) : Moved system before next before
  | acquired (fd : Nat) (empty : before = none) (free : system.files fd = none)
      (opens : Opens system fd next) : Moved system before next (some fd)
  | released (fd : Nat) (own : before = some fd) (closes : Closes system fd next) :
      Moved system before next none

structure Kept (world : World) : Prop where
  owned : Owned world
  contexts : Contexts world.system
  fresh : ∀ socket, world.created ≤ socket → world.sockets socket = none

theorem kept_fresh : Kept .fresh where
  owned := by
    refine partition_empty (fun owner => ?_) fun fd is => is rfl
    cases owner with
    | inl socket => rfl
    | inr fd =>
        unfold World.held World.fresh
        exact if_neg List.not_mem_nil
  contexts := by
    intro fd ctx found
    rw [World.fresh, System.fresh, FdManager.get_fresh] at found
    cases found
  fresh := fun _ _ => rfl

section
variable {world : World}

theorem held_update (world : World) (socket : Nat) (object : Option Socket) (system : System) (created : Nat)
    (owner : Nat ⊕ Nat) :
    World.held { world with
        system := system
        sockets := Function.update world.sockets socket object
        created := created } owner =
      if owner = .inl socket then object.bind Socket.sock else world.held owner := by
  cases owner with
  | inl other =>
      unfold World.held
      dsimp only
      by_cases same : other = socket
      · rw [same, Function.update_self, if_pos rfl]
      · rw [Function.update_of_ne same, if_neg (by simpa using same)]
  | inr fd =>
      rw [if_neg (by simp)]
      rfl

theorem moved_owned (owned : Owned world) {socket : Nat} {object : Option Socket} {system : System}
    {created : Nat} {before : Option Nat} (had : world.held (.inl socket) = before)
    (moved : Moved world.system before system (object.bind Socket.sock)) :
    Owned { world with
      system := system
      sockets := Function.update world.sockets socket object
      created := created } := by
  have given := held_update world socket object system created
  generalize after : object.bind Socket.sock = sock at moved given
  unfold Owned at owned ⊢
  cases moved with
  | kept same =>
      refine owned.congr same fun owner => ?_
      rw [given]
      split
      · rename_i is
        rw [is, had]
      · rfl
  | acquired fd empty free opens =>
      exact owned.acquire (.inl socket) (had.trans empty) (fun is => is free) opens given
  | released fd own closes =>
      exact owned.release (.inl socket) (had.trans own) closes given

theorem moved_put (owned : Owned world) {socket : Nat} {object : Socket} {done : System × Socket}
    (found : world.sockets socket = some object)
    (moved : Moved world.system object.sock done.1 done.2.sock) : Owned (world.put socket done) := by
  refine moved_owned owned ?_ moved
  exact (congrArg (fun object => Option.bind object Socket.sock) found)

theorem put_put (socket : Nat) (first second : System × Socket) :
    (world.put socket first).put socket second = world.put socket second := by
  unfold World.put
  dsimp only
  rw [Function.update_idem]

theorem put_found (socket : Nat) (done : System × Socket) :
    (world.put socket done).sockets socket = some done.2 :=
  Function.update_self ..

theorem put_kept (kept : Kept world) {socket : Nat} {object : Socket} {done : System × Socket}
    (found : world.sockets socket = some object) (owned : Owned (world.put socket done))
    (contexts : Contexts done.1) : Kept (world.put socket done) := by
  refine ⟨owned, contexts, fun other beyond => ?_⟩
  have apart : other ≠ socket := by
    rintro rfl
    rw [kept.fresh other beyond] at found
    cases found
  unfold World.put
  dsimp only
  rw [Function.update_of_ne apart]
  exact kept.fresh other beyond

theorem add_kept (kept : Kept world) {system : System} {object : Socket}
    (moved : Moved world.system none system object.sock) (contexts : Contexts system) :
    Kept (world.add system object) := by
  have missing := kept.fresh world.created (Nat.le_refl _)
  have empty : world.held (.inl world.created) = none :=
    congrArg (fun object => Option.bind object Socket.sock) missing
  refine ⟨moved_owned kept.owned empty moved, contexts, fun other beyond => ?_⟩
  unfold World.add at beyond ⊢
  dsimp only at beyond ⊢
  rw [Function.update_of_ne (by omega)]
  exact kept.fresh other (by omega)

end

section
variable (system : System) (object : Socket)

theorem newSock_moved (hooked : Bool) {opening : Option Opening} (empty : object.sock = none)
    (free : opening.all (fun opening => (system.files opening.1).isNone) = true) :
    Moved system object.sock (object.newSock hooked system opening).1
      (object.newSock hooked system opening).2.sock := by
  rw [empty]
  cases opening with
  | none => exact .kept fun _ => Iff.rfl
  | some opening =>
      obtain ⟨fd, flags⟩ := opening
      rw [Option.all_some, Option.isNone_iff_eq_none] at free
      exact .acquired fd rfl free (socket_opens hooked fd flags)

theorem newSock_contexts (contexts : Contexts system) (hooked : Bool) (opening : Option Opening) :
    Contexts (object.newSock hooked system opening).1 := by
  cases opening with
  | none => exact contexts
  | some opening => exact socket_contexts contexts hooked opening.1 opening.2

theorem makeValid_moved (hooked : Bool) {opening : Option Opening}
    (free : opening.all (fun opening => (system.files opening.1).isNone) = true) :
    Moved system object.sock (object.makeValid hooked system opening).1
      (object.makeValid hooked system opening).2.sock := by
  unfold Socket.makeValid
  split
  · rename_i empty
    exact newSock_moved system object hooked (Option.isNone_iff_eq_none.mp empty) free
  · exact .kept fun _ => Iff.rfl

theorem makeValid_contexts (contexts : Contexts system) (hooked : Bool) (opening : Option Opening) :
    Contexts (object.makeValid hooked system opening).1 := by
  unfold Socket.makeValid
  split
  · exact newSock_contexts system object contexts hooked opening
  · exact contexts

theorem close_moved (hooked : Bool) :
    Moved system object.sock (object.close hooked system).2.1 (object.close hooked system).2.2.sock := by
  unfold Socket.close
  split
  · rename_i empty
    exact .kept fun _ => Iff.rfl
  · rename_i fd own
    exact .released fd own (close_closes hooked fd)

theorem closed_sock (hooked : Bool) : (object.close hooked system).2.2.sock = none := by
  unfold Socket.close
  split
  · rename_i empty
    exact empty
  · rfl

theorem close_keeps (contexts : Contexts system) (hooked : Bool) :
    Contexts (object.close hooked system).2.1 := by
  unfold Socket.close
  split
  · exact contexts
  · exact close_contexts contexts hooked _

theorem bind_eq (hooked : Bool) (addr : Address) (opening : Option Opening) (bound : Bool)
    (names : Names) : (object.bind hooked system addr opening bound names).2.1 =
        (object.makeValid hooked system opening).1 ∧
      (object.bind hooked system addr opening bound names).2.2.sock =
        (object.makeValid hooked system opening).2.sock := by
  unfold Socket.bind
  dsimp only
  split
  · exact ⟨rfl, rfl⟩
  · split
    · exact ⟨rfl, rfl⟩
    · split
      · exact ⟨rfl, rfl⟩
      · exact ⟨rfl, rfl⟩

theorem connect_eq (hooked : Bool) (addr : Address) (opening : Option Opening) (connected : Bool)
    (names : Names) {valid : System × Socket}
    (is : valid = ({ object with remoteAddress := some addr } : Socket).makeValid hooked system opening) :
    ((object.connect hooked system addr opening connected names).2.1 = valid.1 ∧
        (object.connect hooked system addr opening connected names).2.2.sock = valid.2.sock) ∨
      (object.connect hooked system addr opening connected names).2 =
        (valid.2.close hooked valid.1).2 := by
  unfold Socket.connect
  rw [← is]
  dsimp only
  split
  · exact .inl ⟨rfl, rfl⟩
  · split
    · exact .inl ⟨rfl, rfl⟩
    · split
      · exact .inl ⟨rfl, rfl⟩
      · exact .inr rfl

end

section
variable {world : World}

theorem bind_kept (kept : Kept world) (hooked : Bool) {socket : Nat} {object : Socket}
    (found : world.sockets socket = some object) (addr : Address) {opening : Option Opening}
    (free : world.FreeOpening opening = true) (bound : Bool) (names : Names) :
    Kept (world.put socket (object.bind hooked world.system addr opening bound names).2) := by
  obtain ⟨systems, socks⟩ :=
    bind_eq world.system object hooked addr opening bound names
  apply put_kept kept found
  · apply moved_put kept.owned found
    rw [systems, socks]
    exact makeValid_moved _ _ hooked free
  · rw [systems]
    exact makeValid_contexts _ _ kept.contexts hooked opening

theorem connect_kept (kept : Kept world) (hooked : Bool) {socket : Nat} {object : Socket}
    (found : world.sockets socket = some object) (addr : Address) {opening : Option Opening}
    (free : world.FreeOpening opening = true) (connected : Bool) (names : Names) :
    Kept (world.put socket (object.connect hooked world.system addr opening connected names).2) := by
  obtain ⟨valid, is⟩ : ∃ valid, valid =
      ({ object with remoteAddress := some addr } : Socket).makeValid hooked world.system opening :=
    ⟨_, rfl⟩
  have begun : Owned (world.put socket valid) := by
    apply moved_put kept.owned found
    rw [is]
    exact makeValid_moved _ { object with remoteAddress := some addr } hooked free
  have contexts : Contexts valid.1 := by
    rw [is]
    exact makeValid_contexts _ _ kept.contexts hooked opening
  rcases connect_eq _ _ hooked addr opening connected names is with ⟨systems, socks⟩ | closed
  · apply put_kept kept found
    · apply moved_put kept.owned found
      rw [systems, socks, is]
      exact makeValid_moved _ { object with remoteAddress := some addr } hooked free
    · rw [systems]
      exact contexts
  · rw [closed]
    apply put_kept kept found
    · rw [← put_put socket valid]
      exact moved_put begun (put_found socket valid) (close_moved _ _ hooked)
    · exact close_keeps _ _ contexts hooked

theorem close_kept (kept : Kept world) (hooked : Bool) {socket : Nat} {object : Socket}
    (found : world.sockets socket = some object) :
    Kept (world.put socket (object.close hooked world.system).2) :=
  put_kept kept found (moved_put kept.owned found (close_moved _ _ hooked))
    (close_keeps _ _ kept.contexts hooked)

theorem destroy_kept (kept : Kept world) (hooked : Bool) {socket : Nat} {object : Socket}
    (found : world.sockets socket = some object) :
    Kept { world with
      system := (object.close hooked world.system).2.1
      sockets := Function.update world.sockets socket none } := by
  refine ⟨?_, close_keeps _ _ kept.contexts hooked, fun other beyond => ?_⟩
  · have held : world.held (.inl socket) = object.sock :=
      congrArg (fun object => Option.bind object Socket.sock) found
    have moved := close_moved world.system object hooked
    rw [closed_sock world.system object] at moved
    exact moved_owned kept.owned held moved
  · dsimp only
    by_cases same : other = socket
    · rw [same, Function.update_self]
    · rw [Function.update_of_ne same]
      exact kept.fresh other beyond

theorem accept_none (kept : Kept world) {object : Socket} {opening : Option Opening} {names : Names}
    {system : System} (is : object.accept world.system opening names = (system, none)) :
    system = world.system := by
  unfold Socket.accept at is
  split at is
  · rename_i fd flags own
    obtain ⟨ctx, there, socket, open_⟩ := accept_context kept.contexts fd flags
    dsimp only at is
    unfold Socket.init at is
    rw [there] at is
    simp [socket, open_] at is
  · exact (Prod.mk.inj is).1.symm

theorem accept_some (kept : Kept world) {object accepted : Socket} {opening : Option Opening}
    {names : Names} {system : System} (free : world.FreeOpening opening = true)
    (is : object.accept world.system opening names = (system, some accepted)) :
    Moved world.system none system accepted.sock ∧ Contexts system := by
  unfold Socket.accept at is
  split at is
  · rename_i fd flags own
    obtain ⟨ctx, there, socket, open_⟩ := accept_context kept.contexts fd flags
    dsimp only at is
    unfold Socket.init at is
    rw [there] at is
    simp only [socket, open_, Bool.not_false, Bool.and_self, if_true] at is
    obtain ⟨rfl, made⟩ := Prod.mk.inj is
    rw [← Option.some.inj made]
    have free' : (world.system.files fd).isNone = true := free
    exact ⟨.acquired fd rfl (Option.isNone_iff_eq_none.mp free') (accept_opens fd flags),
      accept_contexts kept.contexts fd flags⟩
  · cases is

theorem openForeign_kept (kept : Kept world) {fd : Nat} {system : System} (free : world.Free fd = true)
    (opens : Opens world.system fd system) (contexts : Contexts system) :
    Kept (world.openForeign fd system) := by
  have unused : world.system.files fd = none := Option.isNone_iff_eq_none.mp free
  have away : fd ∉ world.foreign := by
    intro member
    exact kept.owned.real (.inr fd) fd (if_pos member) unused
  refine ⟨kept.owned.acquire (.inr fd) (if_neg away) (fun is => is unused) opens ?_, contexts,
    kept.fresh⟩
  rintro (socket | other)
  · rfl
  · unfold World.held World.openForeign
    dsimp only
    by_cases same : other = fd
    · rw [same, if_pos List.mem_cons_self, if_pos rfl]
    · have apart : (Sum.inr other : Nat ⊕ Nat) ≠ .inr fd := fun is => same (Sum.inr.inj is)
      rw [if_neg apart]
      simp only [List.mem_cons, same, false_or]

theorem closeForeign_kept (kept : Kept world) (hooked : Bool) {fd : Nat} (own : fd ∈ world.foreign) :
    Kept { world with
      system := world.system.close hooked fd
      foreign := world.foreign.filter (· ≠ fd) } := by
  refine ⟨kept.owned.release (.inr fd) (if_pos own) (close_closes hooked fd) ?_,
    close_contexts kept.contexts hooked fd, kept.fresh⟩
  rintro (socket | other)
  · rfl
  · unfold World.held
    dsimp only
    by_cases same : other = fd
    · rw [same, if_pos rfl, if_neg (by simp)]
    · have apart : (Sum.inr other : Nat ⊕ Nat) ≠ .inr fd := fun is => same (Sum.inr.inj is)
      rw [if_neg apart]
      simp only [List.mem_filter, ne_eq, same, not_false_eq_true, decide_true, and_true]

end

theorem step_kept (world : World) (label : Label) (next : World) (kept : Kept world)
    (taken : world.step label = some next) : Kept next := by
  cases label with
  | create family type protocol =>
      cases taken
      exact add_kept kept (.kept fun _ => Iff.rfl) kept.contexts
  | createUDP hooked family opening =>
      obtain ⟨free, ⟨⟩⟩ := Option.ite_none_right_eq_some.mp taken
      exact add_kept kept (newSock_moved _ (.create family 2 0) hooked rfl free)
        (newSock_contexts _ _ kept.contexts hooked opening)
  | bind hooked socket addr opening bound names =>
      obtain ⟨free, done⟩ := Option.ite_none_right_eq_some.mp taken
      obtain ⟨object, found, rfl⟩ := Option.map_eq_some_iff.mp done
      exact bind_kept kept hooked found addr free bound names
  | connect hooked socket addr opening connected names =>
      obtain ⟨free, done⟩ := Option.ite_none_right_eq_some.mp taken
      obtain ⟨object, found, rfl⟩ := Option.map_eq_some_iff.mp done
      exact connect_kept kept hooked found addr free connected names
  | accept socket opening names =>
      obtain ⟨free, done⟩ := Option.ite_none_right_eq_some.mp taken
      obtain ⟨object, found, rfl⟩ := Option.map_eq_some_iff.mp done
      split
      · rename_i system is
        have same := accept_none kept is
        exact ⟨kept.owned.congr (by rw [same]; exact fun _ => Iff.rfl) fun _ => rfl,
          by rw [same]; exact kept.contexts, kept.fresh⟩
      · rename_i system accepted is
        obtain ⟨moved, contexts⟩ := accept_some kept free is
        exact add_kept kept moved contexts
  | close hooked socket =>
      obtain ⟨object, found, rfl⟩ := Option.map_eq_some_iff.mp taken
      exact close_kept kept hooked found
  | destroy hooked socket =>
      obtain ⟨object, found, rfl⟩ := Option.map_eq_some_iff.mp taken
      exact destroy_kept kept hooked found
  | openFile fd flags =>
      obtain ⟨free, ⟨⟩⟩ := Option.ite_none_right_eq_some.mp taken
      exact openForeign_kept kept free (opened_opens fd false flags) kept.contexts
  | openSocket hooked fd flags =>
      obtain ⟨free, ⟨⟩⟩ := Option.ite_none_right_eq_some.mp taken
      exact openForeign_kept kept free (socket_opens hooked fd flags)
        (socket_contexts kept.contexts hooked fd flags)
  | acceptSocket fd flags =>
      obtain ⟨free, ⟨⟩⟩ := Option.ite_none_right_eq_some.mp taken
      exact openForeign_kept kept free (accept_opens fd flags) (accept_contexts kept.contexts fd flags)
  | closeFile hooked fd =>
      obtain ⟨own, ⟨⟩⟩ := Option.ite_none_right_eq_some.mp taken
      exact closeForeign_kept kept hooked own

/-- Whatever is called on any number of sockets, in any order, by threads with the hook on or off,
while other code opens and closes descriptors of its own. -/
theorem descriptors_owned (labels : List Label) : Always World.step Owned .fresh labels :=
  preserves_always step_kept (fun _ kept => kept.owned) labels .fresh kept_fresh

end OtaMqtt.Net.Sockets
