import OtaMqtt.Lib.Trace

/-! What a `FileLogAppender` leaves in its files (sherry/log.h, log.cc).

`log` looks at the clock outside the appender's lock, and reopens the file when the second is
not the one of the last call. Whether `open` succeeds, how much of the stream's buffer reaches
the file and whether a write fails are inputs; anyone may take the name from the file at any
time. The formatted texts are inputs too. -/

namespace OtaMqtt.Log.FileAppender

open OtaMqtt.Lib.Trace

/-- `m_filestream`: not open after an `open` that failed, open, or open and marked as failed. -/
inductive Stream where
  | closed
  | opened (file : Nat) (buffer : List Char)
  | failed (file : Nat)
  deriving DecidableEq

/-- Where a call of `log` stands that the level lets pass; the first has read the clock and is about to
look at `m_lastTime`. -/
inductive Phase where
  | looking
  | reopening
  | noting
  | writing
  deriving DecidableEq

structure Call where
  phase : Phase
  now : Nat
  text : List Char
  deriving DecidableEq

/-- The appender and its files, the oldest first. `lostName` tells in which second a file lost the
name, `logged` is what the calls wrote to the stream, and `taken` pairs the second of a call
with the file that was open when it wrote. -/
structure World where
  level : Nat
  stream : Stream
  lastTime : Nat
  files : List (List Char)
  lostName : Nat → Option Nat
  clock : Nat
  calls : Nat → Option Call
  logged : List Char
  taken : List (Nat × Nat)

inductive Label where
  | call (thread level : Nat) (text : List Char)
  | look (thread : Nat)
  | reopen (thread flushed : Nat) (opens : Bool)
  | note (thread : Nat)
  | write (thread sent : Nat) (fails : Bool)
  | rename
  | tick
  deriving DecidableEq

namespace World

def named (world : World) : Option Nat :=
  match world.files.length with
  | 0 => none
  | last + 1 => if (world.lostName last).isNone then some last else none

/-- `m_filestream.open (m_filename, app)`, which makes the file where there is none. -/
def openFile (world : World) : World :=
  match world.named with
  | some file => { world with stream := .opened file [] }
  | none => { world with files := world.files ++ [[]], stream := .opened world.files.length [] }

/-- `m_filestream.close ()`; what is not flushed then is gone. -/
def closeFile (world : World) (flushed : Nat) : World :=
  match world.stream with
  | .opened file buffer => { world with
      files := world.files.modify file (· ++ buffer.take flushed)
      stream := .closed }
  | _ => world

/-- A stream that is marked as failed is not closed, and `open` refuses it. -/
def reopen (world : World) (flushed : Nat) (opens : Bool) : World :=
  match world.stream with
  | .failed _ => world
  | _ => if opens then (world.closeFile flushed).openFile else world.closeFile flushed

/-- `m_filestream << text`: the first `sent` characters of the buffer go to the file. -/
def write (world : World) (now : Nat) (text : List Char) (sent : Nat) (fails : Bool) : World :=
  match world.stream with
  | .opened file buffer => { world with
      files := world.files.modify file (· ++ (buffer ++ text).take sent)
      stream := if fails then .failed file else .opened file ((buffer ++ text).drop sent)
      logged := world.logged ++ text
      taken := world.taken ++ [(now, file)] }
  | _ => { world with logged := world.logged ++ text }

def setCall (world : World) (thread : Nat) (call : Option Call) : World :=
  { world with calls := Function.update world.calls thread call }

/-- The constructor. `m_lastTime` holds what was in its memory. -/
def make (level junk clock : Nat) (opens : Bool) : World :=
  reopen ⟨level, .closed, junk, [], fun _ => none, clock, fun _ => none, [], []⟩ 0 opens

def at_ (world : World) (thread : Nat) (phase : Phase) : Option Call :=
  (world.calls thread).filter fun call => call.phase = phase

def step (world : World) : Label → Option World
  | .call thread level text =>
      if (world.calls thread).isSome then none
      else if world.level ≤ level then
        some (world.setCall thread (some ⟨.looking, world.clock, text⟩))
      else some world
  | .look thread => (world.at_ thread .looking).map fun call =>
      world.setCall thread
        (some { call with phase := if call.now = world.lastTime then .writing else .reopening })
  | .reopen thread flushed opens => (world.at_ thread .reopening).map fun call =>
      (world.reopen flushed opens).setCall thread (some { call with phase := .noting })
  | .note thread => (world.at_ thread .noting).map fun call =>
      { world with lastTime := call.now }.setCall thread (some { call with phase := .writing })
  | .write thread sent fails => (world.at_ thread .writing).map fun call =>
      (world.write call.now call.text sent fails).setCall thread none
  | .rename => world.named.map fun file =>
      { world with lostName := Function.update world.lostName file (some world.clock) }
  | .tick => some { world with clock := world.clock + 1 }

end World

def Stream.pending : Stream → List Char
  | .opened _ buffer => buffer
  | _ => []

/-- Everything that was logged is in the files or waits for the last of them, once and in order. -/
def Complete (world : World) : Prop := world.files.flatten ++ world.stream.pending = world.logged

/-- The file is open and takes the whole text without a failure, or there is no text. -/
def Written (world : World) (text : List Char) (sent : Nat) (fails : Bool) : Prop :=
  match world.stream with
  | .opened _ buffer => fails = true → (buffer ++ text).length ≤ sent
  | _ => text = []

/-- The file is closed with its whole buffer flushed, and every text is written. -/
def Unharmed (world : World) : Label → Prop
  | .reopen thread flushed _ => ∀ _ ∈ world.at_ thread .reopening,
      world.stream.pending.length ≤ flushed
  | .write thread sent fails => ∀ call ∈ world.at_ thread .writing, Written world call.text sent fails
  | _ => True

def Last (world : World) : Prop :=
  ∀ file, (∃ buffer, world.stream = .opened file buffer) ∨ world.stream = .failed file →
    file + 1 = world.files.length

theorem modify_last (files : List (List Char)) (file : Nat) (text : List Char)
    (last : file + 1 = files.length) :
    (files.modify file (· ++ text)).flatten = files.flatten ++ text := by
  induction files generalizing file with
  | nil => cases last
  | cons first files ih =>
      cases file with
      | zero =>
          have none : files = [] := List.length_eq_zero_iff.mp (by simpa using last.symm)
          subst none
          simp
      | succ file =>
          rw [List.modify_succ_cons, List.flatten_cons, List.flatten_cons, ih file (by simpa using last),
            List.append_assoc]

section
variable {world : World}

@[simp] theorem modify_length (files : List (List Char)) (file : Nat) (change : List Char → List Char) :
    (files.modify file change).length = files.length := List.length_modify ..

theorem named_last {file : Nat} (named : world.named = some file) :
    file + 1 = world.files.length ∧ world.lostName file = none := by
  rw [World.named] at named
  split at named
  · cases named
  · rename_i last length
    obtain ⟨here, same⟩ := Option.ite_none_right_eq_some.mp named
    cases same
    exact ⟨length.symm, Option.isNone_iff_eq_none.mp here⟩

theorem openFile_last : Last world.openFile := by
  unfold Last World.openFile
  cases named : world.named with
  | some found =>
      rintro file (⟨buffer, same⟩ | same)
      · cases same
        exact (named_last named).1
      · cases same
  | none =>
      rintro file (⟨buffer, same⟩ | same)
      · cases same
        simp
      · cases same

theorem openFile_text : world.openFile.files.flatten = world.files.flatten ∧
    world.openFile.stream.pending = [] ∧ world.openFile.logged = world.logged := by
  rw [World.openFile]
  split
  · exact ⟨rfl, rfl, rfl⟩
  · refine ⟨?_, rfl, rfl⟩
    simp

theorem closeFile_text (last : Last world) (flushed : Nat) (open_ : ∀ file, world.stream ≠ .failed file) :
    (world.closeFile flushed).files.flatten =
        world.files.flatten ++ world.stream.pending.take flushed ∧
      (world.closeFile flushed).stream = .closed ∧
      (world.closeFile flushed).logged = world.logged := by
  rw [World.closeFile]
  cases stream : world.stream with
  | closed => exact ⟨by simp [Stream.pending], stream, rfl⟩
  | opened file buffer => exact ⟨modify_last _ _ _ (last file (.inl ⟨buffer, stream⟩)), rfl, rfl⟩
  | failed file => exact absurd stream (open_ file)

theorem reopen_text (last : Last world) (flushed : Nat) (opens : Bool)
    (open_ : ∀ file, world.stream ≠ .failed file) :
    (world.reopen flushed opens).files.flatten =
        world.files.flatten ++ world.stream.pending.take flushed ∧
      (world.reopen flushed opens).stream.pending = [] ∧
      (world.reopen flushed opens).logged = world.logged := by
  have eq : world.reopen flushed opens =
      if opens then (world.closeFile flushed).openFile else world.closeFile flushed := by
    rw [World.reopen]
    split
    · rename_i file stream
      exact absurd stream (open_ file)
    · rfl
  obtain ⟨files, stream, logged⟩ := closeFile_text last flushed open_
  rw [eq]
  cases opens with
  | true =>
      obtain ⟨files', stream', logged'⟩ := @openFile_text (world.closeFile flushed)
      exact ⟨files'.trans files, stream', logged'.trans logged⟩
  | false => exact ⟨files, by rw [if_neg Bool.false_ne_true, stream]; rfl, logged⟩

theorem reopen_last (last : Last world) (flushed : Nat) (opens : Bool) :
    Last (world.reopen flushed opens) := by
  have closed : (∀ file, world.stream ≠ .failed file) → Last (world.closeFile flushed) := by
    intro open_ file stream
    rw [(closeFile_text last flushed open_).2.1] at stream
    rcases stream with ⟨_, same⟩ | same <;> cases same
  rw [World.reopen]
  split
  · exact last
  · rename_i open_
    cases opens with
    | true => exact openFile_last
    | false => exact closed open_

theorem write_last (last : Last world) (now : Nat) (text : List Char) (sent : Nat) (fails : Bool) :
    Last (world.write now text sent fails) := by
  rw [World.write]
  split
  · rename_i file buffer stream
    have here := last file (.inl ⟨buffer, stream⟩)
    intro other found
    dsimp only at found ⊢
    rw [modify_length]
    cases fails with
    | true =>
        rcases found with ⟨_, same⟩ | same
        · cases same
        · cases same
          exact here
    | false =>
        rcases found with ⟨_, same⟩ | same
        · cases same
          exact here
        · cases same
  · exact last

structure Kept (world : World) : Prop where
  complete : Complete world
  last : Last world

theorem reopen_complete (kept : Kept world) (flushed : Nat) (opens : Bool) :
    Complete (world.reopen flushed opens) ↔ world.stream.pending.length ≤ flushed := by
  have complete := kept.complete
  rw [Complete] at complete
  by_cases failed : ∃ file, world.stream = .failed file
  · obtain ⟨file, failed⟩ := failed
    have same : world.reopen flushed opens = world := by
      rw [World.reopen, failed]
    rw [same, failed]
    exact iff_of_true kept.complete (Nat.zero_le _)
  · obtain ⟨files, pending, logged⟩ := reopen_text kept.last flushed opens
      fun file stream => failed ⟨file, stream⟩
    rw [Complete, files, pending, logged, List.append_nil, ← complete, List.append_cancel_left_eq,
      List.take_eq_self_iff]

theorem write_opened (kept : Kept world) {file : Nat} {buffer : List Char}
    (stream : world.stream = .opened file buffer) (now : Nat) (text : List Char) (sent : Nat)
    (fails : Bool) : Complete (world.write now text sent fails) ↔ Written world text sent fails := by
  have complete := kept.complete
  rw [Complete, stream] at complete
  dsimp only [Stream.pending] at complete
  rw [Complete, World.write, Written, stream]
  dsimp only
  rw [modify_last _ _ _ (kept.last file (.inl ⟨buffer, stream⟩)), ← complete, List.append_assoc,
    List.append_assoc, List.append_cancel_left_eq]
  cases fails with
  | true =>
      rw [if_pos rfl]
      dsimp only [Stream.pending]
      rw [List.append_nil, List.take_eq_self_iff]
      exact ⟨fun whole _ => whole, fun whole => whole rfl⟩
  | false => exact iff_of_true (List.take_append_drop sent _) fun fails => nomatch fails

theorem write_dropped (kept : Kept world) (dropped : ∀ file buffer, world.stream ≠ .opened file buffer)
    (now : Nat) (text : List Char) (sent : Nat) (fails : Bool) :
    Complete (world.write now text sent fails) ↔ Written world text sent fails := by
  have complete := kept.complete
  rw [Complete] at complete
  have written : world.write now text sent fails = { world with logged := world.logged ++ text } := by
    rw [World.write]
    split
    · rename_i file buffer stream
      exact absurd stream (dropped file buffer)
    · rfl
  have asked : Written world text sent fails ↔ text = [] := by
    rw [Written]
    split
    · rename_i file buffer stream
      exact absurd stream (dropped file buffer)
    · rfl
  rw [written, asked, Complete]
  dsimp only
  rw [complete, List.self_eq_append_right]

theorem write_complete (kept : Kept world) (now : Nat) (text : List Char) (sent : Nat) (fails : Bool) :
    Complete (world.write now text sent fails) ↔ Written world text sent fails := by
  cases stream : world.stream with
  | opened file buffer => exact write_opened kept stream now text sent fails
  | closed => exact write_dropped kept (fun _ _ => by rw [stream]; exact nofun) now text sent fails
  | failed file =>
      exact write_dropped kept (fun _ _ => by rw [stream]; exact nofun) now text sent fails

theorem Kept.frame {next : World} (kept : Kept world) (files : next.files = world.files)
    (stream : next.stream = world.stream) (logged : next.logged = world.logged) : Kept next := by
  refine ⟨?_, fun file found => ?_⟩
  · rw [Complete, files, stream, logged]
    exact kept.complete
  · rw [files]
    rw [stream] at found
    exact kept.last file found

end

theorem step_kept (world : World) (label : Label) (next : World) (kept : Kept world)
    (unharmed : Unharmed world label) (taken : world.step label = some next) : Kept next := by
  cases label with
  | call thread level text =>
      rw [World.step] at taken
      split at taken
      · cases taken
      · split at taken
        · cases taken
          exact kept.frame rfl rfl rfl
        · cases taken
          exact kept
  | look thread =>
      obtain ⟨call, -, rfl⟩ := Option.map_eq_some_iff.mp taken
      exact kept.frame rfl rfl rfl
  | reopen thread flushed opens =>
      obtain ⟨call, here, rfl⟩ := Option.map_eq_some_iff.mp taken
      exact ⟨(reopen_complete kept flushed opens).mpr (unharmed call here),
        reopen_last kept.last flushed opens⟩
  | note thread =>
      obtain ⟨call, -, rfl⟩ := Option.map_eq_some_iff.mp taken
      exact kept.frame rfl rfl rfl
  | write thread sent fails =>
      obtain ⟨call, here, rfl⟩ := Option.map_eq_some_iff.mp taken
      exact ⟨(write_complete kept call.now call.text sent fails).mpr (unharmed call here),
        write_last kept.last call.now call.text sent fails⟩
  | rename =>
      obtain ⟨file, -, rfl⟩ := Option.map_eq_some_iff.mp taken
      exact kept.frame rfl rfl rfl
  | tick =>
      cases taken
      exact kept.frame rfl rfl rfl

theorem harm_loses (world : World) (label : Label) (kept : Kept world)
    (harmed : ¬ Unharmed world label) :
    ∃ next, world.step label = some next ∧ ¬ Complete next := by
  cases label with
  | reopen thread flushed opens =>
      rw [Unharmed] at harmed
      push Not at harmed
      obtain ⟨call, here, part⟩ := harmed
      exact ⟨_, Option.map_eq_some_iff.mpr ⟨call, here, rfl⟩, fun complete =>
        absurd ((reopen_complete kept flushed opens).mp complete) (Nat.not_le.mpr part)⟩
  | write thread sent fails =>
      rw [Unharmed] at harmed
      push Not at harmed
      obtain ⟨call, here, part⟩ := harmed
      exact ⟨_, Option.map_eq_some_iff.mpr ⟨call, here, rfl⟩, fun complete =>
        part ((write_complete kept call.now call.text sent fails).mp complete)⟩
  | _ => exact absurd trivial harmed

theorem make_kept (level junk clock : Nat) (opens : Bool) : Kept (.make level junk clock opens) := by
  have start : Kept ⟨level, .closed, junk, [], fun _ => none, clock, fun _ => none, [], []⟩ :=
    ⟨rfl, fun _ found => by rcases found with ⟨_, same⟩ | same <;> cases same⟩
  exact ⟨(reopen_complete start 0 opens).mpr (Nat.le_refl 0), reopen_last start.last 0 opens⟩

/-- With any number of threads that log, through failures of `open`, short writes and changes of the
name: all that was logged is in the files in order, or waits for the last of them, exactly as long
as no buffer is closed unflushed, no text finds the file closed, and no write fails. -/
theorem complete_iff_unharmed (level junk clock : Nat) (opens : Bool) (labels : List Label) :
    Always World.step Complete (.make level junk clock opens) labels ↔
      Guarded World.step Unharmed (.make level junk clock opens) labels :=
  always_iff_guarded step_kept (fun _ kept => kept.complete) harm_loses labels _
    (make_kept level junk clock opens)

/-- No text of one second is taken for a file that had lost its name in an earlier one. -/
def InTime (world : World) : Prop :=
  ∀ entry ∈ world.taken, ∀ second, world.lostName entry.2 = some second → entry.1 ≤ second

/-- The call has found its second in `m_lastTime`, or has reopened the file. -/
def Phase.behind : Phase → Bool
  | .looking => false
  | .reopening => false
  | .noting => true
  | .writing => true

/-- `since` is the second of the last reopening. A file that is open has not lost its name before it,
and neither `m_lastTime` nor a call behind its reopening is later. -/
structure Timed (world : World) (since : Nat) : Prop where
  inTime : InTime world
  past : ∀ entry ∈ world.taken, entry.1 ≤ world.clock
  named : ∀ file buffer, world.stream = .opened file buffer →
    ∀ second, world.lostName file = some second → since ≤ second
  lastTime : world.lastTime ≤ since
  behind : ∀ thread call, world.calls thread = some call → call.phase.behind = true → call.now ≤ since
  calls : ∀ thread call, world.calls thread = some call → call.now ≤ world.clock
  since : since ≤ world.clock
  unmade : ∀ file, world.files.length ≤ file → world.lostName file = none

section
variable {world : World} {since thread : Nat}

theorem at_eq {phase : Phase} {call : Call} (here : world.at_ thread phase = some call) :
    world.calls thread = some call ∧ call.phase = phase := by
  obtain ⟨found, is⟩ := Option.filter_eq_some_iff.mp here
  exact ⟨found, of_decide_eq_true is⟩

theorem Timed.setCall (timed : Timed world since) (call : Option Call)
    (behind : ∀ set ∈ call, set.phase.behind = true → set.now ≤ since)
    (past : ∀ set ∈ call, set.now ≤ world.clock) : Timed (world.setCall thread call) since := by
  refine ⟨timed.inTime, timed.past, timed.named, timed.lastTime, ?_, ?_, timed.since, timed.unmade⟩
  · intro other set found awake
    dsimp only [World.setCall] at found
    rw [Function.update_apply] at found
    split at found
    · exact behind set found awake
    · exact timed.behind other set found awake
  · intro other set found
    dsimp only [World.setCall] at found
    rw [Function.update_apply] at found
    split at found
    · exact past set found
    · exact timed.calls other set found

structure Beside (world next : World) : Prop where
  taken : next.taken = world.taken
  lostName : next.lostName = world.lostName
  lastTime : next.lastTime = world.lastTime
  clock : next.clock = world.clock
  calls : next.calls = world.calls
  files : world.files.length ≤ next.files.length

theorem closeFile_beside (flushed : Nat) : Beside world (world.closeFile flushed) ∧
    (world.closeFile flushed).files.length = world.files.length := by
  rw [World.closeFile]
  split
  · exact ⟨⟨rfl, rfl, rfl, rfl, rfl, Nat.le_of_eq (modify_length ..).symm⟩, modify_length ..⟩
  · exact ⟨⟨rfl, rfl, rfl, rfl, rfl, Nat.le_refl _⟩, rfl⟩

theorem openFile_beside : Beside world world.openFile := by
  rw [World.openFile]
  split
  · exact ⟨rfl, rfl, rfl, rfl, rfl, Nat.le_refl _⟩
  · exact ⟨rfl, rfl, rfl, rfl, rfl, by simp⟩

theorem reopen_beside (flushed : Nat) (opens : Bool) : Beside world (world.reopen flushed opens) := by
  have closed := (@closeFile_beside world flushed).1
  have opened := @openFile_beside (world.closeFile flushed)
  rw [World.reopen]
  split
  · exact ⟨rfl, rfl, rfl, rfl, rfl, Nat.le_refl _⟩
  · cases opens with
    | false => exact closed
    | true =>
        exact ⟨opened.taken.trans closed.taken, opened.lostName.trans closed.lostName,
          opened.lastTime.trans closed.lastTime, opened.clock.trans closed.clock,
          opened.calls.trans closed.calls, Nat.le_trans closed.files opened.files⟩

theorem openFile_named (unmade : ∀ file, world.files.length ≤ file → world.lostName file = none)
    {file : Nat} {buffer : List Char} (stream : world.openFile.stream = .opened file buffer) :
    world.lostName file = none := by
  rw [World.openFile] at stream
  split at stream
  · rename_i found named
    cases stream
    exact (named_last named).2
  · cases stream
    exact unmade _ (Nat.le_refl _)

theorem reopen_named (unmade : ∀ file, world.files.length ≤ file → world.lostName file = none)
    (flushed : Nat) (opens : Bool) {file : Nat} {buffer : List Char}
    (stream : (world.reopen flushed opens).stream = .opened file buffer) :
    world.lostName file = none := by
  obtain ⟨closed, length⟩ := @closeFile_beside world flushed
  rw [World.reopen] at stream
  cases before : world.stream with
  | failed other =>
      rw [before] at stream
      dsimp only at stream
      rw [before] at stream
      cases stream
  | closed =>
      have same : world.closeFile flushed = world := by rw [World.closeFile, before]
      rw [before] at stream
      dsimp only at stream
      rw [same] at stream
      cases opens with
      | true => exact openFile_named unmade stream
      | false =>
          rw [if_neg Bool.false_ne_true, before] at stream
          cases stream
  | opened other waiting =>
      rw [before] at stream
      dsimp only at stream
      cases opens with
      | true =>
          have named := openFile_named (by rw [length, closed.lostName]; exact unmade) stream
          rw [closed.lostName] at named
          exact named
      | false =>
          have shut : (world.closeFile flushed).stream = .closed := by
            rw [World.closeFile, before]
          rw [if_neg Bool.false_ne_true, shut] at stream
          cases stream

theorem reopen_timed (timed : Timed world since) (flushed : Nat) (opens : Bool) :
    Timed (world.reopen flushed opens) world.clock := by
  have beside := @reopen_beside world flushed opens
  refine ⟨?_, ?_, ?_, ?_, ?_, ?_, Nat.le_of_eq beside.clock.symm, ?_⟩
  · rw [InTime, beside.taken, beside.lostName]
    exact timed.inTime
  · rw [beside.taken, beside.clock]
    exact timed.past
  · intro file buffer stream second lost
    have named := reopen_named timed.unmade flushed opens stream
    rw [beside.lostName, named] at lost
    cases lost
  · rw [beside.lastTime]
    exact Nat.le_trans timed.lastTime timed.since
  · rw [beside.calls]
    exact fun thread call found awake => Nat.le_trans (timed.behind thread call found awake) timed.since
  · rw [beside.calls, beside.clock]
    exact timed.calls
  · rw [beside.lostName]
    exact fun file above => timed.unmade file (Nat.le_trans beside.files above)

theorem write_timed (timed : Timed world since) {now : Nat} (behind : now ≤ since) (text : List Char)
    (sent : Nat) (fails : Bool) : Timed (world.write now text sent fails) since := by
  rw [World.write]
  split
  · rename_i file buffer stream
    refine ⟨?_, ?_, ?_, timed.lastTime, timed.behind, timed.calls, timed.since, ?_⟩
    · intro entry member second lost
      rcases List.mem_append.mp member with old | new
      · exact timed.inTime entry old second lost
      · rw [List.mem_singleton] at new
        subst new
        exact Nat.le_trans behind (timed.named file buffer stream second lost)
    · intro entry member
      rcases List.mem_append.mp member with old | new
      · exact timed.past entry old
      · rw [List.mem_singleton] at new
        subst new
        exact Nat.le_trans behind timed.since
    · intro other waiting found second lost
      cases fails with
      | true => cases found
      | false =>
          cases found
          exact timed.named file buffer stream second lost
    · dsimp only
      rw [modify_length]
      exact timed.unmade
  · exact ⟨timed.inTime, timed.past, timed.named, timed.lastTime, timed.behind, timed.calls,
      timed.since, timed.unmade⟩

theorem rename_timed (timed : Timed world since) {file : Nat} (named : world.named = some file) :
    Timed { world with lostName := Function.update world.lostName file (some world.clock) } since := by
  have fresh : ∀ other second, Function.update world.lostName file (some world.clock) other =
      some second → second = world.clock ∨ world.lostName other = some second := by
    intro other second lost
    rw [Function.update_apply] at lost
    split at lost
    · exact .inl (Option.some.inj lost).symm
    · exact .inr lost
  refine ⟨?_, timed.past, ?_, timed.lastTime, timed.behind, timed.calls, timed.since, ?_⟩
  · intro entry member second lost
    rcases fresh _ _ lost with rfl | lost
    · exact timed.past entry member
    · exact timed.inTime entry member second lost
  · intro other buffer stream second lost
    rcases fresh _ _ lost with rfl | lost
    · exact timed.since
    · exact timed.named other buffer stream second lost
  · intro other above
    have inside := (named_last named).1
    dsimp only at above ⊢
    rw [Function.update_of_ne (by omega)]
    exact timed.unmade other above

theorem step_timed (world : World) (label : Label) (next : World)
    (timed : ∃ since, Timed world since) (taken : world.step label = some next) :
    ∃ since, Timed next since := by
  obtain ⟨since, timed⟩ := timed
  cases label with
  | call thread level text =>
      rw [World.step] at taken
      split at taken
      · cases taken
      · split at taken
        · cases taken
          refine ⟨since, timed.setCall _ ?_ ?_⟩
          · rintro set ⟨⟩ awake
            cases awake
          · rintro set ⟨⟩
            exact Nat.le_refl _
        · cases taken
          exact ⟨since, timed⟩
  | look thread =>
      obtain ⟨call, here, rfl⟩ := Option.map_eq_some_iff.mp taken
      refine ⟨since, timed.setCall _ ?_ ?_⟩
      · rintro set ⟨⟩ awake
        dsimp only at awake ⊢
        split at awake
        · rename_i same
          exact same ▸ timed.lastTime
        · cases awake
      · rintro set ⟨⟩
        exact timed.calls thread call (at_eq here).1
  | reopen thread flushed opens =>
      obtain ⟨call, here, rfl⟩ := Option.map_eq_some_iff.mp taken
      have past := timed.calls thread call (at_eq here).1
      have clock := (@reopen_beside world flushed opens).clock
      refine ⟨world.clock, (reopen_timed timed flushed opens).setCall _ ?_ ?_⟩
      · rintro set ⟨⟩ -
        exact past
      · rintro set ⟨⟩
        rw [clock]
        exact past
  | note thread =>
      obtain ⟨call, here, rfl⟩ := Option.map_eq_some_iff.mp taken
      obtain ⟨found, phase⟩ := at_eq here
      have behind := timed.behind thread call found (by rw [phase]; rfl)
      have noted : Timed { world with lastTime := call.now } since :=
        ⟨timed.inTime, timed.past, timed.named, behind, timed.behind, timed.calls, timed.since,
          timed.unmade⟩
      refine ⟨since, noted.setCall _ ?_ ?_⟩
      · rintro set ⟨⟩ -
        exact behind
      · rintro set ⟨⟩
        exact timed.calls thread call found
  | write thread sent fails =>
      obtain ⟨call, here, rfl⟩ := Option.map_eq_some_iff.mp taken
      obtain ⟨found, phase⟩ := at_eq here
      have behind := timed.behind thread call found (by rw [phase]; rfl)
      exact ⟨since, (write_timed timed behind call.text sent fails).setCall _ nofun nofun⟩
  | rename =>
      obtain ⟨file, named, rfl⟩ := Option.map_eq_some_iff.mp taken
      exact ⟨since, rename_timed timed named⟩
  | tick =>
      cases taken
      exact ⟨since, timed.inTime, fun entry member => Nat.le_succ_of_le (timed.past entry member),
        timed.named, timed.lastTime, timed.behind,
        fun thread call found => Nat.le_succ_of_le (timed.calls thread call found),
        Nat.le_succ_of_le timed.since, timed.unmade⟩

end

/-- When what stood in the memory of `m_lastTime` is not a second to come: with any number of
threads that log, in every state reached, no text of one second has been given to a file that had
lost its name in an earlier one, so that a file that is renamed is left within the second. -/
theorem renamed_file_left (level junk clock : Nat) (opens : Bool) (old : junk ≤ clock)
    (labels : List Label) : Always World.step InTime (.make level junk clock opens) labels := by
  have start : Timed ⟨level, .closed, junk, [], fun _ => none, clock, fun _ => none, [], []⟩ clock :=
    ⟨nofun, nofun, nofun, old, nofun, nofun, Nat.le_refl clock, fun _ _ => rfl⟩
  exact preserves_always step_timed (fun _ timed => timed.elim fun _ timed => timed.inTime) labels _
    ⟨clock, reopen_timed start 0 opens⟩

/-- Two threads log while the file is renamed. -/
theorem renamed_while_logging : Always World.step InTime (.make 0 0 7 true)
    [.call 0 1 ['a'], .look 0, .reopen 0 0 true, .call 1 1 ['b'], .look 1, .rename, .note 0, .tick,
      .write 0 1 false, .reopen 1 0 true, .note 1, .write 1 1 false] :=
  renamed_file_left 0 0 7 true (by decide) _

end OtaMqtt.Log.FileAppender
