import OtaMqtt.Lib.Trace
import OtaMqtt.Timers.Expiry

/-! The life of a timer over whole runs of its manager, wherever the allocator puts the timers.

A timer is named by its address, and an address is free as soon as no timer of the set has it. -/

namespace OtaMqtt.Timers.LifeCycle

open OtaMqtt.Lib.Execution OtaMqtt.Lib.OrderedSet OtaMqtt.Lib.Trace
open OtaMqtt.Timers.TimerManager OtaMqtt.Timers.TimerSet OtaMqtt.Timers.Expiry

variable {Callback : Type}

/-- What a call did: `addTimer` put a timer at an address, `cancel` answered, with the timer in the
set before or not, or `listExpiredCb` handed out a timer that was due at `due`. -/
inductive Entry where
  | added (id : Nat) (recurring : Bool)
  | canceled (id : Nat) (present answer : Bool)
  | handed (id : Nat) (now due : UInt64) (rollover : Bool)

/-- `log` has the newest entry first. -/
structure World (Callback : Type) where
  manager : TimerManager Callback
  log : List Entry

inductive Call (Callback : Type) where
  | addTimer (address : Nat) (now ms : UInt64) (cb : Callback) (recurring : Bool)
  | cancel (id : Nat)
  | refresh (id : Nat) (now : UInt64)
  | reset (id : Nat) (ms : UInt64) (fromNow : Bool) (now : UInt64)
  | listExpiredCb (probe : Nat) (now : UInt64)

namespace World

def fresh (now : UInt64) : World Callback := ⟨.fresh now, []⟩

/-- The entries of one `listExpiredCb`. -/
def entries (manager : TimerManager Callback) (probe : Nat) (now : UInt64) : List Entry :=
  (handedOut manager probe now).map fun id =>
    .handed id now (manager.objects id).next (manager.detectClockRollover now).1

/-- A new timer, and `now_timer` of `listExpiredCb`, take an address that is free. -/
def Possible (world : World Callback) : Call Callback → Prop
  | .addTimer address _ _ _ _ => (world.manager.objects address).cb = none
  | .listExpiredCb probe _ => probe ∉ world.manager.timers
  | _ => True

instance (world : World Callback) : (call : Call Callback) → Decidable (Possible world call)
  | .addTimer _ _ _ _ _ => inferInstanceAs (Decidable (_ = none))
  | .listExpiredCb _ _ => inferInstanceAs (Decidable (_ ∉ _))
  | .cancel _ => .isTrue trivial
  | .refresh _ _ => .isTrue trivial
  | .reset _ _ _ _ => .isTrue trivial

def operate (world : World Callback) : Call Callback → Run (World Callback)
  | .addTimer address now ms cb recurring =>
      .ok ⟨addTimerAt world.manager address now ms cb recurring, .added address recurring :: world.log⟩
  | .cancel id => do
      let (answer, manager) ← world.manager.cancel id
      .ok ⟨manager, .canceled id (decide (id ∈ world.manager.timers)) answer :: world.log⟩
  | .refresh id now => .ok { world with manager := (world.manager.refresh id now).2 }
  | .reset id ms fromNow now =>
      .ok { world with manager := (world.manager.reset id ms fromNow now).2 }
  | .listExpiredCb probe now =>
      .ok ⟨(listExpiredCbAt world.manager probe now).2, entries world.manager probe now ++ world.log⟩

end World

/-- A call that reaches undefined behaviour is the last one. -/
def step : Run (World Callback) → Call Callback → Option (Run (World Callback))
  | .ok world, call => if world.Possible call then some (world.operate call) else none
  | .error _, _ => none

def Entry.hands (id : Nat) : Entry → Bool
  | .handed other _ _ _ => other == id
  | _ => false

def handings (id : Nat) (log : List Entry) : Nat := log.countP (Entry.hands id)

/-- No other timer is put at the address. -/
def Unadded (id : Nat) (log : List Entry) : Prop := ∀ recurring, .added id recurring ∉ log

def Fair : Entry → Prop
  | .added _ _ => True
  | .canceled _ present answer => answer = present
  | .handed _ now due rollover => due ≤ now ∨ rollover = true

/-- `stretch` is what the log has of one timer, up to now or to some moment before. -/
structure Safe (world : World Callback) : Prop where
  ordered : Ordered (less world.manager.objects) world.manager.timers
  members : ∀ id, id ∈ world.manager.timers ↔ (world.manager.objects id).cb.isSome
  answers : ∀ probe now, (listExpiredCbAt world.manager probe now).1 =
    (handedOut world.manager probe now).map fun id => (world.manager.objects id).cb
  unborn : ∀ id stretch, stretch <:+ world.log → Unadded id stretch → handings id stretch = 0
  once : ∀ id stretch, stretch ++ [.added id false] <:+: world.log → Unadded id stretch →
    handings id stretch ≤ 1
  silent : ∀ id present stretch, stretch ++ [.canceled id present true] <:+: world.log →
    Unadded id stretch → handings id stretch = 0
  fair : ∀ entry ∈ world.log, Fair entry

/-- What one call may do to the timers that exist, with the entries it writes. -/
structure Advance (before after : TimerManager Callback) (entries : List Entry) : Prop where
  sound : Sound after
  recurring : ∀ id, Unadded id entries → (after.objects id).recurring = (before.objects id).recurring
  idle : ∀ id, Unadded id entries → (before.objects id).cb = none → (after.objects id).cb = none
  opened : ∀ id recurring, .added id recurring ∈ entries →
    (after.objects id).recurring = recurring ∧ handings id entries = 0
  handed : ∀ id, handings id entries ≠ 0 → (before.objects id).cb.isSome ∧ handings id entries = 1 ∧
    ((before.objects id).recurring = false → (after.objects id).cb = none)
  ended : ∀ id present, .canceled id present true ∈ entries →
    (after.objects id).cb = none ∧ handings id entries = 0
  fair : ∀ entry ∈ entries, Fair entry

structure Recorded (world : World Callback) : Prop where
  sound : Sound world.manager
  unheld : ∀ id, Unadded id world.log → (world.manager.objects id).cb = none
  spent : ∀ id recurring stretch, stretch ++ [.added id recurring] <+: world.log →
    Unadded id stretch → (world.manager.objects id).recurring = recurring ∧
      (recurring = false → handings id stretch + (world.manager.objects id).cb.isSome.toNat ≤ 1)
  ended : ∀ id present stretch, stretch ++ [.canceled id present true] <+: world.log →
    Unadded id stretch → (world.manager.objects id).cb = none ∧ handings id stretch = 0
  unborn : ∀ id stretch, stretch <:+ world.log → Unadded id stretch → handings id stretch = 0
  once : ∀ id stretch, stretch ++ [.added id false] <:+: world.log → Unadded id stretch →
    handings id stretch ≤ 1
  silent : ∀ id present stretch, stretch ++ [.canceled id present true] <:+: world.log →
    Unadded id stretch → handings id stretch = 0
  fair : ∀ entry ∈ world.log, Fair entry

theorem handings_append (id : Nat) (first second : List Entry) :
    handings id (first ++ second) = handings id first + handings id second :=
  List.countP_append

theorem Unadded.append {id : Nat} {first second : List Entry} (unadded : Unadded id (first ++ second)) :
    Unadded id first ∧ Unadded id second :=
  ⟨fun recurring member => unadded recurring (List.mem_append_left _ member),
    fun recurring member => unadded recurring (List.mem_append_right _ member)⟩

/-- Where the entry before a stretch lies, of a log that has grown by `entries`. -/
theorem cut_newest {entries log stretch : List Entry} {entry : Entry}
    (cut : stretch ++ [entry] <+: entries ++ log) :
    stretch ++ [entry] <:+: entries ∨
      ∃ rest, stretch = entries ++ rest ∧ rest ++ [entry] <+: log := by
  obtain ⟨earlier, whole⟩ := cut
  rw [List.append_assoc] at whole
  rcases List.append_eq_append_iff.mp whole with ⟨rest, inside, tail⟩ | ⟨rest, outside, tail⟩
  · cases rest with
    | nil =>
        refine .inr ⟨[], by rw [inside, List.append_nil, List.append_nil], earlier, ?_⟩
        exact tail
    | cons first rest =>
        rw [List.singleton_append, List.cons_append, List.cons.injEq] at tail
        refine .inl ⟨[], rest, ?_⟩
        rw [inside, tail.1, List.nil_append, List.append_assoc, List.singleton_append]
  · exact .inr ⟨rest, outside, earlier, by rw [List.append_assoc, tail]⟩

theorem cut_anywhere {entries log stretch : List Entry} {entry : Entry}
    (cut : stretch ++ [entry] <:+: entries ++ log) :
    stretch ++ [entry] <:+: entries ∨ stretch ++ [entry] <:+: log ∨
      ∃ front rest, stretch = front ++ rest ∧ front <:+ entries ∧ rest ++ [entry] <+: log := by
  rcases List.infix_append_iff.mp cut with inside | older | ⟨front, behind, split, new, old⟩
  · exact .inl inside
  · exact .inr (.inl older)
  · rcases List.eq_nil_or_concat behind with rfl | ⟨rest, last, rfl⟩
    · rw [List.append_nil] at split
      exact .inl (split ▸ new.isInfix)
    · rw [List.concat_eq_append, ← List.append_assoc] at split
      obtain ⟨same, same_last⟩ := List.append_inj' split rfl
      rw [List.concat_eq_append, ← same_last] at old
      exact .inr (.inr ⟨front, rest, same, new, old⟩)

theorem handings_within {id : Nat} {entries stretch : List Entry} {entry : Entry}
    (inside : stretch ++ [entry] <:+: entries) :
    entry ∈ entries ∧ handings id stretch ≤ handings id entries :=
  ⟨inside.subset (List.mem_append_right _ (List.mem_singleton_self _)),
    ((List.sublist_append_left _ _).trans inside.sublist).countP_le⟩

section
variable {manager : TimerManager Callback}

theorem moved_advance (next : TimerManager Callback) (sound : Sound next) (moved : Moved manager next) :
    Advance manager next [] where
  sound := sound
  recurring := fun id _ => moved.recurring id
  idle := fun id _ empty => (moved.cb id).trans empty
  opened := by
    intro id recurring member
    cases member
  handed := fun _ some => absurd rfl some
  ended := by
    intro id present member
    cases member
  fair := by
    intro entry member
    cases member

theorem addTimer_advance (address : Nat) (now ms : UInt64) (cb : Callback) (recurring : Bool)
    (sound : Sound manager) (free : (manager.objects address).cb = none) :
    Advance manager (addTimerAt manager address now ms cb recurring) [.added address recurring] := by
  have objects : (addTimerAt manager address now ms cb recurring).objects =
      Function.update manager.objects address ⟨recurring, ms, now + ms, some cb⟩ := (add_objects address).1
  have old : ∀ id, Unadded id [.added address recurring] →
      (addTimerAt manager address now ms cb recurring).objects id = manager.objects id := by
    intro id unadded
    rw [objects, Function.update_of_ne fun same => unadded recurring (by rw [same]; exact List.mem_cons_self)]
  have none_handed : ∀ id, handings id [.added address recurring] = 0 := fun _ => rfl
  refine ⟨addTimerAt_sound address now ms cb recurring sound free, fun id unadded => by rw [old id unadded],
    fun id unadded empty => by rw [old id unadded, empty], fun id _ member => ?_,
    fun id some => absurd (none_handed id) some, fun _ _ member => ?_, fun _ member => ?_⟩
  · rw [List.mem_singleton] at member
    cases member
    rw [objects, Function.update_self]
    exact ⟨rfl, none_handed address⟩
  · rw [List.mem_singleton] at member
    cases member
  · rw [List.mem_singleton] at member
    rw [member]
    trivial

theorem cancel_answer (id : Nat) (answer : Bool) (next : TimerManager Callback)
    (canceled : manager.cancel id = .ok (answer, next)) :
    answer = (manager.objects id).cb.isSome := by
  unfold cancel at canceled
  split at canceled
  · rename_i held
    rw [held]
    cases erased : (manager.modify id fun timer => { timer with cb := none }).erase id with
    | error fault =>
        rw [erased] at canceled
        cases canceled
    | ok rest =>
        rw [erased] at canceled
        cases canceled
        rfl
  · rename_i empty
    cases canceled
    simpa using empty

theorem cancel_advance (id : Nat) (sound : Sound manager) :
    ∃ answer next, manager.cancel id = .ok (answer, next) ∧
      Advance manager next [.canceled id (decide (id ∈ manager.timers)) answer] := by
  obtain ⟨answer, next, canceled, sound', -, empty, others, recurring⟩ := cancel_sound id sound
  have answered := cancel_answer id answer next canceled
  have none_handed : ∀ other present, handings other [.canceled id present answer] = 0 :=
    fun _ _ => rfl
  refine ⟨answer, next, canceled, sound', fun other _ => recurring other, fun other _ idle => ?_,
    fun other _ member => ?_, fun other some => absurd (none_handed other _) some,
    fun other present member => ?_, fun entry member => ?_⟩
  · by_cases same : other = id
    · rw [same, empty]
    · rw [others other same, idle]
  · rw [List.mem_singleton] at member
    cases member
  · rw [List.mem_singleton] at member
    cases member
    exact ⟨empty, none_handed id _⟩
  · rw [List.mem_singleton] at member
    rw [member, Fair, answered, Bool.eq_iff_iff, decide_eq_true_iff]
    exact (sound.mem_iff id).symm

theorem handedOut_due (probe : Nat) (now : UInt64) (sound : Sound manager) (free : probe ∉ manager.timers)
    (id : Nat) (member : id ∈ handedOut manager probe now) :
    (manager.objects id).next ≤ now ∨ (manager.detectClockRollover now).1 = true := by
  cases rollover : (manager.detectClockRollover now).1 with
  | true => exact .inr rfl
  | false => exact .inl ((handedOut_iff probe now sound free rollover id).mp member).2

theorem listExpiredCb_answers (probe : Nat) (now : UInt64) (sound : Sound manager) :
    (listExpiredCbAt manager probe now).1 =
      (handedOut manager probe now).map fun id => (manager.objects id).cb := by
  obtain ⟨rest, previous, split, collected⟩ := @listExpiredCb_cases Callback manager probe now
  rw [collected]
  exact collect_answers now _ (expired_collecting probe now previous rest sound split)

theorem listExpiredCb_finished (probe : Nat) (now : UInt64) (sound : Sound manager) (id : Nat)
    (member : id ∈ handedOut manager probe now) (oneShot : (manager.objects id).recurring = false) :
    ((listExpiredCbAt manager probe now).2.objects id).cb = none := by
  obtain ⟨rest, previous, split, collected⟩ := @listExpiredCb_cases Callback manager probe now
  rw [collected]
  exact collect_finished now _ (expired_collecting probe now previous rest sound split) id member oneShot

theorem handings_entries (probe : Nat) (now : UInt64) (id : Nat) :
    handings id (World.entries manager probe now) = (handedOut manager probe now).count id := by
  unfold handings World.entries
  rw [List.countP_map]
  rfl

theorem listExpiredCb_advance (probe : Nat) (now : UInt64) (sound : Sound manager)
    (free : probe ∉ manager.timers) :
    Advance manager (listExpiredCbAt manager probe now).2 (World.entries manager probe now) := by
  obtain ⟨sound', kept⟩ := listExpiredCb_kept probe now sound
  refine ⟨sound', fun id _ => kept.recurring id, fun id _ => kept.idle id, fun id _ member => ?_,
    fun id some => ?_, fun id present member => ?_, fun entry member => ?_⟩
  · obtain ⟨other, -, other_eq⟩ := List.mem_map.mp member
    cases other_eq
  · rw [handings_entries] at some ⊢
    have member := List.count_pos_iff.mp (Nat.pos_of_ne_zero some)
    exact ⟨(sound.mem_iff id).mp (handedOut_member probe now id member),
      List.count_eq_one_of_mem (handedOut_nodup probe now sound) member,
      listExpiredCb_finished probe now sound id member⟩
  · obtain ⟨other, -, other_eq⟩ := List.mem_map.mp member
    cases other_eq
  · obtain ⟨id, handed, rfl⟩ := List.mem_map.mp member
    exact handedOut_due probe now sound free id handed

end

theorem operate_advance (world : World Callback) (call : Call Callback) (sound : Sound world.manager)
    (possible : world.Possible call) :
    ∃ next entries, world.operate call = .ok ⟨next, entries ++ world.log⟩ ∧
      Advance world.manager next entries := by
  cases call with
  | addTimer address now ms cb recurring =>
      exact ⟨_, [_], rfl, addTimer_advance address now ms cb recurring sound possible⟩
  | cancel id =>
      obtain ⟨answer, next, canceled, advance⟩ := cancel_advance id sound
      exact ⟨next, [_], by rw [World.operate, canceled, ok_bind]; rfl, advance⟩
  | refresh id now =>
      obtain ⟨sound', moved⟩ := refresh_sound id now sound
      exact ⟨_, [], rfl, moved_advance _ sound' moved⟩
  | reset id ms fromNow now =>
      obtain ⟨sound', moved⟩ := reset_sound id ms fromNow now sound
      exact ⟨_, [], rfl, moved_advance _ sound' moved⟩
  | listExpiredCb probe now => exact ⟨_, _, rfl, listExpiredCb_advance probe now sound possible⟩

theorem fresh_recorded (now : UInt64) : Recorded (World.fresh now : World Callback) where
  sound := fresh_sound now
  unheld := fun _ _ => rfl
  spent := by
    intro id recurring stretch cut
    exact absurd (List.prefix_nil.mp cut) (List.concat_ne_nil _ _)
  ended := by
    intro id present stretch cut
    exact absurd (List.prefix_nil.mp cut) (List.concat_ne_nil _ _)
  unborn := by
    intro id stretch older
    rw [List.suffix_nil.mp older]
    exact fun _ => rfl
  once := by
    intro id stretch cut
    exact absurd (List.infix_nil.mp cut) (List.concat_ne_nil _ _)
  silent := by
    intro id present stretch cut
    exact absurd (List.infix_nil.mp cut) (List.concat_ne_nil _ _)
  fair := by
    intro entry member
    cases member

section
variable {world : World Callback} {next : TimerManager Callback} {entries : List Entry}

theorem Advance.unhanded (advance : Advance world.manager next entries) (id : Nat)
    (empty : (world.manager.objects id).cb = none) : handings id entries = 0 := by
  by_contra some
  have held := (advance.handed id some).1
  rw [empty] at held
  cases held

theorem advance_spent (recorded : Recorded world) (advance : Advance world.manager next entries)
    (id : Nat) (recurring : Bool) (stretch : List Entry)
    (cut : stretch ++ [.added id recurring] <+: entries ++ world.log) (unadded : Unadded id stretch) :
    (next.objects id).recurring = recurring ∧
      (recurring = false → handings id stretch + (next.objects id).cb.isSome.toNat ≤ 1) := by
  rcases cut_newest cut with inside | ⟨rest, rfl, older⟩
  · obtain ⟨member, fewer⟩ := @handings_within id _ _ _ inside
    obtain ⟨same, none_handed⟩ := advance.opened id recurring member
    have bit := Bool.toNat_le (next.objects id).cb.isSome
    exact ⟨same, fun _ => by omega⟩
  · obtain ⟨new, old⟩ := unadded.append
    obtain ⟨same, spent⟩ := recorded.spent id recurring rest older old
    refine ⟨(advance.recurring id new).trans same, fun oneShot => ?_⟩
    have left := spent oneShot
    rw [handings_append]
    by_cases some : handings id entries = 0
    · have less : (next.objects id).cb.isSome.toNat ≤ (world.manager.objects id).cb.isSome.toNat := by
        cases held : (world.manager.objects id).cb with
        | none => rw [advance.idle id new held]
        | some cb => exact Bool.toNat_le _
      omega
    · obtain ⟨held, one, finished⟩ := advance.handed id some
      rw [held] at left
      rw [one, finished (same.trans oneShot)]
      simp only [Bool.toNat_true, Option.isSome_none, Bool.toNat_false] at left ⊢
      omega

theorem advance_ended (recorded : Recorded world) (advance : Advance world.manager next entries)
    (id : Nat) (present : Bool) (stretch : List Entry)
    (cut : stretch ++ [.canceled id present true] <+: entries ++ world.log) (unadded : Unadded id stretch) :
    (next.objects id).cb = none ∧ handings id stretch = 0 := by
  rcases cut_newest cut with inside | ⟨rest, rfl, older⟩
  · obtain ⟨member, fewer⟩ := @handings_within id _ _ _ inside
    obtain ⟨empty, none_handed⟩ := advance.ended id present member
    exact ⟨empty, by omega⟩
  · obtain ⟨new, old⟩ := unadded.append
    obtain ⟨empty, none_handed⟩ := recorded.ended id present rest older old
    rw [handings_append, advance.unhanded id empty, none_handed]
    exact ⟨advance.idle id new empty, rfl⟩

theorem advance_unborn (recorded : Recorded world) (advance : Advance world.manager next entries)
    (id : Nat) (stretch : List Entry) (oldest : stretch <:+ entries ++ world.log)
    (unadded : Unadded id stretch) : handings id stretch = 0 := by
  obtain ⟨newer, whole⟩ := oldest
  rcases List.append_eq_append_iff.mp whole with ⟨rest, inside, rfl⟩ | ⟨rest, -, older⟩
  · obtain ⟨-, old⟩ := unadded.append
    have none_handed := advance.unhanded id (recorded.unheld id old)
    rw [inside, handings_append] at none_handed
    rw [handings_append, recorded.unborn id _ (List.suffix_refl _) old]
    omega
  · exact recorded.unborn id stretch ⟨rest, older.symm⟩ unadded

theorem advance_once (recorded : Recorded world) (advance : Advance world.manager next entries)
    (id : Nat) (stretch : List Entry) (cut : stretch ++ [.added id false] <:+: entries ++ world.log)
    (unadded : Unadded id stretch) : handings id stretch ≤ 1 := by
  rcases cut_anywhere cut with inside | older | ⟨front, rest, rfl, new, older⟩
  · obtain ⟨member, fewer⟩ := @handings_within id _ _ _ inside
    have none_handed := (advance.opened id false member).2
    omega
  · exact recorded.once id stretch older unadded
  · have left := (recorded.spent id false rest older unadded.append.2).2 rfl
    have fewer : handings id front ≤ handings id entries := new.sublist.countP_le
    rw [handings_append]
    by_cases some : handings id entries = 0
    · omega
    · obtain ⟨held, one, -⟩ := advance.handed id some
      rw [held, Bool.toNat_true] at left
      omega

theorem advance_silent (recorded : Recorded world) (advance : Advance world.manager next entries)
    (id : Nat) (present : Bool) (stretch : List Entry)
    (cut : stretch ++ [.canceled id present true] <:+: entries ++ world.log)
    (unadded : Unadded id stretch) : handings id stretch = 0 := by
  rcases cut_anywhere cut with inside | older | ⟨front, rest, rfl, new, older⟩
  · obtain ⟨member, fewer⟩ := @handings_within id _ _ _ inside
    have none_handed := (advance.ended id present member).2
    omega
  · exact recorded.silent id present stretch older unadded
  · obtain ⟨empty, none_handed⟩ := recorded.ended id present rest older unadded.append.2
    have fewer : handings id front ≤ handings id entries := new.sublist.countP_le
    rw [advance.unhanded id empty] at fewer
    rw [handings_append]
    omega

theorem advance_recorded (recorded : Recorded world) (advance : Advance world.manager next entries) :
    Recorded ⟨next, entries ++ world.log⟩ where
  sound := advance.sound
  unheld := fun id unadded => advance.idle id unadded.append.1 (recorded.unheld id unadded.append.2)
  spent := advance_spent recorded advance
  ended := advance_ended recorded advance
  unborn := advance_unborn recorded advance
  once := advance_once recorded advance
  silent := advance_silent recorded advance
  fair := by
    intro entry member
    rcases List.mem_append.mp member with new | old
    · exact advance.fair entry new
    · exact recorded.fair entry old

theorem recorded_safe (recorded : Recorded world) : Safe world where
  ordered := recorded.sound.ordered
  members := recorded.sound.mem_iff
  answers := fun probe now => listExpiredCb_answers probe now recorded.sound
  unborn := recorded.unborn
  once := recorded.once
  silent := recorded.silent
  fair := recorded.fair

end

/-- No run erases a timer that is missing from the set, whatever the addresses; every state that is
reached has its set and its log as they should be, and any possible call can follow. -/
theorem calls_safe (start : UInt64) (calls : List (Call Callback)) (state : Run (World Callback))
    (reached : run step (.ok (.fresh start)) calls = some state) :
    ∃ world, state = .ok world ∧ Safe world ∧
      ∀ call, world.Possible call → ∃ next, world.operate call = .ok next := by
  have kept : ∀ state call next, (∃ world : World Callback, state = .ok world ∧ Recorded world) →
      step state call = some next → ∃ world, next = .ok world ∧ Recorded world := by
    rintro _ call next ⟨world, rfl, recorded⟩ taken
    rw [step] at taken
    split at taken
    · rename_i possible
      obtain ⟨manager, entries, operated, advance⟩ := operate_advance world call recorded.sound possible
      rw [operated] at taken
      cases taken
      exact ⟨_, rfl, advance_recorded recorded advance⟩
    · cases taken
  obtain ⟨world, is, recorded⟩ := run_preserves kept calls _ state ⟨_, rfl, fresh_recorded start⟩ reached
  refine ⟨world, is, recorded_safe recorded, fun call possible => ?_⟩
  obtain ⟨manager, entries, operated, -⟩ := operate_advance world call recorded.sound possible
  exact ⟨_, operated⟩

/-- Two timers that are due together, the later one at the lower address, and a third that is
cancelled and whose address is then taken again. -/
theorem three_timers_safe : ∃ world : World Nat,
    run step (.ok (.fresh 0)) [.addTimer 7 0 10 1 false, .addTimer 3 4 6 2 true, .addTimer 5 0 20 3 false,
      .cancel 5, .listExpiredCb 6 10, .addTimer 5 10 1 4 false] = some (.ok world) ∧ Safe world := by
  have seen : (run step (.ok (.fresh 0 : World Nat)) [.addTimer 7 0 10 1 false, .addTimer 3 4 6 2 true,
      .addTimer 5 0 20 3 false, .cancel 5, .listExpiredCb 6 10, .addTimer 5 10 1 4 false]).isSome = true := by
    decide +kernel
  obtain ⟨state, reached⟩ := Option.isSome_iff_exists.mp seen
  obtain ⟨world, rfl, safe, -⟩ := calls_safe 0 _ state reached
  exact ⟨world, reached, safe⟩

end OtaMqtt.Timers.LifeCycle
