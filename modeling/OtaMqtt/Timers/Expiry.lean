import Mathlib.Data.List.TakeWhile
import OtaMqtt.Timers.TimerSet

/-! What one `listExpiredCb` hands out and leaves behind (sherry/timer.cc), wherever the
allocator puts the timers.

A timer is named by its address here: a new timer takes any address that no timer of the set
has, and `now_timer` takes any such address too. -/

namespace OtaMqtt.Timers.Expiry

open OtaMqtt.Lib.OrderedSet
open OtaMqtt.Timers.TimerManager OtaMqtt.Timers.TimerSet

variable {Callback : Type}

/-- The cut of `listExpiredCb` with `now_timer` at the address `probe`. -/
def splitExpiredAt (manager : TimerManager Callback) (probe : Nat) (now : UInt64) (rollover : Bool) :
    List Nat × List Nat :=
  if rollover then (manager.timers, [])
  else
    let objects := Function.update manager.objects probe { next := now }
    let lower := manager.timers.span fun id => less objects id probe
    let same := lower.2.span fun id => (manager.objects id).next == now
    (lower.1 ++ same.1, same.2)

def listExpiredCbAt (manager : TimerManager Callback) (probe : Nat) (now : UInt64) :
    List (Option Callback) × TimerManager Callback :=
  match manager.timers with
  | [] => ([], manager)
  | first :: _ =>
      let (rollover, manager) := manager.detectClockRollover now
      if rollover = false ∧ now < (manager.objects first).next then ([], manager)
      else
        let (expired, rest) := splitExpiredAt manager probe now rollover
        collect now { manager with timers := rest } expired

theorem listExpiredCbAt_created (manager : TimerManager Callback) (now : UInt64) :
    listExpiredCbAt manager manager.created now = manager.listExpiredCb now := rfl

/-- The timers whose callbacks `listExpiredCb` pushes, in this order. -/
def handedOut (manager : TimerManager Callback) (probe : Nat) (now : UInt64) : List Nat :=
  match manager.timers with
  | [] => []
  | first :: _ =>
      let (rollover, manager) := manager.detectClockRollover now
      if rollover = false ∧ now < (manager.objects first).next then []
      else (splitExpiredAt manager probe now rollover).1

inductive Reached : TimerManager Callback → Prop where
  | fresh (now : UInt64) : Reached (.fresh now)
  | added (manager : TimerManager Callback) (address : Nat) (now ms : UInt64) (cb : Callback)
      (recurring : Bool) (before : Reached manager) (free : (manager.objects address).cb = none) :
      Reached (addTimerAt manager address now ms cb recurring)
  | canceled (manager next : TimerManager Callback) (id : Nat) (answer : Bool)
      (before : Reached manager) (done : manager.cancel id = .ok (answer, next)) : Reached next
  | refreshed (manager : TimerManager Callback) (id : Nat) (now : UInt64) (before : Reached manager) :
      Reached (manager.refresh id now).2
  | reset (manager : TimerManager Callback) (id : Nat) (ms : UInt64) (fromNow : Bool) (now : UInt64)
      (before : Reached manager) : Reached (manager.reset id ms fromNow now).2
  | asked (manager : TimerManager Callback) (now : UInt64) (before : Reached manager) :
      Reached (manager.getNextTimer now).2
  | listed (manager : TimerManager Callback) (probe : Nat) (now : UInt64) (before : Reached manager)
      (free : probe ∉ manager.timers) : Reached (listExpiredCbAt manager probe now).2

/-- What a `listExpiredCb` at `now` makes of a manager when `expired` are the timers it
handed out. -/
structure Expires (manager : TimerManager Callback) (now : UInt64) (expired : List Nat)
    (outcome : List (Option Callback) × TimerManager Callback) : Prop where
  cbs : outcome.1 = expired.map fun id => (manager.objects id).cb
  held : ∀ id ∈ expired, (manager.objects id).cb.isSome
  once : expired.Nodup
  sorted : expired.Pairwise fun left right =>
    (manager.objects left).next ≤ (manager.objects right).next
  due : (manager.detectClockRollover now).1 = false →
    ∀ id, id ∈ expired ↔ id ∈ manager.timers ∧ (manager.objects id).next ≤ now
  all : (manager.detectClockRollover now).1 = true → ∀ id, id ∈ expired ↔ id ∈ manager.timers
  set : ∀ id, id ∈ outcome.2.timers ↔
    (id ∈ manager.timers ∧ id ∉ expired) ∨ (id ∈ expired ∧ (manager.objects id).recurring = true)
  ordered : Ordered (less outcome.2.objects) outcome.2.timers
  unchanged : ∀ id, id ∉ expired → outcome.2.objects id = manager.objects id
  rearmed : ∀ id ∈ expired, (manager.objects id).recurring = true →
    outcome.2.objects id = { manager.objects id with next := now + (manager.objects id).ms }
  finished : ∀ id ∈ expired, (manager.objects id).recurring = false →
    id ∉ outcome.2.timers ∧ outcome.2.objects id = { manager.objects id with cb := none }
  following : ∀ clock, (outcome.2.getNextTimer clock).1 = 0 →
    ∃ id ∈ outcome.2.timers, (outcome.2.objects id).next ≤ clock

section
variable {manager : TimerManager Callback}

theorem less_next {objects : Nat → Timer Callback} {left right : Nat}
    (before : less objects left right) : (objects left).next ≤ (objects right).next := by
  rcases (less_iff objects left right).mp before with below | ⟨same, -⟩
  · exact UInt64.le_of_lt below
  · exact UInt64.le_of_eq same

theorem splitExpiredAt_append (probe : Nat) (now : UInt64) (rollover : Bool) :
    (splitExpiredAt manager probe now rollover).1 ++ (splitExpiredAt manager probe now rollover).2 =
      manager.timers := by
  unfold splitExpiredAt
  split
  · exact List.append_nil _
  · simp only [List.span_eq_takeWhile_dropWhile, List.append_assoc, List.takeWhile_append_dropWhile]

theorem before_probe_iff (probe id : Nat) (now : UInt64) (apart : id ≠ probe) :
    less (Function.update manager.objects probe { next := now }) id probe = true ↔
      (manager.objects id).next < now ∨ ((manager.objects id).next = now ∧ id < probe) := by
  rw [less_iff, Function.update_of_ne apart, Function.update_self]

theorem splitExpiredAt_iff (probe : Nat) (now : UInt64) (sound : Sound manager)
    (free : probe ∉ manager.timers) (id : Nat) :
    id ∈ (splitExpiredAt manager probe now false).1 ↔
      id ∈ manager.timers ∧ (manager.objects id).next ≤ now := by
  have apart : ∀ other ∈ manager.timers, other ≠ probe := fun other member same => free (same ▸ member)
  have lower := sound.ordered.mem_takeWhile
    (fun other => less (Function.update manager.objects probe { next := now }) other probe) (by
      intro left left_mem right right_mem before accepted
      rw [before_probe_iff probe right now (apart right right_mem)] at accepted
      rw [before_probe_iff probe left now (apart left left_mem)]
      rcases (less_iff _ _ _).mp before with earlier | ⟨same, address⟩
      · rcases accepted with below | ⟨equal, -⟩
        · exact .inl (UInt64.lt_trans earlier below)
        · exact .inl (equal ▸ earlier)
      · rcases accepted with below | ⟨equal, address'⟩
        · exact .inl (same.symm ▸ below)
        · exact .inr ⟨same.trans equal, Nat.lt_trans address address'⟩)
  have rest : Ordered (less manager.objects) (manager.timers.dropWhile fun other =>
      less (Function.update manager.objects probe { next := now }) other probe) :=
    sound.ordered.sublist (List.dropWhile_sublist _)
  have upper := rest.mem_takeWhile
    (fun other => (manager.objects other).next == now) (by
      intro left left_mem right right_mem before accepted
      obtain ⟨member, refused⟩ := (lower left).2.mp left_mem
      rw [← Bool.not_eq_true, before_probe_iff probe left now (apart left member), not_or] at refused
      have atMost := less_next before
      rw [beq_iff_eq.mp accepted] at atMost
      exact beq_iff_eq.mpr (UInt64.le_antisymm atMost (UInt64.not_lt.mp refused.1)))
  simp only [splitExpiredAt, List.span_eq_takeWhile_dropWhile, Bool.false_eq_true, if_false,
    List.mem_append]
  rw [(lower id).1, (upper id).1, (lower id).2, ← Bool.not_eq_true, beq_iff_eq]
  constructor
  · rintro (⟨member, accepted⟩ | ⟨⟨member, -⟩, equal⟩)
    · rw [before_probe_iff probe id now (apart id member)] at accepted
      rcases accepted with below | ⟨equal, -⟩
      · exact ⟨member, UInt64.le_of_lt below⟩
      · exact ⟨member, UInt64.le_of_eq equal⟩
    · exact ⟨member, UInt64.le_of_eq equal⟩
  · rintro ⟨member, atMost⟩
    by_cases accepted : less (Function.update manager.objects probe { next := now }) id probe = true
    · exact .inl ⟨member, accepted⟩
    · refine .inr ⟨⟨member, accepted⟩, ?_⟩
      rw [before_probe_iff probe id now (apart id member), not_or] at accepted
      exact UInt64.le_antisymm atMost (UInt64.not_lt.mp accepted.1)

theorem settle_self (now : UInt64) (id : Nat) :
    (settle now manager id).objects id =
      if (manager.objects id).recurring then
        { manager.objects id with next := now + (manager.objects id).ms }
      else { manager.objects id with cb := none } := by
  unfold settle
  split
  · exact Function.update_self ..
  · exact Function.update_self ..

theorem collect_objects (now : UInt64) (expired : List Nat) (collecting : Collecting manager expired)
    (id : Nat) :
    (collect now manager expired).2.objects id =
      if id ∈ expired then
        if (manager.objects id).recurring then
          { manager.objects id with next := now + (manager.objects id).ms }
        else { manager.objects id with cb := none }
      else manager.objects id := by
  induction expired generalizing manager with
  | nil =>
      rw [if_neg List.not_mem_nil]
      rfl
  | cons head expired ih =>
      obtain ⟨settled, -, others, -⟩ := settle_collecting now head expired collecting
      have outside := (List.nodup_cons.mp collecting.nodup).1
      rw [collect_cons]
      dsimp only
      rw [ih settled]
      by_cases same : id = head
      · rw [same, if_neg outside, if_pos List.mem_cons_self, settle_self]
      · rw [others id same]
        by_cases later : id ∈ expired
        · rw [if_pos later, if_pos (List.mem_cons_of_mem _ later)]
        · rw [if_neg later, if_neg (by simp [same, later])]

theorem getNextTimer_zero (clock : UInt64) (zero : (manager.getNextTimer clock).1 = 0) :
    ∃ id ∈ manager.timers, (manager.objects id).next ≤ clock := by
  unfold getNextTimer at zero
  cases timers : manager.timers with
  | nil =>
      rw [timers] at zero
      dsimp only at zero
      exact absurd zero (by decide)
  | cons first others =>
      rw [timers] at zero
      dsimp only at zero
      refine ⟨first, List.mem_cons_self, ?_⟩
      by_contra later
      rw [if_neg later] at zero
      have same : (manager.objects first).next = clock := by
        have moved := congrArg (· + clock) zero
        simpa using moved
      exact later (UInt64.le_of_eq same)

theorem first_least {first : Nat} {others : List Nat} (sound : Sound manager)
    (timers : manager.timers = first :: others) (id : Nat) (member : id ∈ manager.timers) :
    (manager.objects first).next ≤ (manager.objects id).next := by
  have ordered := sound.ordered
  rw [timers] at ordered member
  rcases List.mem_cons.mp member with rfl | behind
  · exact UInt64.le_refl _
  · exact less_next ((List.pairwise_cons.mp ordered).1 id behind)

theorem listExpiredCb_cases (probe : Nat) (now : UInt64) :
    ∃ rest previous, handedOut manager probe now ++ rest = manager.timers ∧
      listExpiredCbAt manager probe now =
        collect now { manager with timers := rest, previouseTime := previous }
          (handedOut manager probe now) := by
  cases timers : manager.timers with
  | nil =>
      have same : { manager with timers := [] } = manager := by rw [← timers]
      refine ⟨[], manager.previouseTime, ?_, ?_⟩
      · rw [handedOut, timers]
        rfl
      · rw [listExpiredCbAt, handedOut, timers]
        dsimp only
        rw [collect, same]
  | cons first others =>
      have cut := @splitExpiredAt_append Callback (manager.detectClockRollover now).2 probe now
        (manager.detectClockRollover now).1
      change _ = manager.timers at cut
      by_cases later : (manager.detectClockRollover now).1 = false ∧
          now < ((manager.detectClockRollover now).2.objects first).next
      · have nothing : handedOut manager probe now = [] := by
          rw [handedOut, timers]
          exact if_pos later
        refine ⟨first :: others, now, by rw [nothing, List.nil_append], ?_⟩
        rw [nothing, listExpiredCbAt, timers]
        dsimp only
        rw [if_pos later, collect, ← timers]
        rfl
      · have some : handedOut manager probe now = (splitExpiredAt (manager.detectClockRollover now).2 probe now
            (manager.detectClockRollover now).1).1 := by
          rw [handedOut, timers]
          exact if_neg later
        refine ⟨_, now, by rw [some, ← timers]; exact cut, ?_⟩
        rw [some, listExpiredCbAt, timers]
        dsimp only
        rw [if_neg later]
        rfl

theorem handedOut_member (probe : Nat) (now : UInt64) (id : Nat)
    (member : id ∈ handedOut manager probe now) : id ∈ manager.timers := by
  obtain ⟨rest, -, split, -⟩ := @listExpiredCb_cases Callback manager probe now
  rw [← split]
  exact List.mem_append_left rest member

theorem handedOut_nodup (probe : Nat) (now : UInt64) (sound : Sound manager) :
    (handedOut manager probe now).Nodup := by
  obtain ⟨rest, -, split, -⟩ := @listExpiredCb_cases Callback manager probe now
  have nodup := sound.ordered.nodup (less_strict _)
  rw [← split] at nodup
  exact (List.nodup_append.mp nodup).1

theorem expired_collecting (probe : Nat) (now previous : UInt64) (rest : List Nat) (sound : Sound manager)
    (split : handedOut manager probe now ++ rest = manager.timers) :
    Collecting { manager with timers := rest, previouseTime := previous } (handedOut manager probe now) := by
  obtain ⟨ordered, members, apart, nodup, created⟩ := split_collecting _ rest sound split
  exact ⟨ordered, members, apart, nodup, created⟩

theorem handedOut_all (probe : Nat) (now : UInt64) (rolled : (manager.detectClockRollover now).1 = true) :
    handedOut manager probe now = manager.timers := by
  cases timers : manager.timers with
  | nil =>
      rw [handedOut, timers]
  | cons first others =>
      rw [handedOut, timers]
      dsimp only
      rw [rolled, if_neg (fun both => absurd both.1 (by decide)), ← timers]
      rfl

theorem handedOut_iff (probe : Nat) (now : UInt64) (sound : Sound manager) (free : probe ∉ manager.timers)
    (steady : (manager.detectClockRollover now).1 = false) (id : Nat) :
    id ∈ handedOut manager probe now ↔ id ∈ manager.timers ∧ (manager.objects id).next ≤ now := by
  have watched : Sound (manager.detectClockRollover now).2 :=
    ⟨sound.ordered, sound.members, sound.apart, sound.nodup, sound.created⟩
  cases timers : manager.timers with
  | nil =>
      rw [handedOut, timers]
      simp
  | cons first others =>
      rw [handedOut, timers]
      dsimp only
      rw [steady]
      by_cases later : now < (manager.objects first).next
      · rw [if_pos ⟨rfl, later⟩, ← timers]
        constructor
        · intro nothing
          cases nothing
        · rintro ⟨present, atMost⟩
          have least := first_least sound timers id present
          exact absurd (UInt64.lt_of_lt_of_le later least) (UInt64.not_lt.mpr atMost)
      · rw [if_neg fun both => later both.2, ← timers]
        exact splitExpiredAt_iff probe now watched free id

theorem listExpiredCb_kept (probe : Nat) (now : UInt64) (sound : Sound manager) :
    Sound (listExpiredCbAt manager probe now).2 ∧ Kept manager (listExpiredCbAt manager probe now).2 := by
  obtain ⟨rest, previous, split, collected⟩ := @listExpiredCb_cases Callback manager probe now
  rw [collected]
  obtain ⟨sound', kept⟩ := collect_sound now _ (expired_collecting probe now previous rest sound split)
  exact ⟨sound', kept.created, kept.recurring, kept.cb, kept.idle⟩

theorem listExpiredCb_sound (now : UInt64) (sound : Sound manager) :
    Sound (manager.listExpiredCb now).2 ∧ Kept manager (manager.listExpiredCb now).2 := by
  rw [← listExpiredCbAt_created]
  exact listExpiredCb_kept manager.created now sound

theorem listExpiredCbAt_expires (probe : Nat) (now : UInt64) (sound : Sound manager)
    (free : probe ∉ manager.timers) :
    ∃ expired, Expires manager now expired (listExpiredCbAt manager probe now) ∧
      Sound (listExpiredCbAt manager probe now).2 := by
  obtain ⟨rest, previous, split, collected⟩ := @listExpiredCb_cases Callback manager probe now
  have collecting := expired_collecting probe now previous rest sound split
  have due := handedOut_iff probe now sound free
  have all : (manager.detectClockRollover now).1 = true →
      ∀ id, id ∈ handedOut manager probe now ↔ id ∈ manager.timers :=
    fun rolled id => by rw [handedOut_all probe now rolled]
  generalize handedOut manager probe now = expired at split collected collecting due all
  have after := (collect_sound now expired collecting).1
  have objects := collect_objects now expired collecting
  have answers := collect_answers now expired collecting
  rw [← collected] at after objects answers
  dsimp only at objects answers
  have present : ∀ id, id ∈ manager.timers ↔ id ∈ expired ∨ id ∈ rest := by
    intro id
    rw [← split, List.mem_append]
  have sorted := sound.ordered
  rw [← split] at sorted
  have oneShot : ∀ id ∈ expired, (manager.objects id).recurring = false →
      (listExpiredCbAt manager probe now).2.objects id = { manager.objects id with cb := none } := by
    intro id member once
    rw [objects, if_pos member, if_neg (by rw [once]; exact Bool.false_ne_true)]
  have again : ∀ id ∈ expired, (manager.objects id).recurring = true →
      (listExpiredCbAt manager probe now).2.objects id =
        { manager.objects id with next := now + (manager.objects id).ms } := by
    intro id member recurring
    rw [objects, if_pos member, if_pos recurring]
  have unchanged : ∀ id, id ∉ expired →
      (listExpiredCbAt manager probe now).2.objects id = manager.objects id := by
    intro id outside
    rw [objects, if_neg outside]
  have held : ∀ id ∈ expired, (manager.objects id).cb.isSome :=
    fun id member => (sound.mem_iff id).mp ((present id).mpr (.inl member))
  have set : ∀ id, id ∈ (listExpiredCbAt manager probe now).2.timers ↔
      (id ∈ manager.timers ∧ id ∉ expired) ∨
        (id ∈ expired ∧ (manager.objects id).recurring = true) := by
    intro id
    rw [after.mem_iff]
    by_cases member : id ∈ expired
    · cases recurring : (manager.objects id).recurring with
      | true =>
          rw [again id member recurring]
          simp [member, held id member]
      | false =>
          rw [oneShot id member recurring]
          simp [member]
    · rw [unchanged id member, ← sound.mem_iff]
      simp [member]
  refine ⟨expired, ⟨answers, held, collecting.nodup, ?_, due, all, set, after.ordered, unchanged, again, ?_, ?_⟩, after⟩
  · exact (List.pairwise_append.mp sorted).1.imp less_next
  · intro id member once
    refine ⟨?_, oneShot id member once⟩
    rw [set]
    simp [member, once]
  · exact fun clock zero => getNextTimer_zero clock zero

end

theorem Reached.sound {manager : TimerManager Callback} (reached : Reached manager) : Sound manager := by
  induction reached with
  | fresh now => exact fresh_sound now
  | added manager address now ms cb recurring before free ih =>
      exact addTimerAt_sound address now ms cb recurring ih free
  | canceled manager next id answer before done ih =>
      obtain ⟨answer', next', done', sound, -⟩ := cancel_sound id ih
      rw [done, Except.ok.injEq, Prod.mk.injEq] at done'
      rw [done'.2]
      exact sound
  | refreshed manager id now before ih => exact (refresh_sound id now ih).1
  | reset manager id ms fromNow now before ih => exact (reset_sound id ms fromNow now ih).1
  | asked manager now before ih => exact (getNextTimer_sound now ih).1
  | listed manager probe now before free ih =>
      obtain ⟨expired, -, sound⟩ := listExpiredCbAt_expires probe now ih free
      exact sound

/-- For every manager that calls can bring about, every address of `now_timer` and every clock
reading, `listExpiredCb` is exact. -/
theorem listExpiredCb_exact (manager : TimerManager Callback) (reached : Reached manager) (probe : Nat)
    (free : probe ∉ manager.timers) (now : UInt64) :
    ∃ expired, Expires manager now expired (listExpiredCbAt manager probe now) := by
  obtain ⟨expired, expires, -⟩ := listExpiredCbAt_expires probe now reached.sound free
  exact ⟨expired, expires⟩

/-- Two timers of one time with `now_timer` between their addresses. -/
def sameTime : TimerManager Nat :=
  addTimerAt (addTimerAt (.fresh 0) 3 0 10 1 true) 7 4 6 2 false

theorem same_time_exact :
    sameTime.timers = [3, 7] ∧ ∃ expired, Expires sameTime 10 expired (listExpiredCbAt sameTime 5 10) :=
  ⟨by decide, listExpiredCb_exact sameTime
    (.added _ 7 4 6 2 false (.added _ 3 0 10 1 true (.fresh 0) rfl) rfl) 5 (by decide) 10⟩

end OtaMqtt.Timers.Expiry
