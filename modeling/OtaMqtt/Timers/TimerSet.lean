import OtaMqtt.Timers.TimerManager

/-! What every operation of the timer manager maintains. -/

namespace OtaMqtt.Timers.TimerSet

open OtaMqtt.Lib OtaMqtt.Lib.Execution OtaMqtt.Lib.OrderedSet
open OtaMqtt.Timers OtaMqtt.Timers.TimerManager

variable {Callback : Type}

theorem less_iff (objects : Nat → Timer Callback) (lhs rhs : Nat) :
    less objects lhs rhs = true ↔
      (objects lhs).next < (objects rhs).next ∨ (objects lhs).next = (objects rhs).next ∧ lhs < rhs := by
  unfold less
  split
  · rename_i below
    exact ⟨fun _ => .inl below, fun _ => rfl⟩
  · rename_i atLeast
    split
    · rename_i above
      have apart : (objects lhs).next ≠ (objects rhs).next := fun same => by
        rw [same] at above
        exact UInt64.lt_irrefl _ above
      constructor
      · intro absurdity
        cases absurdity
      · rintro (below | ⟨same, -⟩)
        · exact absurd below atLeast
        · exact absurd same apart
    · rename_i atMost
      have same := UInt64.le_antisymm (UInt64.not_lt.mp atMost) (UInt64.not_lt.mp atLeast)
      rw [decide_eq_true_iff]
      exact ⟨fun order => .inr ⟨same, order⟩, fun order => (order.resolve_left atLeast).2⟩

theorem less_strict (objects : Nat → Timer Callback) : Strict (less objects) where
  irrefl := by
    intro id
    rw [← Bool.not_eq_true, less_iff]
    rintro (below | ⟨-, below⟩)
    · exact UInt64.lt_irrefl _ below
    · exact Nat.lt_irrefl id below
  trans := by
    intro first second third
    rw [less_iff, less_iff, less_iff]
    rintro (below | ⟨same, before⟩) (below' | ⟨same', before'⟩)
    · exact .inl (UInt64.lt_trans below below')
    · exact .inl (same' ▸ below)
    · exact .inl (same.symm ▸ below')
    · exact .inr ⟨same.trans same', Nat.lt_trans before before'⟩
  connected := by
    intro left right notBefore notBehind
    rw [← Bool.not_eq_true, less_iff, not_or] at notBefore notBehind
    have same := UInt64.le_antisymm (UInt64.not_lt.mp notBehind.1) (UInt64.not_lt.mp notBefore.1)
    have first : ¬ left < right := fun order => notBefore.2 ⟨same, order⟩
    have second : ¬ right < left := fun order => notBehind.2 ⟨same.symm, order⟩
    omega

theorem less_congr (objects others : Nat → Timer Callback) (lhs rhs : Nat)
    (left : (others lhs).next = (objects lhs).next) (right : (others rhs).next = (objects rhs).next) :
    less others lhs rhs = less objects lhs rhs := by
  unfold less
  rw [left, right]

/-- The set is in order and holds exactly the timers with a callback, apart from the
expired ones that the loop of `listExpiredCb` still has to look at. -/
structure Collecting (manager : TimerManager Callback) (pending : List Nat) : Prop where
  ordered : Ordered (less manager.objects) manager.timers
  members : ∀ id, (manager.objects id).cb.isSome ↔ id ∈ manager.timers ∨ id ∈ pending
  apart : ∀ id ∈ pending, id ∉ manager.timers
  nodup : pending.Nodup
  created : ∀ id, (manager.objects id).cb.isSome → id < manager.created

def Sound (manager : TimerManager Callback) : Prop := Collecting manager []

/-- The timers that stay as they are, but for the moment they are due. -/
structure Kept (before after : TimerManager Callback) : Prop where
  created : after.created = before.created
  recurring : ∀ id, (after.objects id).recurring = (before.objects id).recurring
  cb : ∀ id, (before.objects id).recurring = true → (after.objects id).cb = (before.objects id).cb
  idle : ∀ id, (before.objects id).cb = none → (after.objects id).cb = none

theorem Kept.refl (manager : TimerManager Callback) : Kept manager manager :=
  ⟨rfl, fun _ => rfl, fun _ _ => rfl, fun _ empty => empty⟩

theorem Kept.trans {first second third : TimerManager Callback} (left : Kept first second)
    (right : Kept second third) : Kept first third :=
  ⟨right.created.trans left.created, fun id => (right.recurring id).trans (left.recurring id),
    fun id recurring =>
      (right.cb id ((left.recurring id).trans recurring)).trans (left.cb id recurring),
    fun id empty => right.idle id (left.idle id empty)⟩

section
variable {manager : TimerManager Callback}

theorem Sound.mem_iff (sound : Sound manager) (id : Nat) :
    id ∈ manager.timers ↔ (manager.objects id).cb.isSome := by
  rw [sound.members]
  simp

theorem fresh_sound (now : UInt64) : Sound (fresh now : TimerManager Callback) where
  ordered := List.Pairwise.nil
  members := by
    intro id
    simp [fresh]
  apart := by
    intro id member
    cases member
  nodup := List.nodup_nil
  created := by
    intro id held
    cases held

theorem modify_self (id : Nat) (change : Timer Callback → Timer Callback) :
    (manager.modify id change).objects id = change (manager.objects id) :=
  Function.update_self ..

theorem modify_other (id other : Nat) (change : Timer Callback → Timer Callback) (apart : other ≠ id) :
    (manager.modify id change).objects other = manager.objects other :=
  Function.update_of_ne apart ..

/-- An object outside the set may change when it is due; the order does not notice. -/
theorem ordered_update (id : Nat) (timer : Timer Callback)
    (ordered : Ordered (less manager.objects) manager.timers) (outside : id ∉ manager.timers) :
    Ordered (less (Function.update manager.objects id timer)) manager.timers := by
  apply ordered.congr
  intro left left_mem right right_mem
  have leftApart : left ≠ id := fun same => outside (same ▸ left_mem)
  have rightApart : right ≠ id := fun same => outside (same ▸ right_mem)
  apply less_congr
  · rw [Function.update_of_ne leftApart]
  · rw [Function.update_of_ne rightApart]

theorem insert_collecting (id : Nat) (pending : List Nat)
    (ordered : Ordered (less manager.objects) manager.timers)
    (members : ∀ other, (manager.objects other).cb.isSome ↔
      other = id ∨ other ∈ manager.timers ∨ other ∈ pending)
    (apart : ∀ other ∈ pending, other ≠ id ∧ other ∉ manager.timers) (nodup : pending.Nodup)
    (created : ∀ other, (manager.objects other).cb.isSome → other < manager.created) :
    Collecting (manager.insert id) pending where
  ordered := insert_ordered (less_strict _) ordered
  members := by
    intro other
    have inserted : other ∈ (manager.insert id).timers ↔ other = id ∨ other ∈ manager.timers :=
      mem_insert (less_strict _) other
    rw [inserted, or_assoc]
    exact members other
  apart := by
    intro other member inserted
    rcases (mem_insert (less_strict _) other).mp inserted with same | old
    · exact (apart other member).1 same
    · exact (apart other member).2 old
  nodup := nodup
  created := created

theorem add_collecting (id : Nat) (pending : List Nat)
    (inserted : Collecting (manager.insert id) pending) : Collecting (manager.add id) pending := by
  obtain ⟨ordered, members, apart, nodup, created⟩ := inserted
  unfold add
  dsimp only
  split
  · exact ⟨ordered, members, apart, nodup, created⟩
  · exact ⟨ordered, members, apart, nodup, created⟩

theorem add_objects (id : Nat) : (manager.add id).objects = manager.objects ∧
    (manager.add id).created = manager.created := by
  unfold add
  dsimp only
  split
  · exact ⟨rfl, rfl⟩
  · exact ⟨rfl, rfl⟩

/-- `addTimer` with the address that the allocator answers. -/
def addTimerAt (manager : TimerManager Callback) (address : Nat) (now ms : UInt64) (cb : Callback)
    (recurring : Bool) : TimerManager Callback :=
  { manager with
    created := max manager.created (address + 1)
    objects := Function.update manager.objects address ⟨recurring, ms, now + ms, some cb⟩ }.add address

theorem addTimerAt_created (now ms : UInt64) (cb : Callback) (recurring : Bool) :
    addTimerAt manager manager.created now ms cb recurring =
      (manager.addTimer now ms cb recurring).2 := by
  rw [addTimerAt, Nat.max_eq_right (Nat.le_succ _)]
  rfl

theorem addTimerAt_sound (address : Nat) (now ms : UInt64) (cb : Callback) (recurring : Bool)
    (sound : Sound manager) (free : (manager.objects address).cb = none) :
    Sound (addTimerAt manager address now ms cb recurring) := by
  have outside : address ∉ manager.timers := by
    rw [sound.mem_iff, free]
    exact Bool.false_ne_true
  apply add_collecting
  apply insert_collecting
  · exact ordered_update address _ sound.ordered outside
  · intro other
    by_cases same : other = address
    · subst same
      simp
    · have old := sound.members other
      simp [same, old]
  · intro other member
    cases member
  · exact List.nodup_nil
  · intro other held
    dsimp only at held ⊢
    by_cases same : other = address
    · omega
    · rw [Function.update_of_ne same] at held
      have known := sound.created other held
      omega

theorem addTimer_sound (now ms : UInt64) (cb : Callback) (recurring : Bool) (sound : Sound manager) :
    Sound (manager.addTimer now ms cb recurring).2 ∧
      (manager.addTimer now ms cb recurring).1 = manager.created ∧
      (manager.addTimer now ms cb recurring).2.created = manager.created + 1 ∧
      (manager.addTimer now ms cb recurring).2.objects =
        Function.update manager.objects manager.created ⟨recurring, ms, now + ms, some cb⟩ := by
  have free : (manager.objects manager.created).cb = none := by
    by_contra held
    exact Nat.lt_irrefl _ (sound.created _ (Option.isSome_iff_ne_none.mpr held))
  have sound' := addTimerAt_sound manager.created now ms cb recurring sound free
  rw [addTimerAt_created] at sound'
  let next : TimerManager Callback := { manager with
    created := manager.created + 1
    objects := Function.update manager.objects manager.created ⟨recurring, ms, now + ms, some cb⟩ }
  have fields := @add_objects Callback next manager.created
  exact ⟨sound', rfl, fields.2, fields.1⟩

theorem cancel_sound (id : Nat) (sound : Sound manager) :
    ∃ canceled next, manager.cancel id = .ok (canceled, next) ∧ Sound next ∧
      next.created = manager.created ∧ (next.objects id).cb = none ∧
      (∀ other, other ≠ id → next.objects other = manager.objects other) ∧
      (∀ other, (next.objects other).recurring = (manager.objects other).recurring) := by
  unfold cancel
  by_cases held : (manager.objects id).cb.isSome
  · have present := (sound.mem_iff id).mpr held
    let cleared := manager.modify id fun timer => { timer with cb := none }
    have here : cleared.objects id = { manager.objects id with cb := none } := modify_self _ _
    have others : ∀ other, other ≠ id → cleared.objects other = manager.objects other :=
      fun other apart => modify_other _ _ _ apart
    have unmoved : ∀ other, (cleared.objects other).next = (manager.objects other).next := by
      intro other
      by_cases same : other = id
      · rw [same, here]
      · rw [others other same]
    have ordered : Ordered (less cleared.objects) manager.timers := sound.ordered.congr
      fun left _ right _ => less_congr _ _ left right (unmoved left) (unmoved right)
    obtain ⟨rest, found, sorted, members⟩ := remove_found (less_strict cleared.objects) ordered present
    have erased : cleared.erase id = .ok { cleared with timers := rest } := by
      rw [erase]
      have timers : cleared.timers = manager.timers := rfl
      rw [timers, found]
    have none_at : (cleared.objects id).cb = none := by rw [here]
    rw [if_pos held, erased, ok_bind]
    refine ⟨true, _, rfl, ⟨sorted, ?_, ?_, List.nodup_nil, ?_⟩, rfl, none_at, others, ?_⟩
    · intro other
      by_cases same : other = id
      · subst same
        simp [none_at, members]
      · have old := sound.members other
        simp [others other same, old, members, same]
    · intro other member
      cases member
    · intro other held'
      by_cases same : other = id
      · subst same
        dsimp only at held'
        rw [none_at] at held'
        cases held'
      · dsimp only at held'
        rw [others other same] at held'
        exact sound.created other held'
    · intro other
      by_cases same : other = id
      · dsimp only
        rw [same, here]
      · dsimp only
        rw [others other same]
  · have empty : (manager.objects id).cb = none := by simpa using held
    rw [if_neg held]
    exact ⟨false, manager, rfl, sound, rfl, empty, fun _ _ => rfl, fun _ => rfl⟩

theorem rearm_collecting (id : Nat) (pending : List Nat) (change : Timer Callback → Timer Callback)
    (kept : (change (manager.objects id)).cb = (manager.objects id).cb)
    (collecting : Collecting manager (id :: pending)) :
    Collecting ((manager.modify id change).insert id) pending := by
  obtain ⟨ordered, members, apart, nodup, created⟩ := collecting
  obtain ⟨outside, nodup⟩ := List.nodup_cons.mp nodup
  have cb : ∀ other, ((manager.modify id change).objects other).cb = (manager.objects other).cb := by
    intro other
    by_cases same : other = id
    · rw [same, modify_self, kept]
    · rw [modify_other _ _ _ same]
  apply insert_collecting
  · exact ordered_update id _ ordered (apart id List.mem_cons_self)
  · intro other
    rw [cb, members, List.mem_cons]
    exact or_left_comm
  · intro other member
    refine ⟨?_, apart other (List.mem_cons_of_mem _ member)⟩
    rintro rfl
    exact outside member
  · exact nodup
  · intro other held
    rw [cb] at held
    exact created other held

theorem finish_collecting (id : Nat) (pending : List Nat)
    (collecting : Collecting manager (id :: pending)) :
    Collecting (manager.modify id fun timer => { timer with cb := none }) pending := by
  obtain ⟨ordered, members, apart, nodup, created⟩ := collecting
  obtain ⟨outside, nodup⟩ := List.nodup_cons.mp nodup
  have absent := apart id List.mem_cons_self
  refine ⟨ordered_update id _ ordered absent, fun other => ?_,
    fun other member => apart other (List.mem_cons_of_mem _ member), nodup, fun other held => ?_⟩
  · by_cases same : other = id
    · subst same
      rw [modify_self]
      simp only [Option.isSome_none, Bool.false_eq_true, false_iff, not_or]
      exact ⟨absent, outside⟩
    · rw [modify_other _ _ _ same, members, List.mem_cons]
      constructor
      · rintro (inside | same' | later)
        · exact .inl inside
        · exact absurd same' same
        · exact .inr later
      · rintro (inside | later)
        · exact .inl inside
        · exact .inr (.inr later)
  · by_cases same : other = id
    · subst same
      rw [modify_self] at held
      cases held
    · rw [modify_other _ _ _ same] at held
      exact created other held

theorem modify_kept (id : Nat) (change : Timer Callback → Timer Callback)
    (recurring : (change (manager.objects id)).recurring = (manager.objects id).recurring)
    (cb : (manager.objects id).recurring = true →
      (change (manager.objects id)).cb = (manager.objects id).cb)
    (idle : (manager.objects id).cb = none → (change (manager.objects id)).cb = none) :
    Kept manager (manager.modify id change) := by
  refine ⟨rfl, fun other => ?_, fun other recurs => ?_, fun other empty => ?_⟩
  · by_cases same : other = id
    · rw [same, modify_self, recurring]
    · rw [modify_other _ _ _ same]
  · by_cases same : other = id
    · rw [same] at recurs
      rw [same, modify_self, cb recurs]
    · rw [modify_other _ _ _ same]
  · by_cases same : other = id
    · rw [same] at empty
      rw [same, modify_self, idle empty]
    · rw [modify_other _ _ _ same, empty]

theorem insert_kept (id : Nat) : Kept manager (manager.insert id) :=
  ⟨rfl, fun _ => rfl, fun _ _ => rfl, fun _ empty => empty⟩

/-- The body of the loop over the expired timers. -/
def settle (now : UInt64) (manager : TimerManager Callback) (id : Nat) : TimerManager Callback :=
  if (manager.objects id).recurring then
    (manager.modify id fun timer => { timer with next := now + timer.ms }).insert id
  else manager.modify id fun timer => { timer with cb := none }

theorem collect_cons (now : UInt64) (id : Nat) (expired : List Nat) :
    collect now manager (id :: expired) = ((manager.objects id).cb ::
      (collect now (settle now manager id) expired).1, (collect now (settle now manager id) expired).2) :=
  rfl

theorem settle_collecting (now : UInt64) (id : Nat) (pending : List Nat)
    (collecting : Collecting manager (id :: pending)) :
    Collecting (settle now manager id) pending ∧ Kept manager (settle now manager id) ∧
      (∀ other, other ≠ id → (settle now manager id).objects other = manager.objects other) ∧
      ((manager.objects id).recurring = false → ((settle now manager id).objects id).cb = none) := by
  unfold settle
  by_cases recurring : (manager.objects id).recurring
  · rw [if_pos recurring]
    let later : Timer Callback → Timer Callback := fun timer => { timer with next := now + timer.ms }
    have moved := @modify_kept Callback manager id later rfl (fun _ => rfl) fun empty => empty
    refine ⟨rearm_collecting id pending later rfl collecting, moved.trans (insert_kept id),
      fun other apart => modify_other id other later apart, fun oneShot => ?_⟩
    rw [recurring] at oneShot
    cases oneShot
  · rw [if_neg recurring]
    let finished : Timer Callback → Timer Callback := fun timer => { timer with cb := none }
    have moved := @modify_kept Callback manager id finished rfl (fun recurs => absurd recurs recurring)
      fun _ => rfl
    refine ⟨finish_collecting id pending collecting, moved,
      fun other apart => modify_other id other finished apart, fun _ => ?_⟩
    rw [modify_self]

theorem collect_sound (now : UInt64) (expired : List Nat) (collecting : Collecting manager expired) :
    Sound (collect now manager expired).2 ∧ Kept manager (collect now manager expired).2 := by
  induction expired generalizing manager with
  | nil => exact ⟨collecting, Kept.refl manager⟩
  | cons id expired ih =>
      obtain ⟨settled, first, -⟩ := settle_collecting now id expired collecting
      obtain ⟨sound, kept⟩ := ih settled
      rw [collect_cons]
      exact ⟨sound, first.trans kept⟩

theorem collect_answers (now : UInt64) (expired : List Nat) (collecting : Collecting manager expired) :
    (collect now manager expired).1 = expired.map fun id => (manager.objects id).cb := by
  induction expired generalizing manager with
  | nil => rfl
  | cons id expired ih =>
      obtain ⟨settled, -, others, -⟩ := settle_collecting now id expired collecting
      have outside := (List.nodup_cons.mp collecting.nodup).1
      rw [collect_cons, ih settled, List.map_cons]
      dsimp only
      congr 1
      apply List.map_congr_left
      intro other member
      rw [others other fun same => outside (same ▸ member)]

theorem collect_finished (now : UInt64) (expired : List Nat) (collecting : Collecting manager expired)
    (id : Nat) (member : id ∈ expired) (oneShot : (manager.objects id).recurring = false) :
    ((collect now manager expired).2.objects id).cb = none := by
  induction expired generalizing manager with
  | nil => cases member
  | cons head expired ih =>
      obtain ⟨settled, kept, -, finished⟩ := settle_collecting now head expired collecting
      rw [collect_cons]
      rcases List.mem_cons.mp member with rfl | later
      · exact (collect_sound now expired settled).2.idle id (finished oneShot)
      · exact ih settled later ((kept.recurring id).trans oneShot)

theorem split_collecting (expired rest : List Nat) (sound : Sound manager)
    (split : expired ++ rest = manager.timers) : Collecting { manager with timers := rest } expired := by
  have ordered := sound.ordered
  rw [← split] at ordered
  have nodup := ordered.nodup (less_strict _)
  refine ⟨(List.pairwise_append.mp ordered).2.1, fun id => ?_, fun id early late => ?_,
    (List.nodup_append.mp nodup).1, sound.created⟩
  · dsimp only
    rw [← sound.mem_iff id, ← split, List.mem_append]
    exact or_comm
  · exact (List.nodup_append.mp nodup).2.2 id early id late rfl

structure Moved (before after : TimerManager Callback) : Prop where
  created : after.created = before.created
  recurring : ∀ id, (after.objects id).recurring = (before.objects id).recurring
  cb : ∀ id, (after.objects id).cb = (before.objects id).cb

theorem Moved.refl (manager : TimerManager Callback) : Moved manager manager :=
  ⟨rfl, fun _ => rfl, fun _ => rfl⟩

theorem modify_moved (id : Nat) (change : Timer Callback → Timer Callback)
    (recurring : ∀ timer, (change timer).recurring = timer.recurring)
    (cb : ∀ timer, (change timer).cb = timer.cb) : Moved manager (manager.modify id change) := by
  refine ⟨rfl, fun other => ?_, fun other => ?_⟩
  · by_cases same : other = id
    · rw [same, modify_self, recurring]
    · rw [modify_other _ _ _ same]
  · by_cases same : other = id
    · rw [same, modify_self, cb]
    · rw [modify_other _ _ _ same]

theorem remove_collecting (id : Nat) (sound : Sound manager) (held : (manager.objects id).cb.isSome) :
    ∃ rest, remove (less manager.objects) id manager.timers = some rest ∧
      Collecting { manager with timers := rest } [id] := by
  have present := (sound.mem_iff id).mpr held
  obtain ⟨rest, found, sorted, members⟩ := remove_found (less_strict _) sound.ordered present
  refine ⟨rest, found, sorted, fun other => ?_, fun other alone => ?_, List.nodup_singleton id,
    sound.created⟩
  · dsimp only
    rw [← sound.mem_iff, members, List.mem_singleton]
    by_cases same : other = id
    · simp only [same, present, or_true]
    · simp only [ne_eq, same, not_false_eq_true, and_true, or_false]
  · rw [List.mem_singleton] at alone
    dsimp only
    rw [alone, members]
    exact fun both => both.2 rfl

theorem refresh_sound (id : Nat) (now : UInt64) (sound : Sound manager) :
    Sound (manager.refresh id now).2 ∧ Moved manager (manager.refresh id now).2 := by
  unfold refresh
  split
  · exact ⟨sound, Moved.refl manager⟩
  · rename_i held
    obtain ⟨rest, found, collecting⟩ := remove_collecting id sound
      (Option.isSome_iff_ne_none.mpr (by simpa using held))
    rw [found]
    dsimp only
    have moved := @modify_moved Callback { manager with timers := rest } id
      (fun timer => { timer with next := now + timer.ms }) (fun _ => rfl) fun _ => rfl
    exact ⟨rearm_collecting id [] _ rfl collecting, moved.created, moved.recurring, moved.cb⟩

theorem reset_sound (id : Nat) (ms : UInt64) (fromNow : Bool) (now : UInt64) (sound : Sound manager) :
    Sound (manager.reset id ms fromNow now).2 ∧ Moved manager (manager.reset id ms fromNow now).2 := by
  unfold reset
  dsimp only
  split
  · exact ⟨sound, Moved.refl manager⟩
  · split
    · exact ⟨sound, Moved.refl manager⟩
    · rename_i held
      obtain ⟨rest, found, collecting⟩ := remove_collecting id sound
        (Option.isSome_iff_ne_none.mpr (by simpa using held))
      rw [found]
      dsimp only
      let change : Timer Callback → Timer Callback := fun timer => { timer with
        ms := ms
        next := (if fromNow then now else (manager.objects id).next - (manager.objects id).ms) + ms }
      have moved := @modify_moved Callback { manager with timers := rest } id change (fun _ => rfl)
        fun _ => rfl
      have fields := @add_objects Callback ({ manager with timers := rest }.modify id change) id
      refine ⟨add_collecting id [] (rearm_collecting id [] change rfl collecting), ?_⟩
      exact ⟨fields.2, fun other => by rw [fields.1, moved.recurring],
        fun other => by rw [fields.1, moved.cb]⟩

theorem getNextTimer_sound (now : UInt64) (sound : Sound manager) :
    Sound (manager.getNextTimer now).2 ∧ Kept manager (manager.getNextTimer now).2 := by
  unfold getNextTimer
  dsimp only
  split
  · exact ⟨⟨sound.ordered, sound.members, sound.apart, sound.nodup, sound.created⟩, rfl,
      fun _ => rfl, fun _ _ => rfl, fun _ empty => empty⟩
  · exact ⟨⟨sound.ordered, sound.members, sound.apart, sound.nodup, sound.created⟩, rfl,
      fun _ => rfl, fun _ _ => rfl, fun _ empty => empty⟩

end

end OtaMqtt.Timers.TimerSet
