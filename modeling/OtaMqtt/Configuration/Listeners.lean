import OtaMqtt.Configuration.Variables

/-! The listeners of one variable, while any number of threads set it (`ConfigVar` of
sherry/config.h).

`setValue` compares and calls the listeners under the read lock, and stores the value in a section
of its own under the write lock. Several calls can be between the two. -/

namespace OtaMqtt.Configuration.Listeners

open OtaMqtt.Lib.Trace OtaMqtt.Configuration

variable {Ty Val Cb : Type}

/-- `changing` holds the values of the calls of `setValue` that are between the two locks. Of each
listener `since` remembers the value when it was added, and `heard` its calls, with the old and the
new value. -/
structure World (Ty Val Cb : Type) where
  var : ConfigVar Ty Val Cb
  funId : Nat
  changing : List Val
  since : Nat → Val
  heard : Nat → List (Val × Val)

/-- `addElsewhere` adds a listener to another variable of the type, which counts on the same
static number. -/
inductive Label (Val Cb : Type) where
  | change (value : Val)
  | store (value : Val)
  | addListener (callback : Cb)
  | addElsewhere
  | delListener (key : Nat)
  | clearListener

namespace World

def make (var : ConfigVar Ty Val Cb) : World Ty Val Cb :=
  ⟨{ var with listeners := [] }, 0, [], fun _ => var.value, fun _ => []⟩

def keys (world : World Ty Val Cb) : List Nat := world.var.listeners.map Prod.fst

def addListener (world : World Ty Val Cb) (callback : Cb) : World Ty Val Cb :=
  { world with
    var := (world.var.addListener (world.funId + 1) callback).1
    funId := world.funId + 1
    since := Function.update world.since (world.funId + 1) world.var.value }

variable [DecidableEq Val]

/-- The section under the read lock. -/
def change (world : World Ty Val Cb) (value : Val) : World Ty Val Cb :=
  if value = world.var.value then world
  else { world with
    changing := value :: world.changing
    heard := fun key =>
      if key ∈ world.keys then world.heard key ++ [(world.var.value, value)] else world.heard key }

def step (world : World Ty Val Cb) : Label Val Cb → Option (World Ty Val Cb)
  | .change value => some (world.change value)
  | .store value =>
      if value ∈ world.changing then
        some { world with var := { world.var with value }, changing := world.changing.erase value }
      else none
  | .addListener callback => some (world.addListener callback)
  | .addElsewhere => some { world with funId := world.funId + 1 }
  | .delListener key =>
      some { world with var := { world.var with listeners := world.var.listeners.filter (·.1 ≠ key) } }
  | .clearListener => some { world with var := { world.var with listeners := [] } }

end World

/-- Each call begins where the one before it ended. -/
def Chain : Val → List (Val × Val) → Prop
  | _, [] => True
  | start, (old, new) :: calls => old = start ∧ old ≠ new ∧ Chain new calls

/-- The value that a listener has in mind after its calls. -/
def known : Val → List (Val × Val) → Val
  | start, [] => start
  | _, (_, new) :: calls => known new calls

def World.believed (world : World Ty Val Cb) (key : Nat) : Val := known (world.since key) (world.heard key)

/-- Every listener has heard of the changes one after the other, from the value when it was added
on; and one that is still there has heard of all of them, with those that are about to be stored. -/
structure Informed (world : World Ty Val Cb) : Prop where
  chain : ∀ key, Chain (world.since key) (world.heard key)
  pending : ∀ key ∈ world.keys, ∀ value ∈ world.changing, value = world.believed key
  settled : world.changing = [] → ∀ key ∈ world.keys, world.var.value = world.believed key

/-- While a value is about to be stored nobody changes the variable under a listener's eyes, and
nobody begins to listen. -/
def Apart (world : World Ty Val Cb) : Label Val Cb → Prop
  | .change value => value = world.var.value ∨ world.keys = [] ∨ world.changing = []
  | .addListener _ => ∀ value ∈ world.changing, value = world.var.value
  | _ => True

/-- The numbers of the listeners are used once. -/
structure Kept (world : World Ty Val Cb) : Prop where
  informed : Informed world
  counted : ∀ key ∈ world.keys, key ≤ world.funId
  unused : ∀ key, world.funId < key → world.heard key = []

section
variable {start old new : Val} {calls : List (Val × Val)}

theorem known_append : known start (calls ++ [(old, new)]) = new := by
  induction calls generalizing start with
  | nil => rfl
  | cons call calls ih => exact ih

theorem chain_append :
    Chain start (calls ++ [(old, new)]) ↔ Chain start calls ∧ known start calls = old ∧ old ≠ new := by
  induction calls generalizing start with
  | nil =>
      change old = start ∧ old ≠ new ∧ True ↔ True ∧ start = old ∧ old ≠ new
      tauto
  | cons call calls ih =>
      change call.1 = start ∧ call.1 ≠ call.2 ∧ Chain call.2 (calls ++ [(old, new)]) ↔
        (call.1 = start ∧ call.1 ≠ call.2 ∧ Chain call.2 calls) ∧ known call.2 calls = old ∧ old ≠ new
      rw [ih]
      tauto

end

theorem kept_make (var : ConfigVar Ty Val Cb) : Kept (.make var) := by
  refine ⟨⟨fun _ => trivial, fun key member => ?_, fun _ key member => ?_⟩, fun key member => ?_,
    fun _ _ => rfl⟩
  · cases member
  · cases member
  · cases member

section
variable {world : World Ty Val Cb}

theorem addListener_keys (callback : Cb) :
    (world.addListener callback).keys = world.keys ++ [world.funId + 1] := by
  unfold World.addListener World.keys ConfigVar.addListener
  simp

theorem addListener_believed (kept : Kept world) (callback : Cb) {key : Nat} (member : key ∈ world.keys) :
    (world.addListener callback).believed key = world.believed key := by
  unfold World.addListener World.believed
  dsimp only
  rw [Function.update_of_ne (Nat.lt_succ_of_le (kept.counted key member)).ne]

theorem addListener_new (kept : Kept world) (callback : Cb) :
    (world.addListener callback).believed (world.funId + 1) = world.var.value := by
  unfold World.addListener World.believed
  dsimp only
  rw [kept.unused _ (Nat.lt_succ_self _), Function.update_self]
  rfl

theorem addListener_kept (kept : Kept world) (callback : Cb)
    (apart : ∀ value ∈ world.changing, value = world.var.value) : Kept (world.addListener callback) := by
  refine ⟨⟨fun key => ?_, fun key member value present => ?_, fun empty key member => ?_⟩,
    fun key member => ?_, fun key above => kept.unused key (Nat.lt_of_succ_lt above)⟩
  · by_cases own : key = world.funId + 1
    · subst own
      change Chain _ (world.heard (world.funId + 1))
      rw [kept.unused _ (Nat.lt_succ_self _)]
      trivial
    · unfold World.addListener
      dsimp only
      rw [Function.update_of_ne own]
      exact kept.informed.chain key
  · rw [addListener_keys] at member
    rcases List.mem_append.mp member with old | own
    · rw [addListener_believed kept callback old]
      exact kept.informed.pending key old value present
    · rw [List.mem_singleton.mp own, addListener_new kept]
      exact apart value present
  · rw [addListener_keys] at member
    rcases List.mem_append.mp member with old | own
    · rw [addListener_believed kept callback old]
      exact kept.informed.settled empty key old
    · rw [List.mem_singleton.mp own, addListener_new kept]
      rfl
  · rw [addListener_keys] at member
    rcases List.mem_append.mp member with old | own
    · exact Nat.le_succ_of_le (kept.counted key old)
    · exact (List.mem_singleton.mp own).le

theorem fewer_kept (kept : Kept world) {listeners : List (Nat × Cb)}
    (fewer : listeners ⊆ world.var.listeners) :
    Kept { world with var := { world.var with listeners } } := by
  have keys : ∀ key ∈ listeners.map Prod.fst, key ∈ world.keys := fun key member =>
    List.map_subset Prod.fst fewer member
  exact ⟨⟨kept.informed.chain, fun key member => kept.informed.pending key (keys key member),
    fun empty key member => kept.informed.settled empty key (keys key member)⟩,
    fun key member => kept.counted key (keys key member), kept.unused⟩

theorem early_misinforms (kept : Kept world) (callback : Cb)
    (early : ¬ ∀ value ∈ world.changing, value = world.var.value) :
    ¬ Informed (world.addListener callback) := by
  intro informed
  refine early fun value present => ?_
  have heard := informed.pending (world.funId + 1)
    (by rw [addListener_keys]; exact List.mem_append_right _ (List.mem_singleton_self _)) value present
  rw [addListener_new kept] at heard
  exact heard

end

section
variable [DecidableEq Val] {world : World Ty Val Cb}

theorem change_kept (kept : Kept world) {value : Val}
    (apart : value = world.var.value ∨ world.keys = [] ∨ world.changing = []) :
    Kept (world.change value) := by
  unfold World.change
  split
  · exact kept
  · rename_i other
    obtain ⟨⟨chain, pending, settled⟩, counted, unused⟩ := kept
    have quiet : ∀ key ∈ world.keys, world.changing = [] := fun key member =>
      (apart.resolve_left other).resolve_left (List.ne_nil_of_mem member)
    refine ⟨⟨fun key => ?_, fun key member found present => ?_, fun empty => ?_⟩, counted,
      fun key above => ?_⟩
    · dsimp only
      split
      · rename_i member
        exact chain_append.mpr ⟨chain key, (settled (quiet key member) key member).symm, Ne.symm other⟩
      · exact chain key
    · change key ∈ world.keys at member
      change found ∈ value :: world.changing at present
      rw [quiet key member, List.mem_singleton] at present
      unfold World.believed
      dsimp only
      rw [if_pos member, known_append]
      exact present
    · cases empty
    · dsimp only
      rw [if_neg fun member => absurd (counted key member) (Nat.not_le.mpr above)]
      exact unused key above

theorem store_kept (kept : Kept world) {value : Val} (present : value ∈ world.changing) :
    Kept { world with var := { world.var with value }, changing := world.changing.erase value } := by
  obtain ⟨⟨chain, pending, settled⟩, counted, unused⟩ := kept
  refine ⟨⟨chain, fun key member found left => ?_, fun _ key member => ?_⟩, counted, unused⟩
  · exact pending key member found (List.mem_of_mem_erase left)
  · exact pending key member value present

theorem step_kept (world : World Ty Val Cb) (label : Label Val Cb) (next : World Ty Val Cb)
    (kept : Kept world) (apart : Apart world label) (taken : world.step label = some next) : Kept next := by
  cases label with
  | change value =>
      cases taken
      exact change_kept kept apart
  | store value =>
      obtain ⟨present, ⟨⟩⟩ := Option.ite_none_right_eq_some.mp taken
      exact store_kept kept present
  | addListener callback =>
      cases taken
      exact addListener_kept kept callback apart
  | addElsewhere =>
      cases taken
      have informed := kept.informed
      exact ⟨⟨informed.chain, informed.pending, informed.settled⟩,
        fun key member => Nat.le_succ_of_le (kept.counted key member),
        fun key above => kept.unused key (Nat.lt_of_succ_lt above)⟩
  | delListener key =>
      cases taken
      exact fewer_kept kept (List.filter_subset_self _)
  | clearListener =>
      cases taken
      exact fewer_kept kept (List.nil_subset _)

theorem overlap_misinforms (kept : Kept world) {value : Val}
    (overlap : ¬ (value = world.var.value ∨ world.keys = [] ∨ world.changing = [])) :
    ¬ Informed (world.change value) := by
  intro informed
  obtain ⟨other, listened, changing⟩ := by simpa only [not_or] using overlap
  obtain ⟨key, member⟩ := List.exists_mem_of_ne_nil _ listened
  obtain ⟨waiting, present⟩ := List.exists_mem_of_ne_nil _ changing
  have before := kept.informed.pending key member waiting present
  have chain := informed.chain key
  have pending := informed.pending key
  unfold World.believed at before pending
  simp only [World.change, if_neg other] at chain pending
  change key ∈ world.keys → _ at pending
  rw [if_pos member] at chain pending
  have left := (chain_append.mp chain).2.1
  have after := pending member waiting (List.mem_cons_of_mem _ present)
  rw [known_append] at after
  exact other (after.symm.trans (before.trans left))

theorem unapart_misinforms (world : World Ty Val Cb) (label : Label Val Cb) (kept : Kept world)
    (unapart : ¬ Apart world label) : ∃ next, world.step label = some next ∧ ¬ Informed next := by
  cases label with
  | change value => exact ⟨_, rfl, overlap_misinforms kept unapart⟩
  | addListener callback => exact ⟨_, rfl, early_misinforms kept callback unapart⟩
  | store value => exact absurd trivial unapart
  | addElsewhere => exact absurd trivial unapart
  | delListener key => exact absurd trivial unapart
  | clearListener => exact absurd trivial unapart

/-- The listeners hear of every change, each from where the last one ended, exactly in the runs in
which no change overlaps with another that a listener hears of, or with the arrival of a listener. -/
theorem informed_iff_apart (var : ConfigVar Ty Val Cb) (labels : List (Label Val Cb)) :
    Always World.step Informed (.make var) labels ↔ Guarded World.step Apart (.make var) labels :=
  always_iff_guarded step_kept (fun _ kept => kept.informed) unapart_misinforms labels (.make var)
    (kept_make var)

end

end OtaMqtt.Configuration.Listeners
