import Mathlib.Tactic

/-! Resources that are taken, each by exactly one owner, who holds at most one. -/

namespace OtaMqtt.Lib.Ownership

variable {Owner Resource : Type}

structure Partition (taken : Resource → Prop) (held : Owner → Option Resource) : Prop where
  real : ∀ owner resource, held owner = some resource → taken resource
  single : ∀ owner other resource, held owner = some resource → held other = some resource →
    owner = other
  whole : ∀ resource, taken resource → ∃ owner, held owner = some resource

section
variable {taken : Resource → Prop} {held : Owner → Option Resource}

theorem partition_empty (none_ : ∀ owner, held owner = none) (free : ∀ resource, ¬ taken resource) :
    Partition taken held where
  real := fun owner resource found => by
    rw [none_] at found
    cases found
  single := fun owner other resource found => by
    rw [none_] at found
    cases found
  whole := fun resource is => absurd is (free resource)

theorem Partition.congr {taken' : Resource → Prop} {held' : Owner → Option Resource}
    (partition : Partition taken held) (same : ∀ resource, taken' resource ↔ taken resource)
    (same' : ∀ owner, held' owner = held owner) : Partition taken' held' := by
  obtain rfl : taken' = taken := funext fun resource => propext (same resource)
  obtain rfl : held' = held := funext same'
  exact partition

variable [DecidableEq Owner]

/-- An owner without a resource takes one that is free. -/
theorem Partition.acquire (partition : Partition taken held) {taken' : Resource → Prop}
    {held' : Owner → Option Resource} (owner : Owner) {resource : Resource} (empty : held owner = none)
    (free : ¬ taken resource) (more : ∀ other, taken' other ↔ other = resource ∨ taken other)
    (given : ∀ other, held' other = if other = owner then some resource else held other) :
    Partition taken' held' where
  real := by
    intro other found is
    rw [given] at is
    rw [more]
    split at is
    · exact .inl (Option.some.inj is).symm
    · exact .inr (partition.real other found is)
  single := by
    intro first second found is is'
    rw [given] at is is'
    split at is
    · split at is'
      · rename_i one other
        rw [one, other]
      · cases is
        exact absurd (partition.real second resource is') free
    · split at is'
      · cases is'
        exact absurd (partition.real first resource is) free
      · exact partition.single first second found is is'
  whole := by
    intro found is
    rcases (more found).mp is with rfl | old
    · exact ⟨owner, by rw [given, if_pos rfl]⟩
    · obtain ⟨other, holds⟩ := partition.whole found old
      refine ⟨other, ?_⟩
      rw [given, if_neg, holds]
      rintro rfl
      rw [empty] at holds
      cases holds

/-- An owner gives its resource back. -/
theorem Partition.release (partition : Partition taken held) {taken' : Resource → Prop}
    {held' : Owner → Option Resource} (owner : Owner) {resource : Resource}
    (holds : held owner = some resource) (less : ∀ other, taken' other ↔ other ≠ resource ∧ taken other)
    (given : ∀ other, held' other = if other = owner then none else held other) :
    Partition taken' held' where
  real := by
    intro other found is
    rw [given] at is
    split at is
    · cases is
    · rename_i apart
      rw [less]
      refine ⟨?_, partition.real other found is⟩
      rintro rfl
      exact apart (partition.single other owner found is holds)
  single := by
    intro first second found is is'
    rw [given] at is is'
    split at is
    · cases is
    · split at is'
      · cases is'
      · exact partition.single first second found is is'
  whole := by
    intro found is
    obtain ⟨apart, old⟩ := (less found).mp is
    obtain ⟨other, holds'⟩ := partition.whole found old
    refine ⟨other, ?_⟩
    rw [given, if_neg, holds']
    rintro rfl
    exact apart (Option.some.inj (holds'.symm.trans holds))

end

end OtaMqtt.Lib.Ownership
