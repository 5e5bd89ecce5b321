import Mathlib.Tactic

/-! Totals over the entries of a table. -/

namespace OtaMqtt.Lib.Tally

theorem sum_parts {M : Type} [AddCommMonoid M] {size : Nat} {weight other : Nat → M} (index : Nat)
    (inside : index < size) (same : ∀ entry, entry ≠ index → other entry = weight entry) :
    ∃ rest, ∑ entry ∈ Finset.range size, weight entry = weight index + rest ∧
      ∑ entry ∈ Finset.range size, other entry = other index + rest := by
  have member : index ∈ Finset.range size := Finset.mem_range.mpr inside
  have rest : ∑ entry ∈ (Finset.range size).erase index, other entry =
      ∑ entry ∈ (Finset.range size).erase index, weight entry :=
    Finset.sum_congr rfl fun entry elsewhere => same entry (Finset.ne_of_mem_erase elsewhere)
  refine ⟨∑ entry ∈ (Finset.range size).erase index, weight entry, ?_, ?_⟩
  · exact (Finset.add_sum_erase _ weight member).symm
  · rw [← rest]
    exact (Finset.add_sum_erase _ other member).symm

def tally (size : Nat) (weight : Nat → Nat) : Nat := ∑ index ∈ Finset.range size, weight index

section
variable {size : Nat} {weight other : Nat → Nat}

theorem tally_change (index : Nat) (inside : index < size)
    (same : ∀ entry, entry ≠ index → other entry = weight entry) :
    tally size other + weight index = tally size weight + other index := by
  obtain ⟨rest, before, after⟩ := sum_parts index inside same
  unfold tally
  omega

theorem tally_le (most : Nat) (small : ∀ entry, weight entry ≤ most) :
    tally size weight ≤ size * most := by
  calc tally size weight ≤ ∑ _ ∈ Finset.range size, most := Finset.sum_le_sum fun entry _ => small entry
    _ = size * most := by rw [Finset.sum_const, Finset.card_range, smul_eq_mul]

theorem le_tally (index : Nat) (inside : index < size) : weight index ≤ tally size weight :=
  Finset.single_le_sum (fun _ _ => Nat.zero_le _) (Finset.mem_range.mpr inside)

theorem tally_grow (larger : Nat) (order : size ≤ larger)
    (empty : ∀ entry, size ≤ entry → weight entry = 0) : tally larger weight = tally size weight := by
  symm
  apply Finset.sum_subset
  · intro entry member
    have inside := Finset.mem_range.mp member
    exact Finset.mem_range.mpr (by omega)
  · intro entry _ outside
    apply empty
    by_contra near
    exact outside (Finset.mem_range.mpr (by omega))

theorem pair_le_tally (first second : Nat) (inside : first < size) (inside' : second < size)
    (different : first ≠ second) : weight first + weight second ≤ tally size weight := by
  have member : first ∈ Finset.range size := Finset.mem_range.mpr inside
  have rest : second ∈ (Finset.range size).erase first :=
    Finset.mem_erase.mpr ⟨different.symm, Finset.mem_range.mpr inside'⟩
  calc weight first + weight second
      ≤ weight first + ∑ entry ∈ (Finset.range size).erase first, weight entry :=
        Nat.add_le_add_left (Finset.single_le_sum (fun _ _ => Nat.zero_le _) rest) _
    _ = tally size weight := Finset.add_sum_erase (Finset.range size) weight member

theorem tally_zero (empty : ∀ entry < size, weight entry = 0) : tally size weight = 0 :=
  Finset.sum_eq_zero fun entry member => empty entry (Finset.mem_range.mp member)

end

end OtaMqtt.Lib.Tally
