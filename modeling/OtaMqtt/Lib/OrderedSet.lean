import Mathlib.Tactic

/-! A `std::set` with a comparator, as the list of its elements in order.

Insertion and removal walk the list as the search in the tree would: an element that is
neither before nor behind the key is taken for the key. -/

namespace OtaMqtt.Lib.OrderedSet

variable {α : Type}

/-- `insert`: an element that is there already is kept. -/
def insert (less : α → α → Bool) (key : α) : List α → List α
  | [] => [key]
  | head :: tail =>
      if less head key then head :: insert less key tail
      else if less key head then key :: head :: tail
      else head :: tail

/-- `erase(find(key))`, or `none` when `find` answers `end()`. -/
def remove (less : α → α → Bool) (key : α) : List α → Option (List α)
  | [] => none
  | head :: tail =>
      if less head key then (remove less key tail).map (head :: ·)
      else if less key head then none
      else some tail

structure Strict (less : α → α → Bool) : Prop where
  irrefl : ∀ element, less element element = false
  trans : ∀ first second third, less first second → less second third → less first third
  connected : ∀ left right, less left right = false → less right left = false → left = right

def Ordered (less : α → α → Bool) (elements : List α) : Prop :=
  elements.Pairwise fun left right => less left right

section
variable {less : α → α → Bool} {elements : List α} {key : α}

theorem Ordered.nodup (strict : Strict less) (ordered : Ordered less elements) : elements.Nodup := by
  apply ordered.imp
  intro left right before same
  rw [same, strict.irrefl] at before
  cases before

theorem Ordered.congr {other : α → α → Bool} (ordered : Ordered less elements)
    (agree : ∀ left ∈ elements, ∀ right ∈ elements, other left right = less left right) :
    Ordered other elements := by
  apply List.Pairwise.imp_of_mem _ ordered
  intro left right left_mem right_mem before
  rw [agree left left_mem right right_mem]
  exact before

theorem mem_insert (strict : Strict less) (element : α) :
    element ∈ insert less key elements ↔ element = key ∨ element ∈ elements := by
  induction elements with
  | nil => simp [insert]
  | cons head tail ih =>
      rw [insert]
      split
      · rw [List.mem_cons, ih, List.mem_cons]
        tauto
      · split
        · rw [List.mem_cons]
        · rename_i behind before
          have same := strict.connected head key (by simpa using behind) (by simpa using before)
          rw [List.mem_cons, same]
          tauto

theorem insert_ordered (strict : Strict less) (ordered : Ordered less elements) :
    Ordered less (insert less key elements) := by
  induction elements with
  | nil => exact List.pairwise_singleton _ _
  | cons head tail ih =>
      obtain ⟨first, rest⟩ := List.pairwise_cons.mp ordered
      rw [insert]
      split
      · rename_i behind
        apply List.pairwise_cons.mpr ⟨?_, ih rest⟩
        intro element member
        rcases (mem_insert strict element).mp member with rfl | old
        · exact behind
        · exact first element old
      · split
        · rename_i before
          apply List.pairwise_cons.mpr ⟨?_, ordered⟩
          intro element member
          rcases List.mem_cons.mp member with rfl | old
          · exact before
          · exact strict.trans _ _ _ before (first element old)
        · exact ordered

theorem Ordered.mem_takeWhile (ordered : Ordered less elements) (accepts : α → Bool)
    (closed : ∀ left ∈ elements, ∀ right ∈ elements, less left right → accepts right → accepts left)
    (element : α) :
    (element ∈ elements.takeWhile accepts ↔ element ∈ elements ∧ accepts element) ∧
      (element ∈ elements.dropWhile accepts ↔ element ∈ elements ∧ accepts element = false) := by
  induction elements with
  | nil => simp
  | cons head tail ih =>
      obtain ⟨first, rest⟩ := List.pairwise_cons.mp ordered
      by_cases accepted : accepts head
      · have later := ih rest fun left left_mem right right_mem =>
          closed left (List.mem_cons_of_mem _ left_mem) right (List.mem_cons_of_mem _ right_mem)
        rw [List.takeWhile_cons_of_pos accepted, List.dropWhile_cons_of_pos accepted, List.mem_cons,
          List.mem_cons, later.1, later.2]
        constructor
        · constructor
          · rintro (rfl | ⟨member, holds⟩)
            · exact ⟨.inl rfl, accepted⟩
            · exact ⟨.inr member, holds⟩
          · rintro ⟨rfl | member, holds⟩
            · exact .inl rfl
            · exact .inr ⟨member, holds⟩
        · constructor
          · exact fun both => ⟨.inr both.1, both.2⟩
          · rintro ⟨rfl | member, refused⟩
            · rw [accepted] at refused
              cases refused
            · exact ⟨member, refused⟩
      · have refused : accepts head = false := by simpa using accepted
        have all : ∀ other ∈ head :: tail, accepts other = false := by
          intro other member
          rcases List.mem_cons.mp member with rfl | later
          · exact refused
          · by_contra holds
            exact accepted (closed head List.mem_cons_self other member (first other later)
              (by simpa using holds))
        rw [List.takeWhile_cons_of_neg accepted, List.dropWhile_cons_of_neg accepted]
        constructor
        · constructor
          · intro nothing
            cases nothing
          · rintro ⟨member, holds⟩
            rw [all element member] at holds
            cases holds
        · exact ⟨fun member => ⟨member, all element member⟩, fun both => both.1⟩

theorem remove_found (strict : Strict less) (ordered : Ordered less elements)
    (present : key ∈ elements) :
    ∃ rest, remove less key elements = some rest ∧ Ordered less rest ∧
      ∀ element, element ∈ rest ↔ element ∈ elements ∧ element ≠ key := by
  induction elements with
  | nil => cases present
  | cons head tail ih =>
      obtain ⟨first, sorted⟩ := List.pairwise_cons.mp ordered
      rw [remove]
      rcases List.mem_cons.mp present with rfl | later
      · have apart : ∀ element ∈ tail, element ≠ key := by
          rintro element member rfl
          have before := first element member
          rw [strict.irrefl] at before
          cases before
        rw [strict.irrefl, if_neg Bool.false_ne_true, if_neg Bool.false_ne_true]
        refine ⟨tail, rfl, sorted, fun element => ?_⟩
        rw [List.mem_cons]
        constructor
        · exact fun member => ⟨.inr member, apart element member⟩
        · rintro ⟨same | member, other⟩
          · exact absurd same other
          · exact member
      · obtain ⟨rest, found, sorted', members⟩ := ih sorted later
        have before := first key later
        rw [if_pos before, found]
        refine ⟨head :: rest, rfl, List.pairwise_cons.mpr ⟨?_, sorted'⟩, fun element => ?_⟩
        · exact fun element member => first element ((members element).mp member).1
        · have apart : head ≠ key := by
            rintro rfl
            rw [strict.irrefl] at before
            cases before
          rw [List.mem_cons, members, List.mem_cons]
          constructor
          · rintro (rfl | ⟨member, other⟩)
            · exact ⟨.inl rfl, apart⟩
            · exact ⟨.inr member, other⟩
          · rintro ⟨rfl | member, other⟩
            · exact .inl rfl
            · exact .inr ⟨member, other⟩

end

section
variable {κ : Type} [LinearOrder κ]

def byKey (key : α → κ) (left right : α) : Bool := decide (key left < key right)

/-- `find(key)`, or `none` for `end()`. -/
def find (less : α → α → Bool) (probe : α) : List α → Option α
  | [] => none
  | head :: tail =>
      if less head probe then find less probe tail
      else if less probe head then none
      else some head

variable {key : α → κ} {elements : List α} {probe : α}

theorem find_present {found : α} (ordered : Ordered (byKey key) elements)
    (present : found ∈ elements) (same : key found = key probe) :
    find (byKey key) probe elements = some found := by
  induction elements with
  | nil => cases present
  | cons head tail ih =>
      obtain ⟨first, sorted⟩ := List.pairwise_cons.mp ordered
      rw [find]
      rcases List.mem_cons.mp present with rfl | later
      · simp [byKey, same]
      · have before := first found later
        simp only [byKey, same] at before
        rw [if_pos (by simpa [byKey] using before)]
        exact ih sorted later

theorem find_mem {found : α} (answer : find (byKey key) probe elements = some found) :
    found ∈ elements ∧ key found = key probe := by
  induction elements with
  | nil => cases answer
  | cons head tail ih =>
      rw [find] at answer
      split at answer
      · have later := ih answer
        exact ⟨List.mem_cons_of_mem _ later.1, later.2⟩
      · rename_i above
        split at answer
        · cases answer
        · rename_i below
          cases answer
          simp only [byKey, decide_eq_true_eq, not_lt] at above below
          exact ⟨List.mem_cons_self, le_antisymm below above⟩

theorem find_absent (ordered : Ordered (byKey key) elements) :
    find (byKey key) probe elements = none ↔ ∀ element ∈ elements, key element ≠ key probe := by
  constructor
  · intro missed element member same
    rw [find_present ordered member same] at missed
    cases missed
  · intro apart
    cases answer : find (byKey key) probe elements with
    | none => rfl
    | some found => exact absurd (find_mem answer).2 (apart found (find_mem answer).1)

theorem mem_of_insert {less : α → α → Bool} {element : α}
    (present : element ∈ insert less probe elements) : element = probe ∨ element ∈ elements := by
  induction elements with
  | nil => simpa [insert] using present
  | cons head tail ih =>
      rw [insert] at present
      split at present
      · rcases List.mem_cons.mp present with rfl | later
        · exact .inr List.mem_cons_self
        · exact (ih later).imp_right (List.mem_cons_of_mem _)
      · split at present
        · exact List.mem_cons.mp present
        · exact .inr present

theorem insert_byKey_ordered (ordered : Ordered (byKey key) elements) :
    Ordered (byKey key) (insert (byKey key) probe elements) := by
  induction elements with
  | nil => exact List.pairwise_singleton _ _
  | cons head tail ih =>
      obtain ⟨first, sorted⟩ := List.pairwise_cons.mp ordered
      rw [insert]
      split
      · rename_i before
        apply List.pairwise_cons.mpr
        refine ⟨fun element member => ?_, ih sorted⟩
        rcases mem_of_insert member with rfl | later
        · exact before
        · exact first element later
      · split
        · rename_i before
          apply List.pairwise_cons.mpr
          refine ⟨fun element member => ?_, ordered⟩
          rcases List.mem_cons.mp member with rfl | later
          · exact before
          · have behind := first element later
            simp only [byKey, decide_eq_true_eq] at before behind ⊢
            exact lt_trans before behind
        · exact ordered

theorem insert_last (behind : ∀ element ∈ elements, byKey key element probe) :
    insert (byKey key) probe elements = elements ++ [probe] := by
  induction elements with
  | nil => rfl
  | cons head tail ih =>
      rw [insert, if_pos (behind head List.mem_cons_self)]
      rw [ih fun element member => behind element (List.mem_cons_of_mem _ member)]
      rfl

end

end OtaMqtt.Lib.OrderedSet
