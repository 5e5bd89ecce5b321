import Mathlib.Tactic
import OtaMqtt.Lib.Json

/-! Paths of member names in JSON values, and values that are built by assignments along them.

An assignment makes the objects that are missing on its path; where something else than an
object is in the way it does nothing. -/

namespace OtaMqtt.Lib.Json

def descend : List String → Json → Option Json
  | [], json => some json
  | key :: keys, json => (json.find key).bind (descend keys)

/-- `json[key]...[key] = value`. -/
def assign : List String → Json → Json → Json
  | [], value, _ => value
  | key :: keys, value, json => json.set key (assign keys value (json.get key))

def Extensible : Json → Prop
  | null => True
  | object _ => True
  | _ => False

/-- Nothing is in the way of an assignment along the path. -/
def Roomy : List String → Json → Prop
  | [], _ => True
  | key :: keys, json => json.Extensible ∧ Roomy keys (json.get key)

section
variable {json : Json}

theorem lookup_filter_ne {members : List (String × Json)} {key other : String} (apart : other ≠ key) :
    (members.filter (·.1 ≠ key)).lookup other = members.lookup other := by
  induction members with
  | nil => rfl
  | cons member members ih =>
      obtain ⟨name, value⟩ := member
      by_cases same : name = key
      · have missed : (other == name) = false := by
          rw [same]
          exact beq_false_of_ne apart
        rw [List.filter_cons_of_neg (by simp [same]), ih, List.lookup_cons, missed]
      · rw [List.filter_cons_of_pos (by simp [same]), List.lookup_cons, List.lookup_cons, ih]

theorem lookup_filter_self {members : List (String × Json)} (key : String) :
    (members.filter (·.1 ≠ key)).lookup key = none := by
  rw [List.lookup_eq_none_iff]
  intro member kept
  have apart := (List.mem_filter.mp kept).2
  rw [decide_eq_true_iff] at apart
  exact bne_iff_ne.mpr (Ne.symm apart)

theorem find_set_self (extensible : json.Extensible) (key : String) (value : Json) :
    (json.set key value).find key = some value := by
  cases json with
  | null =>
      show List.lookup key [(key, value)] = some value
      rw [List.lookup_cons, beq_self_eq_true]
  | object members =>
      show List.lookup key (members.filter (·.1 ≠ key) ++ [(key, value)]) = some value
      rw [List.lookup_append, lookup_filter_self, Option.none_or, List.lookup_cons, beq_self_eq_true]
  | boolean value => cases extensible
  | integer value => cases extensible
  | float value => cases extensible
  | string value => cases extensible
  | array elements => cases extensible

theorem find_set_other {key other : String} (apart : other ≠ key) (value : Json) :
    (json.set key value).find other = json.find other := by
  cases json with
  | null =>
      show List.lookup other [(key, value)] = none
      rw [List.lookup_cons, beq_false_of_ne apart, List.lookup_nil]
  | object members =>
      show List.lookup other (members.filter (·.1 ≠ key) ++ [(key, value)]) = members.lookup other
      rw [List.lookup_append, lookup_filter_ne apart, List.lookup_cons, beq_false_of_ne apart,
        List.lookup_nil, Option.or_none]
  | boolean value => rfl
  | integer value => rfl
  | float value => rfl
  | string value => rfl
  | array elements => rfl

theorem get_set_self (extensible : json.Extensible) (key : String) (value : Json) :
    (json.set key value).get key = value := by
  rw [get, find_set_self extensible, Option.getD_some]

theorem get_set_other {key other : String} (apart : other ≠ key) (value : Json) :
    (json.set key value).get other = json.get other := by
  rw [get, find_set_other apart, get]

theorem extensible_set (extensible : json.Extensible) (key : String) (value : Json) :
    (json.set key value).Extensible := by
  cases json with
  | null => trivial
  | object members => trivial
  | boolean value => cases extensible
  | integer value => cases extensible
  | float value => cases extensible
  | string value => cases extensible
  | array elements => cases extensible

theorem roomy_null (path : List String) : Roomy path null := by
  induction path with
  | nil => trivial
  | cons key keys ih => exact ⟨trivial, ih⟩

theorem descend_assign_self {path : List String} (roomy : Roomy path json) (value : Json) :
    descend path (assign path value json) = some value := by
  induction path generalizing json with
  | nil => rfl
  | cons key keys ih =>
      rw [descend, assign, find_set_self roomy.1, Option.bind_some]
      exact ih roomy.2

theorem descend_get {keys : List String} (key : String) (long : keys ≠ []) :
    descend keys (json.get key) = descend (key :: keys) json := by
  rw [descend, get]
  cases json.find key with
  | some member => rfl
  | none =>
      cases keys with
      | nil => exact absurd rfl long
      | cons next rest => rfl

theorem descend_assign_other {path other : List String} (roomy : Roomy path json)
    (even : other.length = path.length) (apart : other ≠ path) (value : Json) :
    descend other (assign path value json) = descend other json := by
  induction path generalizing other json with
  | nil => exact absurd (List.eq_nil_of_length_eq_zero even) apart
  | cons key keys ih =>
      cases other with
      | nil => cases even
      | cons key' keys' =>
          rw [List.length_cons, List.length_cons, Nat.add_right_cancel_iff] at even
          by_cases same : key' = key
          · subst same
            have apart' : keys' ≠ keys := fun rest => apart (by rw [rest])
            have long : keys' ≠ [] := by
              rintro rfl
              exact apart' (List.eq_nil_of_length_eq_zero even.symm).symm
            rw [descend, assign, find_set_self roomy.1, Option.bind_some, ih roomy.2 even apart',
              descend_get key' long]
          · rw [descend, assign, find_set_other same, descend]

theorem roomy_assign {path other : List String} (even : other.length = path.length)
    (roomy : Roomy path json) (roomy' : Roomy other json) (value : Json) :
    Roomy other (assign path value json) := by
  induction path generalizing other json with
  | nil =>
      rw [List.eq_nil_of_length_eq_zero even]
      trivial
  | cons key keys ih =>
      cases other with
      | nil => trivial
      | cons key' keys' =>
          rw [List.length_cons, List.length_cons, Nat.add_right_cancel_iff] at even
          refine ⟨extensible_set roomy.1 _ _, ?_⟩
          by_cases same : key' = key
          · subst same
            rw [assign, get_set_self roomy.1]
            exact ih even roomy.2 roomy'.2
          · rw [assign, get_set_other same]
            exact roomy'.2

end

def assignAll (entries : List (List String × Json)) (json : Json) : Json :=
  entries.foldl (fun json entry => assign entry.1 entry.2 json) json

section
variable {entries : List (List String × Json)} {size : Nat} {json : Json}

theorem descend_assignAll_other (even : ∀ entry ∈ entries, entry.1.length = size)
    (roomy : ∀ path : List String, path ∈ entries.map Prod.fst → Roomy path json)
    {path : List String} (long : path.length = size) (missing : path ∉ entries.map Prod.fst) :
    descend path (assignAll entries json) = descend path json := by
  induction entries generalizing json with
  | nil => rfl
  | cons entry entries ih =>
      rw [List.map_cons, List.mem_cons, not_or] at missing
      have first := even entry List.mem_cons_self
      have open_ := roomy entry.1 List.mem_cons_self
      refine (ih (fun other member => even other (List.mem_cons_of_mem _ member)) ?_ missing.2).trans
        (descend_assign_other open_ (long.trans first.symm) missing.1 _)
      intro other member
      obtain ⟨found, inside, rfl⟩ := List.mem_map.mp member
      have later := even found (List.mem_cons_of_mem _ inside)
      exact roomy_assign (later.trans first.symm) open_
        (roomy _ (List.mem_cons_of_mem _ member)) _

/-- Entries that agree where they name one path are all found, in whatever order they are
written. -/
theorem descend_assignAll_self (even : ∀ entry ∈ entries, entry.1.length = size)
    (roomy : ∀ path : List String, path ∈ entries.map Prod.fst → Roomy path json)
    (agree : ∀ one ∈ entries, ∀ other ∈ entries, one.1 = other.1 → one.2 = other.2)
    {entry : List String × Json} (member : entry ∈ entries) :
    descend entry.1 (assignAll entries json) = some entry.2 := by
  induction entries generalizing json entry with
  | nil => cases member
  | cons first entries ih =>
      have length := even first List.mem_cons_self
      have open_ := roomy first.1 List.mem_cons_self
      have even' : ∀ entry ∈ entries, entry.1.length = size :=
        fun other inside => even other (List.mem_cons_of_mem _ inside)
      have roomy' : ∀ path : List String, path ∈ entries.map Prod.fst →
          Roomy path (assign first.1 first.2 json) := by
        intro other inside
        obtain ⟨found, within, rfl⟩ := List.mem_map.mp inside
        exact roomy_assign ((even' found within).trans length.symm) open_
          (roomy _ (List.mem_cons_of_mem _ inside)) _
      have agree' : ∀ one ∈ entries, ∀ other ∈ entries, one.1 = other.1 → one.2 = other.2 :=
        fun one inside other inside' =>
          agree one (List.mem_cons_of_mem _ inside) other (List.mem_cons_of_mem _ inside')
      by_cases again : entry.1 ∈ entries.map Prod.fst
      · obtain ⟨later, inside, same⟩ := List.mem_map.mp again
        rw [agree entry member later (List.mem_cons_of_mem _ inside) same.symm, ← same]
        exact ih even' roomy' agree' inside
      · have now : entry = first := by
          rcases List.mem_cons.mp member with now | later
          · exact now
          · exact absurd (List.mem_map_of_mem later) again
        subst now
        exact (descend_assignAll_other even' roomy' length again).trans (descend_assign_self open_ _)

end

end OtaMqtt.Lib.Json
