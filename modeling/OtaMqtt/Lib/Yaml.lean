import Mathlib.Tactic

/-! YAML documents, as a library presents them that loads text into a tree of nodes.

A node that a subscript does not find is undefined: it is `none` here, and its own
subscripts are undefined again. -/

namespace OtaMqtt.Lib

/-- A mapping is the list of its fields in the order in which they were stored. -/
inductive Yaml where
  | null
  | scalar (text : String)
  | sequence (items : List Yaml)
  | mapping (fields : List (String × Yaml))

namespace Yaml

/-- The node at the end of a path of keys through mappings. -/
inductive At : Yaml → List String → Yaml → Prop
  | here {node : Yaml} : At node [] node
  | field {fields : List (String × Yaml)} {key : String} {child node : Yaml} {keys : List String} :
      (key, child) ∈ fields → At child keys node → At (mapping fields) (key :: keys) node

inductive Error where
  | parser
  | badSubscript
  | badConversion
  deriving DecidableEq, Repr

def size : Yaml → Nat
  | sequence items => items.length
  | mapping fields => fields.length
  | _ => 0

/-- The subscript by a number. A mapping is searched for the key that reads as it. -/
def entry : Yaml → Nat → Except Error (Option Yaml)
  | sequence items, index => .ok items[index]?
  | mapping fields, index => .ok (fields.lookup (toString index))
  | scalar _, _ => .error .badSubscript
  | null, _ => .ok none

def field : Option Yaml → String → Except Error (Option Yaml)
  | some (mapping fields), key => .ok (fields.lookup key)
  | some (scalar _), _ => .error .badSubscript
  | _, _ => .ok none

/-- `as<std::string>`. -/
def asText : Yaml → Except Error String
  | scalar text => .ok text
  | _ => .error .badConversion

def store (key : String) (value : Yaml) : List (String × Yaml) → List (String × Yaml)
  | [] => [(key, value)]
  | head :: tail => if key == head.1 then (key, value) :: tail else head :: store key value tail

/-- Assignment through the subscript; `null` becomes a mapping. Scalars and sequences are
never assigned to by an encoder. -/
def set : Yaml → String → Yaml → Yaml
  | null, key, value => mapping [(key, value)]
  | mapping fields, key, value => mapping (store key value fields)
  | node, _, _ => node

def Assignable : Yaml → Prop
  | null => True
  | mapping _ => True
  | _ => False

theorem lookup_first (key other : String) (value : Yaml) (fields : List (String × Yaml)) :
    ((key, value) :: fields).lookup other = if other = key then some value else fields.lookup other := by
  rw [List.lookup_cons]
  by_cases same : other = key
  · subst same
    rw [beq_self_eq_true, if_pos rfl]
  · rw [beq_eq_false_iff_ne.mpr same, if_neg same]

theorem lookup_store (key other : String) (value : Yaml) (fields : List (String × Yaml)) :
    (store key value fields).lookup other = if other = key then some value else fields.lookup other := by
  induction fields with
  | nil => exact lookup_first key other value []
  | cons head tail ih =>
      rw [store, lookup_first head.1 other head.2 tail]
      by_cases here : key = head.1
      · subst here
        rw [if_pos (beq_self_eq_true _), lookup_first]
        split <;> rfl
      · rw [if_neg (by simpa using here), lookup_first, ih]
        by_cases same : other = key
        · subst same
          rw [if_neg here, if_pos rfl, if_pos rfl]
        · rw [if_neg same, if_neg same]

theorem field_set {node : Yaml} (assignable : node.Assignable) (key other : String) (value : Yaml) :
    field (some (node.set key value)) other =
      if other = key then .ok (some value) else field (some node) other := by
  cases node with
  | null =>
      simp only [set, field, lookup_first]
      split <;> rfl
  | mapping fields =>
      simp only [set, field, lookup_store]
      split <;> rfl
  | scalar text => exact assignable.elim
  | sequence items => exact assignable.elim

theorem set_assignable {node : Yaml} (assignable : node.Assignable) (key : String) (value : Yaml) :
    (node.set key value).Assignable := by
  cases node with
  | null => trivial
  | mapping fields => trivial
  | scalar text => exact assignable.elim
  | sequence items => exact assignable.elim

section
variable {node : Yaml} (assignable : node.Assignable) (condition : Prop) [Decidable condition]
  (key other : String) (value : Yaml)
include assignable

theorem field_set_if :
    field (some (if condition then node.set key value else node)) other =
      if condition ∧ other = key then .ok (some value) else field (some node) other := by
  by_cases holds : condition
  · rw [if_pos holds, field_set assignable]
    simp only [holds, true_and]
  · rw [if_neg holds, if_neg fun both => holds both.1]

theorem set_if_assignable : (if condition then node.set key value else node).Assignable := by
  split
  · exact set_assignable assignable key value
  · exact assignable

end

/-- `push_back`; `null` becomes a sequence. -/
def push : Yaml → Yaml → Yaml
  | null, item => sequence [item]
  | sequence items, item => sequence (items ++ [item])
  | node, _ => node

/-- `node[key].push_back(item)`; the field is made when it is missing. -/
def pushField (node : Yaml) (key : String) (item : Yaml) : Yaml :=
  match node with
  | mapping fields => node.set key (((fields.lookup key).getD null).push item)
  | _ => node.set key (null.push item)

/-- The loop `for (i = 0; i < node.size(); ++i)` over `node[i]`. -/
def forEach {State : Type} (visit : State → Option Yaml → Except Error State) (start : State)
    (node : Yaml) : Except Error State :=
  (List.range node.size).foldlM (fun state index => do visit state (← node.entry index)) start

theorem forEach_sequence {State : Type} (visit : State → Option Yaml → Except Error State)
    (start : State) (items : List Yaml) :
    forEach visit start (sequence items) =
      items.foldlM (fun state item => visit state (some item)) start := by
  have entries : (List.range items.length).map (fun index => items[index]?) = items.map some := by
    apply List.ext_getElem
    · simp
    · intro index left right
      simp
  calc
    forEach visit start (sequence items) =
        ((List.range items.length).map (fun index => items[index]?)).foldlM visit start := by
      rw [List.foldlM_map]
      rfl
    _ = items.foldlM (fun state item => visit state (some item)) start := by
      rw [entries, List.foldlM_map]

/-- `node[i]` for each `i` below `node.size()`. -/
def entries : Yaml → List (Option Yaml)
  | sequence items => items.map some
  | mapping fields => (List.range fields.length).map fun index => fields.lookup (toString index)
  | _ => []

/-- The iterator, for its keys and values. The keys of the items of a sequence are not valid
nodes, and to read one throws. -/
def pairs : Yaml → Option (List (String × Yaml))
  | mapping fields => some fields
  | sequence (_ :: _) => none
  | _ => some []

theorem foldl_push (items more : List Yaml) :
    more.foldl push (sequence items) = sequence (items ++ more) := by
  induction more generalizing items with
  | nil => simp
  | cons item more ih => simp [push, ih]

theorem store_fresh {key : String} {fields : List (String × Yaml)} (value : Yaml)
    (fresh : fields.lookup key = none) : store key value fields = fields ++ [(key, value)] := by
  induction fields with
  | nil => rfl
  | cons head tail ih =>
      rw [List.lookup_cons] at fresh
      cases same : key == head.1 with
      | true => simp [same] at fresh
      | false =>
          simp only [same] at fresh
          simp [store, same, ih fresh]

theorem foldl_set_fresh (front back : List (String × Yaml)) (fresh : ((front ++ back).map Prod.fst).Nodup) :
    back.foldl (fun node field => node.set field.1 field.2) (mapping front) = mapping (front ++ back) := by
  induction back generalizing front with
  | nil => simp
  | cons field back ih =>
      have absent : front.lookup field.1 = none := by
        apply List.lookup_eq_none_iff.mpr
        intro other member
        rw [List.map_append, List.map_cons] at fresh
        have apart := (List.nodup_append.mp fresh).2.2 other.1 (List.mem_map_of_mem member) field.1
          List.mem_cons_self
        exact bne_iff_ne.mpr apart.symm
      rw [List.foldl_cons, set, store_fresh _ absent, ih]
      · simp
      · simpa using fresh

theorem store_last {key : String} {fields : List (String × Yaml)} (value other : Yaml)
    (fresh : fields.lookup key = none) :
    store key value (fields ++ [(key, other)]) = fields ++ [(key, value)] := by
  induction fields with
  | nil => simp [store]
  | cons head tail ih =>
      rw [List.lookup_cons] at fresh
      cases same : key == head.1 with
      | true => simp [same] at fresh
      | false =>
          simp only [same] at fresh
          simp [store, same, ih fresh]

theorem lookup_last {key : String} {fields : List (String × Yaml)} (value : Yaml)
    (fresh : fields.lookup key = none) : (fields ++ [(key, value)]).lookup key = some value := by
  rw [List.lookup_append, fresh]
  simp

theorem foldl_pushField {key : String} {fields : List (String × Yaml)} (items more : List Yaml)
    (fresh : fields.lookup key = none) :
    more.foldl (fun node item => node.pushField key item)
        (mapping (fields ++ [(key, sequence items)])) =
      mapping (fields ++ [(key, sequence (items ++ more))]) := by
  induction more generalizing items with
  | nil => simp
  | cons item more ih =>
      have pushed : (mapping (fields ++ [(key, sequence items)])).pushField key item =
          mapping (fields ++ [(key, sequence (items ++ [item]))]) := by
        rw [pushField, lookup_last _ fresh, set, store_last _ _ fresh]
        rfl
      rw [List.foldl_cons, pushed, ih]
      simp

/-- Items pushed on a field that was missing: with none of them the field stays missing. -/
theorem foldl_pushField_fresh {key : String} {fields : List (String × Yaml)} (items : List Yaml)
    (fresh : fields.lookup key = none) :
    items.foldl (fun node item => node.pushField key item) (mapping fields) =
      mapping (fields ++ if items = [] then [] else [(key, sequence items)]) := by
  cases items with
  | nil => simp
  | cons item items =>
      have pushed : (mapping fields).pushField key item =
          mapping (fields ++ [(key, sequence [item])]) := by
        rw [pushField, fresh, set, store_fresh _ fresh]
        rfl
      rw [List.foldl_cons, pushed, foldl_pushField [item] items fresh]
      simp

end Yaml

end OtaMqtt.Lib
