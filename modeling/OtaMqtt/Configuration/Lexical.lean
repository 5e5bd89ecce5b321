import OtaMqtt.Lib.OrderedSet
import OtaMqtt.Log.Codec

/-! The specialisations of `LexicalCast` for containers (sherry/config.h), nested as a variable's
type nests them.

The YAML library and the casts of the types that are no containers are parameters. A cast that
throws is `none`: `ConfigVar` catches every exception alike. -/

namespace OtaMqtt.Configuration.Lexical

open OtaMqtt.Lib OtaMqtt.Lib.OrderedSet
open OtaMqtt.Log (YamlText)

/-- `LexicalCast<T, std::string>` and `LexicalCast<std::string, T>`. -/
structure LexicalCast (T : Type) where
  toText : T → Option String
  fromText : String → Option T

def load (yaml : YamlText) (text : String) : Option Yaml := (yaml.load text).toOption

def write (yaml : YamlText) : Option Yaml → String
  | none => ""
  | some node => yaml.emit node

section
variable {T C : Type} (yaml : YamlText) (cast : LexicalCast T)

def itemNode (item : T) : Option Yaml := do load yaml (← cast.toText item)

def sequenceText (items : List T) : Option String := do
  let node ← items.foldlM (fun node item => do return node.push (← itemNode yaml cast item)) Yaml.null
  return yaml.emit node

def readSequence (add : C → T → C) (empty : C) (text : String) : Option C := do
  let node ← load yaml text
  node.entries.foldlM (fun found entry => do return add found (← cast.fromText (write yaml entry))) empty

def mappingText (entries : List (String × T)) : Option String := do
  let node ← entries.foldlM
    (fun node entry => do return node.set entry.1 (← itemNode yaml cast entry.2)) Yaml.null
  return yaml.emit node

def readMapping (add : C → String × T → C) (empty : C) (text : String) : Option C := do
  let node ← load yaml text
  (← node.pairs).foldlM
    (fun found entry => do return add found (entry.1, ← cast.fromText (yaml.emit entry.2))) empty

end

structure StdSet (T : Type) (less : T → T → Bool) where
  elements : List T
  ordered : Ordered less elements

/-- `std::map` with texts as keys. -/
structure StdMap (T : Type) where
  entries : List (String × T)
  ordered : Ordered (byKey Prod.fst) entries

/-- `std::unordered_set`, with its elements as they are iterated over. -/
structure UnorderedSet (T : Type) where
  elements : List T
  nodup : elements.Nodup

/-- `std::unordered_map` with texts as keys. -/
structure UnorderedMap (T : Type) where
  entries : List (String × T)
  nodup : (entries.map Prod.fst).Nodup

/-- Where a hash table puts a new element; it may move the others. -/
structure Buckets (E : Type) where
  place : E → List E → List E
  placed : ∀ element elements, (place element elements).Perm (element :: elements)

section
variable {T : Type}

def StdSet.empty {less : T → T → Bool} : StdSet T less := ⟨[], List.Pairwise.nil⟩

def StdSet.insert {less : T → T → Bool} (strict : Strict less) (found : StdSet T less) (item : T) :
    StdSet T less :=
  ⟨OrderedSet.insert less item found.elements, insert_ordered strict found.ordered⟩

def StdMap.empty : StdMap T := ⟨[], List.Pairwise.nil⟩

def StdMap.insert (found : StdMap T) (entry : String × T) : StdMap T :=
  ⟨OrderedSet.insert (byKey Prod.fst) entry found.entries, insert_byKey_ordered found.ordered⟩

def UnorderedSet.empty : UnorderedSet T := ⟨[], List.nodup_nil⟩

def UnorderedSet.insert [DecidableEq T] (buckets : Buckets T) (found : UnorderedSet T) (item : T) :
    UnorderedSet T :=
  if fresh : item ∈ found.elements then found
  else ⟨buckets.place item found.elements,
    (buckets.placed item found.elements).nodup_iff.mpr (List.nodup_cons.mpr ⟨fresh, found.nodup⟩)⟩

def UnorderedMap.empty : UnorderedMap T := ⟨[], List.nodup_nil⟩

def UnorderedMap.insert (buckets : Buckets (String × T)) (found : UnorderedMap T)
    (entry : String × T) : UnorderedMap T :=
  if fresh : entry.1 ∈ found.entries.map Prod.fst then found
  else ⟨buckets.place entry found.entries,
    ((buckets.placed entry found.entries).map Prod.fst).nodup_iff.mpr
      (List.nodup_cons.mpr ⟨fresh, found.nodup⟩)⟩

end

/-- A type that a variable may have: its casts, its `operator==`, and the tree that stands for a
value in a document. -/
structure Kind (T : Type) where
  cast : LexicalCast T
  same : T → T → Prop
  tree : T → Yaml

/-- The node of a container that items were pushed to; `null` when there are none. -/
def sequenceTree : List Yaml → Yaml
  | [] => .null
  | items => .sequence items

def mappingTree : List (String × Yaml) → Yaml
  | [] => .null
  | fields => .mapping fields

section
variable {T C : Type} (yaml : YamlText) (of : Kind T)

/-- The templates for sequences differ in the container, and in how an item is added to it. -/
def sequence (items : C → List T) (add : C → T → C) (empty : C) (same : C → C → Prop) : Kind C where
  cast :=
    { toText := fun value => sequenceText yaml of.cast (items value)
      fromText := readSequence yaml of.cast add empty }
  same := same
  tree := fun value => sequenceTree ((items value).map of.tree)

def mapping (entries : C → List (String × T)) (add : C → String × T → C) (empty : C)
    (same : C → C → Prop) : Kind C where
  cast :=
    { toText := fun value => mappingText yaml of.cast (entries value)
      fromText := readMapping yaml of.cast add empty }
  same := same
  tree := fun value => mappingTree ((entries value).map fun entry => (entry.1, of.tree entry.2))

def SameEntry (left right : String × T) : Prop := left.1 = right.1 ∧ of.same left.2 right.2

def vector : Kind (List T) :=
  sequence yaml of id (fun found item => found ++ [item]) [] (List.Forall₂ of.same)

def list : Kind (List T) :=
  sequence yaml of id (fun found item => found ++ [item]) [] (List.Forall₂ of.same)

def set {less : T → T → Bool} (strict : Strict less) : Kind (StdSet T less) :=
  sequence yaml of StdSet.elements (StdSet.insert strict) .empty
    fun left right => List.Forall₂ of.same left.elements right.elements

def unorderedSet [DecidableEq T] (buckets : Buckets T) : Kind (UnorderedSet T) :=
  sequence yaml of UnorderedSet.elements (UnorderedSet.insert buckets) .empty
    fun left right => left.elements.Perm right.elements

def map : Kind (StdMap T) :=
  mapping yaml of StdMap.entries StdMap.insert .empty
    fun left right => List.Forall₂ (SameEntry of) left.entries right.entries

def unorderedMap (buckets : Buckets (String × T)) : Kind (UnorderedMap T) :=
  mapping yaml of UnorderedMap.entries (UnorderedMap.insert buckets) .empty
    fun left right => ∃ entries, left.entries.Perm entries ∧
      List.Forall₂ (SameEntry of) entries right.entries

end

/-- The types that are made by nesting the templates. A set asks for the order of its elements, an
unordered one for their equality. -/
inductive Nested (yaml : YamlText) {Leaf : Type} (leaf : Kind Leaf) : {T : Type} → Kind T → Prop
  | leaf : Nested yaml leaf leaf
  | vector {T : Type} {of : Kind T} : Nested yaml leaf of → Nested yaml leaf (vector yaml of)
  | list {T : Type} {of : Kind T} : Nested yaml leaf of → Nested yaml leaf (list yaml of)
  | set {T : Type} {of : Kind T} {less : T → T → Bool} (strict : Strict less)
      (exact : ∀ left right, of.same left right → left = right) :
      Nested yaml leaf of → Nested yaml leaf (set yaml of strict)
  | unorderedSet {T : Type} {of : Kind T} [DecidableEq T] (buckets : Buckets T)
      (exact : ∀ left right, of.same left right → left = right) :
      Nested yaml leaf of → Nested yaml leaf (unorderedSet yaml of buckets)
  | map {T : Type} {of : Kind T} : Nested yaml leaf of → Nested yaml leaf (map yaml of)
  | unorderedMap {T : Type} {of : Kind T} (buckets : Buckets (String × T)) :
      Nested yaml leaf of → Nested yaml leaf (unorderedMap yaml of buckets)

/-- The library loads back what it writes, for the tree and each part of it. -/
inductive Restored (yaml : YamlText) : Yaml → Prop
  | null : yaml.load (yaml.emit .null) = .ok .null → Restored yaml .null
  | scalar (text : String) : Restored yaml (.scalar text)
  | sequence (items : List Yaml) :
      yaml.load (yaml.emit (.sequence items)) = .ok (.sequence items) →
        (∀ item ∈ items, Restored yaml item) → Restored yaml (.sequence items)
  | mapping (fields : List (String × Yaml)) :
      yaml.load (yaml.emit (.mapping fields)) = .ok (.mapping fields) →
        (∀ field ∈ fields, Restored yaml field.2) → Restored yaml (.mapping fields)

section
variable {T : Type}

def Reads (kind : Kind T) (text : String) (value : T) : Prop :=
  ∃ back, kind.cast.fromText text = some back ∧ kind.same back value

/-- The value has a text, which loads as its tree; the text reads as the value, and so does the
text of the tree. -/
structure Kept (yaml : YamlText) (kind : Kind T) (value : T) : Prop where
  written : ∃ text, kind.cast.toText value = some text ∧ yaml.load text = .ok (kind.tree value) ∧
    Reads kind text value
  again : Reads kind (yaml.emit (kind.tree value)) value

end

section
variable {T C : Type} {yaml : YamlText} {of : Kind T}

theorem Kept.itemNode {item : T} (kept : Kept yaml of item) :
    itemNode yaml of.cast item = some (of.tree item) := by
  obtain ⟨text, written, loaded, -⟩ := kept.written
  rw [Lexical.itemNode, written, Option.bind_eq_bind, Option.bind_some, load, loaded]
  rfl

theorem write_items (items : List T) (kept : ∀ item ∈ items, Kept yaml of item) (node : Yaml) :
    items.foldlM (fun node item => do return node.push (← itemNode yaml of.cast item)) node =
      some ((items.map of.tree).foldl Yaml.push node) := by
  induction items generalizing node with
  | nil => rfl
  | cons item items ih =>
      rw [List.foldlM_cons, (kept item List.mem_cons_self).itemNode, Option.bind_eq_bind,
        Option.bind_some]
      exact ih (fun other member => kept other (List.mem_cons_of_mem _ member)) _

theorem push_all (items : List Yaml) : items.foldl Yaml.push .null = sequenceTree items := by
  cases items with
  | nil => rfl
  | cons item items => exact Yaml.foldl_push [item] items

theorem sequenceText_eq (items : List T) (kept : ∀ item ∈ items, Kept yaml of item) :
    sequenceText yaml of.cast items = some (yaml.emit (sequenceTree (items.map of.tree))) := by
  rw [sequenceText, write_items items kept, push_all]
  rfl

theorem entries_sequenceTree (items : List Yaml) : (sequenceTree items).entries = items.map some := by
  cases items with
  | nil => rfl
  | cons item items => rfl

theorem read_items (add : C → T → C) (items : List T) (kept : ∀ item ∈ items, Kept yaml of item)
    (found : C) :
    ∃ backs, List.Forall₂ of.same backs items ∧
      ((items.map of.tree).map some).foldlM
        (fun found entry => do return add found (← of.cast.fromText (write yaml entry))) found =
          some (backs.foldl add found) := by
  induction items generalizing found with
  | nil => exact ⟨[], List.Forall₂.nil, rfl⟩
  | cons item items ih =>
      obtain ⟨back, read, same⟩ := (kept item List.mem_cons_self).again
      obtain ⟨backs, alike, ran⟩ :=
        ih (fun other member => kept other (List.mem_cons_of_mem _ member)) (add found back)
      refine ⟨back :: backs, .cons same alike, ?_⟩
      rw [List.map_cons, List.map_cons, List.foldlM_cons, write, read]
      exact ran

theorem sequence_kept {items : C → List T} {add : C → T → C} {empty : C} {same : C → C → Prop}
    {value : C} (kept : ∀ item ∈ items value, Kept yaml of item)
    (loaded : yaml.load (yaml.emit (sequenceTree ((items value).map of.tree))) =
      .ok (sequenceTree ((items value).map of.tree)))
    (rebuilt : ∀ backs, List.Forall₂ of.same backs (items value) → same (backs.foldl add empty) value) :
    Kept yaml (sequence yaml of items add empty same) value := by
  obtain ⟨backs, alike, ran⟩ := read_items add (items value) kept empty
  have again : Reads (sequence yaml of items add empty same)
      (yaml.emit (sequenceTree ((items value).map of.tree))) value := by
    refine ⟨backs.foldl add empty, ?_, rebuilt backs alike⟩
    change readSequence yaml of.cast add empty _ = _
    rw [readSequence, load, loaded, ← ran, ← entries_sequenceTree]
    rfl
  exact ⟨⟨_, sequenceText_eq (items value) kept, loaded, again⟩, again⟩

theorem write_entries (entries : List (String × T)) (kept : ∀ entry ∈ entries, Kept yaml of entry.2)
    (node : Yaml) :
    entries.foldlM
        (fun node entry => do return node.set entry.1 (← itemNode yaml of.cast entry.2)) node =
      some ((entries.map fun entry => (entry.1, of.tree entry.2)).foldl
        (fun node field => node.set field.1 field.2) node) := by
  induction entries generalizing node with
  | nil => rfl
  | cons entry entries ih =>
      rw [List.foldlM_cons, (kept entry List.mem_cons_self).itemNode, Option.bind_eq_bind,
        Option.bind_some]
      exact ih (fun other member => kept other (List.mem_cons_of_mem _ member)) _

theorem set_all (fields : List (String × Yaml)) (fresh : (fields.map Prod.fst).Nodup) :
    fields.foldl (fun node field => node.set field.1 field.2) .null = mappingTree fields := by
  cases fields with
  | nil => rfl
  | cons field fields => exact Yaml.foldl_set_fresh [field] fields fresh

theorem tree_keys (entries : List (String × T)) :
    (entries.map fun entry => (entry.1, of.tree entry.2)).map Prod.fst = entries.map Prod.fst := by
  rw [List.map_map]
  rfl

theorem mappingText_eq (entries : List (String × T)) (fresh : (entries.map Prod.fst).Nodup)
    (kept : ∀ entry ∈ entries, Kept yaml of entry.2) :
    mappingText yaml of.cast entries =
      some (yaml.emit (mappingTree (entries.map fun entry => (entry.1, of.tree entry.2)))) := by
  rw [mappingText, write_entries entries kept, set_all _ ((tree_keys entries).symm ▸ fresh)]
  rfl

theorem pairs_mappingTree (fields : List (String × Yaml)) : (mappingTree fields).pairs = some fields := by
  cases fields with
  | nil => rfl
  | cons field fields => rfl

theorem read_entries (add : C → String × T → C) (entries : List (String × T))
    (kept : ∀ entry ∈ entries, Kept yaml of entry.2) (found : C) :
    ∃ backs, List.Forall₂ (SameEntry of) backs entries ∧
      (entries.map fun entry => (entry.1, of.tree entry.2)).foldlM
        (fun found entry => do
          return add found (entry.1, ← of.cast.fromText (yaml.emit entry.2))) found =
            some (backs.foldl add found) := by
  induction entries generalizing found with
  | nil => exact ⟨[], List.Forall₂.nil, rfl⟩
  | cons entry entries ih =>
      obtain ⟨back, read, same⟩ := (kept entry List.mem_cons_self).again
      obtain ⟨backs, alike, ran⟩ :=
        ih (fun other member => kept other (List.mem_cons_of_mem _ member)) (add found (entry.1, back))
      refine ⟨(entry.1, back) :: backs, .cons ⟨rfl, same⟩ alike, ?_⟩
      rw [List.map_cons, List.foldlM_cons, read]
      exact ran

theorem mapping_kept {entries : C → List (String × T)} {add : C → String × T → C} {empty : C}
    {same : C → C → Prop} {value : C} (fresh : ((entries value).map Prod.fst).Nodup)
    (kept : ∀ entry ∈ entries value, Kept yaml of entry.2)
    (loaded : yaml.load (yaml.emit (mappingTree ((entries value).map fun entry => (entry.1, of.tree entry.2)))) =
      .ok (mappingTree ((entries value).map fun entry => (entry.1, of.tree entry.2))))
    (rebuilt : ∀ backs, List.Forall₂ (SameEntry of) backs (entries value) →
      same (backs.foldl add empty) value) :
    Kept yaml (mapping yaml of entries add empty same) value := by
  obtain ⟨backs, alike, ran⟩ := read_entries add (entries value) kept empty
  have again : Reads (mapping yaml of entries add empty same)
      (yaml.emit (mappingTree ((entries value).map fun entry => (entry.1, of.tree entry.2)))) value := by
    refine ⟨backs.foldl add empty, ?_, rebuilt backs alike⟩
    change readMapping yaml of.cast add empty _ = _
    rw [readMapping, load, loaded, ← ran]
    change (mappingTree _).pairs >>= _ = _
    rw [pairs_mappingTree]
    rfl
  exact ⟨⟨_, mappingText_eq (entries value) fresh kept, loaded, again⟩, again⟩

end

section
variable {T : Type}

theorem foldl_append_items (front items : List T) :
    items.foldl (fun found item => found ++ [item]) front = front ++ items := by
  induction items generalizing front with
  | nil => simp
  | cons item items ih => rw [List.foldl_cons, ih, List.append_assoc, List.singleton_append]

theorem equal_of_exact {of : Kind T} (exact : ∀ left right, of.same left right → left = right)
    {backs items : List T} (alike : List.Forall₂ of.same backs items) : backs = items :=
  List.forall₂_eq_eq_eq ▸ alike.imp exact

/-- An element behind all others goes to the end, whatever the order. -/
theorem insert_behind {less : T → T → Bool} {elements : List T} {probe : T}
    (behind : ∀ element ∈ elements, less element probe) :
    OrderedSet.insert less probe elements = elements ++ [probe] := by
  induction elements with
  | nil => rfl
  | cons head tail ih =>
      rw [OrderedSet.insert, if_pos (behind head List.mem_cons_self),
        ih fun element member => behind element (List.mem_cons_of_mem _ member)]
      rfl

theorem insert_ascending {less : T → T → Bool} (front items : List T)
    (ordered : Ordered less (front ++ items)) :
    items.foldl (fun found item => OrderedSet.insert less item found) front = front ++ items := by
  induction items generalizing front with
  | nil => simp
  | cons item items ih =>
      have behind : ∀ element ∈ front, less element item := fun element member =>
        (List.pairwise_append.mp ordered).2.2 element member item List.mem_cons_self
      rw [List.foldl_cons, insert_behind behind, ih]
      · simp
      · simpa using ordered

theorem set_foldl {less : T → T → Bool} (strict : Strict less) (items : List T) (found : StdSet T less) :
    (items.foldl (StdSet.insert strict) found).elements =
      items.foldl (fun elements item => OrderedSet.insert less item elements) found.elements := by
  induction items generalizing found with
  | nil => rfl
  | cons item items ih => exact ih _

theorem map_foldl (entries : List (String × T)) (found : StdMap T) :
    (entries.foldl StdMap.insert found).entries =
      entries.foldl (fun elements entry => OrderedSet.insert (byKey Prod.fst) entry elements)
        found.entries := by
  induction entries generalizing found with
  | nil => rfl
  | cons entry entries ih => exact ih _

theorem unorderedSet_foldl [DecidableEq T] (buckets : Buckets T) (items : List T)
    (found : UnorderedSet T) (fresh : (found.elements ++ items).Nodup) :
    (items.foldl (UnorderedSet.insert buckets) found).elements.Perm (found.elements ++ items) := by
  induction items generalizing found with
  | nil => simp
  | cons item items ih =>
      have absent : item ∉ found.elements := fun member =>
        (List.nodup_append.mp fresh).2.2 item member item List.mem_cons_self rfl
      have placed : (UnorderedSet.insert buckets found item).elements.Perm (item :: found.elements) := by
        rw [UnorderedSet.insert, dif_neg absent]
        exact buckets.placed item found.elements
      have moved : ((UnorderedSet.insert buckets found item).elements ++ items).Perm
          (found.elements ++ item :: items) :=
        (placed.append_right items).trans List.perm_middle.symm
      exact (ih _ (moved.nodup_iff.mpr fresh)).trans moved

theorem unorderedMap_foldl (buckets : Buckets (String × T)) (entries : List (String × T))
    (found : UnorderedMap T) (fresh : ((found.entries ++ entries).map Prod.fst).Nodup) :
    (entries.foldl (UnorderedMap.insert buckets) found).entries.Perm (found.entries ++ entries) := by
  induction entries generalizing found with
  | nil => simp
  | cons entry entries ih =>
      have absent : entry.1 ∉ found.entries.map Prod.fst := by
        intro member
        rw [List.map_append, List.map_cons] at fresh
        exact (List.nodup_append.mp fresh).2.2 _ member _ List.mem_cons_self rfl
      have placed : (UnorderedMap.insert buckets found entry).entries.Perm (entry :: found.entries) := by
        rw [UnorderedMap.insert, dif_neg absent]
        exact buckets.placed entry found.entries
      have moved : ((UnorderedMap.insert buckets found entry).entries ++ entries).Perm
          (found.entries ++ entry :: entries) :=
        (placed.append_right entries).trans List.perm_middle.symm
      exact (ih _ ((moved.map Prod.fst).nodup_iff.mpr fresh)).trans moved

theorem keys_of_alike {of : Kind T} {backs entries : List (String × T)}
    (alike : List.Forall₂ (SameEntry of) backs entries) : backs.map Prod.fst = entries.map Prod.fst := by
  induction alike with
  | nil => rfl
  | cons same _ ih => rw [List.map_cons, List.map_cons, ih, same.1]

theorem ordered_of_keys {backs entries : List (String × T)}
    (keys : backs.map Prod.fst = entries.map Prod.fst) (ordered : Ordered (byKey Prod.fst) entries) :
    Ordered (byKey Prod.fst) backs := by
  have lifted : (entries.map Prod.fst).Pairwise fun left right => decide (left < right) = true :=
    List.pairwise_map.mpr ordered
  rw [← keys] at lifted
  exact List.pairwise_map.mp lifted

theorem map_keys_nodup (value : StdMap T) : (value.entries.map Prod.fst).Nodup := by
  apply List.pairwise_map.mpr
  apply value.ordered.imp
  intro left right before same
  simp only [byKey, decide_eq_true_eq] at before
  exact absurd same before.ne

end

section
variable {yaml : YamlText}

theorem Restored.loaded {node : Yaml} (restored : Restored yaml node)
    (plain : ∀ text, node ≠ .scalar text) : yaml.load (yaml.emit node) = .ok node := by
  cases restored with
  | null loaded => exact loaded
  | scalar text => exact absurd rfl (plain text)
  | sequence items loaded parts => exact loaded
  | mapping fields loaded parts => exact loaded

theorem Restored.items {nodes : List Yaml} (restored : Restored yaml (sequenceTree nodes)) :
    ∀ node ∈ nodes, Restored yaml node := by
  cases nodes with
  | nil => exact fun _ member => nomatch member
  | cons node nodes =>
      cases restored with
      | sequence items loaded parts => exact parts

theorem Restored.fields {fields : List (String × Yaml)} (restored : Restored yaml (mappingTree fields)) :
    ∀ field ∈ fields, Restored yaml field.2 := by
  cases fields with
  | nil => exact fun _ member => nomatch member
  | cons field fields =>
      cases restored with
      | mapping fields loaded parts => exact parts

theorem sequenceTree_plain (nodes : List Yaml) (text : String) : sequenceTree nodes ≠ .scalar text := by
  cases nodes with
  | nil => exact fun same => nomatch same
  | cons node nodes => exact fun same => nomatch same

theorem mappingTree_plain (fields : List (String × Yaml)) (text : String) :
    mappingTree fields ≠ .scalar text := by
  cases fields with
  | nil => exact fun same => nomatch same
  | cons field fields => exact fun same => nomatch same

variable {T C : Type} {of : Kind T} (inner : ∀ item, Restored yaml (of.tree item) → Kept yaml of item)
include inner

theorem sequence_restored {items : C → List T} {add : C → T → C} {empty : C} {same : C → C → Prop}
    {value : C} (restored : Restored yaml ((sequence yaml of items add empty same).tree value))
    (rebuilt : ∀ backs, List.Forall₂ of.same backs (items value) → same (backs.foldl add empty) value) :
    Kept yaml (sequence yaml of items add empty same) value :=
  sequence_kept (fun item member => inner item (restored.items _ (List.mem_map_of_mem member)))
    (restored.loaded (sequenceTree_plain _)) rebuilt

theorem mapping_restored {entries : C → List (String × T)} {add : C → String × T → C} {empty : C}
    {same : C → C → Prop} {value : C} (fresh : ((entries value).map Prod.fst).Nodup)
    (restored : Restored yaml ((mapping yaml of entries add empty same).tree value))
    (rebuilt : ∀ backs, List.Forall₂ (SameEntry of) backs (entries value) →
      same (backs.foldl add empty) value) :
    Kept yaml (mapping yaml of entries add empty same) value :=
  mapping_kept fresh
    (fun entry member => inner entry.2 (restored.fields _ (List.mem_map_of_mem member)))
    (restored.loaded (mappingTree_plain _)) rebuilt

end

theorem nested_kept {yaml : YamlText} {Leaf : Type} {leaf : Kind Leaf}
    (plain : ∀ value, Kept yaml leaf value) {T : Type} {kind : Kind T} (nested : Nested yaml leaf kind) :
    ∀ value, Restored yaml (kind.tree value) → Kept yaml kind value := by
  induction nested with
  | leaf => exact fun value _ => plain value
  | vector _ ih =>
      intro value restored
      apply sequence_restored ih restored
      intro backs alike
      rw [foldl_append_items]
      exact alike
  | list _ ih =>
      intro value restored
      apply sequence_restored ih restored
      intro backs alike
      rw [foldl_append_items]
      exact alike
  | set strict exact _ ih =>
      intro value restored
      apply sequence_restored ih restored
      intro backs alike
      have same := equal_of_exact exact alike
      rw [set_foldl, StdSet.empty, insert_ascending [] backs (same ▸ value.ordered)]
      exact alike
  | unorderedSet buckets exact _ ih =>
      intro value restored
      apply sequence_restored ih restored
      intro backs alike
      have same := equal_of_exact exact alike
      have perm := unorderedSet_foldl buckets backs .empty (same ▸ value.nodup)
      exact same ▸ perm
  | map _ ih =>
      intro value restored
      apply mapping_restored ih (map_keys_nodup value) restored
      intro backs alike
      rw [map_foldl, StdMap.empty,
        insert_ascending [] backs (ordered_of_keys (keys_of_alike alike) value.ordered)]
      exact alike
  | unorderedMap buckets _ ih =>
      intro value restored
      apply mapping_restored ih value.nodup restored
      intro backs alike
      have fresh : (backs.map Prod.fst).Nodup := keys_of_alike alike ▸ value.nodup
      exact ⟨backs, unorderedMap_foldl buckets backs .empty fresh, alike⟩

/-- However its templates are nested, the text of a variable reads as its value. -/
theorem toText_fromText (yaml : YamlText) {Leaf T : Type} (leaf : Kind Leaf) (kind : Kind T)
    (nested : Nested yaml leaf kind) (plain : ∀ value, Kept yaml leaf value) (value : T)
    (restored : Restored yaml (kind.tree value)) :
    ∃ text back, kind.cast.toText value = some text ∧ kind.cast.fromText text = some back ∧
      kind.same back value := by
  obtain ⟨text, written, -, back, read, same⟩ := (nested_kept plain nested value restored).written
  exact ⟨text, back, written, read, same⟩

/-- `LexicalCast<bool, std::string>` and back. -/
def boolKind : Kind Bool where
  cast :=
    { toText := fun value => some (if value then "1" else "0")
      fromText := fun text => if text = "1" then some true else if text = "0" then some false else none }
  same := Eq
  tree := fun value => .scalar (if value then "1" else "0")

/-- `std::map<std::string, std::list<bool>>` with two entries, one of them empty. -/
def sampleFlags : StdMap (List Bool) := ⟨[("a", [true, false]), ("b", [])], by
  unfold Ordered byKey
  decide⟩

def samplePair : Yaml := .sequence [.scalar "1", .scalar "0"]

def sampleTree : Yaml := .mapping [("a", samplePair), ("b", .null)]

def sampleYaml : YamlText where
  emit
    | .scalar text => text
    | .null => "~"
    | .sequence _ => "- 1\n- 0"
    | .mapping _ => "a:\n  - 1\n  - 0\nb: ~"
  load text :=
    if text = "~" then .ok .null
    else if text = "- 1\n- 0" then .ok samplePair
    else if text = "a:\n  - 1\n  - 0\nb: ~" then .ok sampleTree
    else .ok (.scalar text)

theorem boolKind_kept (value : Bool) : Kept sampleYaml boolKind value := by
  cases value with
  | true => exact ⟨⟨"1", rfl, rfl, true, rfl, rfl⟩, true, rfl, rfl⟩
  | false => exact ⟨⟨"0", rfl, rfl, false, rfl, rfl⟩, false, rfl, rfl⟩

theorem sampleTree_restored : Restored sampleYaml sampleTree := by
  refine .mapping _ rfl fun field member => ?_
  rcases List.mem_pair.mp member with rfl | rfl
  · refine .sequence _ rfl fun item member => ?_
    rcases List.mem_pair.mp member with rfl | rfl
    · exact .scalar "1"
    · exact .scalar "0"
  · exact .null rfl

theorem sampleFlags_round_trip :
    ∃ text back, (map sampleYaml (list sampleYaml boolKind)).cast.toText sampleFlags = some text ∧
      (map sampleYaml (list sampleYaml boolKind)).cast.fromText text = some back ∧
      (map sampleYaml (list sampleYaml boolKind)).same back sampleFlags :=
  toText_fromText sampleYaml boolKind _ (.map (.list .leaf)) boolKind_kept sampleFlags
    sampleTree_restored

end OtaMqtt.Configuration.Lexical
