import OtaMqtt.Configuration.Variables

/-! Which variables a document reaches.

`Lookup` accepts names whose paths `ListAllMember` drops: the loader's set of characters lacks
the digit 9. -/

namespace OtaMqtt.Configuration

open OtaMqtt.Lib

variable {Ty Val Cb : Type}

def below (path key : String) : String := if path = "" then key else path ++ "." ++ key

def extend (path : String) : List String → String
  | [] => path
  | key :: keys => extend (below path key) keys

/-- The calls of `fromString` by `LoadFromYaml`: the name of the variable and the text. -/
def fromStringCalls (texts : Texts Ty Val) (config : Config Ty Val Cb) (root : Yaml) :
    List (String × String) :=
  (listAllMember "" root).filterMap fun member =>
    if member.1 = "" ∨ config.datas (member.1.map Char.toLower) = none then none
    else some (member.1.map Char.toLower, nodeText texts member.2)

/-- The path that the dotted name of a variable spells. -/
def components (name : String) : List String := (name.toList.splitOn '.').map String.ofList

def Dotless (root : Yaml) : Prop :=
  ∀ keys node, Yaml.At root keys node → ∀ key ∈ keys, key ≠ "" ∧ '.' ∉ key.toList

/-- Every variable is under a name that `Lookup` accepts. -/
def Accepted (config : Config Ty Val Cb) : Prop :=
  ∀ name object, config.datas name = some object → name.toList.all nameChar

/-- A variable is called with the texts of the nodes at the path of its name, and with no
others. -/
def Loadable (texts : Texts Ty Val) (config : Config Ty Val Cb) (root : Yaml) (name : String) :
    Prop :=
  ∀ text, (name, text) ∈ fromStringCalls texts config root ↔
    ∃ node, Yaml.At root (components name) node ∧ nodeText texts node = text

theorem change_datas (config : Config Ty Val Cb) (object : Nat)
    (call : ConfigVar Ty Val Cb → ConfigVar Ty Val Cb × List (Notice Val Cb)) :
    (config.change object call).datas = config.datas := by
  rw [Config.change]
  split <;> rfl

/-- Loading a document is making those calls in their order. -/
theorem loadFromYaml_calls [DecidableEq Val] (texts : Texts Ty Val) (config : Config Ty Val Cb) (root : Yaml) :
    config.loadFromYaml texts root =
      (fromStringCalls texts config root).foldl (fun config call =>
        match config.datas call.1 with
        | some object => config.change object (·.fromString texts call.2)
        | none => config) config := by
  unfold Config.loadFromYaml fromStringCalls
  generalize same : config.datas = datas
  generalize listAllMember "" root = members
  induction members generalizing config with
  | nil => rfl
  | cons member members ih =>
      rw [List.foldl_cons, List.filterMap_cons, Config.loadMember]
      by_cases skipped : member.1 = ""
      · rw [if_pos skipped, if_pos (.inl skipped)]
        exact ih config same
      · rw [if_neg skipped, same]
        cases found : datas (member.1.map Char.toLower) with
        | none =>
            rw [if_pos (.inr rfl)]
            exact ih config same
        | some object =>
            rw [if_neg (not_or.mpr ⟨skipped, Option.some_ne_none _⟩), List.foldl_cons]
            simp only [same, found]
            exact ih _ ((change_datas ..).trans same)

theorem accepted_empty : Accepted (Config.empty : Config Ty Val Cb) := by
  intro name object registered
  cases registered

/-- `Lookup` keeps the names accepted: it throws for others. -/
theorem accepted_lookupOr [DecidableEq Ty] {config : Config Ty Val Cb} (accepted : Accepted config)
    (type : Ty) (name : String) (value : Val) (description : String) :
    Accepted (config.lookupOr type name value description) := by
  unfold Config.lookupOr
  split_ifs with other legal
  · exact accepted
  · intro name' object registered
    simp only [Config.create, Function.update_apply] at registered
    split_ifs at registered with same
    · rw [same]
      exact legal
    · exact accepted name' object registered
  · exact accepted

theorem dotless_single {key : String} (filled : key ≠ "") (free : '.' ∉ key.toList) (text : String) :
    Dotless (.mapping [(key, .scalar text)]) := by
  rintro keys node (_ | ⟨member, there⟩)
  · exact fun _ absent => absurd absent List.not_mem_nil
  · obtain ⟨rfl, rfl⟩ := Prod.mk.inj (List.mem_singleton.mp member)
    cases there
    intro other member
    rw [List.mem_singleton.mp member]
    exact ⟨filled, free⟩

theorem below_chars {path key : String} (allowed : (below path key).toList.all pathChar) :
    path.toList.all pathChar := by
  unfold below at allowed
  split_ifs at allowed with empty
  · rw [empty]
    rfl
  · rw [String.toList_append, String.toList_append, List.all_append, List.all_append,
      Bool.and_eq_true, Bool.and_eq_true] at allowed
    exact allowed.1.1

theorem extend_chars {path : String} {keys : List String}
    (allowed : (extend path keys).toList.all pathChar) : path.toList.all pathChar := by
  induction keys generalizing path with
  | nil => exact allowed
  | cons key keys ih => exact below_chars (ih allowed)

theorem listAllMember_mapping (path : String) (fields : List (String × Yaml)) :
    listAllMember path (.mapping fields) = if path.toList.all pathChar then
      (path, .mapping fields) :: listFields path fields else [] := rfl

theorem listed_here {path found : String} {node target : Yaml}
    (listed : (found, target) ∈ if path.toList.all pathChar then [(path, node)] else []) :
    found.toList.all pathChar ∧ ∃ keys, Yaml.At node keys target ∧ found = extend path keys := by
  split_ifs at listed with allowed
  · obtain ⟨rfl, rfl⟩ := Prod.mk.inj (List.mem_singleton.mp listed)
    exact ⟨allowed, [], .here, rfl⟩
  · cases listed

mutual
theorem at_of_listed (path found : String) (target : Yaml) :
    ∀ node, (found, target) ∈ listAllMember path node → found.toList.all pathChar ∧
      ∃ keys, Yaml.At node keys target ∧ found = extend path keys
  | .null, listed => listed_here listed
  | .scalar _, listed => listed_here listed
  | .sequence _, listed => listed_here listed
  | .mapping fields, listed => by
      rw [listAllMember_mapping] at listed
      split_ifs at listed with allowed
      · rcases List.mem_cons.mp listed with first | deeper
        · obtain ⟨rfl, rfl⟩ := Prod.mk.inj first
          exact ⟨allowed, [], .here, rfl⟩
        · obtain ⟨legal, key, child, keys, member, there, same⟩ :=
            at_of_field path found target fields deeper
          exact ⟨legal, key :: keys, .field member there, same⟩
      · cases listed

theorem at_of_field (path found : String) (target : Yaml) :
    ∀ fields, (found, target) ∈ listFields path fields → found.toList.all pathChar ∧
      ∃ key child keys, (key, child) ∈ fields ∧ Yaml.At child keys target ∧
        found = extend path (key :: keys)
  | [], listed => by cases listed
  | (key, child) :: rest, listed => by
      rw [listFields] at listed
      rcases List.mem_append.mp listed with first | later
      · obtain ⟨legal, keys, there, same⟩ := at_of_listed _ found target child first
        exact ⟨legal, key, child, keys, List.mem_cons_self, there, same⟩
      · obtain ⟨legal, key', child', keys, member, there, same⟩ :=
          at_of_field path found target rest later
        exact ⟨legal, key', child', keys, List.mem_cons_of_mem _ member, there, same⟩
end

theorem listed_first {path : String} (allowed : path.toList.all pathChar) (node : Yaml) :
    (path, node) ∈ listAllMember path node := by
  have leaf : ∀ node : Yaml, (path, node) ∈ if path.toList.all pathChar then [(path, node)] else [] := by
    intro node
    rw [if_pos allowed]
    exact List.mem_singleton_self _
  cases node with
  | null => exact leaf .null
  | scalar text => exact leaf (.scalar text)
  | sequence items => exact leaf (.sequence items)
  | mapping fields =>
      rw [listAllMember_mapping, if_pos allowed]
      exact List.mem_cons_self

theorem listFields_of_mem {path key : String} {child : Yaml} {fields : List (String × Yaml)}
    {member : String × Yaml} (there : (key, child) ∈ fields)
    (listed : member ∈ listAllMember (below path key) child) : member ∈ listFields path fields := by
  induction fields with
  | nil => cases there
  | cons field fields ih =>
      rw [listFields]
      rcases List.mem_cons.mp there with rfl | later
      · exact List.mem_append_left _ listed
      · exact List.mem_append_right _ (ih later)

/-- A node at a path of legal characters is listed: none of the prefixes is dropped. -/
theorem listed_of_at {node target : Yaml} {keys : List String} (there : Yaml.At node keys target)
    {path : String} (allowed : (extend path keys).toList.all pathChar) :
    (extend path keys, target) ∈ listAllMember path node := by
  induction there generalizing path with
  | @here node => exact listed_first allowed node
  | field member _ ih =>
      rw [listAllMember_mapping, if_pos (below_chars (extend_chars allowed))]
      exact List.mem_cons_of_mem _ (listFields_of_mem member (ih allowed))

theorem below_toList {path : String} (filled : path ≠ "") (key : String) :
    (below path key).toList = path.toList ++ '.' :: key.toList := by
  rw [below, if_neg filled, String.toList_append, String.toList_append, List.append_assoc]
  rfl

theorem below_filled {path key : String} (filled : path ≠ "") : below path key ≠ "" := by
  intro empty
  have lengths := congrArg List.length (below_toList filled key)
  rw [empty, List.length_append, List.length_cons] at lengths
  exact absurd lengths.symm (Nat.succ_ne_zero _)

theorem extend_filled {path : String} (filled : path ≠ "") (keys : List String) :
    (extend path keys).toList = ['.'].intercalate (path.toList :: keys.map String.toList) := by
  induction keys generalizing path with
  | nil => simp [extend]
  | cons key keys ih =>
      rw [extend, ih (below_filled filled), below_toList filled]
      cases keys with
      | nil => simp
      | cons next keys => simp

theorem extend_components {keys : List String} (filled : keys ≠ [])
    (plain : ∀ key ∈ keys, key ≠ "" ∧ '.' ∉ key.toList) (name : String) :
    extend "" keys = name ↔ keys = components name := by
  obtain ⟨key, keys, rfl⟩ := List.exists_cons_of_ne_nil filled
  have joined : (extend "" (key :: keys)).toList =
      ['.'].intercalate ((key :: keys).map String.toList) :=
    extend_filled (plain key List.mem_cons_self).1 keys
  have free : ∀ part ∈ (key :: keys).map String.toList, '.' ∉ part := by
    intro part member
    obtain ⟨origin, present, rfl⟩ := List.mem_map.mp member
    exact (plain origin present).2
  have back : ∀ row : List String, (row.map String.toList).map String.ofList = row := by
    intro row
    rw [List.map_map]
    exact (List.map_congr_left fun part _ => String.ofList_toList).trans (List.map_id _)
  constructor
  · rintro rfl
    rw [components, joined, List.splitOn_intercalate '.' free (by simp), back]
  · intro same
    have parts : (key :: keys).map String.toList = name.toList.splitOn '.' := by
      rw [same, components, List.map_map]
      exact (List.map_congr_left fun part _ => String.toList_ofList).trans (List.map_id _)
    apply String.toList_injective
    rw [joined, parts, List.intercalate_splitOn]

theorem components_filled (name : String) : components name ≠ [] := by
  rw [components, Ne, List.map_eq_nil_iff]
  exact List.splitOn_ne_nil _ _

theorem lower_pathChar {name : String} (allowed : name.toList.all pathChar) :
    name.map Char.toLower = name := by
  have lower : "abcdefghijklmnopqrstuvwxyz._012345678".toList.all
      (fun char => decide (char.toLower = char)) = true := by decide
  apply String.toList_injective
  rw [String.toList_map]
  refine (List.map_congr_left fun char member => ?_).trans (List.map_id _)
  have known := List.contains_iff_mem.mp (List.all_eq_true.mp allowed char member)
  exact of_decide_eq_true (List.all_eq_true.mp lower char known)

theorem pathChar_iff {name : String} (accepted : name.toList.all nameChar) :
    name.toList.all pathChar ↔ '9' ∉ name.toList := by
  have digit : "abcdefghijklmnopqrstuvwxyz._0123456789".toList.all
      (fun char => decide (pathChar char = true ↔ char ≠ '9')) = true := by decide
  rw [List.all_eq_true]
  constructor
  · intro allowed member
    exact absurd (allowed '9' member) (by decide)
  · intro free char member
    have known := List.contains_iff_mem.mp (List.all_eq_true.mp accepted char member)
    exact (of_decide_eq_true (List.all_eq_true.mp digit char known)).mpr fun same =>
      free (same ▸ member)

theorem listed_iff {root : Yaml} (dotless : Dotless root) {name : String} {node : Yaml}
    (given : name ≠ "") : (name, node) ∈ listAllMember "" root ↔
      name.toList.all pathChar ∧ Yaml.At root (components name) node := by
  constructor
  · intro listed
    obtain ⟨allowed, keys, there, same⟩ := at_of_listed "" name node root listed
    have filled : keys ≠ [] := by
      rintro rfl
      exact given same
    rw [← (extend_components filled (dotless keys node there) name).mp same.symm]
    exact ⟨allowed, there⟩
  · rintro ⟨allowed, there⟩
    have path := (extend_components (components_filled name) (dotless _ node there) name).mpr rfl
    rw [← path] at allowed
    have listed := listed_of_at there allowed
    rwa [path] at listed

theorem called_iff (texts : Texts Ty Val) {config : Config Ty Val Cb} (root : Yaml) {name : String}
    {object : Nat} (registered : config.datas name = some object) (text : String) :
    (name, text) ∈ fromStringCalls texts config root ↔ name ≠ "" ∧ ∃ node,
      (name, node) ∈ listAllMember "" root ∧ nodeText texts node = text := by
  rw [fromStringCalls, List.mem_filterMap]
  constructor
  · rintro ⟨⟨path, node⟩, listed, called⟩
    have lower := lower_pathChar (at_of_listed "" path node root listed).1
    simp only [lower] at called
    split_ifs at called with skipped
    obtain ⟨rfl, rfl⟩ := Prod.mk.inj (Option.some.inj called)
    exact ⟨fun empty => skipped (.inl empty), node, listed, rfl⟩
  · rintro ⟨given, node, listed, rfl⟩
    refine ⟨(name, node), listed, ?_⟩
    have lower := lower_pathChar (at_of_listed "" name node root listed).1
    simp only [lower]
    rw [if_neg (not_or.mpr ⟨given, by rw [registered]; exact Option.some_ne_none _⟩)]

/-- No key is empty, so nothing stands at the path of the empty name. -/
theorem unnamed {root : Yaml} (dotless : Dotless root) (node : Yaml) :
    ¬ Yaml.At root (components "") node := by
  intro there
  exact (dotless _ node there "" (by decide)).1 rfl

theorem loadable_one_iff (texts : Texts Ty Val) {config : Config Ty Val Cb} {root : Yaml}
    (dotless : Dotless root) {name : String} {object : Nat} (accepted : name.toList.all nameChar)
    (registered : config.datas name = some object) : Loadable texts config root name ↔
      ('9' ∈ name.toList → ∀ node, ¬ Yaml.At root (components name) node) := by
  unfold Loadable
  constructor
  · intro loads digit node there
    have called := (loads (nodeText texts node)).mpr ⟨node, there, rfl⟩
    obtain ⟨given, other, listed, -⟩ := (called_iff texts root registered _).mp called
    exact (pathChar_iff accepted).mp ((listed_iff dotless given).mp listed).1 digit
  · intro absent text
    rw [called_iff texts root registered]
    constructor
    · rintro ⟨given, node, listed, same⟩
      exact ⟨node, ((listed_iff dotless given).mp listed).2, same⟩
    · rintro ⟨node, there, same⟩
      have given : name ≠ "" := by
        rintro rfl
        exact unnamed dotless node there
      have allowed := (pathChar_iff accepted).mpr fun digit => absent digit node there
      exact ⟨given, node, (listed_iff dotless given).mpr ⟨allowed, there⟩, same⟩

theorem registered_of_called {texts : Texts Ty Val} {config : Config Ty Val Cb} {root : Yaml}
    {name text : String} (called : (name, text) ∈ fromStringCalls texts config root) :
    ∃ object, config.datas name = some object := by
  obtain ⟨member, -, found⟩ := List.mem_filterMap.mp called
  split_ifs at found with skipped
  obtain ⟨rfl, rfl⟩ := Prod.mk.inj (Option.some.inj found)
  exact Option.ne_none_iff_exists'.mp fun missing => skipped (.inr missing)

/-- A document whose nodes are for no variable, or for names with a 9, changes nothing. -/
theorem loadFromYaml_unreached [DecidableEq Val] (texts : Texts Ty Val) (config : Config Ty Val Cb)
    (root : Yaml) (accepted : Accepted config) (dotless : Dotless root)
    (unreached : ∀ name object, config.datas name = some object → '9' ∉ name.toList →
      ∀ node, ¬ Yaml.At root (components name) node) : config.loadFromYaml texts root = config := by
  have silent : fromStringCalls texts config root = [] := by
    refine List.eq_nil_iff_forall_not_mem.mpr fun call called => ?_
    obtain ⟨object, registered⟩ := registered_of_called called
    obtain ⟨given, node, listed, -⟩ := (called_iff texts root registered _).mp called
    obtain ⟨allowed, there⟩ := (listed_iff dotless given).mp listed
    exact unreached call.1 object registered
      ((pathChar_iff (accepted call.1 object registered)).mp allowed) node there
  rw [loadFromYaml_calls, silent, List.foldl_nil]

/-- A document reaches the variables as it should exactly when it has no node for a variable
whose name has a 9. -/
theorem loadable_iff (texts : Texts Ty Val) (config : Config Ty Val Cb) (root : Yaml)
    (accepted : Accepted config) (dotless : Dotless root) :
    (∀ name object, config.datas name = some object → Loadable texts config root name) ↔
      ∀ name object, config.datas name = some object → '9' ∈ name.toList →
        ∀ node, ¬ Yaml.At root (components name) node := by
  constructor
  · intro loads name object registered
    exact (loadable_one_iff texts dotless (accepted name object registered) registered).mp
      (loads name object registered)
  · intro absent name object registered
    exact (loadable_one_iff texts dotless (accepted name object registered) registered).mpr
      (absent name object registered)

def plainTexts : Texts Unit String := ⟨fun _ text => some text, fun _ => ""⟩

def oneVariable (name : String) : Config Unit String Unit :=
  Config.empty.lookupOr () name "" "a variable"

theorem level_loaded :
    Loadable plainTexts (oneVariable "level") (.mapping [("level", .scalar "info")]) "level" := by
  refine (loadable_iff plainTexts (oneVariable "level") (.mapping [("level", .scalar "info")])
    (accepted_lookupOr accepted_empty _ _ _ _) (dotless_single (by decide) (by decide) _)).mpr ?_
    "level" 0 (by decide)
  intro name object registered digit
  have legal : name = "level" := by
    by_contra other
    simp [oneVariable, Config.lookupOr, Config.registered, Config.empty, Config.create,
      other, nameChar] at registered
  rw [legal] at digit
  exact absurd digit (by decide)

/-- A variable with a 9 in its name stays as it is. -/
theorem port9_not_loaded : ¬ ∀ (texts : Texts Unit String) (config : Config Unit String Unit)
    (root : Yaml), Accepted config → Dotless root →
    ∀ name object, config.datas name = some object → Loadable texts config root name := by
  intro every
  have loads := every plainTexts (oneVariable "port9") (.mapping [("port9", .scalar "1")])
    (accepted_lookupOr accepted_empty _ _ _ _) (dotless_single (by decide) (by decide) _) "port9" 0
    (by decide) "1"
  have there : Yaml.At (.mapping [("port9", .scalar "1")]) (components "port9") (.scalar "1") :=
    .field List.mem_cons_self .here
  exact absurd (loads.mpr ⟨_, there, rfl⟩) (by decide)

end OtaMqtt.Configuration
