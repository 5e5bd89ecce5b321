import OtaMqtt.Configuration.Variables

/-! One variable under one name.

`Settings` says what the calls mean to a program: a name has one variable, and every caller
that looks it up holds that one. The objects of `Config` are compared with it along the runs
of both. -/

namespace OtaMqtt.Configuration

open OtaMqtt.Lib OtaMqtt.Lib.Trace

variable {Ty Val Cb : Type}

structure Settings (Ty Val Cb : Type) where
  named : String → Option (ConfigVar Ty Val Cb)
  funIds : Ty → Nat
  holders : List (Ty × String)
  notices : List (Notice Val Cb)

namespace Settings
variable [DecidableEq Ty] [DecidableEq Val]

def empty : Settings Ty Val Cb := ⟨fun _ => none, fun _ => 0, [], []⟩

def change (settings : Settings Ty Val Cb) (name : String)
    (call : ConfigVar Ty Val Cb → ConfigVar Ty Val Cb × List (Notice Val Cb)) : Settings Ty Val Cb :=
  match settings.named name with
  | none => settings
  | some var =>
      { settings with
        named := Function.update settings.named name (some (call var).1),
        notices := settings.notices ++ (call var).2 }

def hold (settings : Settings Ty Val Cb) (type : Ty) (name : String) : Settings Ty Val Cb :=
  { settings with holders := settings.holders ++ [(type, name)] }

def lookup (settings : Settings Ty Val Cb) (type : Ty) (name : String) : Settings Ty Val Cb :=
  match settings.named name with
  | some var => if var.type = type then settings.hold type name else settings
  | none => settings

/-- The variable is made when the name has none. -/
def lookupOr (settings : Settings Ty Val Cb) (type : Ty) (name : String) (value : Val)
    (description : String) : Settings Ty Val Cb :=
  if (settings.named name).isSome then settings.lookup type name
  else if name.toList.all nameChar then
    { settings with
      named := Function.update settings.named name
        (some (.make type name value description)) }.hold type name
  else settings

def loadMember (texts : Texts Ty Val) (settings : Settings Ty Val Cb) (member : String × Yaml) :
    Settings Ty Val Cb :=
  if member.1 = "" then settings
  else settings.change (member.1.map Char.toLower) (·.fromString texts (nodeText texts member.2))

def addListener (settings : Settings Ty Val Cb) (type : Ty) (name : String) (callback : Cb) :
    Settings Ty Val Cb :=
  let id := settings.funIds type + 1
  { settings with funIds := Function.update settings.funIds type id }.change name
    (·.addListener id callback)

def step (texts : Texts Ty Val) (settings : Settings Ty Val Cb) : Call Ty Val Cb → Settings Ty Val Cb
  | .lookupOr type name value description => settings.lookupOr type name value description
  | .lookup type name => settings.lookup type name
  | .setValue holder value =>
      match settings.holders[holder]? with
      | some held => settings.change held.2 (·.setValue value)
      | none => settings
  | .addListener holder callback =>
      match settings.holders[holder]? with
      | some held => settings.addListener held.1 held.2 callback
      | none => settings
  | .loadFromYaml root => (listAllMember "" root).foldl (loadMember texts) settings

end Settings

/-- The program beside what its calls mean. -/
structure World (Ty Val Cb : Type) where
  config : Config Ty Val Cb
  settings : Settings Ty Val Cb

namespace World
variable [DecidableEq Ty] [DecidableEq Val]

def start : World Ty Val Cb := ⟨.empty, .empty⟩

def step (texts : Texts Ty Val) (world : World Ty Val Cb) (call : Call Ty Val Cb) :
    Option (World Ty Val Cb) :=
  (world.config.step texts call).map fun config => ⟨config, world.settings.step texts call⟩

end World

/-- Callers that looked up one name with one type hold one object; what a holder reads is
the variable as it was last set under its name, with every listener that was added to it;
and the listeners were called for every change. -/
structure OneIdentity (world : World Ty Val Cb) : Prop where
  same : ∀ first ∈ world.config.holders, ∀ second ∈ world.config.holders,
    first.type = second.type → first.name = second.name → first.object = second.object
  reads : ∀ holder ∈ world.config.holders, ∃ var,
    world.config.objects[holder.object]? = some var ∧ world.settings.named holder.name = some var
  notices : world.config.notices = world.settings.notices

/-- A call that is no `Lookup` with a default for a variable that exists with that type. -/
def First (world : World Ty Val Cb) : Call Ty Val Cb → Prop
  | .lookupOr type name _ _ => ∀ var, world.config.registered name = some var → var.type ≠ type
  | _ => True

/-- How `Config` stands for `Settings`. -/
structure Tracks (config : Config Ty Val Cb) (settings : Settings Ty Val Cb) : Prop where
  holders : config.holders.map (fun holder => (holder.type, holder.name)) = settings.holders
  current : ∀ holder ∈ config.holders, config.datas holder.name = some holder.object
  held : ∀ name object, config.datas name = some object →
    ∃ var, config.objects[object]? = some var ∧ ⟨var.type, name, object⟩ ∈ config.holders
  stored : ∀ name, config.registered name = settings.named name
  apart : ∀ first second object, config.datas first = some object →
    config.datas second = some object → first = second
  legal : ∀ name object, config.datas name = some object → name.toList.all nameChar
  funIds : config.funIds = settings.funIds
  notices : config.notices = settings.notices

theorem tracks_empty : Tracks (.empty : Config Ty Val Cb) .empty where
  holders := rfl
  current := fun _ member => nomatch member
  held := fun _ _ found => nomatch found
  stored := fun _ => rfl
  apart := fun _ _ _ found => nomatch found
  legal := fun _ _ found => nomatch found
  funIds := rfl
  notices := rfl

section
variable {config : Config Ty Val Cb} {settings : Settings Ty Val Cb}

theorem Tracks.found (tracks : Tracks config settings) {name : String} {object : Nat}
    (registered : config.datas name = some object) :
    ∃ var, config.objects[object]? = some var ∧ settings.named name = some var := by
  obtain ⟨var, stored, -⟩ := tracks.held name object registered
  refine ⟨var, stored, ?_⟩
  rw [← tracks.stored, Config.registered, registered, Option.bind_some, stored]

theorem Tracks.change (tracks : Tracks config settings) {name : String} {object : Nat}
    (registered : config.datas name = some object)
    {call : ConfigVar Ty Val Cb → ConfigVar Ty Val Cb × List (Notice Val Cb)}
    (typed : ∀ var, (call var).1.type = var.type) :
    Tracks (config.change object call) (settings.change name call) := by
  obtain ⟨var, stored, meant⟩ := tracks.found registered
  have bound : object < config.objects.length := (List.getElem?_eq_some_iff.mp stored).1
  rw [Config.change, stored, Settings.change, meant]
  constructor
  · exact tracks.holders
  · exact tracks.current
  · intro other position found
    obtain ⟨old, there, member⟩ := tracks.held other position found
    by_cases same : position = object
    · subst same
      refine ⟨(call var).1, by simp [bound], ?_⟩
      rw [stored] at there
      cases there
      rw [typed]
      exact member
    · exact ⟨old, by simp [Ne.symm same, there], member⟩
  · intro other
    by_cases same : other = name
    · subst same
      simp [Config.registered, registered, bound]
    · have kept := tracks.stored other
      simp only [Function.update_of_ne same, Config.registered] at kept ⊢
      rw [← kept]
      cases found : config.datas other with
      | none => rfl
      | some position =>
          have away : position ≠ object := by
            rintro rfl
            exact same (tracks.apart other name position found registered)
          simp [List.getElem?_set, away.symm]
  · exact tracks.apart
  · exact tracks.legal
  · exact tracks.funIds
  · rw [tracks.notices]

theorem Tracks.hold (tracks : Tracks config settings) {type : Ty} {name : String} {object : Nat}
    (registered : config.datas name = some object) :
    Tracks { config with holders := config.holders ++ [⟨type, name, object⟩] }
      (settings.hold type name) := by
  constructor
  · simp [Settings.hold, tracks.holders]
  · intro holder member
    rcases List.mem_append.mp member with earlier | last
    · exact tracks.current holder earlier
    · rw [List.mem_singleton.mp last]
      exact registered
  · intro other position found
    obtain ⟨var, stored, member⟩ := tracks.held other position found
    exact ⟨var, stored, List.mem_append_left _ member⟩
  · exact tracks.stored
  · exact tracks.apart
  · exact tracks.legal
  · exact tracks.funIds
  · exact tracks.notices

theorem Tracks.bound (tracks : Tracks config settings) {name : String} {object : Nat}
    (registered : config.datas name = some object) : object < config.objects.length := by
  obtain ⟨var, stored, -⟩ := tracks.held name object registered
  exact (List.getElem?_eq_some_iff.mp stored).1

theorem create_datas {type : Ty} {name other : String} {value : Val} {description : String}
    {object : Nat} (found : (config.create type name value description).datas other = some object) :
    (other = name ∧ object = config.objects.length) ∨
      (other ≠ name ∧ config.datas other = some object) := by
  simp only [Config.create] at found
  by_cases same : other = name
  · subst same
    rw [Function.update_self] at found
    exact .inl ⟨rfl, (Option.some.inj found).symm⟩
  · rw [Function.update_of_ne same] at found
    exact .inr ⟨same, found⟩

theorem Tracks.create_apart (tracks : Tracks config settings) {type : Ty} {name : String}
    {value : Val} {description : String} (first second : String) (object : Nat)
    (one : (config.create type name value description).datas first = some object)
    (two : (config.create type name value description).datas second = some object) :
    first = second := by
  rcases create_datas one with ⟨left, last⟩ | ⟨-, left⟩
  · rcases create_datas two with ⟨right, -⟩ | ⟨-, right⟩
    · rw [left, right]
    · exact absurd last (tracks.bound right).ne
  · rcases create_datas two with ⟨-, last⟩ | ⟨-, right⟩
    · exact absurd last (tracks.bound left).ne
    · exact tracks.apart first second object left right

theorem Tracks.create (tracks : Tracks config settings) {type : Ty} {name : String} {value : Val}
    {description : String} (unused : config.datas name = none)
    (legal : name.toList.all nameChar) :
    Tracks (config.create type name value description)
      ({ settings with
        named := Function.update settings.named name
          (some (.make type name value description)) }.hold type name) := by
  constructor
  · simp [Config.create, Settings.hold, tracks.holders]
  · intro holder member
    simp only [Config.create, List.mem_append, List.mem_singleton] at member ⊢
    rcases member with earlier | rfl
    · have known := tracks.current holder earlier
      have away : holder.name ≠ name := by
        intro same
        rw [same, unused] at known
        cases known
      rw [Function.update_of_ne away, known]
    · exact Function.update_self ..
  · intro other object found
    rcases create_datas found with ⟨rfl, rfl⟩ | ⟨-, known⟩
    · exact ⟨.make type other value description, by simp [Config.create],
        by simp [Config.create, ConfigVar.make]⟩
    · obtain ⟨var, stored, member⟩ := tracks.held other object known
      refine ⟨var, ?_, List.mem_append_left _ member⟩
      rw [Config.create, List.getElem?_append_left (tracks.bound known), stored]
  · intro other
    by_cases same : other = name
    · subst same
      simp [Config.create, Config.registered, Settings.hold]
    · have kept := tracks.stored other
      simp only [Config.create, Config.registered, Settings.hold, Function.update_of_ne same] at kept ⊢
      rw [← kept]
      cases found : config.datas other with
      | none => rfl
      | some object => simp [List.getElem?_append_left (tracks.bound found)]
  · exact tracks.create_apart
  · intro other object found
    rcases create_datas found with ⟨rfl, -⟩ | ⟨-, known⟩
    · exact legal
    · exact tracks.legal other object known
  · exact tracks.funIds
  · exact tracks.notices

theorem Tracks.countListener (tracks : Tracks config settings) (funIds : Ty → Nat) :
    Tracks { config with funIds } { settings with funIds } :=
  ⟨tracks.holders, tracks.current, tracks.held, tracks.stored, tracks.apart, tracks.legal, rfl,
    tracks.notices⟩

theorem Tracks.lookup [DecidableEq Ty] (tracks : Tracks config settings) (type : Ty) (name : String) :
    Tracks (config.lookup type name) (settings.lookup type name) := by
  have kept := tracks.stored name
  rw [Config.lookup, Settings.lookup, ← kept]
  cases found : config.datas name with
  | none =>
      simp only [Config.registered, found, Option.bind_none]
      exact tracks
  | some object =>
      obtain ⟨var, stored, -⟩ := tracks.held name object found
      simp only [Config.registered, found, Option.bind_some, stored]
      split
      · exact tracks.hold found
      · exact tracks

theorem Tracks.lookupOr [DecidableEq Ty] (tracks : Tracks config settings) {type : Ty} {name : String}
    (value : Val) (description : String)
    (first : ∀ var, config.registered name = some var → var.type ≠ type) :
    Tracks (config.lookupOr type name value description)
      (settings.lookupOr type name value description) := by
  have kept := tracks.stored name
  rw [Config.lookupOr, Settings.lookupOr, ← kept]
  cases found : config.registered name with
  | some var =>
      have other := first var found
      simp only [Settings.lookup, ← kept, found, Option.any_some, other, ne_eq, not_false_eq_true,
        decide_true, if_true, Option.isSome_some, if_false]
      exact tracks
  | none =>
      have unused : config.datas name = none := by
        cases known : config.datas name with
        | none => rfl
        | some object =>
            obtain ⟨var, stored, -⟩ := tracks.held name object known
            simp [Config.registered, known, stored] at found
      simp only [Option.any_none, Bool.false_eq_true, if_false, Option.isSome_none]
      split
      · rename_i legal
        exact tracks.create unused legal
      · exact tracks

theorem Tracks.loadMember [DecidableEq Val] (tracks : Tracks config settings) (texts : Texts Ty Val)
    (member : String × Yaml) :
    Tracks (config.loadMember texts member) (settings.loadMember texts member) := by
  rw [Config.loadMember, Settings.loadMember]
  split
  · exact tracks
  · cases found : config.datas (member.1.map Char.toLower) with
    | some object => exact tracks.change found (ConfigVar.fromString_type texts _)
    | none =>
        have unknown : settings.named (member.1.map Char.toLower) = none := by
          rw [← tracks.stored, Config.registered, found, Option.bind_none]
        rw [Settings.change, unknown]
        exact tracks

theorem Tracks.loadMembers [DecidableEq Val] (texts : Texts Ty Val) (members : List (String × Yaml))
    (tracks : Tracks config settings) :
    Tracks (members.foldl (Config.loadMember texts) config)
      (members.foldl (Settings.loadMember texts) settings) := by
  induction members generalizing config settings with
  | nil => exact tracks
  | cons member members ih => exact ih (tracks.loadMember texts member)

end

theorem holder_meant {config : Config Ty Val Cb} {settings : Settings Ty Val Cb}
    (tracks : Tracks config settings) {number : Nat} {holder : Holder Ty}
    (held : config.holders[number]? = some holder) :
    config.datas holder.name = some holder.object ∧
      settings.holders[number]? = some (holder.type, holder.name) := by
  constructor
  · exact tracks.current holder (List.mem_of_getElem? held)
  · rw [← tracks.holders, List.getElem?_map, held]
    rfl

theorem tracks_oneIdentity (world : World Ty Val Cb)
    (tracks : Tracks world.config world.settings) : OneIdentity world := by
  constructor
  · intro first one second two _ same
    have left := tracks.current first one
    have right := tracks.current second two
    rw [same, right] at left
    exact (Option.some.inj left).symm
  · exact fun holder member => tracks.found (tracks.current holder member)
  · exact tracks.notices

section
variable [DecidableEq Ty] [DecidableEq Val]

theorem step_tracks (texts : Texts Ty Val) (world : World Ty Val Cb) (call : Call Ty Val Cb)
    (next : World Ty Val Cb) (tracks : Tracks world.config world.settings)
    (first : First world call) (taken : world.step texts call = some next) :
    Tracks next.config next.settings := by
  obtain ⟨config, stepped, rfl⟩ := Option.map_eq_some_iff.mp taken
  cases call with
  | lookupOr type name value description =>
      cases stepped
      exact tracks.lookupOr value description first
  | lookup type name =>
      cases stepped
      exact tracks.lookup type name
  | setValue number value =>
      obtain ⟨holder, held, rfl⟩ := Option.map_eq_some_iff.mp stepped
      obtain ⟨registered, meant⟩ := holder_meant tracks held
      simp only [Settings.step, meant]
      exact tracks.change registered (ConfigVar.setValue_type value)
  | addListener number callback =>
      obtain ⟨holder, held, rfl⟩ := Option.map_eq_some_iff.mp stepped
      obtain ⟨registered, meant⟩ := holder_meant tracks held
      simp only [Settings.step, meant, Config.addListener, Settings.addListener, ← tracks.funIds]
      have counted := tracks.countListener
        (Function.update world.config.funIds holder.type (world.config.funIds holder.type + 1))
      exact counted.change registered fun var => rfl
  | loadFromYaml root =>
      cases stepped
      exact tracks.loadMembers texts _

theorem second_lookup (texts : Texts Ty Val) (world : World Ty Val Cb) (call : Call Ty Val Cb)
    (tracks : Tracks world.config world.settings) (again : ¬ First world call) :
    ∃ next, world.step texts call = some next ∧ ¬ OneIdentity next := by
  cases call with
  | lookupOr type name value description =>
      simp only [First, not_forall, not_not] at again
      obtain ⟨var, registered, typed⟩ := again
      obtain ⟨object, found, stored⟩ := Option.bind_eq_some_iff.mp registered
      obtain ⟨other, same, member⟩ := tracks.held name object found
      rw [stored] at same
      cases same
      have made : world.config.lookupOr type name value description =
          world.config.create type name value description := by
        rw [Config.lookupOr, registered, if_neg (by simp [typed]), if_pos (tracks.legal name object found)]
      refine ⟨_, rfl, fun identity => ?_⟩
      have equal := identity.same ⟨type, name, object⟩ (by
          rw [made, ← typed]
          exact List.mem_append_left _ member)
        ⟨type, name, world.config.objects.length⟩ (by
          rw [made]
          exact List.mem_append_right _ (List.mem_singleton.mpr rfl)) rfl rfl
      exact absurd equal (Nat.ne_of_lt (tracks.bound found))
  | lookup type name => exact absurd trivial again
  | setValue number value => exact absurd trivial again
  | addListener number callback => exact absurd trivial again
  | loadFromYaml root => exact absurd trivial again

/-- A variable has one identity throughout a run exactly when no variable is looked up with
a default while it exists with that type. -/
theorem oneIdentity_iff_first (texts : Texts Ty Val) (calls : List (Call Ty Val Cb)) :
    Always (World.step texts) OneIdentity (World.start : World Ty Val Cb) calls ↔
      Guarded (World.step texts) First World.start calls :=
  always_iff_guarded (step_tracks texts) tracks_oneIdentity (second_lookup texts) calls _ tracks_empty

end

/-- Two translation units look up the stack size of the fibers with their own defaults. -/
theorem stackSize_two_objects :
    ¬ Always (World.step (⟨fun _ _ => none, fun _ => ""⟩ : Texts Unit Nat)) OneIdentity
      (World.start : World Unit Nat Unit)
      [.lookupOr () "fiber.stack_size" (2048 * 1024) "fiber stack size",
        .lookupOr () "fiber.stack_size" (1024 * 1024) "fiber stack size"] := by
  intro always
  have identity := always _ [] _ (List.append_nil _) rfl
  have equal := identity.same ⟨(), "fiber.stack_size", 0⟩ (by decide)
    ⟨(), "fiber.stack_size", 1⟩ (by decide) rfl rfl
  cases equal

end OtaMqtt.Configuration
