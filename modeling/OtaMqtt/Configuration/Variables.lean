import OtaMqtt.Lib.Trace
import OtaMqtt.Lib.Yaml

/-! Configuration variables: the objects, the map from their names to them, and the calls of
`Config` and `ConfigVar`.

An object is a position in `objects`. The types of the variables, their values and the
callbacks are parameters; `Texts` holds the conversion of a text to a value of a type, which
may throw, and the text of a YAML node. -/

namespace OtaMqtt.Configuration

open OtaMqtt.Lib

variable {Ty Val Cb : Type}

structure Texts (Ty Val : Type) where
  fromStr : Ty → String → Option Val
  emit : Yaml → String

/-- A call of a listener with the old and the new value. -/
structure Notice (Val Cb : Type) where
  callback : Cb
  old : Val
  new : Val
  deriving DecidableEq, Repr

structure ConfigVar (Ty Val Cb : Type) where
  name : String
  description : String
  type : Ty
  value : Val
  listeners : List (Nat × Cb)
  deriving DecidableEq, Repr

namespace ConfigVar
variable [DecidableEq Val]

/-- The constructor; `ConfigVarBase` turns the name to lower case. -/
def make (type : Ty) (name : String) (value : Val) (description : String) : ConfigVar Ty Val Cb :=
  ⟨name.map Char.toLower, description, type, value, []⟩

/-- Listeners hear of a change before it is stored, and of no other call. -/
def setValue (value : Val) (var : ConfigVar Ty Val Cb) : ConfigVar Ty Val Cb × List (Notice Val Cb) :=
  if value = var.value then (var, [])
  else ({ var with value }, var.listeners.map fun listener => ⟨listener.2, var.value, value⟩)

/-- An exception of the conversion is caught, and the variable stays as it is. -/
def fromString (texts : Texts Ty Val) (text : String) (var : ConfigVar Ty Val Cb) :
    ConfigVar Ty Val Cb × List (Notice Val Cb) :=
  match texts.fromStr var.type text with
  | none => (var, [])
  | some value => var.setValue value

/-- `m_cbs[id] = cb`, where `id` is larger than every key in use. -/
def addListener (id : Nat) (callback : Cb) (var : ConfigVar Ty Val Cb) :
    ConfigVar Ty Val Cb × List (Notice Val Cb) :=
  ({ var with listeners := var.listeners ++ [(id, callback)] }, [])

theorem setValue_type (value : Val) (var : ConfigVar Ty Val Cb) : (var.setValue value).1.type = var.type := by
  rw [setValue]
  split <;> rfl

theorem fromString_type (texts : Texts Ty Val) (text : String) (var : ConfigVar Ty Val Cb) :
    (var.fromString texts text).1.type = var.type := by
  rw [fromString]
  split
  · rfl
  · exact setValue_type _ var

end ConfigVar

/-- The characters of a name that `Lookup` accepts. -/
def nameChar (char : Char) : Bool := "abcdefghijklmnopqrstuvwxyz._0123456789".toList.contains char

/-- The characters of a path that `ListAllMember` accepts. -/
def pathChar (char : Char) : Bool := "abcdefghijklmnopqrstuvwxyz._012345678".toList.contains char

mutual
/-- `ListAllMember`: the nodes below `node` with their paths, `node` first. -/
def listAllMember (path : String) (node : Yaml) : List (String × Yaml) :=
  if path.toList.all pathChar then
    (path, node) ::
      match node with
      | .mapping fields => listFields path fields
      | _ => []
  else []

def listFields (path : String) : List (String × Yaml) → List (String × Yaml)
  | [] => []
  | (key, node) :: rest =>
      listAllMember (if path = "" then key else path ++ "." ++ key) node ++ listFields path rest
end

/-- The text `LoadFromYaml` hands to a variable. -/
def nodeText (texts : Texts Ty Val) : Yaml → String
  | .scalar text => text
  | node => texts.emit node

/-- What a call of `Lookup` returned: the caller keeps the pointer. -/
structure Holder (Ty : Type) where
  type : Ty
  name : String
  object : Nat
  deriving DecidableEq, Repr

structure Config (Ty Val Cb : Type) where
  objects : List (ConfigVar Ty Val Cb)
  datas : String → Option Nat
  funIds : Ty → Nat
  holders : List (Holder Ty)
  notices : List (Notice Val Cb)

/-- The calls of a program. A variable is set, or listened to, through a pointer that an
earlier `Lookup` returned; the number is that of the holder. -/
inductive Call (Ty Val Cb : Type) where
  | lookupOr (type : Ty) (name : String) (value : Val) (description : String)
  | lookup (type : Ty) (name : String)
  | setValue (holder : Nat) (value : Val)
  | addListener (holder : Nat) (callback : Cb)
  | loadFromYaml (root : Yaml)

namespace Config
variable [DecidableEq Ty] [DecidableEq Val]

def empty : Config Ty Val Cb := ⟨[], fun _ => none, fun _ => 0, [], []⟩

def registered (config : Config Ty Val Cb) (name : String) : Option (ConfigVar Ty Val Cb) :=
  (config.datas name).bind (config.objects[·]?)

/-- A call of a member function of an object. -/
def change (config : Config Ty Val Cb) (object : Nat)
    (call : ConfigVar Ty Val Cb → ConfigVar Ty Val Cb × List (Notice Val Cb)) : Config Ty Val Cb :=
  match config.objects[object]? with
  | none => config
  | some var =>
      { config with
        objects := config.objects.set object (call var).1,
        notices := config.notices ++ (call var).2 }

/-- `new ConfigVar<T>`, put into the map and returned. -/
def create (config : Config Ty Val Cb) (type : Ty) (name : String) (value : Val)
    (description : String) : Config Ty Val Cb :=
  { config with
    objects := config.objects ++ [.make type name value description],
    datas := Function.update config.datas name (some config.objects.length),
    holders := config.holders ++ [⟨type, name, config.objects.length⟩] }

/-- `Lookup<T>(name, default_value, description)`. A variable of another type gives a null
pointer. A variable of the type is reported, and a new one is made all the same. A name with
other characters throws. -/
def lookupOr (config : Config Ty Val Cb) (type : Ty) (name : String) (value : Val)
    (description : String) : Config Ty Val Cb :=
  if (config.registered name).any fun var => decide (var.type ≠ type) then config
  else if name.toList.all nameChar then config.create type name value description
  else config

/-- `Lookup<T>(name)`. -/
def lookup (config : Config Ty Val Cb) (type : Ty) (name : String) : Config Ty Val Cb :=
  match config.datas name, config.registered name with
  | some object, some var =>
      if var.type = type then { config with holders := config.holders ++ [⟨type, name, object⟩] }
      else config
  | _, _ => config

/-- One turn of the loop of `LoadFromYaml`. -/
def loadMember (texts : Texts Ty Val) (config : Config Ty Val Cb) (member : String × Yaml) :
    Config Ty Val Cb :=
  if member.1 = "" then config
  else
    match config.datas (member.1.map Char.toLower) with
    | none => config
    | some object => config.change object (·.fromString texts (nodeText texts member.2))

def loadFromYaml (texts : Texts Ty Val) (config : Config Ty Val Cb) (root : Yaml) :
    Config Ty Val Cb :=
  (listAllMember "" root).foldl (loadMember texts) config

/-- `addListener` of `ConfigVar<T>`, which counts its calls for each type on its own. -/
def addListener (config : Config Ty Val Cb) (holder : Holder Ty) (callback : Cb) : Config Ty Val Cb :=
  let id := config.funIds holder.type + 1
  { config with funIds := Function.update config.funIds holder.type id }.change holder.object
    (·.addListener id callback)

def step (texts : Texts Ty Val) (config : Config Ty Val Cb) : Call Ty Val Cb → Option (Config Ty Val Cb)
  | .lookupOr type name value description => some (config.lookupOr type name value description)
  | .lookup type name => some (config.lookup type name)
  | .setValue holder value =>
      config.holders[holder]?.map fun held => config.change held.object (·.setValue value)
  | .addListener holder callback =>
      config.holders[holder]?.map fun held => config.addListener held callback
  | .loadFromYaml root => some (config.loadFromYaml texts root)

end Config

end OtaMqtt.Configuration
