import Mathlib.Data.Rat.Defs

/-! JSON values, as a library that parses text into a tree of maps presents them. -/

namespace OtaMqtt.Lib

/-- An object is the list of its members, in any order. -/
inductive Json where
  | null
  | boolean (value : Bool)
  | integer (value : Int)
  | float (value : Rat)
  | string (value : String)
  | array (elements : List Json)
  | object (members : List (String × Json))

namespace Json

def find : Json → String → Option Json
  | object members, key => members.lookup key
  | _, _ => none

def contains (json : Json) (key : String) : Bool := (json.find key).isSome

/-- `operator[]` of an object; a member that is missing reads as `null`. -/
def get (json : Json) (key : String) : Json := (json.find key).getD null

/-- Assignment through `operator[]`; `null` becomes an object. -/
def set : Json → String → Json → Json
  | null, key, value => object [(key, value)]
  | object members, key, value => object (members.filter (·.1 ≠ key) ++ [(key, value)])
  | json, _, _ => json

def isText : Json → String → Bool
  | string value, text => value == text
  | _, _ => false

/-- Comparison with an unsigned number, by value. -/
def isNumber : Json → Nat → Bool
  | integer value, number => value == number
  | float value, number => value == number
  | _, _ => false

end Json

end OtaMqtt.Lib
