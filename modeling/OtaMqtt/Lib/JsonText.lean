import OtaMqtt.Lib.Json
import OtaMqtt.Lib.Utf8

/-! The compact text of a JSON value, as `dump` of json.hpp prints it (include/json/json.hpp).

A text is the sequence of its bytes, one character a byte. The printer throws on a text that is not
UTF-8. How a number with a fraction is printed is a parameter. -/

namespace OtaMqtt.Lib.Json

open OtaMqtt.Lib.Utf8

/-- `dump_escaped` for one byte; the bytes of a longer code point are copied. -/
def escape (byte : Char) : List Char :=
  if byte = '\x08' then ['\\', 'b']
  else if byte = '\t' then ['\\', 't']
  else if byte = '\n' then ['\\', 'n']
  else if byte = '\x0c' then ['\\', 'f']
  else if byte = '\r' then ['\\', 'r']
  else if byte = '"' then ['\\', '"']
  else if byte = '\\' then ['\\', '\\']
  else if byte.toNat ≤ 0x1F then
    ['\\', 'u', '0', '0', Nat.digitChar (byte.toNat / 16), Nat.digitChar (byte.toNat % 16)]
  else [byte]

def escaped (text : String) : String := String.ofList (text.toList.flatMap escape)

def quote (text : String) : Option String :=
  if utf8 text then some ("\"" ++ escaped text ++ "\"") else none

def commas : List String → String
  | [] => ""
  | [text] => text
  | text :: texts => text ++ "," ++ commas texts

mutual

def dump (floats : Rat → String) : Json → Option String
  | .null => some "null"
  | .boolean value => some (if value then "true" else "false")
  | .integer value => some (toString value)
  | .float value => some (floats value)
  | .string text => quote text
  | .array elements => (dumpElements floats elements).map fun texts => "[" ++ commas texts ++ "]"
  | .object members =>
      (dumpMembers floats members).map fun texts => "\x7b" ++ commas texts ++ "\x7d"

def dumpElements (floats : Rat → String) : List Json → Option (List String)
  | [] => some []
  | element :: elements => do
      let text ← dump floats element
      let texts ← dumpElements floats elements
      some (text :: texts)

def dumpMembers (floats : Rat → String) : List (String × Json) → Option (List String)
  | [] => some []
  | (key, value) :: members => do
      let name ← quote key
      let text ← dump floats value
      let texts ← dumpMembers floats members
      some ((name ++ ":" ++ text) :: texts)

end

theorem quote_isSome (text : String) : (quote text).isSome = utf8 text := by
  rw [quote]
  cases utf8 text with
  | false => rfl
  | true => rfl

theorem escape_nonempty (byte : Char) : 1 ≤ (escape byte).length := by
  unfold escape
  repeat' split
  all_goals simp

theorem escaped_longer (text : String) : text.length ≤ (escaped text).length := by
  rw [escaped, String.length_ofList, ← String.length_toList]
  induction text.toList with
  | nil => exact Nat.le_refl 0
  | cons byte bytes ih =>
      have first := escape_nonempty byte
      rw [List.flatMap_cons, List.length_append, List.length_cons]
      omega

theorem dump_texts (floats : Rat → String) {first second left right : String}
    (firstKey : utf8 first = true) (secondKey : utf8 second = true) (leftText : utf8 left = true)
    (rightText : utf8 right = true) :
    dump floats (.object [(first, .string left), (second, .string right)]) =
      some ("\x7b\"" ++ escaped first ++ "\":\"" ++ escaped left ++ "\",\"" ++ escaped second ++ "\":\"" ++
        escaped right ++ "\"\x7d") := by
  have parts : dumpMembers floats [(first, .string left), (second, .string right)] =
      some ["\"" ++ escaped first ++ "\"" ++ ":" ++ ("\"" ++ escaped left ++ "\""),
        "\"" ++ escaped second ++ "\"" ++ ":" ++ ("\"" ++ escaped right ++ "\"")] := by
    simp [dumpMembers, dump, quote, firstKey, secondKey, leftText, rightText]
  rw [dump, parts, Option.map_some]
  apply congrArg some
  apply String.toList_inj.mp
  simp [commas, String.toList_append]

end OtaMqtt.Lib.Json
