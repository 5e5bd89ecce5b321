import Mathlib.Data.List.TakeWhile
import OtaMqtt.Lib.Execution

/-! The C library's string functions, on the bytes before the terminating NUL. -/

namespace OtaMqtt.Lib.CText

open OtaMqtt.Lib.Execution

def ascii (text : String) : List UInt8 := text.toList.map Char.toUInt8

/-- The string that starts a `char` array; without a NUL in the array it is overrun. -/
def cstring (array : List UInt8) : Run (List UInt8) :=
  if 0 ∈ array then .ok (array.takeWhile (· ≠ 0)) else .error .outOfBounds

/-- From the first byte of `accept` on; `none` is the null pointer. -/
def strpbrk (text accept : List UInt8) : Option (List UInt8) :=
  match text.dropWhile (· ∉ accept) with
  | [] => none
  | found => some found

/-- From the first such element on; `none` is the null pointer. -/
def memchr {α : Type} [DecidableEq α] (text : List α) (sought : α) : Option (List α) :=
  match text.dropWhile (· ≠ sought) with
  | [] => none
  | found => some found

theorem memchr_missing {α : Type} [DecidableEq α] {text : List α} {sought : α}
    (missing : sought ∉ text) : memchr text sought = none := by
  have nothing : text.dropWhile (· ≠ sought) = [] := by
    rw [List.dropWhile_eq_nil_iff]
    intro element member
    exact decide_eq_true fun same => missing (same ▸ member)
  rw [memchr, nothing]

theorem memchr_found {α : Type} [DecidableEq α] {before : List α} {sought : α} (behind : List α)
    (free : sought ∉ before) :
    memchr (before ++ sought :: behind) sought = some (sought :: behind) := by
  have found : (before ++ sought :: behind).dropWhile (· ≠ sought) = sought :: behind := by
    induction before with
    | nil => rw [List.nil_append, List.dropWhile_cons_of_neg (by simp)]
    | cons head before ih =>
        obtain ⟨apart, rest⟩ := not_or.mp (mt List.mem_cons.mpr free)
        rw [List.cons_append, List.dropWhile_cons_of_pos (by simpa using Ne.symm apart), ih rest]
  rw [memchr, found]

theorem memchr_suffix {α : Type} [DecidableEq α] {text found : List α} {sought : α}
    (search : memchr text sought = some found) : found <:+ text := by
  unfold memchr at search
  split at search
  · cases search
  · rw [← Option.some.inj search]
    exact List.dropWhile_suffix _

def strspn (text accept : List UInt8) : Nat := (text.takeWhile (· ∈ accept)).length

/-- `strncmp (text, head, strlen (head)) == 0`. -/
def startsWith (head text : List UInt8) : Bool := head.isPrefixOf text

/-- `isspace` in the C locale. -/
def isspace (byte : UInt8) : Bool := byte = 32 || (9 ≤ byte && byte ≤ 13)

def isdigit (byte : UInt8) : Bool := 48 ≤ byte && byte ≤ 57

def decimal (digits : List UInt8) : Nat :=
  digits.foldl (fun value digit => value * 10 + (digit.toNat - 48)) 0

/-- `strtol (text, &end, 10)`: the value, clamped to `long`, and the text at `end`. -/
def strtol (text : List UInt8) : Int × List UInt8 :=
  let start := text.dropWhile isspace
  let (negative, rest) := match start with
    | 45 :: rest => (true, rest)
    | 43 :: rest => (false, rest)
    | rest => (false, rest)
  let digits := rest.takeWhile isdigit
  if digits = [] then (0, text)
  else
    let value : Int := if negative then -(decimal digits : Int) else decimal digits
    (max (-2 ^ 63) (min (2 ^ 63 - 1) value), rest.dropWhile isdigit)

end OtaMqtt.Lib.CText
