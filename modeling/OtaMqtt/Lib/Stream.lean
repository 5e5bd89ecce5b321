import Mathlib.Data.List.TakeWhile
import Mathlib.Tactic

/-! Reading a text from an input stream, as the C++ library does. The state of a stream is what
it has still to read; a failed extraction leaves its target empty. -/

namespace OtaMqtt.Lib.Stream

def isspace (character : Char) : Bool :=
  character = ' ' || (9 ≤ character.toNat && character.toNat ≤ 13)

/-- `std::getline` up to a delimiter, which is taken and dropped. -/
def getline (delimiter : Char) (input : List Char) : String × List Char :=
  let (line, rest) := input.span (· ≠ delimiter)
  (String.ofList line, rest.drop 1)

/-- `operator>>` into a `std::string`. -/
def extract (input : List Char) : String :=
  String.ofList ((input.dropWhile isspace).takeWhile fun character => !isspace character)

/-- `std::stoul` in base ten; `none` stands for the exceptions it throws. A sign is taken, and a
negative number is negated in the type of the result. -/
def stoul (text : String) : Option UInt64 :=
  let (negative, rest) := match text.toList.dropWhile isspace with
    | '-' :: rest => (true, rest)
    | '+' :: rest => (false, rest)
    | rest => (false, rest)
  let digits := rest.takeWhile Char.isDigit
  let value := Nat.ofDigitChars 10 digits 0
  if digits = [] then none
  else if 2 ^ 64 ≤ value then none
  else some (if negative then 0 - UInt64.ofNat value else UInt64.ofNat value)

theorem getline_free (delimiter : Char) (input : List Char) :
    delimiter ∉ (getline delimiter input).1.toList := by
  intro member
  rw [getline, List.span_eq_takeWhile_dropWhile, String.toList_ofList] at member
  have kept := List.mem_takeWhile_imp member
  simp at kept

theorem getline_cut {delimiter : Char} {line rest : List Char} (free : delimiter ∉ line) :
    getline delimiter (line ++ delimiter :: rest) = (String.ofList line, rest) := by
  have kept : ∀ character ∈ line, decide (character ≠ delimiter) = true :=
    fun character member => decide_eq_true fun same => free (same ▸ member)
  rw [getline, List.span_eq_takeWhile_dropWhile, List.takeWhile_append_of_pos kept,
    List.dropWhile_append_of_pos kept]
  simp

theorem digit_not_space {character : Char} (digit : character.isDigit = true) :
    isspace character = false := by
  simp only [Char.isDigit, ge_iff_le, Bool.and_eq_true, decide_eq_true_eq] at digit
  have low : 48 ≤ character.toNat := by exact_mod_cast UInt32.le_iff_toNat_le.mp digit.1
  have space : character ≠ ' ' := by
    intro same
    rw [same] at low
    revert low
    decide
  have tab : ¬ character.toNat ≤ 13 := by omega
  simp [isspace, space, tab]

theorem digit_unsigned {character : Char} (digit : character.isDigit = true) :
    character ≠ '-' ∧ character ≠ '+' := by
  constructor
  · intro same
    rw [same] at digit
    revert digit
    decide
  · intro same
    rw [same] at digit
    revert digit
    decide

theorem stoul_digits (text : String) (nonempty : text.toList ≠ [])
    (digits : ∀ character ∈ text.toList, character.isDigit = true)
    (bound : Nat.ofDigitChars 10 text.toList 0 < 2 ^ 64) :
    stoul text = some (UInt64.ofNat (Nat.ofDigitChars 10 text.toList 0)) := by
  have taken : text.toList.takeWhile Char.isDigit = text.toList :=
    List.takeWhile_eq_self_iff.mpr digits
  cases chars : text.toList with
  | nil => exact absurd chars nonempty
  | cons first rest =>
      rw [chars] at digits bound taken
      have head := digits first List.mem_cons_self
      have blanks : (first :: rest).dropWhile isspace = first :: rest := by
        rw [List.dropWhile_cons_of_neg]
        rw [digit_not_space head]
        exact Bool.false_ne_true
      have signs : (match first :: rest with
          | '-' :: rest => (true, rest)
          | '+' :: rest => (false, rest)
          | rest => (false, rest)) = (false, first :: rest) := by
        obtain ⟨minus, plus⟩ := digit_unsigned head
        split
        · rename_i same
          exact absurd (List.cons.inj same).1 minus
        · rename_i same
          exact absurd (List.cons.inj same).1 plus
        · rfl
      unfold stoul
      rw [chars, blanks, signs]
      dsimp only
      rw [taken, if_neg (List.cons_ne_nil first rest), if_neg (Nat.not_le.mpr bound)]
      rfl

end OtaMqtt.Lib.Stream
