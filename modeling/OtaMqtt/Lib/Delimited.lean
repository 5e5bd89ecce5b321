import Mathlib.Tactic

/-! Texts made of decimal numbers and delimiters. -/

namespace OtaMqtt.Lib.Delimited

theorem split_first {α : Type} {delimiter : α} {left right before behind : List α}
    (free : delimiter ∉ left) (free' : delimiter ∉ right)
    (same : left ++ delimiter :: before = right ++ delimiter :: behind) :
    left = right ∧ before = behind := by
  induction left generalizing right with
  | nil =>
      cases right with
      | nil => exact ⟨rfl, (List.cons.inj same).2⟩
      | cons head right => exact absurd (List.mem_cons.mpr (.inl (List.cons.inj same).1)) free'
  | cons head left ih =>
      cases right with
      | nil => exact absurd (List.mem_cons.mpr (.inl (List.cons.inj same).1.symm)) free
      | cons head' right =>
          obtain ⟨heads, tails⟩ := List.cons.inj same
          obtain ⟨lefts, rest⟩ := ih (fun member => free (List.mem_cons_of_mem _ member))
            (fun member => free' (List.mem_cons_of_mem _ member)) tails
          exact ⟨by rw [heads, lefts], rest⟩

theorem joined_iff {α : Type} {delimiter : α} {left right before behind : List α} :
    left ++ delimiter :: before = right ++ delimiter :: behind ↔ (left = right ∧ before = behind) ∨
      (∃ middle, left = right ++ delimiter :: middle ∧ behind = middle ++ delimiter :: before) ∨
      ∃ middle, right = left ++ delimiter :: middle ∧ before = middle ++ delimiter :: behind := by
  constructor
  · intro same
    rcases List.append_eq_append_iff.mp same with ⟨more, rights, rest⟩ | ⟨more, lefts, rest⟩
    · cases more with
      | nil => exact .inl ⟨by rw [rights, List.append_nil], (List.cons.inj rest).2⟩
      | cons head middle =>
          obtain ⟨rfl, tails⟩ := List.cons.inj rest
          exact .inr (.inr ⟨middle, rights, tails⟩)
    · cases more with
      | nil => exact .inl ⟨by rw [lefts, List.append_nil], (List.cons.inj rest).2.symm⟩
      | cons head middle =>
          obtain ⟨rfl, tails⟩ := List.cons.inj rest
          exact .inr (.inl ⟨middle, lefts, tails⟩)
  · rintro (⟨rfl, rfl⟩ | ⟨middle, rfl, rfl⟩ | ⟨middle, rfl, rfl⟩)
    · rfl
    · rw [List.append_assoc, List.cons_append]
    · rw [List.append_assoc, List.cons_append]

theorem joined_text {text : String} {delimiter : Char} (single : text.toList = [delimiter])
    (left middle right : String) : left = right ++ text ++ middle ↔
      left.toList = right.toList ++ delimiter :: middle.toList := by
  rw [← String.toList_inj, String.toList_append, String.toList_append, single, List.append_assoc,
    List.singleton_append]

theorem longer_text {text : String} {delimiter : Char} (single : text.toList = [delimiter])
    (left middle : String) : left ≠ left ++ text ++ middle := by
  intro same
  have lengths := congrArg List.length ((joined_text single left middle left).mp same)
  rw [List.length_append, List.length_cons] at lengths
  omega

theorem joined_texts_iff {text : String} {delimiter : Char} (single : text.toList = [delimiter])
    {left right before behind : String} :
    left.toList ++ delimiter :: before.toList = right.toList ++ delimiter :: behind.toList ↔
      (left = right ∧ before = behind) ∨
      (∃ middle, left = right ++ text ++ middle ∧ behind = middle ++ text ++ before) ∨
      ∃ middle, right = left ++ text ++ middle ∧ before = middle ++ text ++ behind := by
  simp only [joined_text single]
  rw [joined_iff, String.toList_inj, String.toList_inj]
  have texts (front : List Char → Prop) : (∃ middle, front middle) ↔ ∃ middle : String, front middle.toList :=
    ⟨fun ⟨middle, holds⟩ => ⟨.ofList middle, by rwa [String.toList_ofList]⟩,
      fun ⟨middle, holds⟩ => ⟨middle.toList, holds⟩⟩
  rw [texts, texts]

theorem digits_injective {first second : Nat}
    (same : Nat.toDigits 10 first = Nat.toDigits 10 second) : first = second := by
  rw [← @Nat.ofDigitChars_ten_toDigits first, same, Nat.ofDigitChars_ten_toDigits]

theorem not_digit {delimiter : Char} (number : Nat) (apart : delimiter.isDigit = false) :
    delimiter ∉ Nat.toDigits 10 number := by
  intro member
  have digit := Nat.isDigit_of_mem_toDigits (by decide) (by decide) member
  rw [apart] at digit
  cases digit

theorem int_text_injective {first second : Int} (same : toString first = toString second) :
    first = second := by
  have free : ∀ (number : Nat) (text : List Char), '-' :: text ≠ Nat.toDigits 10 number := by
    intro number text digits
    exact not_digit number (by decide) (digits ▸ List.mem_cons_self)
  have chars := congrArg String.toList same
  rw [Int.toString_eq_repr, Int.toString_eq_repr, Int.repr_eq_if, Int.repr_eq_if] at chars
  split_ifs at chars with positive positive'
  · rw [Nat.toList_repr, Nat.toList_repr] at chars
    have values := digits_injective chars
    omega
  · rw [String.toList_append, Nat.toList_repr, Nat.toList_repr] at chars
    exact absurd chars.symm (free _ _)
  · rw [String.toList_append, Nat.toList_repr, Nat.toList_repr] at chars
    exact absurd chars (free _ _)
  · rw [String.toList_append, String.toList_append, Nat.toList_repr, Nat.toList_repr] at chars
    have values := digits_injective (List.append_cancel_left chars)
    omega

end OtaMqtt.Lib.Delimited
