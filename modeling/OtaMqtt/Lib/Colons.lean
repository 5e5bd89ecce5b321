import Mathlib.Tactic

/-! The text form of a row of 16-bit groups: hexadecimal numbers of one to four digits with
colons in between, where one double colon may stand for one or more groups that are zero. -/

namespace OtaMqtt.Lib.Colons

def hexValue (char : Char) : Option Nat :=
  if '0' ≤ char ∧ char ≤ '9' then some (char.toNat - 48)
  else if 'a' ≤ char ∧ char ≤ 'f' then some (char.toNat - 87)
  else if 'A' ≤ char ∧ char ≤ 'F' then some (char.toNat - 55)
  else none

def hexNumber (text : List Char) : Option Nat :=
  text.foldlM (fun value char => (hexValue char).map (16 * value + ·)) 0

def group (text : List Char) : Option Nat :=
  if text ≠ [] ∧ text.length ≤ 4 then hexNumber text else none

def groups (text : List Char) : Option (List Nat) :=
  if text = [] then some [] else (text.splitOn ':').mapM group

def splitDouble : List Char → Option (List Char × List Char)
  | [] => none
  | [_] => none
  | first :: second :: rest =>
      if first = ':' ∧ second = ':' then some ([], rest)
      else (splitDouble (second :: rest)).map fun (before, behind) => (first :: before, behind)

/-- The row of `count` groups that the text denotes. -/
def parse (count : Nat) (text : List Char) : Option (List Nat) :=
  match splitDouble text with
  | none => do
      let row ← groups text
      if row.length = count then some row else none
  | some (before, behind) => do
      let front ← groups before
      let back ← groups behind
      if front.length + back.length < count then
        some (front ++ List.replicate (count - (front.length + back.length)) 0 ++ back)
      else none

def join (row : List Nat) : List Char := [':'].intercalate (row.map (Nat.toDigits 16))

theorem hexValue_digitChar : ∀ digit < 16, hexValue digit.digitChar = some digit := by decide

theorem hexNumber_append (text : List Char) (char : Char) :
    hexNumber (text ++ [char]) = (hexNumber text).bind fun value =>
      (hexValue char).map (16 * value + ·) := by
  rw [hexNumber, List.foldlM_append]
  simp only [List.foldlM_cons, List.foldlM_nil, bind_pure]
  rfl

theorem hexNumber_toDigits (number : Nat) : hexNumber (Nat.toDigits 16 number) = some number := by
  induction number using Nat.strong_induction_on with
  | _ number ih =>
      rw [Nat.toDigits_eq_if (by decide)]
      split
      · rename_i small
        rw [← List.nil_append [number.digitChar], hexNumber_append, hexValue_digitChar number small]
        simp [hexNumber]
      · rename_i large
        rw [hexNumber_append, ih (number / 16) (by omega), Option.bind_some,
          hexValue_digitChar _ (Nat.mod_lt _ (by decide)), Option.map_some, Nat.div_add_mod]

theorem group_toDigits {number : Nat} (small : number < 2 ^ 16) :
    group (Nat.toDigits 16 number) = some number := by
  have short := (@Nat.length_toDigits_le_iff 16 number 4 (by decide) (by decide)).mpr small
  rw [group, if_pos ⟨Nat.toDigits_ne_nil, short⟩, hexNumber_toDigits]

theorem hexValue_of_mem {number : Nat} {char : Char} (member : char ∈ Nat.toDigits 16 number) :
    (hexValue char).isSome = true := by
  induction number using Nat.strong_induction_on with
  | _ number ih =>
      rw [Nat.toDigits_eq_if (by decide)] at member
      split at member
      · rename_i small
        rw [List.mem_singleton.mp member, hexValue_digitChar number small]
        rfl
      · rename_i large
        rcases List.mem_append.mp member with earlier | last
        · exact ih (number / 16) (by omega) earlier
        · rw [List.mem_singleton.mp last, hexValue_digitChar _ (Nat.mod_lt _ (by decide))]
          rfl

theorem colon_not_mem (number : Nat) : ':' ∉ Nat.toDigits 16 number := by
  intro member
  have digit := hexValue_of_mem member
  revert digit
  decide

@[simp] theorem join_nil : join [] = [] := rfl

@[simp] theorem join_singleton (number : Nat) : join [number] = Nat.toDigits 16 number :=
  List.intercalate_singleton

theorem join_cons_cons (first second : Nat) (row : List Nat) :
    join (first :: second :: row) = Nat.toDigits 16 first ++ ':' :: join (second :: row) := by
  simp only [join, List.map_cons, List.intercalate_cons_cons, List.append_assoc, List.singleton_append]

theorem join_cons_head (first : Nat) (row : List Nat) :
    ∃ char rest, join (first :: row) = char :: rest ∧ char ≠ ':' := by
  have free := colon_not_mem first
  have some := @Nat.toDigits_ne_nil first 16
  cases digits : Nat.toDigits 16 first with
  | nil => exact absurd digits some
  | cons char rest =>
      rw [digits] at free
      have apart : char ≠ ':' := fun same => free (List.mem_cons.mpr (.inl same.symm))
      cases row with
      | nil => exact ⟨char, rest, (join_singleton first).trans digits, apart⟩
      | cons second row =>
          refine ⟨char, rest ++ ':' :: join (second :: row), ?_, apart⟩
          rw [join_cons_cons, digits, List.cons_append]

theorem join_append_singleton (row : List Nat) (some : row ≠ []) (number : Nat) :
    join (row ++ [number]) = join row ++ ':' :: Nat.toDigits 16 number := by
  induction row with
  | nil => exact absurd rfl some
  | cons first row ih =>
      cases row with
      | nil => rw [List.singleton_append, join_cons_cons, join_singleton, join_singleton]
      | cons second row =>
          rw [List.cons_append, List.cons_append, join_cons_cons, join_cons_cons, ← List.cons_append,
            ih (List.cons_ne_nil _ _), List.append_assoc, List.cons_append]

theorem not_mem_join (row : List Nat) (char : Char) (other : hexValue char = none) (apart : char ≠ ':') :
    char ∉ join row := by
  have outside : ∀ number, char ∉ Nat.toDigits 16 number := by
    intro number member
    have digit := hexValue_of_mem member
    rw [other] at digit
    cases digit
  induction row with
  | nil => exact List.not_mem_nil
  | cons first row ih =>
      cases row with
      | nil =>
          rw [join_singleton]
          exact outside first
      | cons second row =>
          rw [join_cons_cons]
          intro member
          rcases List.mem_append.mp member with digit | later
          · exact outside first digit
          · rcases List.mem_cons.mp later with colon | later
            · exact apart colon
            · exact ih later

theorem groups_join (row : List Nat) (small : ∀ number ∈ row, number < 2 ^ 16) :
    groups (join row) = some row := by
  cases row with
  | nil => rfl
  | cons first row =>
      obtain ⟨char, rest, starts, -⟩ := join_cons_head first row
      have split : (join (first :: row)).splitOn ':' = (first :: row).map (Nat.toDigits 16) := by
        apply List.splitOn_intercalate
        · intro text member
          obtain ⟨number, -, rfl⟩ := List.mem_map.mp member
          exact colon_not_mem number
        · exact List.cons_ne_nil _ _
      rw [groups, if_neg (by rw [starts]; exact List.cons_ne_nil _ _), split]
      generalize first :: row = all at small
      induction all with
      | nil => rfl
      | cons number all ih =>
          rw [List.map_cons, List.mapM_cons, group_toDigits (small number List.mem_cons_self),
            ih fun other member => small other (List.mem_cons_of_mem _ member)]
          rfl

theorem splitDouble_cons (char : Char) (rest : List Char) (apart : char ≠ ':') :
    splitDouble (char :: rest) =
      (splitDouble rest).map fun (before, behind) => (char :: before, behind) := by
  cases rest with
  | nil => rfl
  | cons second rest => rw [splitDouble, if_neg fun both => apart both.1]

theorem splitDouble_plain (text rest : List Char) (free : ':' ∉ text) :
    splitDouble (text ++ rest) =
      (splitDouble rest).map fun (before, behind) => (text ++ before, behind) := by
  induction text with
  | nil => simp
  | cons char text ih =>
      have apart : char ≠ ':' := fun same => free (List.mem_cons.mpr (.inl same.symm))
      rw [List.cons_append, splitDouble_cons char _ apart,
        ih fun member => free (List.mem_cons_of_mem _ member), Option.map_map]
      rfl

theorem splitDouble_join (row : List Nat) (rest : List Char) :
    splitDouble (join row ++ rest) =
      (splitDouble rest).map fun (before, behind) => (join row ++ before, behind) := by
  induction row with
  | nil => simp
  | cons first row ih =>
      cases row with
      | nil =>
          rw [join_singleton]
          exact splitDouble_plain _ _ (colon_not_mem first)
      | cons second row =>
          obtain ⟨char, tail, starts, apart⟩ := join_cons_head second row
          have single : splitDouble (':' :: (join (second :: row) ++ rest)) =
              (splitDouble (join (second :: row) ++ rest)).map
                fun (before, behind) => (':' :: before, behind) := by
            rw [starts, List.cons_append, splitDouble, if_neg fun both => apart both.2]
          rw [join_cons_cons, List.append_assoc, List.cons_append,
            splitDouble_plain _ _ (colon_not_mem first), single, ih, Option.map_map, Option.map_map]
          congr 1
          funext pair
          simp

theorem parse_join (row : List Nat) (small : ∀ number ∈ row, number < 2 ^ 16) :
    parse row.length (join row) = some row := by
  have none := splitDouble_join row []
  rw [List.append_nil] at none
  rw [parse, none]
  simp [splitDouble, groups_join row small]

theorem parse_compressed (front back : List Nat) (zeros : Nat)
    (small : ∀ number ∈ front, number < 2 ^ 16) (small' : ∀ number ∈ back, number < 2 ^ 16) :
    parse (front.length + (zeros + 1) + back.length) (join front ++ ':' :: ':' :: join back) =
      some (front ++ List.replicate (zeros + 1) 0 ++ back) := by
  have split : splitDouble (join front ++ ':' :: ':' :: join back) = some (join front, join back) := by
    rw [splitDouble_join]
    simp [splitDouble]
  have room : front.length + back.length < front.length + (zeros + 1) + back.length := by omega
  have missing : front.length + (zeros + 1) + back.length - (front.length + back.length) = zeros + 1 := by
    omega
  rw [parse, split]
  simp only [groups_join front small, groups_join back small', Option.bind_eq_bind, Option.bind_some,
    if_pos room, missing]

end OtaMqtt.Lib.Colons
