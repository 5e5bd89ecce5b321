import Mathlib.Tactic

/-! Well-formed UTF-8 byte sequences. -/

namespace OtaMqtt.Lib.Utf8

def within (low high byte : Nat) : Bool := low ≤ byte && byte ≤ high

/-- The bytes that may follow a lead byte of three or four. -/
def second (lead byte : Nat) : Bool :=
  within (if lead = 0xE0 then 0xA0 else if lead = 0xF0 then 0x90 else 0x80)
    (if lead = 0xED then 0x9F else if lead = 0xF4 then 0x8F else 0xBF) byte

def wellFormed : List Nat → Bool
  | [] => true
  | lead :: rest =>
      if lead < 0x80 then wellFormed rest
      else
        match rest with
        | [] => false
        | byte :: rest =>
            if within 0xC2 0xDF lead then within 0x80 0xBF byte && wellFormed rest
            else
              match rest with
              | [] => false
              | byte' :: rest =>
                  if within 0xE0 0xEF lead then
                    second lead byte && within 0x80 0xBF byte' && wellFormed rest
                  else
                    match rest with
                    | [] => false
                    | byte'' :: rest =>
                        within 0xF0 0xF4 lead && second lead byte && within 0x80 0xBF byte' &&
                          within 0x80 0xBF byte'' && wellFormed rest

theorem wellFormed_ascii (byte : Nat) (rest : List Nat) (ascii : byte < 0x80) :
    wellFormed (byte :: rest) = wellFormed rest := by
  rw [wellFormed.eq_def]
  exact if_pos ascii

theorem not_within (byte : Nat) (ascii : byte < 0x80) : within 0x80 0xBF byte = false := by
  simp only [within, Bool.and_eq_false_iff, decide_eq_false_iff_not]
  omega

theorem not_second (lead byte : Nat) (ascii : byte < 0x80) : second lead byte = false := by
  simp only [second, within, Bool.and_eq_false_iff, decide_eq_false_iff_not]
  split_ifs <;> omega

/-- A byte below 128 belongs to no longer sequence, so it divides the text. -/
theorem wellFormed_split (left right : List Nat) (byte : Nat) (ascii : byte < 0x80) :
    wellFormed (left ++ byte :: right) = (wellFormed left && wellFormed right) := by
  have apart := not_within byte ascii
  have apart' := fun lead => not_second lead byte ascii
  fun_induction wellFormed left with
  | case1 => rw [List.nil_append, wellFormed_ascii byte right ascii, Bool.true_and]
  | case2 lead rest low ih => rw [List.cons_append, wellFormed_ascii lead _ low, ih]
  | case3 lead high =>
      rw [List.cons_append, List.nil_append, wellFormed.eq_def]
      simp only [high, if_false, apart, apart', Bool.false_and, Bool.and_false]
      cases right with
      | nil => exact ite_self false
      | cons first rest =>
          cases rest with
          | nil => simp only [ite_self]
          | cons second rest => simp only [ite_self]
  | case4 lead high follower rest two ih =>
      rw [List.cons_append, List.cons_append, wellFormed.eq_def]
      simp only [high, if_false, two, if_true]
      rw [ih, Bool.and_assoc]
  | case5 lead high follower two =>
      rw [List.cons_append, List.cons_append, List.nil_append, wellFormed.eq_def]
      simp only [high, Bool.false_eq_true, if_false, two, apart, Bool.false_and, Bool.and_false]
      cases right with
      | nil => simp only [ite_self]
      | cons first rest => simp only [ite_self]
  | case6 lead high follower two follower' rest three ih =>
      rw [List.cons_append, List.cons_append, List.cons_append, wellFormed.eq_def]
      simp only [high, Bool.false_eq_true, if_false, two, three, if_true, ih, Bool.and_assoc]
  | case7 lead high follower two follower' three =>
      rw [List.cons_append, List.cons_append, List.cons_append, List.nil_append, wellFormed.eq_def]
      simp only [high, Bool.false_eq_true, if_false, two, three, apart, Bool.false_and, Bool.and_false]
  | case8 lead high follower two follower' three follower'' rest ih =>
      rw [List.cons_append, List.cons_append, List.cons_append, List.cons_append, wellFormed.eq_def]
      simp only [high, Bool.false_eq_true, if_false, two, three, ih, Bool.and_assoc]

/-- A text whose characters stand for its bytes. -/
def utf8 (text : String) : Bool := wellFormed (text.toList.map Char.toNat)

def Ascii (text : String) : Prop := ∀ character ∈ text.toList, character.toNat < 0x80

instance (text : String) : Decidable (Ascii text) := List.decidableBAll _ _

theorem wellFormed_append (bytes rest : List Nat) (ascii : ∀ byte ∈ bytes, byte < 0x80) :
    wellFormed (bytes ++ rest) = wellFormed rest := by
  induction bytes with
  | nil => rfl
  | cons byte bytes ih =>
      rw [List.cons_append, wellFormed_ascii byte _ (ascii byte List.mem_cons_self),
        ih fun other member => ascii other (List.mem_cons_of_mem _ member)]

theorem utf8_append (plain rest : String) (ascii : Ascii plain) : utf8 (plain ++ rest) = utf8 rest := by
  rw [utf8, String.toList_append, List.map_append, wellFormed_append]
  · rfl
  · intro byte member
    obtain ⟨character, inside, rfl⟩ := List.mem_map.mp member
    exact ascii character inside

theorem utf8_ascii (plain : String) (ascii : Ascii plain) : utf8 plain = true := by
  have whole := utf8_append plain "" ascii
  rwa [String.append_empty] at whole

theorem utf8_split (text plain rest : String) (ascii : Ascii plain) (some : plain ≠ "") :
    utf8 (text ++ (plain ++ rest)) = (utf8 text && utf8 rest) := by
  have whole := utf8_append plain rest ascii
  unfold utf8 at whole ⊢
  rw [String.toList_append, String.toList_append, List.map_append, List.map_append]
  rw [String.toList_append, List.map_append] at whole
  cases characters : plain.toList with
  | nil => exact absurd (String.toList_eq_nil_iff.mp characters) some
  | cons character others =>
      rw [characters, List.map_cons, List.cons_append] at whole
      have first : character.toNat < 0x80 := ascii character (by
        rw [characters]
        exact List.mem_cons_self)
      rw [List.map_cons, List.cons_append, wellFormed_split _ _ _ first]
      rw [wellFormed_ascii _ _ first] at whole
      rw [whole]

theorem utf8_before (text plain : String) (ascii : Ascii plain) : utf8 (text ++ plain) = utf8 text := by
  by_cases none : plain = ""
  · rw [none, String.append_empty]
  · have whole := utf8_split text plain "" ascii none
    rwa [String.append_empty, utf8_ascii "" (by decide), Bool.and_true] at whole

end OtaMqtt.Lib.Utf8
