import OtaMqtt.Bytes.Swaps
import OtaMqtt.Lib.Colons
import OtaMqtt.Net.Address

/-! The text that `IPv6Address::insert` prints, and what it denotes.

The first run of zero groups is left out. While it is being passed nothing is printed, and the
two colons are made up for at the next group, or at the end. -/

namespace OtaMqtt.Net.Text6

open OtaMqtt.Lib.Colons OtaMqtt.Bytes.Codec OtaMqtt.Bytes.RoundTrip
open OtaMqtt.Net.Address OtaMqtt.Net.Address.IPv6Address

def bracketed (text : List Char) : List Char := (text.drop 1).takeWhile (· ≠ ']')

def decode (text : List Char) : Option (BitVec 128) :=
  (parse 8 text).map fun row => BitVec.ofNat 128 (row.foldl (fun value number => value * 2 ^ 16 + number) 0)

def printed (addr : In6Addr) (index : Nat) : Nat :=
  (byteswapOnLittleEndian 2 (addr.word index)).toNat

/-- The groups in front of `index`. -/
def done (addr : In6Addr) (index : Nat) : List Nat := (List.range index).map (printed addr)

/-- What is written after some groups: all of them but the zeros at the end, or all of them with
the first zeros left out. -/
inductive Written : List Nat → List Char × Bool → Prop where
  | plain (front : List Nat) (zeros : Nat) (nonzero : ∀ number ∈ front, number ≠ 0) :
      Written (front ++ List.replicate zeros 0) (join front, false)
  | compressed (front : List Nat) (zeros : Nat) (back : List Nat) (some : back ≠ []) :
      Written (front ++ List.replicate (zeros + 1) 0 ++ back)
        (join front ++ ':' :: ':' :: join back, true)

section
variable (addr : In6Addr)

theorem word_eq_zero_iff (index : Nat) : addr.word index = 0 ↔ printed addr index = 0 := by
  have zero : byteswap 2 0 = 0 := by decide
  constructor
  · intro same
    rw [printed, same, byteswapOnLittleEndian, zero]
    rfl
  · intro same
    have swapped : byteswap 2 (addr.word index) = 0 := BitVec.eq_of_toNat_eq same
    rw [← byteswap_byteswap 2 (addr.word index), swapped, zero]

theorem done_succ (index : Nat) : done addr (index + 1) = done addr index ++ [printed addr index] := by
  rw [done, List.range_succ, List.map_append, List.map_singleton, ← done]

@[simp] theorem done_length (index : Nat) : (done addr index).length = index := by
  rw [done, List.length_map, List.length_range]

theorem printed_lt (index : Nat) : printed addr index < 2 ^ 16 :=
  (byteswapOnLittleEndian 2 (addr.word index)).isLt

theorem done_small (index : Nat) : ∀ number ∈ done addr index, number < 2 ^ 16 := by
  intro number member
  obtain ⟨earlier, -, rfl⟩ := List.mem_map.mp member
  exact printed_lt addr earlier

theorem insertWord_skips (index : Nat) (text : List Char) (zero : printed addr index = 0) :
    addr.insertWord (text, false) index = (text, false) := by
  rw [In6Addr.insertWord, if_pos ⟨(word_eq_zero_iff addr index).mpr zero, rfl⟩]

theorem insertWord_first (text : List Char) (some : printed addr 0 ≠ 0) :
    addr.insertWord (text, false) 0 = (text ++ Nat.toDigits 16 (printed addr 0), false) := by
  rw [In6Addr.insertWord, if_neg fun both => some ((word_eq_zero_iff addr 0).mp both.1)]
  simp [printed]

theorem insertWord_closes (index : Nat) (text : List Char) (some : printed addr (index + 1) ≠ 0)
    (zero : printed addr index = 0) :
    addr.insertWord (text, false) (index + 1) =
      (text ++ ':' :: ':' :: Nat.toDigits 16 (printed addr (index + 1)), true) := by
  have before : addr.word (index + 1 - 1) = 0 := (word_eq_zero_iff addr index).mpr zero
  rw [In6Addr.insertWord, if_neg fun both => some ((word_eq_zero_iff addr (index + 1)).mp both.1)]
  simp only [before]
  simp [printed]

theorem insertWord_next (index : Nat) (text : List Char) (some : printed addr (index + 1) ≠ 0)
    (before : printed addr index ≠ 0) :
    addr.insertWord (text, false) (index + 1) =
      (text ++ ':' :: Nat.toDigits 16 (printed addr (index + 1)), false) := by
  have apart : ¬addr.word (index + 1 - 1) = 0 := fun zero => before ((word_eq_zero_iff addr index).mp zero)
  rw [In6Addr.insertWord, if_neg fun both => some ((word_eq_zero_iff addr (index + 1)).mp both.1)]
  simp only [apart]
  simp [printed]

theorem insertWord_later (index : Nat) (text : List Char) :
    addr.insertWord (text, true) (index + 1) =
      (text ++ ':' :: Nat.toDigits 16 (printed addr (index + 1)), true) := by
  rw [In6Addr.insertWord, if_neg fun both => Bool.noConfusion both.2]
  simp [printed]

theorem written_next {front : List Nat} (some : front ≠ []) (nonzero : ∀ number ∈ front, number ≠ 0)
    {number : Nat} (given : number ≠ 0) :
    Written (front ++ [number]) (join front ++ ':' :: Nat.toDigits 16 number, false) := by
  rw [← join_append_singleton front some]
  have more := Written.plain (front ++ [number]) 0 fun other member => by
    rcases List.mem_append.mp member with old | new
    · exact nonzero other old
    · rw [List.mem_singleton.mp new]
      exact given
  rwa [List.replicate_zero, List.append_nil] at more

theorem plain_written (index : Nat) {front : List Nat} {zeros : Nat}
    (nonzero : ∀ number ∈ front, number ≠ 0)
    (row : done addr index = front ++ List.replicate zeros 0) :
    Written (done addr (index + 1)) (addr.insertWord (join front, false) index) := by
  rw [done_succ]
  by_cases zero : printed addr index = 0
  · rw [insertWord_skips addr index _ zero, zero, row, List.append_assoc, ← List.replicate_succ']
    exact .plain front (zeros + 1) nonzero
  · cases index with
    | zero =>
        obtain ⟨rfl, rfl⟩ : front = [] ∧ zeros = 0 := by
          have empty := congrArg List.length row
          rw [done_length, List.length_append, List.length_replicate] at empty
          exact ⟨List.eq_nil_of_length_eq_zero (by omega), by omega⟩
        rw [insertWord_first addr _ zero, row]
        have first := Written.plain [printed addr 0] 0 fun number member => by
          rw [List.mem_singleton.mp member]
          exact zero
        simpa using first
    | succ index =>
        have last : front ++ List.replicate zeros 0 = done addr index ++ [printed addr index] := by
          rw [← row, done_succ]
        rw [row]
        cases zeros with
        | zero =>
            rw [List.replicate_zero, List.append_nil] at last ⊢
            have before : printed addr index ≠ 0 := by
              apply nonzero
              rw [last]
              exact List.mem_append_right _ List.mem_cons_self
            have some : front ≠ [] := by
              rw [last]
              exact List.append_ne_nil_of_right_ne_nil _ (List.cons_ne_nil _ _)
            rw [insertWord_next addr index _ zero before]
            exact written_next some nonzero zero
        | succ zeros =>
            have before : printed addr index = 0 := by
              rw [List.replicate_succ', ← List.append_assoc] at last
              exact (List.append_singleton_inj.mp last).2.symm
            rw [insertWord_closes addr index _ zero before, ← join_singleton]
            exact .compressed front zeros [printed addr (index + 1)] (List.cons_ne_nil _ _)

theorem compressed_written (index : Nat) {front back : List Nat} {zeros : Nat} (some : back ≠ [])
    (row : done addr index = front ++ List.replicate (zeros + 1) 0 ++ back) :
    Written (done addr (index + 1))
      (addr.insertWord (join front ++ ':' :: ':' :: join back, true) index) := by
  cases index with
  | zero =>
      have empty := congrArg List.length row
      rw [done_length, List.length_append, List.length_append, List.length_replicate] at empty
      omega
  | succ index =>
      have more := Written.compressed front zeros (back ++ [printed addr (index + 1)])
        (List.append_ne_nil_of_left_ne_nil some _)
      rw [join_append_singleton back some] at more
      rw [done_succ, row, insertWord_later addr index]
      simpa [List.append_assoc] using more

theorem insertWord_written (index : Nat) (state : List Char × Bool)
    (written : Written (done addr index) state) :
    Written (done addr (index + 1)) (addr.insertWord state index) := by
  generalize row : done addr index = all at written
  cases written with
  | plain front zeros nonzero => exact plain_written addr index nonzero row
  | compressed front zeros back some => exact compressed_written addr index some row

theorem loop_written (count : Nat) :
    Written (done addr count) ((List.range count).foldl addr.insertWord ([], false)) := by
  induction count with
  | zero => exact .plain [] 0 fun number member => by cases member
  | succ count ih =>
      rw [List.range_succ, List.foldl_append]
      exact insertWord_written addr count _ ih

/-- What `insert` prints between the brackets. -/
def body : List Char :=
  let state := (List.range 8).foldl addr.insertWord ([], false)
  if state.2 = false ∧ addr.word 7 = 0 then state.1 ++ [':', ':'] else state.1

theorem body_cases :
    (body addr = join (done addr 8)) ∨
      ∃ front zeros back, done addr 8 = front ++ List.replicate (zeros + 1) 0 ++ back ∧
        body addr = join front ++ ':' :: ':' :: join back := by
  have last : done addr 8 = done addr 7 ++ [printed addr 7] := done_succ addr 7
  have written := loop_written addr 8
  unfold body
  generalize (List.range 8).foldl addr.insertWord ([], false) = state at written
  generalize row : done addr 8 = all at written
  cases written with
  | plain front zeros nonzero =>
      rw [row] at last
      cases zeros with
      | zero =>
          left
          rw [List.replicate_zero, List.append_nil] at last ⊢
          have some : printed addr 7 ≠ 0 := by
            apply nonzero
            rw [last]
            exact List.mem_append_right _ List.mem_cons_self
          rw [if_neg fun both => some ((word_eq_zero_iff addr 7).mp both.2)]
      | succ zeros =>
          right
          have zero : printed addr 7 = 0 := by
            rw [List.replicate_succ', ← List.append_assoc] at last
            exact (List.append_singleton_inj.mp last).2.symm
          refine ⟨front, zeros, [], (List.append_nil _).symm, ?_⟩
          rw [if_pos ⟨rfl, (word_eq_zero_iff addr 7).mpr zero⟩, join_nil]
  | compressed front zeros back some =>
      right
      exact ⟨front, zeros, back, rfl, if_neg fun both => Bool.noConfusion both.1⟩

theorem body_parses : parse 8 (body addr) = some (done addr 8) := by
  have small := done_small addr 8
  have size := done_length addr 8
  rcases body_cases addr with plain | ⟨front, zeros, back, row, compressed⟩
  · have parsed := parse_join (done addr 8) small
    rwa [size, ← plain] at parsed
  · rw [row] at small size ⊢
    have parsed := parse_compressed front back zeros
      (fun number member => small number (List.mem_append_left _ (List.mem_append_left _ member)))
      (fun number member => small number (List.mem_append_right _ member))
    rw [List.length_append, List.length_append, List.length_replicate] at size
    rwa [size, ← compressed] at parsed

theorem not_mem_body : ']' ∉ body addr := by
  have outside := fun row => not_mem_join row ']' (by decide) (by decide)
  rcases body_cases addr with plain | ⟨front, zeros, back, -, compressed⟩
  · rw [plain]
    exact outside _
  · rw [compressed]
    intro member
    rcases List.mem_append.mp member with before | later
    · exact outside front before
    · rcases List.mem_cons.mp later with colon | later
      · cases colon
      · rcases List.mem_cons.mp later with colon | later
        · cases colon
        · exact outside back later

theorem fold_done (count : Nat) (bound : 2 * count ≤ 16) :
    (done addr count).foldl (fun value number => value * 2 ^ 16 + number) 0 =
      number (addr.octets.take (2 * count)).reverse := by
  induction count with
  | zero => rfl
  | succ count ih =>
      have two : ((addr.octets.drop (2 * count)).take 2).length = 2 := by
        rw [List.length_take, List.length_drop, addr.size]
        omega
      have swapped : printed addr count = number ((addr.octets.drop (2 * count)).take 2).reverse := by
        have small := number_lt ((addr.octets.drop (2 * count)).take 2).reverse
        rw [List.length_reverse, two] at small
        rw [printed, byteswapOnLittleEndian, In6Addr.word, byteswap, image_ofImage 2 _ two, ofImage,
          BitVec.toNat_ofNat]
        exact Nat.mod_eq_of_lt small
      obtain ⟨high, low, pair⟩ := List.length_eq_two.mp two
      rw [pair] at swapped
      rw [done_succ, List.foldl_append, ih (by omega), List.foldl_cons, List.foldl_nil, swapped,
        Nat.mul_succ, List.take_add, pair, List.reverse_append]
      simp only [List.reverse_cons, List.reverse_nil, List.nil_append, List.cons_append, number]
      omega

end

section
variable (address : IPv6Address)

theorem bracketed_insert : bracketed address.insert = body address.addr.sin6Addr := by
  have free := not_mem_body address.addr.sin6Addr
  have whole : address.insert = '[' :: body address.addr.sin6Addr ++ ']' :: ':' ::
      Nat.toDigits 10 (byteswapOnLittleEndian 2 address.addr.sin6Port).toNat := rfl
  rw [whole, bracketed, List.cons_append, List.drop_succ_cons, List.drop_zero,
    List.takeWhile_append_of_pos, List.takeWhile_cons_of_neg, List.append_nil]
  · decide
  · intro char member
    rw [decide_eq_true_iff]
    rintro rfl
    exact free member

theorem decode_insert : decode (bracketed address.insert) = some address.host := by
  have whole := fold_done address.addr.sin6Addr 8 (Nat.le_refl 16)
  rw [List.take_of_length_le (Nat.le_of_eq address.addr.sin6Addr.size)] at whole
  rw [decode, bracketed_insert, body_parses, Option.map_some, whole]
  rfl

theorem host_injective (other : IPv6Address) (same : other.host = address.host) :
    other.addr.sin6Addr = address.addr.sin6Addr := by
  have images := congrArg (image 16) same
  have size : ∀ addr : In6Addr, addr.octets.reverse.length = 16 := fun addr =>
    (List.length_reverse).trans addr.size
  rw [IPv6Address.host, IPv6Address.host, image_ofImage 16 _ (size _),
    image_ofImage 16 _ (size _)] at images
  cases left : other.addr.sin6Addr
  cases right : address.addr.sin6Addr
  rw [left, right] at images
  congr 1
  exact List.reverse_injective images

end

/-- The text of an address denotes it, and so no other address has the same text. -/
theorem insert_denotes (address : IPv6Address) :
    decode (bracketed address.insert) = some address.host ∧
      ∀ other : IPv6Address, other.insert = address.insert →
        other.addr.sin6Addr = address.addr.sin6Addr := by
  refine ⟨decode_insert address, fun other same => ?_⟩
  apply host_injective
  have denoted := decode_insert other
  rw [same, decode_insert address] at denoted
  exact (Option.some.inj denoted).symm

example : (IPv6Address.ofOctets ⟨[0x20, 0x01, 0x0d, 0xb8, 0, 0, 0, 0, 0, 1, 0, 0, 0, 0, 0, 1], rfl⟩
    0).insert = "[2001:db8::1:0:0:1]:0".toList := by decide +kernel

end OtaMqtt.Net.Text6
