import OtaMqtt.Bytes.Codec

/-! Reading back what the numeric writers wrote. -/

namespace OtaMqtt.Bytes.RoundTrip

open OtaMqtt.Lib.Execution OtaMqtt.Lib.Refinement
open OtaMqtt.Bytes OtaMqtt.Bytes.FlatBuffer OtaMqtt.Bytes.Codec

section
variable {w : Nat}

def spread (w : Nat) (bit : Bool) : BitVec w := if bit then BitVec.allOnes w else 0#w

theorem spread_getLsbD (bit : Bool) (index : Nat) (inside : index < w) :
    (spread w bit).getLsbD index = bit := by
  cases bit <;> simp [spread, inside]

theorem double_eq (value : BitVec w) : value * BitVec.ofNat w 2 = value <<< 1 := by
  apply BitVec.eq_of_toNat_eq
  rw [BitVec.toNat_mul, BitVec.toNat_shiftLeft, Nat.shiftLeft_eq, Nat.pow_one]
  simp

theorem encodeZigzag_eq (value : BitVec w) :
    encodeZigzag value = (value <<< 1) ^^^ spread w value.msb := by
  unfold encodeZigzag spread
  rw [show value.slt 0 = value.msb from BitVec.slt_zero_eq_msb]
  cases value.msb with
  | false =>
      rw [if_neg Bool.false_ne_true, if_neg Bool.false_ne_true, BitVec.xor_zero]
      exact double_eq value
  | true =>
      rw [if_pos rfl, if_pos rfl, BitVec.xor_allOnes, BitVec.not_eq_neg_add, ← double_eq,
        BitVec.neg_mul]
      rfl

theorem decodeZigzag_eq (value : BitVec w) :
    decodeZigzag value = (value >>> 1) ^^^ spread w (value.getLsbD 0) := by
  unfold decodeZigzag spread
  congr 1
  rw [show value &&& 1 = _ from BitVec.and_one_eq_setWidth_ofBool_getLsbD]
  cases value.getLsbD 0 with
  | false => simp
  | true =>
      rw [if_pos rfl, ← BitVec.neg_one_eq_allOnes]
      congr 1
      apply BitVec.eq_of_toNat_eq
      simp

theorem decodeZigzag_encodeZigzag (value : BitVec w) :
    decodeZigzag (encodeZigzag value) = value := by
  apply BitVec.eq_of_getLsbD_eq
  intro index inside
  have first : (encodeZigzag value).getLsbD 0 = value.msb := by
    rw [encodeZigzag_eq, BitVec.getLsbD_xor, spread_getLsbD _ _ (by omega)]
    simp
  rw [decodeZigzag_eq, first, encodeZigzag_eq, BitVec.getLsbD_xor, spread_getLsbD _ _ inside,
    BitVec.getLsbD_ushiftRight, BitVec.getLsbD_xor]
  by_cases last : index + 1 = w
  · subst last
    simp [BitVec.msb_eq_getLsbD_last, BitVec.getLsbD_of_ge]
  · rw [spread_getLsbD _ _ (by omega)]
    rw [BitVec.getLsbD_shiftLeft]
    simp [show 1 + index < w by omega, BitVec.getLsbD_eq_getElem inside]

theorem encodeZigzag_decodeZigzag (value : BitVec w) :
    encodeZigzag (decodeZigzag value) = value := by
  apply BitVec.eq_of_getLsbD_eq
  intro index inside
  have top : (decodeZigzag value).msb = value.getLsbD 0 := by
    rw [BitVec.msb_eq_getLsbD_last, decodeZigzag_eq, BitVec.getLsbD_xor, spread_getLsbD _ _ (by omega),
      BitVec.getLsbD_ushiftRight, BitVec.getLsbD_of_ge _ _ (by omega), Bool.false_xor]
  rw [encodeZigzag_eq, top, decodeZigzag_eq, BitVec.getLsbD_xor, spread_getLsbD _ _ inside,
    BitVec.getLsbD_shiftLeft, BitVec.getLsbD_xor, BitVec.getLsbD_ushiftRight]
  by_cases first : index = 0
  · subst first
    simp
  · rw [spread_getLsbD _ _ (by omega), show 1 + (index - 1) = index by omega]
    simp [inside, first]

end

theorem number_range (count value : Nat) :
    number ((List.range count).map fun index => UInt8.ofNat (value / 256 ^ index)) =
      value % 256 ^ count := by
  induction count generalizing value with
  | zero => simp [number, Nat.mod_one]
  | succ count ih =>
      rw [List.range_succ_eq_map, List.map_cons, List.map_map, number]
      have tail : (List.range count).map
          ((fun index => UInt8.ofNat (value / 256 ^ index)) ∘ Nat.succ) =
          (List.range count).map fun index => UInt8.ofNat (value / 256 / 256 ^ index) := by
        apply List.map_congr_left
        intro index _
        rw [Function.comp_apply, Nat.pow_succ, Nat.mul_comm, Nat.div_div_eq_div_mul]
      have step : value % 256 ^ (count + 1) = value % 256 + 256 * (value / 256 % 256 ^ count) := by
        rw [Nat.pow_succ, Nat.mul_comm, Nat.mod_mul]
      rw [tail, ih, Nat.pow_zero, Nat.div_one, UInt8.toNat_ofNat', step]

theorem number_lt (bytes : List UInt8) : number bytes < 256 ^ bytes.length := by
  induction bytes with
  | nil => simp [number]
  | cons byte bytes ih =>
      have small := byte.toNat_lt
      rw [number, List.length_cons, Nat.pow_succ]
      omega

theorem range_number (bytes : List UInt8) :
    (List.range bytes.length).map (fun index => UInt8.ofNat (number bytes / 256 ^ index)) = bytes := by
  induction bytes with
  | nil => rfl
  | cons byte bytes ih =>
      have small := byte.toNat_lt
      rw [List.length_cons, List.range_succ_eq_map, List.map_cons, List.map_map]
      have first : UInt8.ofNat (number (byte :: bytes) / 256 ^ 0) = byte := by
        apply UInt8.toNat_inj.mp
        rw [UInt8.toNat_ofNat', Nat.pow_zero, Nat.div_one, number]
        omega
      have tail : (List.range bytes.length).map
          ((fun index => UInt8.ofNat (number (byte :: bytes) / 256 ^ index)) ∘ Nat.succ) =
          (List.range bytes.length).map fun index => UInt8.ofNat (number bytes / 256 ^ index) := by
        apply List.map_congr_left
        intro index _
        have shifted : number (byte :: bytes) / 256 = number bytes := by
          rw [number]
          omega
        rw [Function.comp_apply, Nat.pow_succ, Nat.mul_comm, ← Nat.div_div_eq_div_mul, shifted]
      rw [first, tail, ih]

theorem width_eq (count : Nat) : 2 ^ (8 * count) = 256 ^ count := by
  rw [Nat.pow_mul]

@[simp] theorem image_length (count : Nat) (value : BitVec (8 * count)) :
    (image count value).length = count := by
  simp [image]

theorem ofImage_image (count : Nat) (value : BitVec (8 * count)) :
    ofImage count (image count value) = value := by
  apply BitVec.eq_of_toNat_eq
  rw [ofImage, BitVec.toNat_ofNat, image, number_range, width_eq, Nat.mod_mod, ← width_eq]
  exact Nat.mod_eq_of_lt value.isLt

theorem image_ofImage (count : Nat) (bytes : List UInt8) (length : bytes.length = count) :
    image count (ofImage count bytes) = bytes := by
  have small := number_lt bytes
  rw [image, ofImage, BitVec.toNat_ofNat, width_eq, Nat.mod_eq_of_lt (by rw [← length]; exact small),
    ← length]
  exact range_number bytes

theorem byteswap_byteswap (count : Nat) (value : BitVec (8 * count)) :
    byteswap count (byteswap count value) = value := by
  rw [byteswap, byteswap, image_ofImage _ _ (by simp), List.reverse_reverse, ofImage_image]

theorem ordered_ordered (endian : Endian) (count : Nat) (value : BitVec (8 * count)) :
    ordered endian count (ordered endian count value) = value := by
  unfold ordered
  split
  · rfl
  · exact byteswap_byteswap count value

theorem initialised_some (bytes : List UInt8) : initialised (bytes.map some) = .ok bytes := by
  induction bytes with
  | nil => rfl
  | cons byte bytes ih => rw [List.map_cons, initialised, ih, ok_bind]

/-- The bytes lie at the cursor, within the size. -/
structure Laid (flat : Flat) (bytes : List UInt8) : Prop where
  inside : flat.position + bytes.length ≤ flat.size
  bytes : ∀ offset, offset < bytes.length → flat.contents (flat.position + offset) = bytes[offset]?

def Flat.skip (flat : Flat) (count : Nat) : Flat := { flat with position := flat.position + count }

/-- A reader that finds `bytes` at the cursor consumes exactly them and returns `result`. -/
def Consumes {α : Type} (reader : ByteArray → Run (α × ByteArray)) (bytes : List UInt8) (result : α) :
    Prop :=
  ∀ baseSize array flat, Related baseSize array flat → Laid flat bytes →
    ∃ next, reader array = .ok (result, next) ∧ Related baseSize next (Flat.skip flat bytes.length)

theorem Laid.split (flat : Flat) (front back : List UInt8) (laid : Laid flat (front ++ back)) :
    Laid flat front ∧ Laid (Flat.skip flat front.length) back := by
  have inside := laid.inside
  rw [List.length_append] at inside
  refine ⟨⟨by omega, fun offset early => ?_⟩, ⟨?_, fun offset late => ?_⟩⟩
  · have here := laid.bytes offset (by rw [List.length_append]; omega)
    rw [List.getElem?_append_left early] at here
    exact here
  · show flat.position + front.length + back.length ≤ flat.size
    omega
  · have here := laid.bytes (front.length + offset) (by rw [List.length_append]; omega)
    rw [List.getElem?_append_right (by omega), Nat.add_sub_cancel_left, ← Nat.add_assoc] at here
    exact here

theorem read_laid {baseSize : Nat} {array : ByteArray} {flat : Flat} (bytes : List UInt8)
    (related : Related baseSize array flat) (laid : Laid flat bytes) (some' : 0 < bytes.length) :
    ∃ next, array.read bytes.length = .ok (bytes.map some, next) ∧
      Related baseSize next (Flat.skip flat bytes.length) := by
  have answered := read_refines bytes.length related some'
  have cells : (List.range bytes.length).map (fun index => flat.contents (flat.position + index)) =
      bytes.map some := by
    apply List.ext_getElem?
    intro index
    by_cases early : index < bytes.length
    · rw [List.getElem?_map, List.getElem?_range early, List.getElem?_map, Option.map_some,
        laid.bytes index early, List.getElem?_eq_getElem early]
      rfl
    · simp [early]
  have found : flat.read bytes.length = some (bytes.map some, Flat.skip flat bytes.length) := by
    rw [Flat.read, if_pos laid.inside, cells]
    rfl
  rw [found] at answered
  exact answered

theorem readFixed_consumes (endian : Endian) (count : Nat) (positive : 0 < count)
    (value : BitVec (8 * count)) :
    Consumes (readFixed endian count) (image count (ordered endian count value)) value := by
  intro baseSize array flat related laid
  obtain ⟨next, read, kept⟩ := read_laid _ related laid (by rw [image_length]; exact positive)
  refine ⟨next, ?_, kept⟩
  rw [image_length] at read
  rw [readFixed, read, ok_bind]
  simp only [initialised_some, ok_bind, ofImage_image, ordered_ordered]

theorem Consumes.bind {α β : Type} {first : ByteArray → Run (α × ByteArray)}
    {second : α → ByteArray → Run (β × ByteArray)} {front back : List UInt8} {value : α} {result : β}
    (left : Consumes first front value) (right : Consumes (second value) back result) :
    Consumes (fun array => do
      let outcome ← first array
      second outcome.1 outcome.2) (front ++ back) result := by
  intro baseSize array flat related laid
  obtain ⟨here, later⟩ := Laid.split flat front back laid
  obtain ⟨middle, ran, kept⟩ := left baseSize array flat related here
  obtain ⟨last, ran', kept'⟩ := right baseSize middle _ kept later
  refine ⟨last, ?_, ?_⟩
  · dsimp only
    rw [ran, ok_bind, ran']
  · rw [List.length_append]
    have moved : Flat.skip (Flat.skip flat front.length) back.length =
        Flat.skip flat (front.length + back.length) := by
      rw [Flat.skip, Flat.skip, Flat.skip, Nat.add_assoc]
    rw [← moved]
    exact kept'

theorem Consumes.done {α : Type} (result : α) :
    Consumes (fun array => .ok (result, array)) [] result :=
  fun _ array _ related _ => ⟨array, rfl, related⟩

theorem Consumes.map {α β : Type} {reader : ByteArray → Run (α × ByteArray)} {bytes : List UInt8}
    {value : α} (convert : α → β) (reads : Consumes reader bytes value) :
    Consumes (fun array => do
      let outcome ← reader array
      .ok (convert outcome.1, outcome.2)) bytes (convert value) := by
  have chained := @Consumes.bind α β reader (fun value array => .ok (convert value, array)) _ _ _ _ reads
    (Consumes.done (convert value))
  rw [List.append_nil] at chained
  exact chained

theorem readFuint8_consumes (byte : UInt8) : Consumes readFuint8 [byte] byte.toBitVec := by
  have reads := readFixed_consumes .little 1 Nat.one_pos byte.toBitVec
  have bytes : image 1 (ordered .little 1 byte.toBitVec) = [byte] := by
    simp [image, ordered]
  rw [bytes] at reads
  exact reads

/-- Seven bits a byte, the lowest group first, with the top bit set on all but the last. -/
def base128 : Nat → Nat → List UInt8
  | 0, _ => []
  | groups + 1, value =>
      if 128 ≤ value then UInt8.ofNat (value % 128 + 128) :: base128 groups (value / 128)
      else [UInt8.ofNat value]

theorem div_lt_groups {groups value : Nat} (bound : value < 128 ^ (groups + 1 + 1)) :
    value / 128 < 128 ^ (groups + 1) := by
  rw [Nat.pow_succ] at bound
  exact Nat.div_lt_of_lt_mul (by rw [Nat.mul_comm]; exact bound)

theorem push_ok (limit : Nat) (tmp : List UInt8) (byte : BitVec 8) (room : tmp.length < limit) :
    push limit tmp byte = .ok (tmp ++ [UInt8.ofBitVec byte]) := by
  rw [push, if_pos room]

section
variable {w : Nat}

theorem literal_toNat (wide : 8 ≤ w) (value : Nat) (small : value < 256) :
    (BitVec.ofNat w value).toNat = value := by
  have room : 2 ^ 8 ≤ 2 ^ w := Nat.pow_le_pow_right (by decide) wide
  rw [BitVec.toNat_ofNat, Nat.mod_eq_of_lt (by omega)]

theorem or_128 (value : Nat) (small : value < 128) : value ||| 128 = value + 128 := by
  have sum := Nat.two_pow_add_eq_or_of_lt (show value < 2 ^ 7 from small) 1
  rw [Nat.or_comm, Nat.add_comm]
  exact sum.symm

theorem continued_byte (wide : 8 ≤ w) (value : BitVec w) :
    UInt8.ofBitVec (((value &&& 0x7F) ||| 0x80).setWidth 8) =
      UInt8.ofNat (value.toNat % 128 + 128) := by
  apply UInt8.toNat_inj.mp
  have seven : (0x7F : BitVec w).toNat = 2 ^ 7 - 1 := literal_toNat wide 127 (by decide)
  have eighty : (0x80 : BitVec w).toNat = 128 := literal_toNat wide 128 (by decide)
  have small : value.toNat % 2 ^ 7 < 128 := Nat.mod_lt _ (by decide)
  rw [UInt8.toNat_ofBitVec, BitVec.toNat_setWidth, BitVec.toNat_or, BitVec.toNat_and, seven, eighty,
    Nat.and_two_pow_sub_one_eq_mod, or_128 _ small, UInt8.toNat_ofNat']
  rfl

theorem last_byte (value : BitVec w) :
    UInt8.ofBitVec (value.setWidth 8) = UInt8.ofNat value.toNat := by
  apply UInt8.toNat_inj.mp
  rw [UInt8.toNat_ofBitVec, BitVec.toNat_setWidth, UInt8.toNat_ofNat']

theorem encodeGroups_ok (wide : 8 ≤ w) (limit groups fuel : Nat) (value : BitVec w)
    (tmp : List UInt8) (bound : value.toNat < 128 ^ (groups + 1))
    (room : tmp.length + groups + 1 ≤ limit) (enough : groups < fuel) :
    encodeGroups limit fuel value tmp = .ok (tmp ++ base128 (groups + 1) value.toNat) := by
  induction groups generalizing fuel value tmp with
  | zero =>
      obtain ⟨fuel, rfl⟩ := Nat.exists_eq_add_of_lt enough
      rw [Nat.zero_add, encodeGroups, base128, if_neg (by omega), if_neg (by omega),
        push_ok _ _ _ (by omega), last_byte]
  | succ groups ih =>
      obtain ⟨fuel, rfl⟩ := Nat.exists_eq_add_of_lt enough
      rw [encodeGroups, base128]
      by_cases continued : 128 ≤ value.toNat
      · have shifted : (value >>> 7).toNat = value.toNat / 128 := by
          rw [BitVec.toNat_ushiftRight, Nat.shiftRight_eq_div_pow]
        have later := ih (groups + 1 + fuel) (value >>> 7)
          (tmp ++ [UInt8.ofNat (value.toNat % 128 + 128)])
          (by rw [shifted]; exact div_lt_groups bound)
          (by rw [List.length_append, List.length_singleton]; omega) (by omega)
        rw [if_pos continued, if_pos continued, push_ok _ _ _ (by omega), ok_bind,
          continued_byte wide, later, shifted, List.append_assoc, List.singleton_append]
      · rw [if_neg continued, if_neg continued, push_ok _ _ _ (by omega), last_byte]

theorem join_toNat (result : BitVec w) (byte : BitVec 8) (shift : Nat) (wide : 8 ≤ w)
    (below : result.toNat < 2 ^ shift) (fits : byte.toNat * 2 ^ shift < 2 ^ w) :
    (result ||| byte.setWidth w <<< shift).toNat = result.toNat + byte.toNat * 2 ^ shift := by
  have room : 2 ^ 8 ≤ 2 ^ w := Nat.pow_le_pow_right (by decide) wide
  have small := byte.isLt
  have whole : byte.toNat % 2 ^ w = byte.toNat := Nat.mod_eq_of_lt (by omega)
  rw [BitVec.toNat_or, BitVec.toNat_shiftLeft, BitVec.toNat_setWidth, whole, Nat.shiftLeft_eq,
    Nat.mod_eq_of_lt fits, Nat.or_comm, ← Nat.shiftLeft_eq, ← Nat.shiftLeft_add_eq_or_of_lt below,
    Nat.add_comm]

def afterByte (w fuel shift : Nat) (result : BitVec w) (byte : BitVec 8) (array : ByteArray) :
    Run (BitVec w × ByteArray) :=
  if byte.toNat < 128 then .ok (result ||| byte.setWidth w <<< shift, array)
  else decodeGroups w fuel (shift + 7) (result ||| (byte &&& 0x7F).setWidth w <<< shift) array

theorem decodeGroups_step (fuel shift : Nat) (result : BitVec w) (inside : shift < w) :
    decodeGroups w (fuel + 1) shift result = fun array => readFuint8 array >>= fun outcome =>
      afterByte w fuel shift result outcome.1 outcome.2 := by
  funext array
  rw [decodeGroups, if_pos inside]
  rfl

theorem afterByte_last (wide : 8 ≤ w) (fuel shift value : Nat) (result : BitVec w)
    (small : value < 128) (below : result.toNat < 2 ^ shift)
    (fits : result.toNat + value * 2 ^ shift < 2 ^ w) :
    Consumes (afterByte w fuel shift result (UInt8.ofNat value).toBitVec) []
      (BitVec.ofNat w (result.toNat + value * 2 ^ shift)) := by
  have byte : (UInt8.ofNat value).toBitVec.toNat = value := by
    rw [UInt8.toNat_toBitVec, UInt8.toNat_ofNat', Nat.mod_eq_of_lt (by omega)]
  have joined : result ||| (UInt8.ofNat value).toBitVec.setWidth w <<< shift =
      BitVec.ofNat w (result.toNat + value * 2 ^ shift) := by
    apply BitVec.eq_of_toNat_eq
    rw [join_toNat result _ shift wide below (by rw [byte]; omega), byte, BitVec.toNat_ofNat,
      Nat.mod_eq_of_lt fits]
  have done : afterByte w fuel shift result (UInt8.ofNat value).toBitVec =
      fun array => .ok (BitVec.ofNat w (result.toNat + value * 2 ^ shift), array) := by
    funext array
    rw [afterByte, byte, if_pos small, joined]
  rw [done]
  exact Consumes.done _

theorem payload_toNat (value : Nat) :
    ((UInt8.ofNat (value % 128 + 128)).toBitVec &&& 0x7F).toNat = value % 128 := by
  have seven : (0x7F : BitVec 8).toNat = 2 ^ 7 - 1 := rfl
  rw [BitVec.toNat_and, seven, Nat.and_two_pow_sub_one_eq_mod, UInt8.toNat_toBitVec,
    UInt8.toNat_ofNat']
  omega

theorem regrouped (value shift : Nat) :
    value % 128 * 2 ^ shift + value / 128 * 2 ^ (shift + 7) = value * 2 ^ shift := by
  have split := Nat.div_add_mod value 128
  calc value % 128 * 2 ^ shift + value / 128 * 2 ^ (shift + 7)
      = (128 * (value / 128) + value % 128) * 2 ^ shift := by ring
    _ = value * 2 ^ shift := by rw [split]

theorem joined_lt (result value shift : Nat) (below : result < 2 ^ shift) :
    result + value % 128 * 2 ^ shift < 2 ^ (shift + 7) := by
  have payload : value % 128 + 1 ≤ 128 := Nat.mod_lt _ (by decide)
  calc result + value % 128 * 2 ^ shift
      < 2 ^ shift + value % 128 * 2 ^ shift := Nat.add_lt_add_right below _
    _ = (value % 128 + 1) * 2 ^ shift := by ring
    _ ≤ 128 * 2 ^ shift := Nat.mul_le_mul_right _ payload
    _ = 2 ^ (shift + 7) := by ring

theorem afterByte_continued (fuel shift value : Nat) (result : BitVec w) :
    afterByte w fuel shift result (UInt8.ofNat (value % 128 + 128)).toBitVec =
      decodeGroups w fuel (shift + 7)
        (result ||| ((UInt8.ofNat (value % 128 + 128)).toBitVec &&& 0x7F).setWidth w <<< shift) := by
  have high : ¬ (UInt8.ofNat (value % 128 + 128)).toBitVec.toNat < 128 := by
    rw [UInt8.toNat_toBitVec, UInt8.toNat_ofNat']
    omega
  funext array
  rw [afterByte, if_neg high]

theorem decodeGroups_consumes (wide : 8 ≤ w) (groups fuel shift value : Nat) (result : BitVec w)
    (bound : value < 128 ^ (groups + 1)) (below : result.toNat < 2 ^ shift)
    (fits : result.toNat + value * 2 ^ shift < 2 ^ w) (inside : shift + 7 * groups < w)
    (enough : groups < fuel) :
    Consumes (decodeGroups w fuel shift result) (base128 (groups + 1) value)
      (BitVec.ofNat w (result.toNat + value * 2 ^ shift)) := by
  induction groups generalizing fuel shift value result with
  | zero =>
      obtain ⟨fuel, rfl⟩ := Nat.exists_eq_add_of_lt enough
      rw [Nat.zero_add, decodeGroups_step _ _ _ (by omega), base128, if_neg (by omega)]
      exact (readFuint8_consumes _).bind
        (afterByte_last wide fuel shift value result (by omega) below fits)
  | succ groups ih =>
      obtain ⟨fuel, rfl⟩ := Nat.exists_eq_add_of_lt enough
      rw [decodeGroups_step _ _ _ (by omega), base128]
      by_cases continued : 128 ≤ value
      · rw [if_pos continued]
        apply (readFuint8_consumes _).bind
        rw [afterByte_continued]
        have whole := regrouped value shift
        have joined := join_toNat result
          ((UInt8.ofNat (value % 128 + 128)).toBitVec &&& 0x7F) shift wide below
          (by rw [payload_toNat]; omega)
        rw [payload_toNat] at joined
        have later := ih (groups + 1 + fuel) (shift + 7) (value / 128)
          (result ||| ((UInt8.ofNat (value % 128 + 128)).toBitVec &&& 0x7F).setWidth w <<< shift)
          (div_lt_groups bound) (by rw [joined]; exact joined_lt _ value shift below)
          (by rw [joined]; omega) (by omega) (by omega)
        rw [joined, Nat.add_assoc result.toNat, whole] at later
        exact later
      · rw [if_neg continued]
        exact (readFuint8_consumes _).bind
          (afterByte_last wide _ shift value result (by omega) below fits)

theorem encodeGroups_whole (limit groups fuel : Nat) (wide : 8 ≤ w) (room : groups + 1 ≤ limit)
    (covers : 2 ^ w ≤ 128 ^ (groups + 1)) (enough : groups < fuel) (value : BitVec w) :
    encodeGroups limit fuel value [] = .ok (base128 (groups + 1) value.toNat) := by
  have small := value.isLt
  rw [encodeGroups_ok wide limit groups fuel value [] (by omega)
    (by rw [List.length_nil, Nat.zero_add]; exact room) enough, List.nil_append]

theorem decodeGroups_whole (groups fuel : Nat) (wide : 8 ≤ w) (covers : 2 ^ w ≤ 128 ^ (groups + 1))
    (inside : 7 * groups < w) (enough : groups < fuel) (value : BitVec w) :
    Consumes (decodeGroups w fuel 0 0) (base128 (groups + 1) value.toNat) value := by
  have small := value.isLt
  have clear : (0 : BitVec w).toNat = 0 := by simp
  have reads := decodeGroups_consumes wide groups fuel 0 value.toNat 0 (by omega)
    (by rw [clear]; decide) (by rw [clear, Nat.pow_zero]; omega) (by omega) enough
  rw [clear, Nat.pow_zero, Nat.mul_one, Nat.zero_add, BitVec.ofNat_toNat, BitVec.setWidth_eq] at reads
  exact reads

end

def encoded (endian : Endian) : Value → List UInt8
  | .fint8 value => image 1 value
  | .fuint8 value => image 1 value
  | .fint16 value => image 2 (ordered endian 2 value)
  | .fuint16 value => image 2 (ordered endian 2 value)
  | .fint32 value => image 4 (ordered endian 4 value)
  | .fuint32 value => image 4 (ordered endian 4 value)
  | .fint64 value => image 8 (ordered endian 8 value)
  | .fuint64 value => image 8 (ordered endian 8 value)
  | .int32 value => base128 5 (encodeZigzag32 value).toNat
  | .uint32 value => base128 5 value.toNat
  | .int64 value => base128 10 (encodeZigzag64 value).toNat
  | .uint64 value => base128 10 value.toNat

theorem writeUint32_eq (array : ByteArray) (value : BitVec 32) :
    writeUint32 array value = array.write (base128 5 value.toNat) := by
  rw [writeUint32, encodeGroups_whole 5 4 33 (by decide) (by decide) (by decide) (by decide), ok_bind]

theorem writeUint64_eq (array : ByteArray) (value : BitVec 64) :
    writeUint64 array value = array.write (base128 10 value.toNat) := by
  rw [writeUint64, encodeGroups_whole 10 9 65 (by decide) (by decide) (by decide) (by decide), ok_bind]

theorem writeValue_eq (endian : Endian) (array : ByteArray) (value : Value) :
    writeValue endian array value = array.write (encoded endian value) := by
  cases value with
  | int32 value => exact writeUint32_eq array (encodeZigzag32 value)
  | uint32 value => exact writeUint32_eq array value
  | int64 value => exact writeUint64_eq array (encodeZigzag64 value)
  | uint64 value => exact writeUint64_eq array value
  | _ => rfl

theorem readUint32_consumes (value : BitVec 32) :
    Consumes readUint32 (base128 5 value.toNat) value :=
  decodeGroups_whole 4 33 (by decide) (by decide) (by decide) (by decide) value

theorem readUint64_consumes (value : BitVec 64) :
    Consumes readUint64 (base128 10 value.toNat) value :=
  decodeGroups_whole 9 65 (by decide) (by decide) (by decide) (by decide) value

theorem readInt32_consumes (value : BitVec 32) :
    Consumes readInt32 (base128 5 (encodeZigzag32 value).toNat) value := by
  have reads := (readUint32_consumes (encodeZigzag32 value)).map decodeZigzag32
  have inverse : decodeZigzag32 (encodeZigzag32 value) = value := decodeZigzag_encodeZigzag value
  rw [inverse] at reads
  exact reads

theorem readInt64_consumes (value : BitVec 64) :
    Consumes readInt64 (base128 10 (encodeZigzag64 value).toNat) value := by
  have reads := (readUint64_consumes (encodeZigzag64 value)).map decodeZigzag64
  have inverse : decodeZigzag64 (encodeZigzag64 value) = value := decodeZigzag_encodeZigzag value
  rw [inverse] at reads
  exact reads

theorem readValue_consumes (endian : Endian) (value : Value) :
    Consumes (fun array => readValue endian array value.kind) (encoded endian value) value := by
  cases value with
  | fint8 value => exact (readFixed_consumes .little 1 (by decide) value).map Value.fint8
  | fuint8 value => exact (readFixed_consumes .little 1 (by decide) value).map Value.fuint8
  | fint16 value => exact (readFixed_consumes endian 2 (by decide) value).map Value.fint16
  | fuint16 value => exact (readFixed_consumes endian 2 (by decide) value).map Value.fuint16
  | fint32 value => exact (readFixed_consumes endian 4 (by decide) value).map Value.fint32
  | fuint32 value => exact (readFixed_consumes endian 4 (by decide) value).map Value.fuint32
  | fint64 value => exact (readFixed_consumes endian 8 (by decide) value).map Value.fint64
  | fuint64 value => exact (readFixed_consumes endian 8 (by decide) value).map Value.fuint64
  | int32 value => exact (readInt32_consumes value).map Value.int32
  | uint32 value => exact (readUint32_consumes value).map Value.uint32
  | int64 value => exact (readInt64_consumes value).map Value.int64
  | uint64 value => exact (readUint64_consumes value).map Value.uint64

/-- The array holds these bytes and nothing else, with the cursor behind them. -/
structure Holds (flat : Flat) (bytes : List UInt8) : Prop where
  position : flat.position = bytes.length
  size : flat.size = bytes.length
  capacity : flat.size ≤ flat.capacity
  contents : ∀ index, index < bytes.length → flat.contents index = bytes[index]?

theorem Holds.grow (baseSize count : Nat) {flat : Flat} {bytes : List UInt8}
    (holds : Holds flat bytes) : Holds (flat.grow baseSize count) bytes := by
  obtain ⟨position, size, capacity, contents⟩ := holds
  unfold Flat.grow
  dsimp only
  split
  · exact ⟨position, size, capacity, contents⟩
  · refine ⟨position, size, by dsimp only; omega, fun index inside => ?_⟩
    dsimp only
    rw [if_pos (by omega), contents index inside]

theorem Holds.write (baseSize : Nat) {flat : Flat} {bytes : List UInt8} (data : List UInt8)
    (holds : Holds flat bytes) (bound : (flat.write baseSize data).size ≤
      (flat.write baseSize data).capacity) : Holds (flat.write baseSize data) (bytes ++ data) := by
  obtain ⟨position, size, -, contents⟩ := holds.grow baseSize data.length
  refine ⟨?_, ?_, bound, fun index inside => ?_⟩
  · rw [List.length_append, ← position]
    rfl
  · have grown : (flat.write baseSize data).size = max (flat.grow baseSize data.length).size
        ((flat.grow baseSize data.length).position + data.length) := rfl
    rw [grown, position, size, List.length_append]
    omega
  · have cells : (flat.write baseSize data).contents index =
        if (flat.grow baseSize data.length).position ≤ index ∧
            index < (flat.grow baseSize data.length).position + data.length then
          data[index - (flat.grow baseSize data.length).position]?
        else (flat.grow baseSize data.length).contents index := rfl
    rw [List.length_append] at inside
    rw [cells, position]
    by_cases early : index < bytes.length
    · rw [if_neg (by omega), contents index early, List.getElem?_append_left early]
    · rw [if_pos (by omega), List.getElem?_append_right (by omega)]

/-- Where the values end when the first one starts at `start`. -/
def ends (endian : Endian) : Nat → List Value → List Nat
  | _, [] => []
  | start, value :: values =>
      (start + (encoded endian value).length) :: ends endian (start + (encoded endian value).length) values

section
variable {baseSize : Nat} {endian : Endian}

theorem related_bound {array : ByteArray} {flat : Flat} (related : Related baseSize array flat) :
    flat.size ≤ flat.capacity := by
  rw [related.2.2.size, related.2.2.capacity]
  exact related.2.1.size

theorem writes_hold (values : List Value) (array : ByteArray) (flat : Flat) (bytes : List UInt8)
    (related : Related baseSize array flat) (holds : Holds flat bytes) :
    ∃ last flat', exec (writeStep endian) array values = .ok (ends endian bytes.length values, last) ∧
      Related baseSize last flat' ∧ Holds flat' (bytes ++ values.flatMap (encoded endian)) := by
  induction values generalizing array flat bytes with
  | nil =>
      refine ⟨array, flat, rfl, related, ?_⟩
      rw [List.flatMap_nil, List.append_nil]
      exact holds
  | cons value values ih =>
      obtain ⟨next, wrote, kept⟩ := write_refines (encoded endian value) related
      have holds' := holds.write baseSize (encoded endian value) (related_bound kept)
      obtain ⟨last, flat', ran, related', held⟩ := ih next _ _ kept holds'
      have position : next.getPosition = bytes.length + (encoded endian value).length := by
        rw [ByteArray.getPosition, ← kept.2.2.position, holds'.position, List.length_append]
      refine ⟨last, flat', ?_, related', ?_⟩
      · rw [exec, writeStep, writeValue_eq, wrote, ok_bind, ok_bind]
        dsimp only
        rw [ran, ok_bind, position, ends, List.length_append]
      · rw [List.flatMap_cons, ← List.append_assoc]
        exact held

theorem reads_return (values : List Value) (array : ByteArray) (flat : Flat)
    (related : Related baseSize array flat) (laid : Laid flat (values.flatMap (encoded endian))) :
    ∃ last, exec (readStep endian) array (values.map Value.kind) =
        .ok (values.zip (ends endian flat.position values), last) ∧
      Related baseSize last (Flat.skip flat (values.flatMap (encoded endian)).length) := by
  induction values generalizing array flat with
  | nil => exact ⟨array, rfl, related⟩
  | cons value values ih =>
      rw [List.flatMap_cons] at laid
      obtain ⟨here, later⟩ := Laid.split flat _ _ laid
      obtain ⟨next, read, kept⟩ := readValue_consumes endian value baseSize array flat related here
      obtain ⟨last, ran, related'⟩ := ih next _ kept later
      have position : next.getPosition = flat.position + (encoded endian value).length :=
        kept.2.2.position.symm
      have moved : (Flat.skip flat (encoded endian value).length).position =
          flat.position + (encoded endian value).length := rfl
      refine ⟨last, ?_, ?_⟩
      · dsimp only at read
        rw [List.map_cons, exec, readStep, read, ok_bind, ok_bind]
        dsimp only
        rw [ran, ok_bind, position, moved, ends, List.zip_cons_cons]
      · rw [List.flatMap_cons, List.length_append, Flat.skip, ← Nat.add_assoc]
        exact related'

theorem ends_length (values : List Value) (start : Nat) :
    (ends endian start values).length = values.length := by
  induction values generalizing start with
  | nil => rfl
  | cons value values ih => rw [ends, List.length_cons, List.length_cons, ih]

theorem fresh_holds (baseSize : Nat) : Holds (Flat.fresh baseSize) [] :=
  ⟨rfl, rfl, Nat.zero_le _, fun index inside => absurd inside (Nat.not_lt_zero index)⟩

theorem rewind_laid {array : ByteArray} {flat : Flat} {bytes : List UInt8}
    (related : Related baseSize array flat) (holds : Holds flat bytes) :
    ∃ start, array.setPosition 0 = .ok start ∧ Related baseSize start { flat with position := 0 } ∧
      Laid { flat with position := 0 } bytes := by
  have answered := setPosition_refines 0 related
  rw [Flat.setPosition, if_pos (Nat.zero_le _), Nat.max_zero] at answered
  obtain ⟨start, ran, kept⟩ := answered
  refine ⟨start, ran, kept, ?_, fun offset inside => ?_⟩
  · show 0 + bytes.length ≤ flat.size
    rw [holds.size, Nat.zero_add]
  · show flat.contents (0 + offset) = bytes[offset]?
    rw [Nat.zero_add, holds.contents offset inside]

end

theorem base128_length (groups value : Nat) : (base128 groups value).length ≤ groups := by
  induction groups generalizing value with
  | zero => exact Nat.le_refl 0
  | succ groups ih =>
      have later := ih (value / 128)
      rw [base128]
      split
      · rw [List.length_cons]
        omega
      · rw [List.length_singleton]
        omega

theorem scratch_suffices (w limit groups fuel : Nat) (wide : 8 ≤ w) (room : groups + 1 ≤ limit)
    (covers : 2 ^ w ≤ 128 ^ (groups + 1)) (enough : groups < fuel) (value : BitVec w) :
    ∃ tmp, encodeGroups limit fuel value [] = .ok tmp ∧ tmp.length ≤ limit :=
  ⟨_, encodeGroups_whole limit groups fuel wide room covers enough value,
    Nat.le_trans (base128_length (groups + 1) value.toNat) room⟩

/-- Any list of numbers comes back as it was written: the readers return the values, stop
where the writers stopped, and leave nothing behind. -/
theorem numeric_round_trip (baseSize : Nat) (positive : 0 < baseSize) (endian : Endian)
    (values : List Value) :
    (∃ marks written start replies last,
      exec (writeStep endian) (ByteArray.fresh baseSize) values = .ok (marks, written) ∧
      written.setPosition 0 = .ok start ∧
      exec (readStep endian) start (values.map Value.kind) = .ok (replies, last) ∧
      replies.map Prod.fst = values ∧ replies.map Prod.snd = marks ∧ last.getReadSize = 0) ∧
    (∀ value : BitVec 32, ∃ tmp, encodeGroups 5 33 value [] = .ok tmp ∧ tmp.length ≤ 5) ∧
    (∀ value : BitVec 64, ∃ tmp, encodeGroups 10 65 value [] = .ok tmp ∧ tmp.length ≤ 10) ∧
    (∀ value, decodeZigzag32 (encodeZigzag32 value) = value ∧
      encodeZigzag32 (decodeZigzag32 value) = value) ∧
    (∀ value, decodeZigzag64 (encodeZigzag64 value) = value ∧
      encodeZigzag64 (decodeZigzag64 value) = value) := by
  refine ⟨?_, scratch_suffices 32 5 4 33 (by decide) (by decide) (by decide) (by decide),
    scratch_suffices 64 10 9 65 (by decide) (by decide) (by decide) (by decide),
    fun value => ⟨decodeZigzag_encodeZigzag value, encodeZigzag_decodeZigzag value⟩,
    fun value => ⟨decodeZigzag_encodeZigzag value, encodeZigzag_decodeZigzag value⟩⟩
  obtain ⟨written, flat, wrote, related, holds⟩ := @writes_hold baseSize endian values _ _ []
    (fresh_related baseSize positive) (fresh_holds baseSize)
  rw [List.nil_append] at holds
  obtain ⟨start, rewound, related', laid⟩ := rewind_laid related holds
  obtain ⟨last, ran, related''⟩ := reads_return values start _ related' laid
  refine ⟨_, written, start, _, last, wrote, rewound, ran, ?_, ?_, ?_⟩
  · exact List.map_fst_zip (by rw [ends_length])
  · exact List.map_snd_zip (by rw [ends_length])
  · have position : (values.flatMap (encoded endian)).length = last.position := by
      rw [← related''.2.2.position, Flat.skip, Nat.zero_add]
    have size : (values.flatMap (encoded endian)).length = last.size := by
      rw [← related''.2.2.size, Flat.skip]
      exact holds.size.symm
    rw [ByteArray.getReadSize, ← size, ← position, Nat.sub_self]

/-- A swapped short, the least `int32_t` and the greatest `uint64_t` over blocks of three. -/
def mixed : List Value := [.fint16 0x1234, .int32 0x80000000, .uint64 0xFFFFFFFFFFFFFFFF, .fuint8 7]

theorem mixed_round_trip :
    ∃ marks written start replies last,
      exec (writeStep .big) (ByteArray.fresh 3) mixed = .ok (marks, written) ∧
      written.setPosition 0 = .ok start ∧
      exec (readStep .big) start (mixed.map Value.kind) = .ok (replies, last) ∧
      replies.map Prod.fst = mixed ∧ replies.map Prod.snd = marks ∧ last.getReadSize = 0 :=
  (numeric_round_trip 3 (by decide) .big mixed).1

end OtaMqtt.Bytes.RoundTrip
