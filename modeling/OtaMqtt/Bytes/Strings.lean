import OtaMqtt.Bytes.RoundTrip

/-! The string codec of `ByteArray` (sherry/bytearray.cc): a length and the bytes behind it.

A reader asks `read` for the bytes even when there are none, and `read` looks at the current
node before it looks at the size. -/

namespace OtaMqtt.Bytes.Strings

open OtaMqtt.Lib.Execution OtaMqtt.Lib.Refinement
open OtaMqtt.Bytes OtaMqtt.Bytes.FlatBuffer OtaMqtt.Bytes.Codec OtaMqtt.Bytes.RoundTrip

def writeStringF16 (endian : Endian) (array : ByteArray) (value : List UInt8) : Run ByteArray := do
  let array ← writeFuint16 endian array (BitVec.ofNat 16 value.length)
  array.write value

def writeStringF32 (endian : Endian) (array : ByteArray) (value : List UInt8) : Run ByteArray := do
  let array ← writeFuint32 endian array (BitVec.ofNat 32 value.length)
  array.write value

def writeStringF64 (endian : Endian) (array : ByteArray) (value : List UInt8) : Run ByteArray := do
  let array ← writeFuint64 endian array (BitVec.ofNat 64 value.length)
  array.write value

def writeStringVint (array : ByteArray) (value : List UInt8) : Run ByteArray := do
  let array ← writeUint64 array (BitVec.ofNat 64 value.length)
  array.write value

def readPayload {w : Nat} (outcome : Run (BitVec w × ByteArray)) : Run (List UInt8 × ByteArray) := do
  let (len, array) ← outcome
  let (cells, array) ← array.read len.toNat
  let buff ← initialised cells
  .ok (buff, array)

def readStringF16 (endian : Endian) (array : ByteArray) : Run (List UInt8 × ByteArray) :=
  readPayload (readFuint16 endian array)

def readStringF32 (endian : Endian) (array : ByteArray) : Run (List UInt8 × ByteArray) :=
  readPayload (readFuint32 endian array)

def readStringF64 (endian : Endian) (array : ByteArray) : Run (List UInt8 × ByteArray) :=
  readPayload (readFuint64 endian array)

def readStringVint (array : ByteArray) : Run (List UInt8 × ByteArray) :=
  readPayload (readUint64 array)

inductive Form where
  | f16
  | f32
  | f64
  | vint
  deriving DecidableEq

structure Record where
  form : Form
  text : List UInt8
  deriving DecidableEq

def writeString (endian : Endian) (array : ByteArray) (record : Record) : Run (Unit × ByteArray) := do
  let array ← match record.form with
    | .f16 => writeStringF16 endian array record.text
    | .f32 => writeStringF32 endian array record.text
    | .f64 => writeStringF64 endian array record.text
    | .vint => writeStringVint array record.text
  .ok ((), array)

def readString (endian : Endian) (array : ByteArray) : Form → Run (List UInt8 × ByteArray)
  | .f16 => readStringF16 endian array
  | .f32 => readStringF32 endian array
  | .f64 => readStringF64 endian array
  | .vint => readStringVint array

def lengthField (endian : Endian) (record : Record) : List UInt8 :=
  match record.form with
  | .f16 => image 2 (ordered endian 2 (BitVec.ofNat 16 record.text.length))
  | .f32 => image 4 (ordered endian 4 (BitVec.ofNat 32 record.text.length))
  | .f64 => image 8 (ordered endian 8 (BitVec.ofNat 64 record.text.length))
  | .vint => base128 10 (BitVec.ofNat 64 record.text.length).toNat

def limit : Form → Nat
  | .f16 => 2 ^ 16
  | .f32 => 2 ^ 32
  | .f64 => 2 ^ 64
  | .vint => 2 ^ 64

def stored (endian : Endian) (record : Record) : List UInt8 := lengthField endian record ++ record.text

theorem base128_ne_nil (groups value : Nat) : base128 (groups + 1) value ≠ [] := by
  rw [base128]
  split <;> simp

theorem lengthField_pos (endian : Endian) (record : Record) : 0 < (lengthField endian record).length := by
  obtain ⟨form, text⟩ := record
  cases form with
  | f16 => simp [lengthField, image]
  | f32 => simp [lengthField, image]
  | f64 => simp [lengthField, image]
  | vint => exact List.length_pos_iff.mpr (base128_ne_nil 9 _)

theorem writeString_eq (endian : Endian) (array : ByteArray) (record : Record) :
    writeString endian array record = (do
      let array ← array.write (lengthField endian record)
      let array ← array.write record.text
      .ok ((), array)) := by
  obtain ⟨form, text⟩ := record
  cases form with
  | f16 =>
      simp only [writeString, writeStringF16, lengthField, bind_assoc]
      rfl
  | f32 =>
      simp only [writeString, writeStringF32, lengthField, bind_assoc]
      rfl
  | f64 =>
      simp only [writeString, writeStringF64, lengthField, bind_assoc]
      rfl
  | vint => simp only [writeString, writeStringVint, lengthField, bind_assoc, writeUint64_eq]

def readLength (endian : Endian) (array : ByteArray) : Form → Run (Nat × ByteArray)
  | .f16 => (readFuint16 endian array).map fun outcome => (outcome.1.toNat, outcome.2)
  | .f32 => (readFuint32 endian array).map fun outcome => (outcome.1.toNat, outcome.2)
  | .f64 => (readFuint64 endian array).map fun outcome => (outcome.1.toNat, outcome.2)
  | .vint => (readUint64 array).map fun outcome => (outcome.1.toNat, outcome.2)

theorem readPayload_map {w : Nat} (outcome : Run (BitVec w × ByteArray)) :
    readPayload outcome = (do
      let (len, array) ← outcome.map fun outcome => (outcome.1.toNat, outcome.2)
      let (cells, array) ← array.read len
      let buff ← initialised cells
      .ok (buff, array)) := by
  cases outcome with
  | error reason => rfl
  | ok pair => rfl

theorem readString_eq (endian : Endian) (array : ByteArray) (form : Form) :
    readString endian array form = (do
      let (len, array) ← readLength endian array form
      let (cells, array) ← array.read len
      let buff ← initialised cells
      .ok (buff, array)) := by
  cases form with
  | f16 => exact readPayload_map _
  | f32 => exact readPayload_map _
  | f64 => exact readPayload_map _
  | vint => exact readPayload_map _

theorem map_consumes {w : Nat} {reader : ByteArray → Run (BitVec w × ByteArray)} {bytes : List UInt8}
    {count : Nat} (reads : Consumes reader bytes (BitVec.ofNat w count)) :
    Consumes (fun array => (reader array).map fun outcome => (outcome.1.toNat, outcome.2)) bytes
      (count % 2 ^ w) := by
  intro baseSize array flat related laid
  obtain ⟨next, read, kept⟩ := reads baseSize array flat related laid
  refine ⟨next, ?_, kept⟩
  simp only [read, Except.map, BitVec.toNat_ofNat]

theorem readLength_consumes (endian : Endian) (record : Record) :
    Consumes (fun array => readLength endian array record.form) (lengthField endian record)
      (record.text.length % limit record.form) := by
  obtain ⟨form, text⟩ := record
  cases form with
  | f16 => exact map_consumes (readFixed_consumes endian 2 (by decide) _)
  | f32 => exact map_consumes (readFixed_consumes endian 4 (by decide) _)
  | f64 => exact map_consumes (readFixed_consumes endian 8 (by decide) _)
  | vint => exact map_consumes (readUint64_consumes _)

section
variable {baseSize : Nat} {array : ByteArray} {flat : Flat} {endian : Endian}

theorem readString_laid (record : Record) (related : Related baseSize array flat)
    (laid : Laid flat (stored endian record)) (fits : record.text.length < limit record.form)
    (safe : record.text = [] → flat.position + (stored endian record).length ≠ flat.capacity) :
    ∃ next, readString endian array record.form = .ok (record.text, next) ∧
      Related baseSize next (Flat.skip flat (stored endian record).length) := by
  obtain ⟨front, back⟩ := Laid.split flat _ _ laid
  obtain ⟨middle, measured, kept⟩ := readLength_consumes endian record baseSize array flat related front
  dsimp only at measured
  rw [Nat.mod_eq_of_lt fits] at measured
  have length : (stored endian record).length = (lengthField endian record).length + record.text.length :=
    List.length_append
  rw [readString_eq, measured, ok_bind]
  dsimp only
  by_cases empty : record.text = []
  · have apart := safe empty
    rw [length, empty, List.length_nil, Nat.add_zero] at apart
    have nothing := (read_none kept).trans (if_neg apart)
    refine ⟨middle, ?_, ?_⟩
    · rw [empty, List.length_nil, nothing]
      rfl
    · rw [length, empty, List.length_nil, Nat.add_zero]
      exact kept
  · obtain ⟨next, read, kept'⟩ := read_laid _ kept back (List.length_pos_iff.mpr empty)
    refine ⟨next, ?_, ?_⟩
    · rw [read, ok_bind]
      simp only [initialised_some, ok_bind]
    · have moved : Flat.skip (Flat.skip flat (lengthField endian record).length) record.text.length =
          Flat.skip flat (stored endian record).length := by
        rw [Flat.skip, Flat.skip, Flat.skip, length, Nat.add_assoc]
      rw [← moved]
      exact kept'

theorem readString_null (record : Record) (related : Related baseSize array flat)
    (laid : Laid flat (stored endian record)) (empty : record.text = [])
    (last : flat.position + (stored endian record).length = flat.capacity) :
    readString endian array record.form = .error .nullPointer := by
  obtain ⟨front, _⟩ := Laid.split flat _ _ laid
  obtain ⟨middle, measured, kept⟩ := readLength_consumes endian record baseSize array flat related front
  have length : (stored endian record).length = (lengthField endian record).length := by
    rw [stored, empty, List.append_nil]
  rw [length] at last
  have nothing := (read_none kept).trans (if_pos last)
  dsimp only at measured
  rw [empty, List.length_nil, Nat.zero_mod] at measured
  rw [readString_eq, measured, ok_bind]
  dsimp only
  rw [nothing]
  rfl

end

/-- The array has no more nodes than its bytes need. -/
def Tight (baseSize : Nat) (flat : Flat) (bytes : List UInt8) : Prop :=
  Holds flat bytes ∧ (flat.capacity = baseSize ∨ flat.capacity < bytes.length + baseSize)

theorem blocks_spare (base need : Nat) (positive : 0 < base) :
    (need + base - 1) / base * base < need + base := by
  have split := Nat.div_add_mod (need + base - 1) base
  rw [Nat.mul_comm] at split
  omega

section
variable {baseSize : Nat} {endian : Endian}

theorem fresh_tight : Tight baseSize (Flat.fresh baseSize) [] := ⟨fresh_holds baseSize, .inl rfl⟩

theorem write_tight {array : ByteArray} {flat : Flat} {bytes : List UInt8} (data : List UInt8)
    (related : Related baseSize array flat) (tight : Tight baseSize flat bytes) :
    ∃ next flat', array.write data = .ok next ∧ Related baseSize next flat' ∧
      Tight baseSize flat' (bytes ++ data) := by
  obtain ⟨next, wrote, kept⟩ := write_refines data related
  refine ⟨next, _, wrote, kept, tight.1.write baseSize data (related_bound kept), ?_⟩
  have positive : 0 < baseSize := related.1 ▸ related.2.1.base
  have capacity : (flat.write baseSize data).capacity = (flat.grow baseSize data.length).capacity := rfl
  have position := tight.1.position
  have size := tight.1.size
  have bound := tight.1.capacity
  rw [capacity, Flat.grow, List.length_append]
  split
  · rcases tight.2 with one | several
    · exact .inl one
    · exact .inr (by omega)
  · have spare := blocks_spare baseSize (data.length - (flat.capacity - flat.position)) positive
    exact .inr (by dsimp only; omega)

theorem writeString_tight {array : ByteArray} {flat : Flat} {bytes : List UInt8} (record : Record)
    (related : Related baseSize array flat) (tight : Tight baseSize flat bytes) :
    ∃ next flat', writeString endian array record = .ok ((), next) ∧ Related baseSize next flat' ∧
      Tight baseSize flat' (bytes ++ stored endian record) := by
  obtain ⟨middle, between, wrote, kept, held⟩ := write_tight (lengthField endian record) related tight
  obtain ⟨next, flat', wrote', kept', held'⟩ := write_tight record.text kept held
  refine ⟨next, flat', ?_, kept', ?_⟩
  · rw [writeString_eq, wrote, ok_bind, wrote', ok_bind]
  · rw [stored, ← List.append_assoc]
    exact held'

theorem writes_tight (records : List Record) (array : ByteArray) (flat : Flat) (bytes : List UInt8)
    (related : Related baseSize array flat) (tight : Tight baseSize flat bytes) :
    ∃ replies last flat', exec (writeString endian) array records = .ok (replies, last) ∧
      Related baseSize last flat' ∧
      Tight baseSize flat' (bytes ++ records.flatMap (stored endian)) := by
  induction records generalizing array flat bytes with
  | nil =>
      refine ⟨[], array, flat, rfl, related, ?_⟩
      rw [List.flatMap_nil, List.append_nil]
      exact tight
  | cons record records ih =>
      obtain ⟨next, flat', wrote, kept, held⟩ := writeString_tight record related tight
      obtain ⟨replies, last, flat'', ran, related', tight'⟩ := ih next flat' _ kept held
      refine ⟨() :: replies, last, flat'', ?_, related', ?_⟩
      · rw [exec, wrote, ok_bind]
        dsimp only
        rw [ran, ok_bind]
      · rw [List.flatMap_cons, ← List.append_assoc]
        exact tight'

theorem tight_full_iff {array : ByteArray} {flat : Flat} {bytes : List UInt8}
    (related : Related baseSize array flat) (tight : Tight baseSize flat bytes)
    (nonempty : 0 < bytes.length) : bytes.length = flat.capacity ↔ baseSize ∣ bytes.length := by
  obtain ⟨shape, placed, mirrors⟩ := related
  have blocks := placed.blocks
  rw [← mirrors.capacity, shape] at blocks
  have size := tight.1.size
  have bound := tight.1.capacity
  constructor
  · intro full
    exact ⟨array.nodes, by rw [full, blocks, Nat.mul_comm]⟩
  · rintro ⟨count, whole⟩
    have positive : 0 < baseSize := shape ▸ placed.base
    have fewer : count ≤ array.nodes := by
      apply Nat.le_of_mul_le_mul_left _ positive
      rw [← whole, Nat.mul_comm, ← blocks]
      omega
    have more : array.nodes ≤ count := by
      rcases tight.2 with one | several
      · have single : array.nodes * baseSize = 1 * baseSize := by omega
        have least : 0 < count := Nat.pos_of_mul_pos_left (whole ▸ nonempty)
        have nodes := Nat.eq_of_mul_eq_mul_right positive single
        omega
      · apply Nat.le_of_lt_succ
        apply Nat.lt_of_mul_lt_mul_left
        calc
          baseSize * array.nodes = flat.capacity := by rw [blocks, Nat.mul_comm]
          _ < bytes.length + baseSize := several
          _ = baseSize * count.succ := by rw [whole, Nat.mul_succ]
    rw [whole, blocks, Nat.le_antisymm fewer more, Nat.mul_comm]

end

def LastEmpty (records : List Record) : Prop :=
  ∃ record, records.getLast? = some record ∧ record.text = []

theorem lastEmpty_cons (record : Record) (records : List Record) (more : records ≠ []) :
    LastEmpty (record :: records) ↔ LastEmpty records := by
  cases records with
  | nil => exact absurd rfl more
  | cons second records => rw [LastEmpty, LastEmpty, List.getLast?_cons_cons]

section
variable {baseSize : Nat} {endian : Endian}

theorem flatMap_stored_pos (records : List Record) (more : records ≠ []) :
    0 < (records.flatMap (stored endian)).length := by
  cases records with
  | nil => exact absurd rfl more
  | cons record records =>
      have field := lengthField_pos endian record
      rw [List.flatMap_cons, stored, List.length_append, List.length_append]
      omega

theorem head_safe {array : ByteArray} {flat : Flat} (record : Record) (records : List Record)
    (related : Related baseSize array flat)
    (laid : Laid flat (stored endian record ++ records.flatMap (stored endian)))
    (more : records ≠ []) : flat.position + (stored endian record).length ≠ flat.capacity := by
  have inside := laid.inside
  have bound := related_bound related
  have later := @flatMap_stored_pos endian records more
  rw [List.length_append] at inside
  omega

theorem strings_return (records : List Record) (array : ByteArray) (flat : Flat)
    (related : Related baseSize array flat) (laid : Laid flat (records.flatMap (stored endian)))
    (fits : ∀ record ∈ records, record.text.length < limit record.form)
    (safe : LastEmpty records →
      flat.position + (records.flatMap (stored endian)).length ≠ flat.capacity) :
    ∃ last, exec (readString endian) array (records.map Record.form) =
        .ok (records.map Record.text, last) ∧
      Related baseSize last (Flat.skip flat (records.flatMap (stored endian)).length) := by
  induction records generalizing array flat with
  | nil => exact ⟨array, rfl, related⟩
  | cons record records ih =>
      rw [List.flatMap_cons] at laid safe
      have first : record.text = [] → flat.position + (stored endian record).length ≠ flat.capacity := by
        intro empty
        by_cases more : records = []
        · subst more
          have apart := safe ⟨record, rfl, empty⟩
          rw [List.flatMap_nil, List.append_nil] at apart
          exact apart
        · exact head_safe record records related laid more
      obtain ⟨here, later⟩ := Laid.split flat _ _ laid
      obtain ⟨next, read, kept⟩ := readString_laid record related here
        (fits record List.mem_cons_self) first
      have safe' : LastEmpty records → (Flat.skip flat (stored endian record).length).position +
          (records.flatMap (stored endian)).length ≠
            (Flat.skip flat (stored endian record).length).capacity := by
        intro empty
        have more : records ≠ [] := by
          rintro rfl
          obtain ⟨_, none, _⟩ := empty
          cases none
        have apart := safe ((lastEmpty_cons record records more).mpr empty)
        rw [List.length_append, ← Nat.add_assoc] at apart
        exact apart
      obtain ⟨last, ran, related'⟩ := ih next _ kept later
        (fun other member => fits other (List.mem_cons_of_mem _ member)) safe'
      refine ⟨last, ?_, ?_⟩
      · rw [List.map_cons, exec, read, ok_bind]
        dsimp only
        rw [ran, ok_bind, List.map_cons]
      · rw [List.flatMap_cons, List.length_append, Flat.skip, ← Nat.add_assoc]
        exact related'

theorem strings_fault (records : List Record) (array : ByteArray) (flat : Flat)
    (related : Related baseSize array flat) (laid : Laid flat (records.flatMap (stored endian)))
    (fits : ∀ record ∈ records, record.text.length < limit record.form)
    (empty : LastEmpty records)
    (full : flat.position + (records.flatMap (stored endian)).length = flat.capacity) :
    exec (readString endian) array (records.map Record.form) = .error .nullPointer := by
  induction records generalizing array flat with
  | nil =>
      obtain ⟨_, none, _⟩ := empty
      cases none
  | cons record records ih =>
      rw [List.flatMap_cons] at laid full
      obtain ⟨here, later⟩ := Laid.split flat _ _ laid
      by_cases more : records = []
      · subst more
        obtain ⟨other, same, nothing⟩ := empty
        cases same
        rw [List.flatMap_nil, List.append_nil] at full
        rw [List.map_cons, exec, readString_null record related here nothing full]
        rfl
      · obtain ⟨next, read, kept⟩ := readString_laid record related here
          (fits record List.mem_cons_self) (fun _ => head_safe record records related laid more)
        have full' : (Flat.skip flat (stored endian record).length).position +
            (records.flatMap (stored endian)).length =
              (Flat.skip flat (stored endian record).length).capacity := by
          rw [List.length_append, ← Nat.add_assoc] at full
          exact full
        have ran := ih next _ kept later (fun other member => fits other (List.mem_cons_of_mem _ member))
          ((lastEmpty_cons record records more).mp empty) full'
        rw [List.map_cons, exec, read, ok_bind]
        dsimp only
        rw [ran]
        rfl

theorem read_length {array next : ByteArray} {flat : Flat} (count : Nat) (cells : List Cell)
    (related : Related baseSize array flat) (read : array.read count = .ok (cells, next)) :
    cells.length = count := by
  cases count with
  | zero =>
      rw [read_none related] at read
      split at read
      · cases read
      · cases read
        rfl
  | succ count =>
      have answered := read_refines (count + 1) related (Nat.succ_pos count)
      cases found : flat.read (count + 1) with
      | none =>
          rw [found] at answered
          rw [answered] at read
          cases read
      | some outcome =>
          rw [found] at answered
          obtain ⟨_, returned, _⟩ := answered
          rw [returned] at read
          cases read
          rw [Flat.read] at found
          split at found
          · cases found
            rw [List.length_map, List.length_range]
          · cases found

theorem initialised_length (cells : List Cell) (bytes : List UInt8)
    (read : initialised cells = .ok bytes) : bytes.length = cells.length := by
  induction cells generalizing bytes with
  | nil =>
      cases read
      rfl
  | cons cell cells ih =>
      cases cell with
      | none => cases read
      | some byte =>
          rw [initialised, bind_eq_ok] at read
          obtain ⟨rest, later, done⟩ := read
          cases done
          rw [List.length_cons, List.length_cons, ih rest later]

theorem readString_length {array next : ByteArray} {flat : Flat} (record : Record) (buff : List UInt8)
    (related : Related baseSize array flat) (laid : Laid flat (stored endian record))
    (read : readString endian array record.form = .ok (buff, next)) :
    buff.length = record.text.length % limit record.form := by
  obtain ⟨front, _⟩ := Laid.split flat _ _ laid
  obtain ⟨middle, measured, kept⟩ := readLength_consumes endian record baseSize array flat related front
  dsimp only at measured
  rw [readString_eq, measured, ok_bind] at read
  dsimp only at read
  rw [bind_eq_ok] at read
  obtain ⟨⟨cells, after⟩, payload, read⟩ := read
  dsimp only at read
  rw [bind_eq_ok] at read
  obtain ⟨bytes, stored', done⟩ := read
  cases done
  rw [initialised_length cells _ stored', read_length _ cells kept payload]

theorem strings_differ (records : List Record) (array : ByteArray) (flat : Flat)
    (related : Related baseSize array flat) (laid : Laid flat (records.flatMap (stored endian)))
    (long : ∃ record ∈ records, limit record.form ≤ record.text.length) (last : ByteArray) :
    exec (readString endian) array (records.map Record.form) ≠
      .ok (records.map Record.text, last) := by
  induction records generalizing array flat with
  | nil =>
      obtain ⟨_, member, _⟩ := long
      cases member
  | cons record records ih =>
      rw [List.flatMap_cons] at laid
      obtain ⟨here, later⟩ := Laid.split flat _ _ laid
      intro ran
      rw [List.map_cons, exec, bind_eq_ok] at ran
      obtain ⟨⟨buff, next⟩, read, ran⟩ := ran
      dsimp only at ran
      rw [bind_eq_ok] at ran
      obtain ⟨⟨replies, final⟩, rest, done⟩ := ran
      rw [List.map_cons, Except.ok.injEq, Prod.mk.injEq, List.cons.injEq] at done
      by_cases fits : record.text.length < limit record.form
      · obtain ⟨other, member, tooLong⟩ := long
        have tail : other ∈ records := by
          rcases List.mem_cons.mp member with rfl | tail
          · omega
          · exact tail
        obtain ⟨next', read', kept⟩ := readString_laid record related here fits
          (fun _ => head_safe record records related laid (List.ne_nil_of_mem tail))
        rw [read', Except.ok.injEq, Prod.mk.injEq] at read
        obtain ⟨_, rfl⟩ := read
        apply ih next' _ kept later ⟨other, tail, tooLong⟩
        dsimp only at done
        rw [rest, done.1.2, done.2]
      · have length := readString_length record buff related here read
        have positive : 0 < limit record.form := by
          cases record.form <;> decide
        have smaller := Nat.mod_lt record.text.length positive
        rw [done.1.1] at length
        omega

end

/-- Written in order, rewound and read by the matching readers, the strings come back and
nothing is left. -/
def RoundTrips (baseSize : Nat) (endian : Endian) (records : List Record) : Prop :=
  ∃ replies written start last,
    exec (writeString endian) (ByteArray.fresh baseSize) records = .ok (replies, written) ∧
    written.setPosition 0 = .ok start ∧
    exec (readString endian) start (records.map Record.form) = .ok (records.map Record.text, last) ∧
    last.getReadSize = 0

/-- Strings make the round trip exactly when none is too long for a 32-bit length and they do
not end with an empty one that fills the last node. -/
theorem strings_round_trip_iff (baseSize : Nat) (positive : 0 < baseSize) (endian : Endian)
    (records : List Record)
    (short : ∀ record ∈ records, record.form = .f16 → record.text.length < 2 ^ 16)
    (sized : ∀ record ∈ records, record.text.length < 2 ^ 64) :
    RoundTrips baseSize endian records ↔
      (∀ record ∈ records, record.form = .f32 → record.text.length < 2 ^ 32) ∧
        ¬ (LastEmpty records ∧ baseSize ∣ (records.flatMap (stored endian)).length) := by
  have fits : (∀ record ∈ records, record.form = .f32 → record.text.length < 2 ^ 32) →
      ∀ record ∈ records, record.text.length < limit record.form := by
    intro wide record member
    cases form : record.form with
    | f16 => exact short record member form
    | f32 => exact wide record member form
    | f64 => exact sized record member
    | vint => exact sized record member
  obtain ⟨replies, written, flat, wrote, related, tight⟩ := @writes_tight baseSize endian records _ _ []
    (fresh_related baseSize positive) fresh_tight
  rw [List.nil_append] at tight
  obtain ⟨start, rewound, related', laid⟩ := rewind_laid related tight.1
  have full : LastEmpty records →
      ((records.flatMap (stored endian)).length = flat.capacity ↔
        baseSize ∣ (records.flatMap (stored endian)).length) := by
    rintro ⟨record, found, _⟩
    apply tight_full_iff related tight
    apply flatMap_stored_pos
    rintro rfl
    cases found
  constructor
  · rintro ⟨replies', written', start', last, wrote', rewound', read, _⟩
    rw [wrote, Except.ok.injEq, Prod.mk.injEq] at wrote'
    obtain ⟨_, rfl⟩ := wrote'
    rw [rewound, Except.ok.injEq] at rewound'
    subst rewound'
    have wide : ∀ record ∈ records, record.form = .f32 → record.text.length < 2 ^ 32 := by
      intro record member form
      by_contra long
      apply strings_differ records start _ related' laid ⟨record, member, ?_⟩ last read
      rw [form]
      exact Nat.le_of_not_lt long
    refine ⟨wide, ?_⟩
    rintro ⟨empty, whole⟩
    have fault := strings_fault records start _ related' laid (fits wide) empty
      (by rw [Nat.zero_add]; exact (full empty).mpr whole)
    rw [fault] at read
    cases read
  · rintro ⟨wide, apart⟩
    obtain ⟨last, read, kept⟩ := strings_return records start _ related' laid (fits wide) (by
      intro empty same
      rw [Nat.zero_add] at same
      exact apart ⟨empty, (full empty).mp same⟩)
    refine ⟨replies, written, start, last, wrote, rewound, read, ?_⟩
    have position : (records.flatMap (stored endian)).length = last.position := by
      rw [← kept.2.2.position, Flat.skip, Nat.zero_add]
    have size : (records.flatMap (stored endian)).length = last.size := by
      rw [← kept.2.2.size, Flat.skip]
      exact tight.1.size.symm
    rw [ByteArray.getReadSize, ← size, ← position, Nat.sub_self]

/-- Two empty strings around a short one: nine bytes over blocks of four. -/
def samples : List Record := [⟨.f16, []⟩, ⟨.vint, [104, 105]⟩, ⟨.f32, []⟩]

theorem samples_round_trip : RoundTrips 4 .big samples := by
  refine (strings_round_trip_iff 4 (by decide) .big samples (by decide) (by decide)).mpr ⟨by decide, ?_⟩
  rintro ⟨_, whole⟩
  exact absurd whole (by decide +kernel)

/-- One empty string whose length fills the only node. -/
theorem empty_string_lost :
    ¬ ∀ (baseSize : Nat) (endian : Endian) (records : List Record), 1 ≤ baseSize →
      (∀ record ∈ records, record.form = .f16 → record.text.length < 65536) →
      RoundTrips baseSize endian records := by
  intro all_round_trip
  obtain ⟨replies, written, start, last, wrote, rewound, read, _⟩ :=
    all_round_trip 2 .little [⟨.f16, []⟩] (by decide) (by decide)
  have fault : ((do
      let (_, written) ← exec (writeString .little) (ByteArray.fresh 2) [⟨.f16, []⟩]
      let start ← written.setPosition 0
      let (texts, _) ← exec (readString .little) start [.f16]
      .ok texts) : Run (List (List UInt8))) = .error .nullPointer := by decide +kernel
  rw [wrote, ok_bind] at fault
  dsimp only at fault
  rw [rewound, ok_bind] at fault
  simp only [List.map_cons, List.map_nil] at read
  rw [read] at fault
  cases fault

end OtaMqtt.Bytes.Strings
