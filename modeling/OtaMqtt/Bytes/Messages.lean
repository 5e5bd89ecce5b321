import OtaMqtt.Bytes.Files
import OtaMqtt.Bytes.Strings

/-! Messages that one `ByteArray` writes and another one reads (sherry/bytearray.cc): numbers,
floats and strings behind one another, each in the byte order that is set at the time, carried
by a file between arrays whose nodes need not be of one size.

A float or a double is given by its object representation. -/

namespace OtaMqtt.Bytes.Messages

open OtaMqtt.Lib.Execution OtaMqtt.Lib.Refinement
open OtaMqtt.Bytes OtaMqtt.Bytes.FlatBuffer OtaMqtt.Bytes.Codec OtaMqtt.Bytes.RoundTrip
open OtaMqtt.Bytes.Strings OtaMqtt.Bytes.Scatter OtaMqtt.Bytes.Files

/-- An array with its `m_endian`. -/
structure Party where
  array : ByteArray
  endian : Endian

/-- `order` is a call of `setIsLittleEndian`. -/
inductive Field where
  | order (val : Bool)
  | number (value : Value)
  | float (value : BitVec 32)
  | double (value : BitVec 64)
  | text (record : Record)
  deriving DecidableEq

inductive Slot where
  | order (val : Bool)
  | number (kind : Kind)
  | float
  | double
  | text (form : Form)

def Field.slot : Field → Slot
  | .order val => .order val
  | .number value => .number value.kind
  | .float _ => .float
  | .double _ => .double
  | .text record => .text record.form

def byteOrder (val : Bool) : Endian := if val then .little else .big

def setIsLittleEndian (party : Party) (val : Bool) : Party := { party with endian := byteOrder val }

def writeFloat (endian : Endian) (array : ByteArray) (value : BitVec 32) : Run ByteArray :=
  writeFuint32 endian array value

def writeDouble (endian : Endian) (array : ByteArray) (value : BitVec 64) : Run ByteArray :=
  writeFuint64 endian array value

def readFloat (endian : Endian) (array : ByteArray) : Run (BitVec 32 × ByteArray) :=
  readFuint32 endian array

def readDouble (endian : Endian) (array : ByteArray) : Run (BitVec 64 × ByteArray) :=
  readFuint64 endian array

namespace Party

def written (party : Party) (outcome : Run ByteArray) : Run (Unit × Party) := do
  let array ← outcome
  .ok ((), { party with array })

def read {α : Type} (party : Party) (field : α → Field) (outcome : Run (α × ByteArray)) :
    Run (Field × Party) := do
  let (value, array) ← outcome
  .ok (field value, { party with array })

def put (party : Party) : Field → Run (Unit × Party)
  | .order val => .ok ((), setIsLittleEndian party val)
  | .number value => party.written (writeValue party.endian party.array value)
  | .float value => party.written (writeFloat party.endian party.array value)
  | .double value => party.written (writeDouble party.endian party.array value)
  | .text record => do
      let (_, array) ← writeString party.endian party.array record
      .ok ((), { party with array })

def take (party : Party) : Slot → Run (Field × Party)
  | .order val => .ok (.order val, setIsLittleEndian party val)
  | .number kind => party.read .number (readValue party.endian party.array kind)
  | .float => party.read .float (readFloat party.endian party.array)
  | .double => party.read .double (readDouble party.endian party.array)
  | .text form => party.read (.text ⟨form, ·⟩) (readString party.endian party.array form)

end Party

def fieldBytes (endian : Endian) : Field → List UInt8
  | .order _ => []
  | .number value => encoded endian value
  | .float value => image 4 (ordered endian 4 value)
  | .double value => image 8 (ordered endian 8 value)
  | .text record => stored endian record

def turned (endian : Endian) : Field → Endian
  | .order val => byteOrder val
  | _ => endian

def message : Endian → List Field → List UInt8
  | _, [] => []
  | endian, field :: fields => fieldBytes endian field ++ message (turned endian field) fields

def Field.stores : Field → Bool
  | .order _ => false
  | _ => true

/-- The last field that is stored is an empty string. -/
def LastEmpty (fields : List Field) : Prop :=
  ∃ form, (fields.filter Field.stores).getLast? = some (.text ⟨form, []⟩)

/-- No string is too long for its length field. -/
def Fits : Field → Prop
  | .text record => record.text.length < limit record.form
  | _ => True

/-- A message can be read from nodes of this size: every string fits, and the message does not
end with an empty string that fills the last node. -/
def Readable (baseSize : Nat) (endian : Endian) (fields : List Field) : Prop :=
  (∀ field ∈ fields, Fits field) ∧
    ¬ (LastEmpty fields ∧ baseSize ∣ (message endian fields).length)

/-- The matching readers return the fields and leave nothing. -/
def Returns (array : ByteArray) (endian : Endian) (fields : List Field) : Prop :=
  ∃ last, exec Party.take ⟨array, endian⟩ (fields.map Field.slot) = .ok (fields, last) ∧
    last.array.getReadSize = 0

section
variable {baseSize : Nat} {array : ByteArray} {flat : Flat} {bytes : List UInt8} {endian : Endian}

theorem written_tight {party : Party} (data : List UInt8) (related : Related baseSize party.array flat)
    (tight : Tight baseSize flat bytes) :
    ∃ next flat', party.written (party.array.write data) = .ok ((), ⟨next, party.endian⟩) ∧
      Related baseSize next flat' ∧ Tight baseSize flat' (bytes ++ data) := by
  obtain ⟨next, flat', wrote, kept, held⟩ := write_tight data related tight
  exact ⟨next, flat', by rw [Party.written, wrote]; rfl, kept, held⟩

theorem put_tight (field : Field) (related : Related baseSize array flat)
    (tight : Tight baseSize flat bytes) :
    ∃ next flat', Party.put ⟨array, endian⟩ field = .ok ((), ⟨next, turned endian field⟩) ∧
      Related baseSize next flat' ∧ Tight baseSize flat' (bytes ++ fieldBytes endian field) := by
  cases field with
  | order val =>
      refine ⟨array, flat, rfl, related, ?_⟩
      rw [fieldBytes, List.append_nil]
      exact tight
  | number value =>
      rw [Party.put, writeValue_eq]
      exact written_tight (encoded endian value) related tight
  | float value => exact written_tight (fieldBytes endian (.float value)) related tight
  | double value => exact written_tight (fieldBytes endian (.double value)) related tight
  | text record =>
      obtain ⟨next, flat', wrote, kept, held⟩ := @writeString_tight _ endian _ _ _ record related tight
      exact ⟨next, flat', by rw [Party.put, wrote]; rfl, kept, held⟩

def turnedBy (endian : Endian) (fields : List Field) : Endian := fields.foldl turned endian

theorem puts_tight (fields : List Field) (related : Related baseSize array flat)
    (tight : Tight baseSize flat bytes) :
    ∃ replies last flat', exec Party.put ⟨array, endian⟩ fields =
        .ok (replies, ⟨last, turnedBy endian fields⟩) ∧
      Related baseSize last flat' ∧ Tight baseSize flat' (bytes ++ message endian fields) := by
  induction fields generalizing array flat bytes endian with
  | nil =>
      refine ⟨[], array, flat, rfl, related, ?_⟩
      rw [message, List.append_nil]
      exact tight
  | cons field fields ih =>
      obtain ⟨next, flat', wrote, kept, held⟩ := @put_tight _ _ _ _ endian field related tight
      obtain ⟨replies, last, flat'', ran, related', tight'⟩ := @ih _ _ _ (turned endian field) kept held
      refine ⟨() :: replies, last, flat'', ?_, related', ?_⟩
      · rw [exec, wrote, ok_bind]
        dsimp only
        rw [ran, ok_bind]
        rfl
      · rw [message, ← List.append_assoc]
        exact tight'

theorem base128_pos (groups value : Nat) : 0 < (base128 (groups + 1) value).length :=
  List.length_pos_iff.mpr (base128_ne_nil groups value)

theorem encoded_pos (value : Value) : 0 < (encoded endian value).length := by
  cases value with
  | int32 value => exact base128_pos 4 _
  | uint32 value => exact base128_pos 4 _
  | int64 value => exact base128_pos 9 _
  | uint64 value => exact base128_pos 9 _
  | _ => simp [encoded]

theorem fieldBytes_pos (field : Field) (stores : field.stores = true) :
    0 < (fieldBytes endian field).length := by
  cases field with
  | order val => cases stores
  | number value => exact encoded_pos value
  | float value => simp [fieldBytes]
  | double value => simp [fieldBytes]
  | text record =>
      have field := lengthField_pos endian record
      rw [fieldBytes, stored, List.length_append]
      omega

theorem message_pos (fields : List Field) (stores : fields.filter Field.stores ≠ []) :
    0 < (message endian fields).length := by
  induction fields generalizing endian with
  | nil => exact absurd rfl stores
  | cons field fields ih =>
      rw [message, List.length_append]
      by_cases here : field.stores = true
      · have some' := @fieldBytes_pos endian field here
        omega
      · rw [List.filter_cons_of_neg here] at stores
        have some' := @ih (turned endian field) stores
        omega

theorem message_none (fields : List Field) (nothing : fields.filter Field.stores = []) :
    message endian fields = [] := by
  induction fields generalizing endian with
  | nil => rfl
  | cons field fields ih =>
      cases field with
      | order val => exact ih nothing
      | _ => cases nothing

theorem read_field {α : Type} {reader : ByteArray → Run (α × ByteArray)} {value : α}
    (reads : Consumes reader bytes value) (field : α → Field) (related : Related baseSize array flat)
    (laid : Laid flat bytes) :
    ∃ next, Party.read ⟨array, endian⟩ field (reader array) = .ok (field value, ⟨next, endian⟩) ∧
      Related baseSize next (Flat.skip flat bytes.length) := by
  obtain ⟨next, read, kept⟩ := reads baseSize array flat related laid
  exact ⟨next, by rw [Party.read, read]; rfl, kept⟩

theorem take_laid (field : Field) (related : Related baseSize array flat)
    (laid : Laid flat (fieldBytes endian field)) (fits : Fits field)
    (safe : LastEmpty [field] → flat.position + (fieldBytes endian field).length ≠ flat.capacity) :
    ∃ next, Party.take ⟨array, endian⟩ field.slot = .ok (field, ⟨next, turned endian field⟩) ∧
      Related baseSize next (Flat.skip flat (fieldBytes endian field).length) := by
  cases field with
  | order val => exact ⟨array, rfl, related⟩
  | number value => exact read_field (readValue_consumes endian value) .number related laid
  | float value =>
      exact read_field (readFixed_consumes endian 4 (by decide) value) .float related laid
  | double value =>
      exact read_field (readFixed_consumes endian 8 (by decide) value) .double related laid
  | text record =>
      obtain ⟨form, text⟩ := record
      obtain ⟨next, read, kept⟩ := readString_laid ⟨form, text⟩ related laid fits (by
        rintro rfl
        exact safe ⟨form, rfl⟩)
      exact ⟨next, by rw [Field.slot, Party.take, Party.read, read]; rfl, kept⟩

theorem lastEmpty_cons (field : Field) (fields : List Field)
    (more : fields.filter Field.stores ≠ []) : LastEmpty (field :: fields) ↔ LastEmpty fields := by
  rw [LastEmpty, LastEmpty, List.filter_cons]
  split
  · cases later : fields.filter Field.stores with
    | nil => exact absurd later more
    | cons second rest => rw [List.getLast?_cons_cons]
  · rfl

theorem lastEmpty_alone (field : Field) (fields : List Field)
    (last : fields.filter Field.stores = []) : LastEmpty (field :: fields) ↔ LastEmpty [field] := by
  rw [LastEmpty, LastEmpty, List.filter_cons, List.filter_cons, last, List.filter_nil]

theorem not_lastEmpty (fields : List Field) (nothing : fields.filter Field.stores = []) :
    ¬ LastEmpty fields := by
  rintro ⟨form, found⟩
  rw [nothing] at found
  cases found

theorem head_safe {front back : List UInt8} (related : Related baseSize array flat)
    (laid : Laid flat (front ++ back)) (more : 0 < back.length) :
    flat.position + front.length ≠ flat.capacity := by
  have inside := laid.inside
  have bound := related_bound related
  rw [List.length_append] at inside
  omega

theorem first_safe (field : Field) (fields : List Field) (related : Related baseSize array flat)
    (laid : Laid flat (message endian (field :: fields)))
    (safe : LastEmpty (field :: fields) →
      flat.position + (message endian (field :: fields)).length ≠ flat.capacity)
    (empty : LastEmpty [field]) :
    flat.position + (fieldBytes endian field).length ≠ flat.capacity := by
  by_cases more : fields.filter Field.stores = []
  · have apart := safe ((lastEmpty_alone field fields more).mpr empty)
    rw [message, message_none fields more, List.append_nil] at apart
    exact apart
  · exact head_safe related laid (message_pos fields more)

theorem fields_return (fields : List Field) (related : Related baseSize array flat)
    (laid : Laid flat (message endian fields)) (fits : ∀ field ∈ fields, Fits field)
    (safe : LastEmpty fields → flat.position + (message endian fields).length ≠ flat.capacity) :
    ∃ last, exec Party.take ⟨array, endian⟩ (fields.map Field.slot) =
        .ok (fields, ⟨last, turnedBy endian fields⟩) ∧
      Related baseSize last (Flat.skip flat (message endian fields).length) := by
  induction fields generalizing array flat endian with
  | nil => exact ⟨array, rfl, related⟩
  | cons field fields ih =>
      obtain ⟨here, later⟩ := Laid.split flat _ _ laid
      obtain ⟨next, taken, kept⟩ := take_laid field related here (fits field List.mem_cons_self)
        (first_safe field fields related laid safe)
      have safe' : LastEmpty fields → (Flat.skip flat (fieldBytes endian field).length).position +
          (message (turned endian field) fields).length ≠
            (Flat.skip flat (fieldBytes endian field).length).capacity := by
        intro empty
        have more : fields.filter Field.stores ≠ [] := fun nothing =>
          not_lastEmpty fields nothing empty
        have apart := safe ((lastEmpty_cons field fields more).mpr empty)
        rw [message, List.length_append, ← Nat.add_assoc] at apart
        exact apart
      obtain ⟨last, ran, related'⟩ := ih kept later
        (fun other member => fits other (List.mem_cons_of_mem _ member)) safe'
      refine ⟨last, ?_, ?_⟩
      · rw [List.map_cons, exec, taken, ok_bind]
        dsimp only
        rw [ran, ok_bind]
        rfl
      · rw [message, List.length_append, Flat.skip, ← Nat.add_assoc]
        exact related'

theorem fields_fault (fields : List Field) (related : Related baseSize array flat)
    (laid : Laid flat (message endian fields)) (fits : ∀ field ∈ fields, Fits field)
    (empty : LastEmpty fields)
    (full : flat.position + (message endian fields).length = flat.capacity) :
    exec Party.take ⟨array, endian⟩ (fields.map Field.slot) = .error .nullPointer := by
  induction fields generalizing array flat endian with
  | nil => exact absurd empty (not_lastEmpty [] rfl)
  | cons field fields ih =>
      obtain ⟨here, later⟩ := Laid.split flat _ _ laid
      by_cases more : fields.filter Field.stores = []
      · obtain ⟨form, found⟩ := (lastEmpty_alone field fields more).mp empty
        have same : field = .text ⟨form, []⟩ := by
          rw [List.filter_cons] at found
          split at found
          · exact Option.some.inj found
          · cases found
        subst same
        rw [message, message_none fields more, List.append_nil] at full
        have null := readString_null ⟨form, []⟩ related here rfl full
        rw [List.map_cons, exec, Field.slot, Party.take, Party.read, null]
        rfl
      · obtain ⟨next, taken, kept⟩ := take_laid field related here (fits field List.mem_cons_self)
          fun _ => head_safe related laid (message_pos fields more)
        have full' : (Flat.skip flat (fieldBytes endian field).length).position +
            (message (turned endian field) fields).length =
              (Flat.skip flat (fieldBytes endian field).length).capacity := by
          rw [message, List.length_append, ← Nat.add_assoc] at full
          exact full
        have ran := ih kept later (fun other member => fits other (List.mem_cons_of_mem _ member))
          ((lastEmpty_cons field fields more).mp empty) full'
        rw [List.map_cons, exec, taken, ok_bind]
        dsimp only
        rw [ran]
        rfl

theorem stores_of_long (field : Field) (long : ¬ Fits field) : field.stores = true := by
  cases field with
  | order val => exact absurd trivial long
  | _ => rfl

theorem take_long (field : Field) (related : Related baseSize array flat)
    (laid : Laid flat (fieldBytes endian field)) (long : ¬ Fits field) (next : Party) :
    Party.take ⟨array, endian⟩ field.slot ≠ .ok (field, next) := by
  cases field with
  | text record =>
      intro taken
      rw [Field.slot, Party.take, Party.read, bind_eq_ok] at taken
      obtain ⟨⟨buff, after⟩, read, done⟩ := taken
      dsimp only at done
      rw [Except.ok.injEq, Prod.mk.injEq, Field.text.injEq] at done
      have same : buff = record.text := congrArg Record.text done.1
      have length := readString_length record buff related laid read
      have positive : 0 < limit record.form := by
        cases record.form <;> decide
      have smaller := Nat.mod_lt record.text.length positive
      rw [same] at length
      exact long (by rw [Fits]; omega)
  | _ => exact absurd trivial long

theorem fields_differ (fields : List Field) (related : Related baseSize array flat)
    (laid : Laid flat (message endian fields)) (long : ∃ field ∈ fields, ¬ Fits field)
    (last : Party) :
    exec Party.take ⟨array, endian⟩ (fields.map Field.slot) ≠ .ok (fields, last) := by
  induction fields generalizing array flat endian with
  | nil =>
      obtain ⟨_, member, _⟩ := long
      cases member
  | cons field fields ih =>
      obtain ⟨here, later⟩ := Laid.split flat _ _ laid
      intro ran
      rw [List.map_cons, exec, bind_eq_ok] at ran
      obtain ⟨⟨reply, next⟩, taken, ran⟩ := ran
      dsimp only at ran
      rw [bind_eq_ok] at ran
      obtain ⟨⟨replies, final⟩, rest, done⟩ := ran
      dsimp only at done
      rw [Except.ok.injEq, Prod.mk.injEq, List.cons.injEq] at done
      obtain ⟨⟨rfl, rfl⟩, rfl⟩ := done
      by_cases fits : Fits reply
      · obtain ⟨other, member, tooLong⟩ := long
        have tail : other ∈ replies := by
          rcases List.mem_cons.mp member with rfl | tail
          · exact absurd fits tooLong
          · exact tail
        have more : replies.filter Field.stores ≠ [] := List.ne_nil_of_mem
          (List.mem_filter.mpr ⟨tail, stores_of_long other tooLong⟩)
        obtain ⟨next', taken', kept⟩ := take_laid reply related here fits
          fun _ => head_safe related laid (message_pos replies more)
        rw [taken', Except.ok.injEq, Prod.mk.injEq] at taken
        obtain ⟨-, rfl⟩ := taken
        exact ih kept later ⟨other, tail, tooLong⟩ rest
      · exact take_long reply related here fits next taken

theorem returns_iff (fields : List Field) {start : ByteArray}
    (related : Related baseSize array flat) (tight : Tight baseSize flat (message endian fields))
    (rewound : array.setPosition 0 = .ok start) :
    Returns start endian fields ↔ Readable baseSize endian fields := by
  obtain ⟨start', rewound', kept, laid⟩ := rewind_laid related tight.1
  rw [rewound, Except.ok.injEq] at rewound'
  subst rewound'
  have full : LastEmpty fields → ((message endian fields).length = flat.capacity ↔
      baseSize ∣ (message endian fields).length) := fun empty =>
    tight_full_iff related tight (message_pos fields fun nothing => not_lastEmpty fields nothing empty)
  constructor
  · rintro ⟨last, ran, -⟩
    have fits : ∀ field ∈ fields, Fits field := fun field member => by
      by_contra long
      exact fields_differ fields kept laid ⟨field, member, long⟩ last ran
    refine ⟨fits, ?_⟩
    rintro ⟨empty, whole⟩
    have fault := fields_fault fields kept laid fits empty
      (by rw [Nat.zero_add]; exact (full empty).mpr whole)
    rw [fault] at ran
    cases ran
  · rintro ⟨fits, apart⟩
    obtain ⟨last, ran, left⟩ := fields_return fields kept laid fits (by
      intro empty same
      rw [Nat.zero_add] at same
      exact apart ⟨empty, (full empty).mp same⟩)
    refine ⟨_, ran, ?_⟩
    have position : (message endian fields).length = last.position := by
      rw [← left.2.2.position, Flat.skip, Nat.zero_add]
    have size : (message endian fields).length = last.size := by
      rw [← left.2.2.size, Flat.skip]
      exact tight.1.size.symm
    rw [ByteArray.getReadSize, ← size, ← position, Nat.sub_self]

def flatOf (array : ByteArray) : Flat :=
  ⟨cell array, array.position, array.size, array.capacity⟩

/-- A cleared array is empty, whatever it was used for before. -/
theorem cleared (reached : Reached baseSize array) :
    Related baseSize array.clear ((flatOf array).clear baseSize) ∧
      Tight baseSize ((flatOf array).clear baseSize) [] := by
  obtain ⟨shape, placed⟩ := reached.placed
  have related : Related baseSize array (flatOf array) :=
    ⟨shape, placed, ⟨rfl, rfl, rfl, fun _ _ => rfl⟩⟩
  exact ⟨clear_refines related, ⟨rfl, rfl, Nat.zero_le _, fun index inside =>
    absurd inside (Nat.not_lt_zero index)⟩, .inl rfl⟩

theorem saved (related : Related baseSize array flat) (tight : Tight baseSize flat bytes)
    (narrow : baseSize + bytes.length < 2 ^ 63) :
    ∃ start pieces, array.setPosition 0 = .ok start ∧ writeToFile start = .ok pieces ∧
      gather start pieces = .ok (bytes.map some) := by
  obtain ⟨start, rewound, kept, laid⟩ := rewind_laid related tight.1
  have capacity : start.capacity = flat.capacity := kept.2.2.capacity.symm
  have size : start.size = bytes.length := kept.2.2.size.symm.trans tight.1.size
  have front : start.position = 0 := kept.2.2.position.symm
  have left : start.getReadSize = bytes.length := by
    rw [ByteArray.getReadSize, size, front, Nat.sub_zero]
  have small : start.capacity < 2 ^ 63 := by
    rcases tight.2 with one | several
    · omega
    · omega
  have savable : Savable start := by
    refine .inr ⟨?_, .inl ?_⟩
    · rw [front, Nat.zero_mod]
      decide
    · rw [front, Nat.zero_mod]
  obtain ⟨pieces, wrote, -, gathered⟩ := savable_saves kept.2.1 small savable
  refine ⟨start, pieces, rewound, wrote, gathered.trans (congrArg _ ?_)⟩
  rw [ByteArray.getPosition, left]
  exact stretch_laid bytes kept laid

theorem loads_tight (fuel : Nat) (file : List UInt8) (related : Related baseSize array flat)
    (tight : Tight baseSize flat bytes) (enough : file.length < fuel) :
    ∃ next later, readFileLoop fuel array file = .ok next ∧ Related baseSize next later ∧
      Tight baseSize later (bytes ++ file) := by
  induction fuel generalizing array flat bytes file with
  | zero => omega
  | succ fuel ih =>
      have base := related.2.1.base
      obtain ⟨next, flat', wrote, kept, held⟩ := write_tight (file.take array.baseSize) related tight
      rw [readFileLoop, wrote, ok_bind]
      by_cases last : file.length < array.baseSize
      · rw [List.take_of_length_le (by omega)] at held
        exact ⟨next, flat', if_pos last, kept, held⟩
      · rw [if_neg last]
        obtain ⟨final, later, ran, related', tight'⟩ := ih (file.drop array.baseSize) kept held
          (by rw [List.length_drop]; omega)
        rw [List.append_assoc, List.take_append_drop] at tight'
        exact ⟨final, later, ran, related', tight'⟩

end

/-- A message is written to an array that is cleared, whatever it was used for, and saved; and
another array, cleared as well, loads the file. That never fails; and the fields come back
from the one array and from the other exactly when nodes of its size can hold the end of the
message and the strings fit their length fields. -/
theorem message_carried (senderBase receiverBase : Nat) (sender receiver : ByteArray)
    (sending : Reached senderBase sender) (receiving : Reached receiverBase receiver)
    (endian : Endian) (fields : List Field)
    (narrow : senderBase + (message endian fields).length < 2 ^ 63) :
    ∃ replies written start pieces file loaded rewound,
      exec Party.put ⟨sender.clear, endian⟩ fields = .ok (replies, written) ∧
      written.array.setPosition 0 = .ok start ∧
      writeToFile start = .ok pieces ∧ gather start pieces = .ok (file.map some) ∧
      readFromFile receiver.clear file = .ok loaded ∧ loaded.setPosition 0 = .ok rewound ∧
      (Returns start endian fields ↔ Readable senderBase endian fields) ∧
      (Returns rewound endian fields ↔ Readable receiverBase endian fields) := by
  obtain ⟨related, tight⟩ := cleared sending
  obtain ⟨related', tight'⟩ := cleared receiving
  obtain ⟨replies, written, flat, put, kept, held⟩ := @puts_tight _ _ _ _ endian fields related tight
  rw [List.nil_append] at held
  obtain ⟨start, pieces, moved, wrote, gathered⟩ := saved kept held narrow
  obtain ⟨loaded, flat', ran, kept', held'⟩ := loads_tight _ (message endian fields) related' tight'
    (Nat.lt_succ_self _)
  rw [List.nil_append] at held'
  obtain ⟨rewound, moved', _⟩ := rewind_laid kept' held'.1
  exact ⟨replies, _, start, pieces, _, loaded, rewound, put, moved, wrote, gathered, ran, moved',
    returns_iff fields kept held moved, returns_iff fields kept' held' moved'⟩

def report : List Field :=
  [.number (.int32 5), .text ⟨.vint, [104, 105]⟩, .order false, .double 3, .text ⟨.f16, []⟩]

/-- Fourteen bytes: they come back from nodes of four bytes and not from nodes of seven. -/
theorem report_carried :
    ∃ replies written start pieces file loaded rewound,
      exec Party.put ⟨(ByteArray.fresh 4).clear, .little⟩ report = .ok (replies, written) ∧
      written.array.setPosition 0 = .ok start ∧
      writeToFile start = .ok pieces ∧ gather start pieces = .ok (file.map some) ∧
      readFromFile (ByteArray.fresh 7).clear file = .ok loaded ∧ loaded.setPosition 0 = .ok rewound ∧
      Returns start .little report ∧ ¬ Returns rewound .little report := by
  obtain ⟨replies, written, start, pieces, file, loaded, rewound, put, moved, wrote, gathered, ran,
    moved', here, there⟩ := message_carried 4 7 _ _ (.fresh (by decide)) (.fresh (by decide)) .little
      report (by decide +kernel)
  have length : (message .little report).length = 14 := by decide +kernel
  refine ⟨replies, written, start, pieces, file, loaded, rewound, put, moved, wrote, gathered, ran,
    moved', here.mpr ⟨?_, ?_⟩, fun returns => (there.mp returns).2 ⟨⟨.f16, rfl⟩, ?_⟩⟩
  · simp [report, Fits, limit]
  · rintro ⟨-, whole⟩
    rw [length] at whole
    exact absurd whole (by decide)
  · rw [length]
    decide

end OtaMqtt.Bytes.Messages
