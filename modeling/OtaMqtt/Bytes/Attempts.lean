import OtaMqtt.Bytes.Files
import OtaMqtt.Bytes.Strings
import OtaMqtt.Lib.Exceptions

/-! Where the readers of `ByteArray` (sherry/bytearray.cc) leave the array when they throw.

The readers of `Codec` and `Strings` once more, with exceptions that keep the array: only
`read` looks before it takes, and nothing behind it goes back. -/

namespace OtaMqtt.Bytes.Attempts

open OtaMqtt.Lib.Execution OtaMqtt.Lib.Exceptions OtaMqtt.Lib.Refinement
open OtaMqtt.Bytes OtaMqtt.Bytes.FlatBuffer OtaMqtt.Bytes.Scatter OtaMqtt.Bytes.Files
open OtaMqtt.Bytes.Positional (holding holding_placed)
open OtaMqtt.Bytes.Codec (Endian Kind Value ordered ofImage initialised decodeZigzag32 decodeZigzag64)
open OtaMqtt.Bytes.Strings (Form readLength readString)

abbrev Reading := Attempt Fault ByteArray

def read (size : Nat) : Reading (List Cell) := guarded fun array => array.read size

def readFixed (endian : Endian) (count : Nat) : Reading (BitVec (8 * count)) := do
  let cells ← read count
  let bytes ← lift (initialised cells)
  pure (ordered endian count (ofImage count bytes))

def readFint8 : Reading (BitVec 8) := readFixed .little 1

def readFuint8 : Reading (BitVec 8) := readFixed .little 1

def readFint16 (endian : Endian) : Reading (BitVec 16) := readFixed endian 2

def readFuint16 (endian : Endian) : Reading (BitVec 16) := readFixed endian 2

def readFint32 (endian : Endian) : Reading (BitVec 32) := readFixed endian 4

def readFuint32 (endian : Endian) : Reading (BitVec 32) := readFixed endian 4

def readFint64 (endian : Endian) : Reading (BitVec 64) := readFixed endian 8

def readFuint64 (endian : Endian) : Reading (BitVec 64) := readFixed endian 8

/-- The loop of the varint readers. -/
def decodeGroups (w : Nat) : Nat → Nat → BitVec w → Reading (BitVec w)
  | 0, _, _ => lift (.error .outOfFuel)
  | fuel + 1, shift, result =>
      if shift < w then do
        let byte ← readFuint8
        if byte.toNat < 128 then pure (result ||| byte.setWidth w <<< shift)
        else decodeGroups w fuel (shift + 7) (result ||| (byte &&& 0x7F).setWidth w <<< shift)
      else pure result

def readUint32 : Reading (BitVec 32) := decodeGroups 32 33 0 0

def readUint64 : Reading (BitVec 64) := decodeGroups 64 65 0 0

def readInt32 : Reading (BitVec 32) := do
  let value ← readUint32
  pure (decodeZigzag32 value)

def readInt64 : Reading (BitVec 64) := do
  let value ← readUint64
  pure (decodeZigzag64 value)

/-- The bits of the `float`. -/
def readFloat (endian : Endian) : Reading (BitVec 32) := readFuint32 endian

/-- The bits of the `double`. -/
def readDouble (endian : Endian) : Reading (BitVec 64) := readFuint64 endian

/-- The bytes behind a length; `buff.resize (len)` is taken to succeed. -/
def readPayload (len : Nat) : Reading (List UInt8) := do
  let cells ← read len
  lift (initialised cells)

def readStringF16 (endian : Endian) : Reading (List UInt8) := do
  let len ← readFuint16 endian
  readPayload len.toNat

def readStringF32 (endian : Endian) : Reading (List UInt8) := do
  let len ← readFuint32 endian
  readPayload len.toNat

def readStringF64 (endian : Endian) : Reading (List UInt8) := do
  let len ← readFuint64 endian
  readPayload len.toNat

def readStringVint : Reading (List UInt8) := do
  let len ← readUint64
  readPayload len.toNat

inductive Reader where
  | number (kind : Kind)
  | float
  | double
  | text (form : Form)
  deriving DecidableEq

inductive Item where
  | number (value : Value)
  | float (bits : BitVec 32)
  | double (bits : BitVec 64)
  | text (bytes : List UInt8)
  deriving DecidableEq

def named {α : Type} (tag : α → Item) (reader : Reading α) : Reading Item := do
  let value ← reader
  pure (tag value)

def attempt (endian : Endian) : Reader → Reading Item
  | .number .fint8 => named (fun value => .number (.fint8 value)) readFint8
  | .number .fuint8 => named (fun value => .number (.fuint8 value)) readFuint8
  | .number .fint16 => named (fun value => .number (.fint16 value)) (readFint16 endian)
  | .number .fuint16 => named (fun value => .number (.fuint16 value)) (readFuint16 endian)
  | .number .fint32 => named (fun value => .number (.fint32 value)) (readFint32 endian)
  | .number .fuint32 => named (fun value => .number (.fuint32 value)) (readFuint32 endian)
  | .number .fint64 => named (fun value => .number (.fint64 value)) (readFint64 endian)
  | .number .fuint64 => named (fun value => .number (.fuint64 value)) (readFuint64 endian)
  | .number .int32 => named (fun value => .number (.int32 value)) readInt32
  | .number .uint32 => named (fun value => .number (.uint32 value)) readUint32
  | .number .int64 => named (fun value => .number (.int64 value)) readInt64
  | .number .uint64 => named (fun value => .number (.uint64 value)) readUint64
  | .float => named .float (readFloat endian)
  | .double => named .double (readDouble endian)
  | .text .f16 => named .text (readStringF16 endian)
  | .text .f32 => named .text (readStringF32 endian)
  | .text .f64 => named .text (readStringF64 endian)
  | .text .vint => named .text readStringVint

/-! ### The readers without the array of an exception -/

theorem forget_readFixed (endian : Endian) (count : Nat) (array : ByteArray) :
    forget (readFixed endian count) array = Codec.readFixed endian count array := by
  rw [readFixed, Codec.readFixed, forget_bind, read, forget_guarded]
  cases array.read count with
  | error reason => rfl
  | ok outcome =>
      dsimp only [ok_bind]
      rw [forget_bind, forget_lift]
      cases initialised outcome.1 with
      | error reason => rfl
      | ok bytes => rfl

theorem forget_decodeGroups (w fuel shift : Nat) (result : BitVec w) (array : ByteArray) :
    forget (decodeGroups w fuel shift result) array = Codec.decodeGroups w fuel shift result array := by
  induction fuel generalizing shift result array with
  | zero => rfl
  | succ fuel ih =>
      rw [decodeGroups, Codec.decodeGroups]
      by_cases inside : shift < w
      · rw [if_pos inside, if_pos inside, forget_bind, readFuint8, forget_readFixed, Codec.readFuint8]
        cases Codec.readFixed .little 1 array with
        | error reason => rfl
        | ok outcome =>
            dsimp only [ok_bind]
            by_cases last : outcome.1.toNat < 128
            · rw [if_pos last, if_pos last, forget_pure]
            · rw [if_neg last, if_neg last, ih]
      · rw [if_neg inside, if_neg inside, forget_pure]

theorem forget_payload (len : Nat) (array : ByteArray) :
    forget (readPayload len) array = (do
      let (cells, array) ← array.read len
      let buff ← initialised cells
      .ok (buff, array)) := by
  rw [readPayload, forget_bind, read, forget_guarded]
  cases array.read len with
  | error reason => rfl
  | ok outcome =>
      dsimp only [ok_bind]
      rw [forget_lift]
      cases initialised outcome.1 with
      | error reason => rfl
      | ok bytes => rfl

theorem forget_named {α : Type} (tag : α → Item) (reader : Reading α) (array : ByteArray) :
    forget (named tag reader) array =
      (forget reader array).map fun outcome => (tag outcome.1, outcome.2) := by
  rw [named, forget_bind]
  cases forget reader array with
  | error reason => rfl
  | ok outcome => rfl

theorem forget_zigzag {w : Nat} (decode : BitVec w → BitVec w) (reader : Reading (BitVec w))
    (array : ByteArray) :
    forget (do
      let value ← reader
      pure (decode value)) array = (do
      let (value, array) ← forget reader array
      .ok (decode value, array)) := by
  rw [forget_bind]
  cases forget reader array with
  | error reason => rfl
  | ok outcome => rfl

theorem tagged_map {w : Nat} (tag : BitVec w → Value) (outcome : Run (BitVec w × ByteArray)) :
    (Codec.tagged tag outcome).map (fun outcome => (Item.number outcome.1, outcome.2)) =
      outcome.map fun outcome => (Item.number (tag outcome.1), outcome.2) := by
  cases outcome with
  | error reason => rfl
  | ok pair => rfl

theorem forget_number (endian : Endian) (kind : Kind) (array : ByteArray) :
    forget (attempt endian (.number kind)) array =
      (Codec.readValue endian array kind).map fun outcome => (Item.number outcome.1, outcome.2) := by
  cases kind with
  | fint8 => rw [attempt, forget_named, Codec.readValue, tagged_map, readFint8, forget_readFixed]; rfl
  | fuint8 => rw [attempt, forget_named, Codec.readValue, tagged_map, readFuint8, forget_readFixed]; rfl
  | fint16 => rw [attempt, forget_named, Codec.readValue, tagged_map, readFint16, forget_readFixed]; rfl
  | fuint16 => rw [attempt, forget_named, Codec.readValue, tagged_map, readFuint16, forget_readFixed]; rfl
  | fint32 => rw [attempt, forget_named, Codec.readValue, tagged_map, readFint32, forget_readFixed]; rfl
  | fuint32 => rw [attempt, forget_named, Codec.readValue, tagged_map, readFuint32, forget_readFixed]; rfl
  | fint64 => rw [attempt, forget_named, Codec.readValue, tagged_map, readFint64, forget_readFixed]; rfl
  | fuint64 => rw [attempt, forget_named, Codec.readValue, tagged_map, readFuint64, forget_readFixed]; rfl
  | int32 =>
      rw [attempt, forget_named, Codec.readValue, tagged_map, readInt32, forget_zigzag, readUint32,
        forget_decodeGroups]
      rfl
  | uint32 =>
      rw [attempt, forget_named, Codec.readValue, tagged_map, readUint32, forget_decodeGroups]
      rfl
  | int64 =>
      rw [attempt, forget_named, Codec.readValue, tagged_map, readInt64, forget_zigzag, readUint64,
        forget_decodeGroups]
      rfl
  | uint64 =>
      rw [attempt, forget_named, Codec.readValue, tagged_map, readUint64, forget_decodeGroups]
      rfl

def lengthReader (endian : Endian) : Form → Reading Nat
  | .f16 => do
      let len ← readFuint16 endian
      pure len.toNat
  | .f32 => do
      let len ← readFuint32 endian
      pure len.toNat
  | .f64 => do
      let len ← readFuint64 endian
      pure len.toNat
  | .vint => do
      let len ← readUint64
      pure len.toNat

theorem forget_length (endian : Endian) (form : Form) (array : ByteArray) :
    forget (lengthReader endian form) array = readLength endian array form := by
  cases form with
  | f16 => rw [lengthReader, forget_bind, readFuint16, forget_readFixed]; rfl
  | f32 => rw [lengthReader, forget_bind, readFuint32, forget_readFixed]; rfl
  | f64 => rw [lengthReader, forget_bind, readFuint64, forget_readFixed]; rfl
  | vint => rw [lengthReader, forget_bind, readUint64, forget_decodeGroups]; rfl

theorem text_eq (endian : Endian) (form : Form) (array : ByteArray) :
    attempt endian (.text form) array =
      named .text (do
        let len ← lengthReader endian form
        readPayload len) array := by
  have chained {w : Nat} (reader : Reading (BitVec w)) :
      named .text (do
        let len ← reader
        readPayload len.toNat) array =
      named .text (do
        let len ← (do
          let len ← reader
          pure len.toNat)
        readPayload len) array := by
    simp only [named, bind_apply]
    match reader array with
    | (.ok value, later) => rfl
    | (.error reason, later) => rfl
  cases form with
  | f16 => exact chained (readFuint16 endian)
  | f32 => exact chained (readFuint32 endian)
  | f64 => exact chained (readFuint64 endian)
  | vint => exact chained readUint64

theorem forget_text (endian : Endian) (form : Form) (array : ByteArray) :
    forget (attempt endian (.text form)) array =
      (readString endian array form).map fun outcome => (Item.text outcome.1, outcome.2) := by
  have same : forget (attempt endian (.text form)) array =
      forget (named .text (do
        let len ← lengthReader endian form
        readPayload len)) array := by
    rw [forget, forget, text_eq]
  rw [same, forget_named, forget_bind, forget_length, Strings.readString_eq]
  simp only [forget_payload]

/-! ### Where an exception leaves the array -/

/-- The same array but for the cursor, which is not further back and still in step. -/
structure Kept (array next : ByteArray) : Prop where
  baseSize : next.baseSize = array.baseSize
  capacity : next.capacity = array.capacity
  size : next.size = array.size
  nodes : next.nodes = array.nodes
  memory : next.memory = array.memory
  position : array.position ≤ next.position
  placed : Placed next

/-- The length was read, and more bytes are due than are left. -/
def BehindLength (endian : Endian) (array next : ByteArray) (form : Form) : Prop :=
  ∃ len, readLength endian array form = .ok (len, next) ∧ next.getReadSize < len

/-- The bytes of a length field, unless it is a varint. -/
def lengthWidth : Form → Option Nat
  | .f16 => some 2
  | .f32 => some 4
  | .f64 => some 8
  | .vint => none

/-- Where a reader that has run out of bytes leaves the array. A single `read` has not touched it, and
a varint has consumed all there was. A string has not touched it when its length field is longer than
what is left, has consumed all there was when its length is a varint that is cut short, and stands
behind its length otherwise. -/
def Left (endian : Endian) (array next : ByteArray) : Reader → Prop
  | .number .int32 => next.position = array.size
  | .number .uint32 => next.position = array.size
  | .number .int64 => next.position = array.size
  | .number .uint64 => next.position = array.size
  | .number _ => next = array
  | .float => next = array
  | .double => next = array
  | .text form =>
      match lengthWidth form with
      | some width =>
          if array.getReadSize < width then next = array else BehindLength endian array next form
      | none =>
          (readLength endian array form = .error .outOfRange ∧ next.position = array.size) ∨
            BehindLength endian array next form

section
variable {array next : ByteArray}

theorem Kept.refl (placed : Placed array) : Kept array array :=
  ⟨rfl, rfl, rfl, rfl, rfl, Nat.le_refl _, placed⟩

theorem Kept.trans {later : ByteArray} (first : Kept array next) (second : Kept next later) :
    Kept array later :=
  ⟨second.baseSize.trans first.baseSize, second.capacity.trans first.capacity,
    second.size.trans first.size, second.nodes.trans first.nodes, second.memory.trans first.memory,
    Nat.le_trans first.position second.position, second.placed⟩

theorem initialised_not_thrown (cells : List Cell) : initialised cells ≠ .error .outOfRange := by
  induction cells with
  | nil =>
      intro thrown
      cases thrown
  | cons first rest ih =>
      intro thrown
      cases first with
      | none => cases thrown
      | some byte =>
          rw [initialised] at thrown
          cases found : initialised rest with
          | error reason =>
              rw [found, error_bind, Except.error.injEq] at thrown
              exact ih (found.trans (congrArg _ thrown))
          | ok bytes =>
              rw [found] at thrown
              cases thrown

theorem read_thrown (placed : Placed array) (size : Nat)
    (thrown : read size array = (.error .outOfRange, next)) :
    next = array ∧ array.getReadSize < size := by
  rw [read, guarded, read_eq placed] at thrown
  by_cases short : array.getReadSize < size
  · rw [if_pos short, Prod.mk.injEq] at thrown
    exact ⟨thrown.2.symm, short⟩
  · rw [if_neg short] at thrown
    by_cases last : array.position = array.capacity
    · rw [if_pos last, Prod.mk.injEq, Except.error.injEq] at thrown
      cases thrown.1
    · rw [if_neg last, Prod.mk.injEq] at thrown
      cases thrown.1

theorem read_returned (placed : Placed array) (size : Nat) (cells : List Cell)
    (returned : read size array = (.ok cells, next)) :
    Kept array next ∧ next.position = array.position + size := by
  have order := placed.position
  rw [read, guarded, read_eq placed] at returned
  by_cases short : array.getReadSize < size
  · rw [if_pos short, Prod.mk.injEq] at returned
    cases returned.1
  · rw [if_neg short] at returned
    by_cases last : array.position = array.capacity
    · rw [if_pos last, Prod.mk.injEq] at returned
      cases returned.1
    · rw [if_neg last, Prod.mk.injEq] at returned
      rw [ByteArray.getReadSize] at short
      rw [← returned.2]
      refine ⟨⟨rfl, rfl, rfl, rfl, rfl, Nat.le_add_right _ _, ?_⟩, rfl⟩
      exact ⟨placed.base, placed.blocks, placed.some, placed.size,
        show array.position + size ≤ array.size by omega, rfl⟩

theorem readFixed_thrown (placed : Placed array) (endian : Endian) (count : Nat)
    (thrown : readFixed endian count array = (.error .outOfRange, next)) :
    next = array ∧ array.getReadSize < count := by
  rcases bind_thrown _ _ _ _ _ thrown with early | ⟨cells, later, _, late⟩
  · exact read_thrown placed count early
  · rcases bind_thrown _ _ _ _ _ late with unread | ⟨bytes, final, _, done⟩
    · exact absurd (Prod.mk.inj unread).1 (initialised_not_thrown cells)
    · cases (Prod.mk.inj done).1

theorem readFixed_returned (placed : Placed array) (endian : Endian) (count : Nat)
    (value : BitVec (8 * count)) (returned : readFixed endian count array = (.ok value, next)) :
    Kept array next ∧ next.position = array.position + count := by
  obtain ⟨cells, later, first, rest⟩ := bind_returned _ _ _ _ _ returned
  obtain ⟨bytes, final, second, done⟩ := bind_returned _ _ _ _ _ rest
  have same : later = final := (Prod.mk.inj second).2
  have last : final = next := (Prod.mk.inj done).2
  rw [← last, ← same]
  exact read_returned placed count cells first

theorem decodeGroups_thrown (placed : Placed array) (w fuel shift : Nat) (result : BitVec w)
    (thrown : decodeGroups w fuel shift result array = (.error .outOfRange, next)) :
    Kept array next ∧ next.position = array.size := by
  induction fuel generalizing shift result array with
  | zero => cases (Prod.mk.inj thrown).1
  | succ fuel ih =>
      rw [decodeGroups] at thrown
      by_cases inside : shift < w
      · rw [if_pos inside] at thrown
        rcases bind_thrown _ _ _ _ _ thrown with early | ⟨byte, later, first, late⟩
        · obtain ⟨same, short⟩ := readFixed_thrown placed .little 1 early
          have order := placed.position
          rw [ByteArray.getReadSize] at short
          rw [same]
          exact ⟨Kept.refl placed, by omega⟩
        · obtain ⟨kept, _⟩ := readFixed_returned placed .little 1 byte first
          by_cases last : byte.toNat < 128
          · rw [if_pos last] at late
            cases (Prod.mk.inj late).1
          · rw [if_neg last] at late
            obtain ⟨further, position⟩ := ih kept.placed _ _ late
            exact ⟨kept.trans further, position.trans kept.size⟩
      · rw [if_neg inside] at thrown
        cases (Prod.mk.inj thrown).1

theorem decodeGroups_returned (placed : Placed array) (w fuel shift : Nat) (result value : BitVec w)
    (returned : decodeGroups w fuel shift result array = (.ok value, next)) : Kept array next := by
  induction fuel generalizing shift result array with
  | zero => cases (Prod.mk.inj returned).1
  | succ fuel ih =>
      rw [decodeGroups] at returned
      by_cases inside : shift < w
      · rw [if_pos inside] at returned
        obtain ⟨byte, later, first, late⟩ := bind_returned _ _ _ _ _ returned
        obtain ⟨kept, _⟩ := readFixed_returned placed .little 1 byte first
        by_cases last : byte.toNat < 128
        · rw [if_pos last] at late
          rw [← (Prod.mk.inj late).2]
          exact kept
        · rw [if_neg last] at late
          exact kept.trans (ih kept.placed _ _ late)
      · rw [if_neg inside] at returned
        rw [← (Prod.mk.inj returned).2]
        exact Kept.refl placed

theorem converted_thrown {α β : Type} (convert : α → β) (reader : Reading α)
    (thrown : (do
      let value ← reader
      pure (convert value) : Reading β) array = (.error .outOfRange, next)) :
    reader array = (.error .outOfRange, next) := by
  rcases bind_thrown _ _ _ _ _ thrown with early | ⟨value, later, _, done⟩
  · exact early
  · cases (Prod.mk.inj done).1

theorem converted_returned {α β : Type} (convert : α → β) (reader : Reading α) (result : β)
    (returned : (do
      let value ← reader
      pure (convert value) : Reading β) array = (.ok result, next)) :
    ∃ value, reader array = (.ok value, next) := by
  obtain ⟨value, later, first, done⟩ := bind_returned _ _ _ _ _ returned
  have same : later = next := (Prod.mk.inj done).2
  rw [same] at first
  exact ⟨value, first⟩

theorem fixed_left (placed : Placed array) (endian : Endian) (count : Nat) {β : Type}
    (tag : BitVec (8 * count) → β)
    (thrown : (do
      let value ← readFixed endian count
      pure (tag value) : Reading β) array = (.error .outOfRange, next)) :
    Kept array next ∧ next = array := by
  obtain ⟨same, _⟩ := readFixed_thrown placed endian count (converted_thrown tag _ thrown)
  rw [same]
  exact ⟨Kept.refl placed, rfl⟩

theorem varint_left (placed : Placed array) (w fuel : Nat) {β : Type} (tag : BitVec w → β)
    (thrown : (do
      let value ← decodeGroups w fuel 0 0
      pure (tag value) : Reading β) array = (.error .outOfRange, next)) :
    Kept array next ∧ next.position = array.size :=
  decodeGroups_thrown placed w fuel 0 0 (converted_thrown tag _ thrown)

theorem lengthReader_returned (placed : Placed array) (endian : Endian) (form : Form) (len : Nat)
    (returned : lengthReader endian form array = (.ok len, next)) : Kept array next := by
  cases form with
  | f16 =>
      obtain ⟨value, first⟩ := converted_returned _ _ _ returned
      exact (readFixed_returned placed endian 2 value first).1
  | f32 =>
      obtain ⟨value, first⟩ := converted_returned _ _ _ returned
      exact (readFixed_returned placed endian 4 value first).1
  | f64 =>
      obtain ⟨value, first⟩ := converted_returned _ _ _ returned
      exact (readFixed_returned placed endian 8 value first).1
  | vint =>
      obtain ⟨value, first⟩ := converted_returned _ _ _ returned
      exact decodeGroups_returned placed 64 65 0 0 value first

theorem lengthReader_whole (placed : Placed array) (endian : Endian) (form : Form) (len width : Nat)
    (fixed : lengthWidth form = some width) (returned : lengthReader endian form array = (.ok len, next)) :
    width ≤ array.getReadSize := by
  have whole : ∀ count value, readFixed endian count array = (.ok value, next) →
      count ≤ array.getReadSize := by
    intro count value first
    obtain ⟨kept, moved⟩ := readFixed_returned placed endian count value first
    have bound := kept.placed.position
    rw [kept.size, moved] at bound
    rw [ByteArray.getReadSize]
    omega
  cases form with
  | f16 =>
      cases fixed
      obtain ⟨value, first⟩ := converted_returned _ _ _ returned
      exact whole 2 value first
  | f32 =>
      cases fixed
      obtain ⟨value, first⟩ := converted_returned _ _ _ returned
      exact whole 4 value first
  | f64 =>
      cases fixed
      obtain ⟨value, first⟩ := converted_returned _ _ _ returned
      exact whole 8 value first
  | vint => cases fixed

theorem lengthReader_short (placed : Placed array) (endian : Endian) (form : Form) (width : Nat)
    (fixed : lengthWidth form = some width)
    (thrown : lengthReader endian form array = (.error .outOfRange, next)) :
    next = array ∧ array.getReadSize < width := by
  cases form with
  | f16 =>
      cases fixed
      exact readFixed_thrown placed endian 2 (converted_thrown _ _ thrown)
  | f32 =>
      cases fixed
      exact readFixed_thrown placed endian 4 (converted_thrown _ _ thrown)
  | f64 =>
      cases fixed
      exact readFixed_thrown placed endian 8 (converted_thrown _ _ thrown)
  | vint => cases fixed

theorem payload_left (placed : Placed array) (endian : Endian) (form : Form) (len : Nat)
    (later : ByteArray) (first : lengthReader endian form array = (.ok len, later))
    (thrown : readPayload len later = (.error .outOfRange, next)) :
    Kept array next ∧ BehindLength endian array next form := by
  have kept := lengthReader_returned placed endian form len first
  rcases bind_thrown _ _ _ _ _ thrown with early | ⟨cells, final, _, late⟩
  · obtain ⟨same, short⟩ := read_thrown kept.placed len early
    rw [same]
    refine ⟨kept, len, ?_, short⟩
    rw [← forget_length]
    exact forget_ok _ _ _ _ first
  · exact absurd (Prod.mk.inj late).1 (initialised_not_thrown cells)

theorem text_thrown (endian : Endian) (form : Form)
    (thrown : attempt endian (.text form) array = (.error .outOfRange, next)) :
    lengthReader endian form array = (.error .outOfRange, next) ∨
      ∃ len later, lengthReader endian form array = (.ok len, later) ∧
        readPayload len later = (.error .outOfRange, next) := by
  rw [text_eq] at thrown
  exact bind_thrown _ _ _ _ _ (converted_thrown _ _ thrown)

end

theorem number_left {array next : ByteArray} (placed : Placed array) (endian : Endian) (kind : Kind)
    (thrown : attempt endian (.number kind) array = (.error .outOfRange, next)) :
    Kept array next ∧ Left endian array next (.number kind) := by
  cases kind with
  | fint8 => exact fixed_left placed .little 1 _ thrown
  | fuint8 => exact fixed_left placed .little 1 _ thrown
  | fint16 => exact fixed_left placed endian 2 _ thrown
  | fuint16 => exact fixed_left placed endian 2 _ thrown
  | fint32 => exact fixed_left placed endian 4 _ thrown
  | fuint32 => exact fixed_left placed endian 4 _ thrown
  | fint64 => exact fixed_left placed endian 8 _ thrown
  | fuint64 => exact fixed_left placed endian 8 _ thrown
  | int32 => exact varint_left placed 32 33 _ (converted_thrown _ _ thrown)
  | uint32 => exact varint_left placed 32 33 _ thrown
  | int64 => exact varint_left placed 64 65 _ (converted_thrown _ _ thrown)
  | uint64 => exact varint_left placed 64 65 _ thrown

theorem string_left {array next : ByteArray} (placed : Placed array) (endian : Endian) (form : Form)
    (thrown : attempt endian (.text form) array = (.error .outOfRange, next)) :
    Kept array next ∧ Left endian array next (.text form) := by
  rw [Left]
  rcases text_thrown endian form thrown with early | ⟨len, later, first, late⟩
  · cases fixed : lengthWidth form with
    | some width =>
        obtain ⟨same, short⟩ := lengthReader_short placed endian form width fixed early
        dsimp only
        rw [if_pos short, same]
        exact ⟨Kept.refl placed, rfl⟩
    | none =>
        cases form with
        | vint =>
            obtain ⟨kept, consumed⟩ := varint_left placed 64 65 _ early
            refine ⟨kept, .inl ⟨?_, consumed⟩⟩
            rw [← forget_length, forget, early]
            rfl
        | f16 => cases fixed
        | f32 => cases fixed
        | f64 => cases fixed
  · obtain ⟨kept, behind⟩ := payload_left placed endian form len later first late
    refine ⟨kept, ?_⟩
    cases fixed : lengthWidth form with
    | some width =>
        have whole := lengthReader_whole placed endian form len width fixed first
        dsimp only
        rw [if_neg (by omega)]
        exact behind
    | none => exact .inr behind

/-- For every array that calls can bring about, whatever its unwritten bytes hold, and every
reader: when it runs out of bytes, size and contents are as before, and the cursor is where
`Left` says. -/
theorem failed_decode_left (baseSize : Nat) (array next : ByteArray) (reached : Reached baseSize array)
    (junk : Nat → Nat → UInt8) (endian : Endian) (reader : Reader)
    (thrown : attempt endian reader (holding array junk) = (.error .outOfRange, next)) :
    Kept (holding array junk) next ∧ Left endian (holding array junk) next reader := by
  have placed := holding_placed reached.placed.2 junk
  cases reader with
  | number kind => exact number_left placed endian kind thrown
  | float => exact fixed_left placed endian 4 _ thrown
  | double => exact fixed_left placed endian 8 _ thrown
  | text form => exact string_left placed endian form thrown

def cutVarint : List Call := [.write [0x80], .setPosition 0]

/-- How the first reader behind some calls ends, and the cursor before and behind it. -/
def outcomeAfter (baseSize : Nat) (calls : List Call) (reader : Reader) :
    Run (Run Item × Nat × Nat) :=
  (exec call (ByteArray.fresh baseSize) calls).map fun outcome =>
    let array := holding outcome.2 fun _ _ => 0
    ((attempt .little reader array).1, array.position, (attempt .little reader array).2.position)

theorem thrown_after (baseSize before behind : Nat) (calls : List Call) (reader : Reader)
    (positive : 0 < baseSize)
    (seen : outcomeAfter baseSize calls reader = .ok (.error .outOfRange, before, behind)) :
    ∃ array next, Reached baseSize array ∧
      attempt .little reader (holding array fun _ _ => 0) = (.error .outOfRange, next) ∧
      array.position = before ∧ next.position = behind := by
  rw [outcomeAfter] at seen
  cases ran : exec call (ByteArray.fresh baseSize) calls with
  | error reason =>
      rw [ran] at seen
      cases seen
  | ok outcome =>
      rw [ran] at seen
      have parts := Prod.mk.inj (Except.ok.inj seen)
      have cursors := Prod.mk.inj parts.2
      exact ⟨outcome.2, _, reached_of_calls calls _ _ outcome.1 (.fresh positive) ran,
        Prod.ext parts.1 rfl, cursors.1, cursors.2⟩

def cutString : List Call := [.write [5, 0, 0x61, 0x62], .setPosition 0]

theorem cut_records_left :
    (∃ array next, Reached 4 array ∧
      attempt .little (.number .uint32) (holding array fun _ _ => 0) = (.error .outOfRange, next) ∧
        Kept (holding array fun _ _ => 0) next ∧
        Left .little (holding array fun _ _ => 0) next (.number .uint32)) ∧
      ∃ array next, Reached 4 array ∧ next.position = 2 ∧
        attempt .little (.text .f16) (holding array fun _ _ => 0) = (.error .outOfRange, next) ∧
          Kept (holding array fun _ _ => 0) next ∧
          Left .little (holding array fun _ _ => 0) next (.text .f16) := by
  constructor
  · obtain ⟨array, next, reached, thrown, _⟩ := thrown_after 4 0 1 cutVarint (.number .uint32)
      (by decide) (by decide +kernel)
    exact ⟨array, next, reached, thrown,
      failed_decode_left 4 array next reached _ .little (.number .uint32) thrown⟩
  · obtain ⟨array, next, reached, thrown, _, behind⟩ := thrown_after 4 0 2 cutString (.text .f16)
      (by decide) (by decide +kernel)
    exact ⟨array, next, reached, behind, thrown,
      failed_decode_left 4 array next reached _ .little (.text .f16) thrown⟩

/-- The byte that was there is consumed when the next one is missed. -/
theorem cut_varint_moves :
    ¬ ∀ (baseSize : Nat) (array next : ByteArray), Reached baseSize array →
      ∀ (junk : Nat → Nat → UInt8) (endian : Endian) (reader : Reader),
        attempt endian reader (holding array junk) = (.error .outOfRange, next) →
          next.position = array.position ∧ next.size = array.size ∧
            ∀ index, cell next index = cell (holding array junk) index := by
  intro never_moves
  obtain ⟨array, next, reached, thrown, before, behind⟩ :=
    thrown_after 4 0 1 cutVarint (.number .uint32) (by decide) (by decide +kernel)
  have same := (never_moves 4 array next reached _ .little (.number .uint32) thrown).1
  rw [before, behind] at same
  exact absurd same (by decide)

end OtaMqtt.Bytes.Attempts
