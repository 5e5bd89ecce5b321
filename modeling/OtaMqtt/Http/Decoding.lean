import OtaMqtt.Http.KeepAlive

/-! What a client encodes, and what a fresh parser reads back from it. -/

namespace OtaMqtt.Http.Decoding

open OtaMqtt.Lib.Execution OtaMqtt.Lib.CText
open OtaMqtt.Http.Parser OtaMqtt.Http.Requests OtaMqtt.Http.Segments OtaMqtt.Http.KeepAlive

def typeName : List UInt8 := ascii "Content-type:"

def lengthName : List UInt8 := ascii "Content-Length:"

def Carries (name value line : List UInt8) : Prop :=
  ∃ gap, (∀ byte ∈ gap, byte ∈ blanks) ∧ line = name ++ (gap ++ value)

def Decimal (count : Nat) (digits : List UInt8) : Prop :=
  digits ≠ [] ∧ (∀ byte ∈ digits, isdigit byte = true) ∧ decimal digits = count

/-- A request as the clients encode it: every `Content-type` line is for JSON, and there is
one `Content-Length` line for a body and none without one. -/
structure Encoded (request : Request) : Prop where
  named : method request ≠ .none
  current : request.version = ascii "HTTP/1.1"
  uri : Token request.uri
  headers : ∀ line ∈ request.headers, line ≠ [] ∧ Plain line
  body : 0 ∉ request.body
  typed : ∀ line ∈ request.headers, startsWith typeName line = true →
    Carries typeName (ascii "application/json") line
  unsized : request.body = [] → request.headers.filter (startsWith lengthName) = []
  sized : request.body ≠ [] → ∃ line digits,
    request.headers.filter (startsWith lengthName) = [line] ∧
      Carries lengthName digits line ∧ Decimal request.body.length digits

theorem headerValue_carries (name : String) (value line : List UInt8)
    (carries : Carries (ascii name) value line) (solid : ∀ byte ∈ value.head?, byte ∉ blanks) :
    headerValue name line = value := by
  obtain ⟨gap, blank, rfl⟩ := carries
  obtain ⟨_, taken⟩ := dropWhile_stop gap value (· ∈ blanks)
    (fun byte member => decide_eq_true (blank byte member))
    (fun byte first => decide_eq_false (solid byte first))
  simp only [headerValue, List.drop_left', strspn, taken]

theorem digit_solid (byte : UInt8) (digit : isdigit byte = true) : byte ∉ blanks := by
  have range := digit_range byte digit
  intro member
  simp only [blanks, List.mem_cons, List.not_mem_nil, or_false] at member
  rcases member with rfl | rfl <;> revert range <;> decide

section
variable {request : Request}

theorem Encoded.shaped (encoded : Encoded request) : Shaped request where
  verb := by
    rcases verb_cases request encoded.named with verb | verb | verb <;> rw [verb] <;> decide +kernel
  uri := encoded.uri
  version := by
    rw [encoded.current]
    decide +kernel
  headers := encoded.headers
  body := encoded.body

theorem Encoded.accepted (encoded : Encoded request) :
    ∀ line ∈ request.headers, refused line = false := by
  intro line member
  cases named : startsWith (ascii "Content-type:") line with
  | false => rw [refused, named]; rfl
  | true =>
      have carries := encoded.typed line member named
      have value := headerValue_carries "Content-type:" _ line carries (by decide +kernel)
      rw [refused, named, value]
      decide +kernel

theorem legible_carries (line digits : List UInt8) (count : Nat)
    (carries : Carries lengthName digits line) (stated : Decimal count digits) :
    legible line = true ∧ States line count := by
  obtain ⟨nonempty, numeric, denotes⟩ := stated
  have solid : ∀ byte ∈ digits.head?, byte ∉ blanks :=
    fun byte first => digit_solid byte (numeric byte (List.mem_of_mem_head? first))
  have value := headerValue_carries "Content-Length:" digits line carries solid
  obtain ⟨gap, blank, rfl⟩ := carries
  have read := strtol_digits digits [] nonempty numeric (by simp)
  rw [List.append_nil] at read
  constructor
  · rw [legible, value, read, Bool.and_eq_true_iff]
    exact ⟨(startsWith_iff _ _).mpr ⟨gap ++ digits, rfl⟩, rfl⟩
  · refine ⟨gap, digits, [], ?_, blank, by simp, nonempty, numeric, denotes⟩
    rw [List.append_nil]
    exact List.drop_left' (by decide)

theorem Encoded.announced (encoded : Encoded request) :
    (if request.headers.any legible then request.body else []) = request.body ∧
      (request.headers.filter (startsWith lengthName) = [] ∨
        ∃ line, request.headers.filter (startsWith lengthName) = [line] ∧
          States line request.body.length) := by
  by_cases empty : request.body = []
  · rw [empty, ite_self]
    exact ⟨rfl, .inl (encoded.unsized empty)⟩
  · obtain ⟨line, digits, single, carries, stated⟩ := encoded.sized empty
    obtain ⟨read, states⟩ := legible_carries line digits _ carries stated
    have member : line ∈ request.headers := by
      have kept : line ∈ request.headers.filter (startsWith lengthName) := by simp [single]
      exact (List.mem_filter.mp kept).1
    rw [if_pos (List.any_eq_true.mpr ⟨line, member, read⟩)]
    exact ⟨rfl, .inr ⟨line, single, states⟩⟩

end

/-- A fresh parser reports an encoded request with its own method, uri and body, whatever
the memory of the fresh buffer held. -/
theorem deliver_encoded (request : Request) (capacity : Nat) (junk : Nat → UInt8)
    (encoded : Encoded request) (fits : request.encode.length < capacity)
    (bound : capacity < 2 ^ 31) :
    ∃ next, deliver (opened capacity junk) request.encode =
      .ok (⟨.getRequest, method request, request.uri, request.body⟩, next) := by
  have idle := opened_idle capacity junk (Nat.zero_lt_of_lt fits) bound
  have start := begun_fresh request encoded.shaped encoded.named encoded.current
  have inside : 0 + request.encode.length < (opened capacity junk).2.capacity := by
    rw [Nat.zero_add]
    exact fits
  obtain ⟨body, stated⟩ := encoded.announced
  have fine : ∀ line ∈ request.headers, line ≠ [] ∧ refused line = false :=
    fun line member => ⟨(encoded.headers line member).1, encoded.accepted line member⟩
  have length := absorbAll_stated _ request.headers request.body.length start.header start.unset fine
    stated (body_bound idle inside)
  obtain ⟨next, delivered, _⟩ := deliver_measured encoded.shaped idle start inside encoded.accepted (by
    rw [length, Request.announced]
    split <;> rfl)
  rw [body] at delivered
  exact ⟨next, delivered⟩

def posted : Request :=
  ⟨ascii "POST", ascii "/api/ota/query", ascii "HTTP/1.1",
    [ascii "Host: 127.0.0.1:8080", ascii "Content-type: application/json",
      ascii "Content-Length: 2", ascii "Connection: close"], ascii "42"⟩

theorem posted_encoded : Encoded posted where
  named := by decide +kernel
  current := rfl
  uri := by
    show Token (ascii "/api/ota/query")
    decide +kernel
  headers := by decide +kernel
  body := by decide +kernel
  typed := by
    intro line member named
    have second : line = ascii "Content-type: application/json" := by
      revert line
      decide +kernel
    exact ⟨[32], by decide +kernel, second⟩
  unsized := by
    intro empty
    exact absurd empty (by decide +kernel)
  sized := by
    intro _
    have carries : Carries lengthName (ascii "2") (ascii "Content-Length: 2") :=
      ⟨[32], by decide +kernel, by decide +kernel⟩
    exact ⟨_, _, by decide +kernel, carries, by decide +kernel, by decide +kernel, by decide +kernel⟩

/-- A POST between other header lines is read back. -/
theorem posted_read_back :
    ∃ next, deliver (opened 4096 (fun _ => 7)) posted.encode =
      .ok (⟨.getRequest, .post, ascii "/api/ota/query", ascii "42"⟩, next) :=
  deliver_encoded posted 4096 (fun _ => 7) posted_encoded (by decide +kernel) (by decide)

end OtaMqtt.Http.Decoding
