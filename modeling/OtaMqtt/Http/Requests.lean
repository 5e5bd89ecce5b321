import OtaMqtt.Http.ParserLines

/-! Well-formed requests, and what the line parsers make of their lines. -/

namespace OtaMqtt.Http.Requests

open OtaMqtt.Lib.CText
open OtaMqtt.Http.Parser OtaMqtt.Http.ParserLines

structure Request where
  verb : List UInt8
  uri : List UInt8
  version : List UInt8
  headers : List (List UInt8)
  body : List UInt8
  deriving DecidableEq

def crlf : List UInt8 := [13, 10]

def Request.requestLine (request : Request) : List UInt8 :=
  request.verb ++ 32 :: (request.uri ++ 32 :: request.version)

def Request.lines (request : Request) : List (List UInt8) :=
  request.requestLine :: request.headers ++ [[]]

def encodeLines (lines : List (List UInt8)) : List UInt8 := lines.flatMap (· ++ crlf)

def Request.encode (request : Request) : List UInt8 :=
  encodeLines request.lines ++ request.body

def Token (word : List UInt8) : Prop := word ≠ [] ∧ ∀ byte ∈ word, byte ∉ [(0 : UInt8), 9, 10, 13, 32]

/-- A line the transport can carry: no CR, no LF, no NUL. -/
def Plain (line : List UInt8) : Prop := Quiet line ∧ 0 ∉ line

instance (word : List UInt8) : Decidable (Token word) :=
  inferInstanceAs (Decidable (word ≠ [] ∧ ∀ byte ∈ word, byte ∉ [(0 : UInt8), 9, 10, 13, 32]))

instance (line : List UInt8) : Decidable (Plain line) :=
  inferInstanceAs (Decidable ((∀ byte ∈ line, byte ≠ 13 ∧ byte ≠ 10) ∧ 0 ∉ line))

def lower (byte : UInt8) : UInt8 := if 65 ≤ byte ∧ byte ≤ 90 then byte + 32 else byte

/-- Field names are compared without regard to case. -/
def lengthField (line : List UInt8) : Bool :=
  (line.take 15).map lower = ascii "content-length:"

/-- The field's value is a decimal number between optional blanks. -/
def States (line : List UInt8) (count : Nat) : Prop :=
  ∃ gap digits trail, line.drop 15 = gap ++ (digits ++ trail) ∧
    (∀ byte ∈ gap, byte ∈ blanks) ∧ (∀ byte ∈ trail, byte ∈ blanks) ∧
    digits ≠ [] ∧ (∀ byte ∈ digits, isdigit byte = true) ∧ decimal digits = count

structure WellFormed (request : Request) : Prop where
  verb : Token request.verb
  uri : Token request.uri
  version : Token request.version
  headers : ∀ line ∈ request.headers, line ≠ [] ∧ Plain line
  body : 0 ∉ request.body
  length : (request.headers.filter lengthField = [] ∧ request.body = []) ∨
    ∃ line, request.headers.filter lengthField = [line] ∧ States line request.body.length

/-- A request the transport can carry, whatever its header lines say of the body. -/
structure Shaped (request : Request) : Prop where
  verb : Token request.verb
  uri : Token request.uri
  version : Token request.version
  headers : ∀ line ∈ request.headers, line ≠ [] ∧ Plain line
  body : 0 ∉ request.body

theorem WellFormed.shaped {request : Request} (formed : WellFormed request) : Shaped request :=
  ⟨formed.verb, formed.uri, formed.version, formed.headers, formed.body⟩

/-- The method that `parse_request_line` reads off the first word. -/
def methodOf (verb : List UInt8) : Option HttpMethod :=
  if startsWith (ascii "POST") verb then some .post
  else if startsWith (ascii "GET") verb then some .get
  else if startsWith (ascii "OPTIONS") verb then some .options
  else none

def Request.supported (request : Request) : Bool :=
  (methodOf request.verb).isSome && startsWith (ascii "HTTP/1.1") request.version

def refused (line : List UInt8) : Bool :=
  startsWith (ascii "Content-type:") line &&
    !startsWith (ascii "application/json") (headerValue "Content-type:" line)

/-- The lines through the one that ends the parsing of the head: the first line that is
refused, or else the blank line. -/
def decidingHeaders : List (List UInt8) → List (List UInt8)
  | [] => [[]]
  | line :: rest => if refused line then [line] else line :: decidingHeaders rest

def Request.deciding (request : Request) : List (List UInt8) :=
  request.requestLine :: if request.supported then decidingHeaders request.headers else []

/-- The number of bytes after which the parser's answer to the head is fixed. -/
def Request.decision (request : Request) : Nat := (encodeLines request.deciding).length

section
variable (head text : List UInt8)

theorem startsWith_iff : startsWith head text = true ↔ ∃ rest, text = head ++ rest := by
  rw [startsWith, List.isPrefixOf_iff_prefix]
  exact ⟨fun ⟨rest, same⟩ => ⟨rest, same.symm⟩, fun ⟨rest, same⟩ => ⟨rest, same.symm⟩⟩

theorem startsWith_word (word rest : List UInt8) (separator : UInt8) (absent : separator ∉ head) :
    startsWith head (word ++ separator :: rest) = startsWith head word := by
  unfold startsWith
  induction head generalizing word with
  | nil => simp
  | cons byte head ih =>
      have later := fun word => ih word (fun member => absent (List.mem_cons_of_mem _ member))
      cases word with
      | nil =>
          have differs : (byte == separator) = false := by
            rw [beq_eq_false_iff_ne]
            rintro rfl
            exact absent List.mem_cons_self
          simp [List.isPrefixOf, differs]
      | cons first word => simp [List.isPrefixOf, later]

theorem strspn_blank (rest : List UInt8) (word : List UInt8) (token : Token word) :
    strspn (32 :: (word ++ rest)) blanks = 1 := by
  obtain ⟨nonempty, ordinary⟩ := token
  cases word with
  | nil => exact absurd rfl nonempty
  | cons first word =>
      have plain := ordinary first List.mem_cons_self
      have other : first ∉ blanks := by
        intro member
        apply plain
        simp only [blanks, List.mem_cons, List.not_mem_nil, or_false] at member
        rcases member with rfl | rfl <;> decide
      simp [strspn, blanks] at other ⊢
      simp [other]

theorem strpbrk_blank (rest : List UInt8) (word : List UInt8) (token : Token word) :
    strpbrk (word ++ 32 :: rest) blanks = some (32 :: rest) := by
  have skipped : ∀ byte ∈ word, decide (byte ∉ blanks) = true := by
    intro byte member
    have plain := token.2 byte member
    apply decide_eq_true
    intro blank
    apply plain
    simp only [blanks, List.mem_cons, List.not_mem_nil, or_false] at blank
    rcases blank with rfl | rfl <;> decide
  rw [strpbrk, List.dropWhile_append_of_pos skipped]
  rfl

end

theorem parseRequestLine_words (message : Message) (request : Request) (formed : Shaped request) :
    message.parseRequestLine request.requestLine =
      match methodOf request.verb with
      | none => (.badRequest, message)
      | some method =>
          let named := { message with method := method, uri := request.uri }
          if startsWith (ascii "HTTP/1.1") request.version then
            (.noRequest, { named with checkState := .header })
          else (.badRequest, named) := by
  have uriGap := strspn_blank (32 :: request.version) request.uri formed.uri
  have versionGap := strspn_blank [] request.version formed.version
  rw [List.append_nil] at versionGap
  have length : (request.uri ++ 32 :: request.version).length - (32 :: request.version).length =
      request.uri.length := by
    rw [List.length_append]
    omega
  unfold Message.parseRequestLine Request.requestLine methodOf
  rw [strpbrk_blank _ _ formed.verb]
  simp only [uriGap, List.drop_succ_cons, List.drop_zero, strpbrk_blank _ _ formed.uri, versionGap,
    length, List.take_left']
  rewrite [startsWith_word _ _ _ 32 (by decide), startsWith_word _ _ _ 32 (by decide),
    startsWith_word _ _ _ 32 (by decide)]
  rfl

structure Keeps (before after : Message) : Prop where
  checkState : after.checkState = before.checkState
  method : after.method = before.method
  uri : after.uri = before.uri
  requestBody : after.requestBody = before.requestBody

theorem Keeps.trans {first second third : Message} (left : Keeps first second)
    (right : Keeps second third) : Keeps first third :=
  ⟨right.checkState.trans left.checkState, right.method.trans left.method,
    right.uri.trans left.uri, right.requestBody.trans left.requestBody⟩

theorem parseHeaders_refused (message : Message) (line : List UInt8) (refusal : refused line = true) :
    message.parseHeaders line = (.badRequest, message) := by
  obtain ⟨named, other⟩ := Bool.and_eq_true_iff.mp refusal
  obtain ⟨rest, rfl⟩ := (startsWith_iff _ _).mp named
  rw [Bool.not_eq_true'] at other
  have nonempty : ascii "Content-type:" ++ rest ≠ [] := by simp [ascii]
  have connection : startsWith (ascii "Connection:") (ascii "Content-type:" ++ rest) = false := rfl
  have length : startsWith (ascii "Content-Length:") (ascii "Content-type:" ++ rest) = false := rfl
  have host : startsWith (ascii "Host:") (ascii "Content-type:" ++ rest) = false := rfl
  rw [Message.parseHeaders, if_neg nonempty, connection, length, host, named, other]
  rfl

theorem parseHeaders_accepted (message : Message) (line : List UInt8) (nonempty : line ≠ [])
    (accepted : refused line = false) :
    (message.parseHeaders line).1 = .noRequest ∧ Keeps message (message.parseHeaders line).2 := by
  rw [Message.parseHeaders, if_neg nonempty]
  split
  · exact ⟨rfl, rfl, rfl, rfl, rfl⟩
  · split
    · exact ⟨rfl, rfl, rfl, rfl, rfl⟩
    · split
      · exact ⟨rfl, rfl, rfl, rfl, rfl⟩
      · split
        · rename_i named
          rw [refused, named, Bool.true_and, Bool.not_eq_false'] at accepted
          rw [if_pos accepted]
          exact ⟨rfl, rfl, rfl, rfl, rfl⟩
        · exact ⟨rfl, rfl, rfl, rfl, rfl⟩

theorem lengthField_of_startsWith (line : List UInt8)
    (named : startsWith (ascii "Content-Length:") line = true) : lengthField line = true := by
  obtain ⟨rest, rfl⟩ := (startsWith_iff _ _).mp named
  have front : (ascii "Content-Length:" ++ rest).take 15 = ascii "Content-Length:" :=
    List.take_left' (by decide)
  rw [lengthField, front]
  decide

theorem parseHeaders_contentLength (message : Message) (line : List UInt8) (nonempty : line ≠ [])
    (other : startsWith (ascii "Content-Length:") line = false) :
    (message.parseHeaders line).2.contentLength = message.contentLength := by
  simp only [Message.parseHeaders, if_neg nonempty, other, Bool.false_eq_true, if_false]
  repeat' split
  all_goals rfl

/-- The field is spelled as the parser expects it and nothing stands behind the number. -/
def legible (line : List UInt8) : Bool :=
  startsWith (ascii "Content-Length:") line &&
    (strtol (headerValue "Content-Length:" line)).2 == []

theorem dropWhile_stop (front rest : List UInt8) (test : UInt8 → Bool)
    (passed : ∀ byte ∈ front, test byte = true) (stopped : ∀ byte ∈ rest.head?, test byte = false) :
    (front ++ rest).dropWhile test = rest ∧ (front ++ rest).takeWhile test = front := by
  rw [List.dropWhile_append_of_pos passed, List.takeWhile_append_of_pos passed]
  cases rest with
  | nil => simp
  | cons byte rest => simp [stopped byte rfl]

theorem digit_range (byte : UInt8) (digit : isdigit byte = true) : 48 ≤ byte ∧ byte ≤ 57 := by
  simpa [isdigit] using digit

theorem strtol_digits (digits trail : List UInt8) (nonempty : digits ≠ [])
    (numeric : ∀ byte ∈ digits, isdigit byte = true) (gap : ∀ byte ∈ trail, byte ∈ blanks) :
    strtol (digits ++ trail) =
      (max (-2 ^ 63) (min (2 ^ 63 - 1) (decimal digits : Int)), trail) := by
  obtain ⟨dropped, taken⟩ := dropWhile_stop digits trail isdigit numeric (by
    intro byte first
    have member := gap byte (List.mem_of_mem_head? first)
    simp only [blanks, List.mem_cons, List.not_mem_nil, or_false] at member
    rcases member with rfl | rfl <;> decide)
  obtain ⟨first, digits, rfl⟩ := List.exists_cons_of_ne_nil nonempty
  obtain ⟨low, high⟩ := digit_range first (numeric first List.mem_cons_self)
  have unsigned : first ≠ 45 ∧ first ≠ 43 := by
    constructor <;> rintro rfl <;> revert low <;> decide
  have started : (first :: digits ++ trail).dropWhile isspace = first :: digits ++ trail := by
    have solid : isspace first = false := by
      simp only [isspace, Bool.or_eq_false_iff, decide_eq_false_iff_not, Bool.and_eq_false_iff]
      constructor
      · rintro rfl
        revert low
        decide
      · right
        intro small
        have chain := UInt8.le_trans low small
        revert chain
        decide
    simp [solid]
  rw [strtol]
  simp only [started]
  split
  · rename_i same
    exact absurd (List.cons.inj same).1 unsigned.1
  · rename_i same
    exact absurd (List.cons.inj same).1 unsigned.2
  · rw [taken, dropped, if_neg nonempty]
    rfl

theorem headerValue_states (line : List UInt8) (count : Nat) (states : States line count) :
    ∃ digits trail, headerValue "Content-Length:" line = digits ++ trail ∧
      (∀ byte ∈ trail, byte ∈ blanks) ∧ digits ≠ [] ∧
      (∀ byte ∈ digits, isdigit byte = true) ∧ decimal digits = count := by
  obtain ⟨gap, digits, trail, value, blank, after, nonempty, numeric, denotes⟩ := states
  refine ⟨digits, trail, ?_, after, nonempty, numeric, denotes⟩
  have name : (ascii "Content-Length:").length = 15 := by decide
  obtain ⟨dropped, taken⟩ := dropWhile_stop gap (digits ++ trail) (· ∈ blanks)
    (fun byte member => decide_eq_true (blank byte member)) (by
      intro byte first
      obtain ⟨digit, digits, rfl⟩ := List.exists_cons_of_ne_nil nonempty
      obtain rfl : digit = byte := by simpa using first
      have range := digit_range digit (numeric digit List.mem_cons_self)
      apply decide_eq_false
      intro member
      simp only [blanks, List.mem_cons, List.not_mem_nil, or_false] at member
      rcases member with rfl | rfl <;> revert range <;> decide)
  simp only [headerValue, name, value, strspn, taken, List.drop_left']

theorem parseHeaders_states (message : Message) (line : List UInt8) (count : Nat)
    (nonempty : line ≠ []) (states : States line count) (bound : count < 2 ^ 31)
    (unset : message.contentLength = 0) :
    (message.parseHeaders line).2.contentLength = if legible line then (count : Int) else 0 := by
  cases named : startsWith (ascii "Content-Length:") line with
  | false => rw [parseHeaders_contentLength message line nonempty named, unset, legible, named]; rfl
  | true =>
      obtain ⟨digits, trail, value, gap, some, numeric, denotes⟩ := headerValue_states line count states
      have read := strtol_digits digits trail some numeric gap
      have connection : startsWith (ascii "Connection:") line = false := by
        obtain ⟨rest, rfl⟩ := (startsWith_iff _ _).mp named
        rfl
      have clamped : max (-2 ^ 63) (min (2 ^ 63 - 1) (decimal digits : Int)) = count := by
        rw [denotes]
        omega
      rw [clamped] at read
      simp only [Message.parseHeaders, if_neg nonempty, connection, named, legible, value, read,
        Bool.false_eq_true, if_false, if_true, Bool.true_and, beq_iff_eq]
      by_cases rest : trail = []
      · rw [if_neg (not_not_intro rest), if_pos rest, Int.bmod_eq_of_le] <;> omega
      · rw [if_pos rest, if_neg rest]

def absorbAll (message : Message) (lines : List (List UInt8)) : Message :=
  lines.foldl (fun message line => (absorb message line).2) message

/-- The parser asks for more after each of the lines and never reaches content mode. -/
def Calm : Message → List (List UInt8) → Prop
  | message, [] => message.checkState ≠ .content
  | message, line :: lines =>
      message.checkState ≠ .content ∧ (absorb message line).1 = .noRequest ∧
        Calm (absorb message line).2 lines

theorem Calm.reading {message : Message} {lines : List (List UInt8)} (calm : Calm message lines) :
    message.checkState ≠ .content := by
  cases lines with
  | nil => exact calm
  | cons line lines => exact calm.1

theorem Calm.split (message : Message) (front back : List (List UInt8))
    (calm : Calm message (front ++ back)) :
    Calm message front ∧ Calm (absorbAll message front) back := by
  induction front generalizing message with
  | nil => exact ⟨calm.reading, calm⟩
  | cons line front ih =>
      obtain ⟨reading, quiet, later⟩ := calm
      obtain ⟨first, second⟩ := ih _ later
      exact ⟨⟨reading, quiet, first⟩, second⟩

theorem absorb_header (message : Message) (line : List UInt8)
    (header : message.checkState = .header) : absorb message line = message.parseHeaders line := by
  simp only [absorb, header]

theorem absorbAll_headers (message : Message) (headers : List (List UInt8))
    (header : message.checkState = .header)
    (accepted : ∀ line ∈ headers, line ≠ [] ∧ refused line = false) :
    Calm message headers ∧ Keeps message (absorbAll message headers) := by
  induction headers generalizing message with
  | nil =>
      refine ⟨?_, rfl, rfl, rfl, rfl⟩
      simp [Calm, header]
  | cons line headers ih =>
      obtain ⟨nonempty, fine⟩ := accepted line List.mem_cons_self
      obtain ⟨code, keeps⟩ := parseHeaders_accepted message line nonempty fine
      rw [← absorb_header message line header] at code keeps
      obtain ⟨calm, later⟩ := ih _ (keeps.checkState.trans header)
        (fun other member => accepted other (List.mem_cons_of_mem _ member))
      exact ⟨⟨by simp [header], code, calm⟩, keeps.trans later⟩

theorem absorbAll_unset (message : Message) (headers : List (List UInt8))
    (header : message.checkState = .header)
    (accepted : ∀ line ∈ headers, line ≠ [] ∧ refused line = false)
    (silent : ∀ line ∈ headers, startsWith (ascii "Content-Length:") line = false) :
    (absorbAll message headers).contentLength = message.contentLength := by
  induction headers generalizing message with
  | nil => rfl
  | cons line headers ih =>
      obtain ⟨nonempty, fine⟩ := accepted line List.mem_cons_self
      have keeps := (parseHeaders_accepted message line nonempty fine).2
      have same := parseHeaders_contentLength message line nonempty (silent line List.mem_cons_self)
      rw [← absorb_header message line header] at keeps same
      have later := ih _ (keeps.checkState.trans header)
        (fun other member => accepted other (List.mem_cons_of_mem _ member))
        (fun other member => silent other (List.mem_cons_of_mem _ member))
      exact later.trans same

theorem legible_named (lines : List (List UInt8))
    (silent : ∀ line ∈ lines, startsWith (ascii "Content-Length:") line = false) :
    lines.any legible = false := by
  rw [List.any_eq_false]
  intro line member read
  have named := (Bool.and_eq_true_iff.mp read).1
  rw [silent line member] at named
  cases named

/-- Header lines with at most one length line, as the parser spells it: the parser ends with
the length that line states, if it can read it, and otherwise with none. -/
theorem absorbAll_stated (message : Message) (headers : List (List UInt8)) (count : Nat)
    (header : message.checkState = .header) (unset : message.contentLength = 0)
    (accepted : ∀ line ∈ headers, line ≠ [] ∧ refused line = false)
    (stated : headers.filter (startsWith (ascii "Content-Length:")) = [] ∨
      ∃ line, headers.filter (startsWith (ascii "Content-Length:")) = [line] ∧ States line count)
    (bound : count < 2 ^ 31) :
    (absorbAll message headers).contentLength =
      if headers.any legible then (count : Int) else 0 := by
  rcases stated with absent | ⟨line, field, states⟩
  · have silent : ∀ line ∈ headers, startsWith (ascii "Content-Length:") line = false := by
      intro line member
      simpa using List.filter_eq_nil_iff.mp absent line member
    rw [absorbAll_unset message headers header accepted silent, unset, legible_named headers silent]
    rfl
  · obtain ⟨front, back, split, before, _, after⟩ := List.filter_eq_cons_iff.mp field
    have silentFront : ∀ line ∈ front, startsWith (ascii "Content-Length:") line = false := by
      intro line member
      simpa using before line member
    have silentBack : ∀ line ∈ back, startsWith (ascii "Content-Length:") line = false := by
      intro line member
      simpa using List.filter_eq_nil_iff.mp after line member
    rw [split] at accepted ⊢
    rw [List.any_append, List.any_cons, legible_named front silentFront,
      legible_named back silentBack, Bool.false_or, Bool.or_false]
    have fineFront : ∀ line ∈ front, line ≠ [] ∧ refused line = false :=
      fun line member => accepted line (List.mem_append_left _ member)
    have fineLine := accepted line (List.mem_append_right _ List.mem_cons_self)
    have fineBack : ∀ line ∈ back, line ≠ [] ∧ refused line = false :=
      fun line member => accepted line (List.mem_append_right _ (List.mem_cons_of_mem _ member))
    have kept := (absorbAll_headers message front header fineFront).2
    have atLine := kept.checkState.trans header
    have unsetLine := (absorbAll_unset message front header fineFront silentFront).trans unset
    have read := parseHeaders_states _ line count fineLine.1 states bound unsetLine
    have keptLine := (parseHeaders_accepted (absorbAll message front) line fineLine.1 fineLine.2).2
    rw [← absorb_header _ line atLine] at read keptLine
    have last := absorbAll_unset _ back (keptLine.checkState.trans atLine) fineBack silentBack
    have whole : absorbAll message (front ++ line :: back) =
        absorbAll (absorb (absorbAll message front) line).2 back := by
      simp [absorbAll]
    rw [whole, last, read]

def Request.announced (request : Request) : Nat :=
  if request.headers.any legible then request.body.length else 0

theorem filter_named (headers : List (List UInt8)) :
    headers.filter (startsWith (ascii "Content-Length:")) =
      (headers.filter lengthField).filter (startsWith (ascii "Content-Length:")) := by
  rw [List.filter_filter]
  apply List.filter_congr
  intro line _
  cases named : startsWith (ascii "Content-Length:") line with
  | false => rfl
  | true => rw [lengthField_of_startsWith line named]; rfl

theorem absorbAll_announced (message : Message) (request : Request) (formed : WellFormed request)
    (header : message.checkState = .header) (unset : message.contentLength = 0)
    (accepted : ∀ line ∈ request.headers, refused line = false)
    (bound : request.body.length < 2 ^ 31) :
    (absorbAll message request.headers).contentLength = request.announced := by
  have fine : ∀ line ∈ request.headers, line ≠ [] ∧ refused line = false :=
    fun line member => ⟨(formed.headers line member).1, accepted line member⟩
  have stated : request.headers.filter (startsWith (ascii "Content-Length:")) = [] ∨
      ∃ line, request.headers.filter (startsWith (ascii "Content-Length:")) = [line] ∧
        States line request.body.length := by
    rw [filter_named]
    rcases formed.length with ⟨absent, _⟩ | ⟨line, field, states⟩
    · rw [absent]
      exact .inl rfl
    · rw [field]
      cases named : startsWith (ascii "Content-Length:") line with
      | false => exact .inl (by simp [named])
      | true => exact .inr ⟨line, by simp [named], states⟩
  have length := absorbAll_stated message request.headers request.body.length header unset fine stated
    bound
  unfold Request.announced
  rw [length]
  split <;> rfl

/-- What the line that ends the parsing of the head makes of a fresh parser. -/
def Request.verdict (request : Request) : HttpCode × Message :=
  absorb (absorbAll Message.fresh request.deciding.dropLast) (request.deciding.getLastD [])

theorem decidingHeaders_shape (message : Message) (headers : List (List UInt8))
    (header : message.checkState = .header) (nonempty : ∀ line ∈ headers, line ≠ []) :
    ∃ calm last after, decidingHeaders headers = calm ++ [last] ∧
      headers ++ [[]] = decidingHeaders headers ++ after ∧ Calm message calm ∧
      ((absorb (absorbAll message calm) last).1 = .badRequest ∨
        (calm = headers ∧ last = [] ∧ after = [] ∧ ∀ line ∈ headers, refused line = false)) := by
  induction headers generalizing message with
  | nil =>
      refine ⟨[], [], [], rfl, rfl, ?_, .inr ⟨rfl, rfl, rfl, by simp⟩⟩
      simp [Calm, header]
  | cons line headers ih =>
      cases fate : refused line with
      | true =>
          refine ⟨[], line, headers ++ [[]], ?_, ?_, ?_, .inl ?_⟩
          · simp [decidingHeaders, fate]
          · simp [decidingHeaders, fate]
          · simp [Calm, header]
          · show (absorb message line).1 = .badRequest
            rw [absorb_header message line header, parseHeaders_refused message line fate]
      | false =>
          obtain ⟨code, keeps⟩ :=
            parseHeaders_accepted message line (nonempty line List.mem_cons_self) fate
          rw [← absorb_header message line header] at code keeps
          obtain ⟨calm, last, after, shape, split, quiet, outcome⟩ :=
            ih (absorb message line).2 (keeps.checkState.trans header)
              (fun other member => nonempty other (List.mem_cons_of_mem _ member))
          refine ⟨line :: calm, last, after, ?_, ?_, ⟨by simp [header], code, quiet⟩, ?_⟩
          · simp [decidingHeaders, fate, shape]
          · simp [decidingHeaders, fate, split]
          · rcases outcome with bad | ⟨rfl, blank, done, rest⟩
            · exact .inl bad
            · exact .inr ⟨rfl, blank, done, List.forall_mem_cons.mpr ⟨fate, rest⟩⟩

theorem absorb_requestLine (request : Request) (formed : WellFormed request) :
    (request.supported = false ∧ (absorb Message.fresh request.requestLine).1 = .badRequest) ∨
      (request.supported = true ∧ ∃ method, methodOf request.verb = some method ∧
        absorb Message.fresh request.requestLine = (.noRequest,
          { Message.fresh with checkState := .header, method := method, uri := request.uri })) := by
  have parsed := parseRequestLine_words Message.fresh request formed.shaped
  have same : absorb Message.fresh request.requestLine =
      Message.fresh.parseRequestLine request.requestLine := rfl
  unfold Request.supported
  rw [same, parsed]
  cases methodOf request.verb with
  | none => exact .inl ⟨rfl, rfl⟩
  | some method =>
      cases version : startsWith (ascii "HTTP/1.1") request.version with
      | false => exact .inl ⟨rfl, rfl⟩
      | true => exact .inr ⟨rfl, method, rfl, rfl⟩

/-- The head of a request: its last deciding line either answers it or, for a body that
the parser knows of, opens content mode with every line of the head read. -/
theorem deciding_outcome (request : Request) (formed : WellFormed request)
    (bound : request.body.length < 2 ^ 31) :
    ∃ calm last after, request.deciding = calm ++ [last] ∧
      request.lines = request.deciding ++ after ∧ Calm Message.fresh calm ∧
      (request.verdict.1 ≠ .noRequest ∨
        (after = [] ∧ request.body ≠ [] ∧ request.verdict.1 = .noRequest ∧
          request.verdict.2.checkState = .content ∧
          request.verdict.2.contentLength = request.body.length)) := by
  have fresh : Message.fresh.checkState ≠ .content := by decide
  rcases absorb_requestLine request formed with ⟨unsupported, bad⟩ | ⟨supported, method, _, opened⟩
  · have shape : request.deciding = [request.requestLine] := by
      simp [Request.deciding, unsupported]
    refine ⟨[], request.requestLine, request.headers ++ [[]], shape, ?_, fresh, .inl ?_⟩
    · simp [shape, Request.lines]
    · rw [Request.verdict, shape]
      show (absorb Message.fresh request.requestLine).1 ≠ .noRequest
      rw [bad]
      decide
  · have start : (absorb Message.fresh request.requestLine).2.checkState = .header := by rw [opened]
    have unset : (absorb Message.fresh request.requestLine).2.contentLength = 0 := by
      rw [opened]
      rfl
    obtain ⟨calm, last, after, shape, split, quiet, outcome⟩ :=
      decidingHeaders_shape _ request.headers start (fun line member => (formed.headers line member).1)
    have whole : request.deciding = request.requestLine :: calm ++ [last] := by
      simp [Request.deciding, supported, shape]
    have verdict : request.verdict =
        absorb (absorbAll (absorb Message.fresh request.requestLine).2 calm) last := by
      rw [Request.verdict, whole, List.dropLast_concat, List.getLastD_concat]
      rfl
    refine ⟨request.requestLine :: calm, last, after, whole, ?_, ⟨fresh, by rw [opened], quiet⟩, ?_⟩
    · simp [Request.lines, Request.deciding, supported, split]
    · rcases outcome with bad | ⟨rfl, rfl, rfl, accepted⟩
      · left
        rw [verdict, bad]
        decide
      · have fine : ∀ line ∈ request.headers, line ≠ [] ∧ refused line = false :=
          fun line member => ⟨(formed.headers line member).1, accepted line member⟩
        have kept := (absorbAll_headers _ request.headers start fine).2
        have length := absorbAll_announced _ request formed start unset accepted bound
        rw [absorb_header _ _ (kept.checkState.trans start)] at verdict
        rw [verdict, Message.parseHeaders, if_pos rfl, length]
        by_cases silent : request.announced = 0
        · left
          simp [silent]
        · right
          have known : request.announced = request.body.length := by
            unfold Request.announced at silent ⊢
            split
            · rfl
            · simp_all
          rw [if_pos (by exact_mod_cast silent)]
          refine ⟨rfl, ?_, rfl, rfl, ?_⟩
          · intro empty
            rw [known, empty] at silent
            exact silent rfl
          · show (request.announced : Int) = request.body.length
            rw [known]

end OtaMqtt.Http.Requests
