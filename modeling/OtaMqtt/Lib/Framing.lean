import OtaMqtt.Lib.Delimited

/-! Messages that are framed by their text: a start line, header lines and an empty line, each
ended by CR LF, and a body of the length that one header gives.

The reader is a strict one: it takes one length header only, and only decimal digits in it. -/

namespace OtaMqtt.Lib.Framing

def crlf : List Char := ['\r', '\n']

def Plain (line : List Char) : Prop := '\r' ∉ line ∧ '\n' ∉ line

instance (line : List Char) : Decidable (Plain line) := inferInstanceAs (Decidable (_ ∧ _))

def readLine : List Char → Option (List Char × List Char)
  | [] => none
  | '\r' :: '\n' :: rest => some ([], rest)
  | character :: rest => (readLine rest).map fun (line, rest) => (character :: line, rest)

def readLines : Nat → List Char → Option (List (List Char) × List Char)
  | 0, _ => none
  | fuel + 1, input => do
      let (line, rest) ← readLine input
      if line = [] then some ([], rest)
      else do
        let (lines, rest) ← readLines fuel rest
        some (line :: lines, rest)

def lengthName : List Char := "Content-Length: ".toList

def lengthValues (headers : List (List Char)) : List (List Char) :=
  (headers.filter lengthName.isPrefixOf).map (List.drop lengthName.length)

def decimal (digits : List Char) : Option Nat :=
  if digits ≠ [] ∧ digits.all Char.isDigit = true then some (Nat.ofDigitChars 10 digits 0) else none

def contentLength (headers : List (List Char)) : Option Nat :=
  match lengthValues headers with
  | [digits] => decimal digits
  | _ => none

structure Received where
  start : List Char
  headers : List (List Char)
  body : List Char
  following : List Char
  deriving DecidableEq

def receive (input : List Char) : Option Received := do
  let (start, rest) ← readLine input
  let (headers, rest) ← readLines rest.length rest
  let length ← contentLength headers
  if length ≤ rest.length then some ⟨start, headers, rest.take length, rest.drop length⟩ else none

def write (start : List Char) (headers : List (List Char)) (body : List Char) : List Char :=
  start ++ crlf ++ headers.flatMap (· ++ crlf) ++ crlf ++ body

/-- The text is a start line, header lines, an empty line and a body, and the one length header
gives the length of the body. -/
structure Framed (text start : List Char) (headers : List (List Char)) (body : List Char) : Prop where
  written : text = write start headers body
  plain : Plain start
  lines : ∀ header ∈ headers, header ≠ [] ∧ Plain header
  length : lengthValues headers = [(toString body.length).toList]

theorem readLine_plain (line rest : List Char) (plain : Plain line) :
    readLine (line ++ crlf ++ rest) = some (line, rest) := by
  induction line with
  | nil => rfl
  | cons character line ih =>
      obtain ⟨carriage, feed⟩ := plain
      have tail := ih ⟨fun member => carriage (List.mem_cons_of_mem _ member),
        fun member => feed (List.mem_cons_of_mem _ member)⟩
      have other : character ≠ '\r' := fun same => carriage (same ▸ List.mem_cons_self)
      rw [List.cons_append, List.cons_append, readLine, tail]
      · rfl
      · intro rest same
        exact absurd same other

theorem readLines_plain (headers : List (List Char)) (rest : List Char) (fuel : Nat)
    (enough : headers.length < fuel) (plain : ∀ header ∈ headers, header ≠ [] ∧ Plain header) :
    readLines fuel (headers.flatMap (· ++ crlf) ++ crlf ++ rest) = some (headers, rest) := by
  induction headers generalizing fuel with
  | nil =>
      cases fuel with
      | zero => cases enough
      | succ fuel => rfl
  | cons header headers ih =>
      cases fuel with
      | zero => cases enough
      | succ fuel =>
          obtain ⟨nonempty, line⟩ := plain header List.mem_cons_self
          have tail := ih fuel (Nat.lt_of_succ_lt_succ enough)
            fun other member => plain other (List.mem_cons_of_mem _ member)
          have split : (header :: headers).flatMap (· ++ crlf) ++ crlf ++ rest =
              header ++ crlf ++ (headers.flatMap (· ++ crlf) ++ crlf ++ rest) := by
            simp only [List.flatMap_cons, List.append_assoc]
          rw [split, readLines, readLine_plain header _ line]
          simp only [Option.bind_eq_bind, Option.bind_some, if_neg nonempty, tail]

theorem lines_length (headers : List (List Char)) :
    headers.length ≤ (headers.flatMap (· ++ crlf)).length := by
  induction headers with
  | nil => exact Nat.le_refl 0
  | cons header headers ih =>
      have two : crlf.length = 2 := rfl
      simp only [List.flatMap_cons, List.length_append, List.length_cons]
      omega

theorem receive_write (start : List Char) (headers : List (List Char)) (rest : List Char)
    (plain : Plain start) (lines : ∀ header ∈ headers, header ≠ [] ∧ Plain header) :
    receive (write start headers rest) = (contentLength headers).bind fun length =>
      if length ≤ rest.length then some ⟨start, headers, rest.take length, rest.drop length⟩
      else none := by
  have split : write start headers rest =
      start ++ crlf ++ (headers.flatMap (· ++ crlf) ++ crlf ++ rest) := by
    simp only [write, List.append_assoc]
  have enough : headers.length < (headers.flatMap (· ++ crlf) ++ crlf ++ rest).length := by
    have bound := lines_length headers
    have two : crlf.length = 2 := rfl
    simp only [List.length_append]
    omega
  rw [split, receive, readLine_plain start _ plain]
  simp only [Option.bind_eq_bind, Option.bind_some, readLines_plain headers rest _ enough lines]

theorem lengthValues_other (header : List Char) (headers : List (List Char))
    (other : lengthName.isPrefixOf header = false) :
    lengthValues (header :: headers) = lengthValues headers := by
  simp [lengthValues, other]

theorem lengthValues_length (value : List Char) (headers : List (List Char)) :
    lengthValues ((lengthName ++ value) :: headers) = value :: lengthValues headers := by
  have named : lengthName.isPrefixOf (lengthName ++ value) = true := by
    rw [List.isPrefixOf_iff_prefix]
    exact List.prefix_append lengthName value
  simp [lengthValues, named]

theorem decimal_number (number : Nat) : decimal (toString number).toList = some number := by
  rw [Nat.toString_eq_repr, Nat.toList_repr, decimal, if_pos, Nat.ofDigitChars_ten_toDigits]
  refine ⟨Nat.toDigits_ne_nil, List.all_eq_true.mpr ?_⟩
  intro digit member
  exact Nat.isDigit_of_mem_toDigits (by decide) (by decide) member

theorem plain_number (number : Nat) : Plain (toString number).toList := by
  rw [Nat.toString_eq_repr, Nat.toList_repr]
  exact ⟨Delimited.not_digit number (by decide), Delimited.not_digit number (by decide)⟩

theorem plain_append (left right : List Char) (first : Plain left) (second : Plain right) :
    Plain (left ++ right) := by
  constructor
  · intro member
    exact (List.mem_append.mp member).elim first.1 second.1
  · intro member
    exact (List.mem_append.mp member).elim first.2 second.2

/-- A framed text is read back, whatever follows it on the connection. -/
theorem receive_framed {text start : List Char} {headers : List (List Char)} {body : List Char}
    (framed : Framed text start headers body) (following : List Char) :
    receive (text ++ following) = some ⟨start, headers, body, following⟩ := by
  have split : text ++ following = write start headers (body ++ following) := by
    rw [framed.written]
    simp only [write, List.append_assoc]
  have length : contentLength headers = some body.length := by
    rw [contentLength, framed.length]
    exact decimal_number body.length
  rw [split, receive_write start headers _ framed.plain framed.lines, length, Option.bind_some,
    if_pos (by simp), List.take_left, List.drop_left]

theorem readLine_append {input line rest : List Char} (read : readLine input = some (line, rest))
    (more : List Char) : readLine (input ++ more) = some (line, rest ++ more) := by
  fun_induction readLine input generalizing line rest with
  | case1 => cases read
  | case2 rest' =>
      cases read
      rfl
  | case3 character tail apart ih =>
      obtain ⟨⟨line', rest'⟩, found, done⟩ := Option.map_eq_some_iff.mp read
      cases done
      have later := ih found
      rw [List.cons_append, readLine, later, Option.map_some]
      -- a carriage return at the end of the input has no line yet
      rintro rest'' rfl same
      cases tail with
      | nil => cases found
      | cons next tail =>
          rw [List.cons_append, List.cons.injEq] at same
          exact apart tail rfl (by rw [same.1])

theorem readLines_append {fuel more' : Nat} {input rest : List Char} {lines : List (List Char)}
    (read : readLines fuel input = some (lines, rest)) (enough : fuel ≤ more') (more : List Char) :
    readLines more' (input ++ more) = some (lines, rest ++ more) := by
  induction fuel generalizing more' input lines with
  | zero => cases read
  | succ fuel ih =>
      obtain ⟨extra, rfl⟩ := Nat.exists_eq_add_of_le enough
      rw [readLines] at read
      obtain ⟨⟨line, tail⟩, first, read⟩ := Option.bind_eq_some_iff.mp read
      rw [Nat.add_right_comm, readLines, readLine_append first]
      dsimp only [Option.bind_eq_bind, Option.bind_some] at read ⊢
      split at read
      · rename_i empty
        cases read
        rw [if_pos empty]
      · rename_i nonempty
        obtain ⟨⟨lines', rest'⟩, later, done⟩ := Option.bind_eq_some_iff.mp read
        cases done
        rw [if_neg nonempty, ih later (Nat.le_add_right _ _), Option.bind_some]

theorem receive_append {input : List Char} {received : Received}
    (read : receive input = some received) (more : List Char) :
    receive (input ++ more) = some { received with following := received.following ++ more } := by
  rw [receive] at read ⊢
  obtain ⟨⟨start, rest⟩, first, read⟩ := Option.bind_eq_some_iff.mp read
  obtain ⟨⟨headers, rest'⟩, second, read⟩ := Option.bind_eq_some_iff.mp read
  obtain ⟨length, third, read⟩ := Option.bind_eq_some_iff.mp read
  have longer : rest.length ≤ (rest ++ more).length := by
    rw [List.length_append]
    omega
  rw [readLine_append first]
  dsimp only [Option.bind_eq_bind, Option.bind_some] at read ⊢
  rw [readLines_append second longer]
  dsimp only [Option.bind_some]
  rw [third, Option.bind_some]
  split at read
  · rename_i fits
    cases read
    rw [if_pos (by rw [List.length_append]; omega), List.take_append_of_le_length fits,
      List.drop_append_of_le_length fits]
  · cases read

theorem receive_short {text start : List Char} {headers : List (List Char)} {body front back : List Char}
    (framed : Framed text start headers body) (split : text = front ++ back) (missing : back ≠ []) :
    receive front = none := by
  cases read : receive front with
  | none => rfl
  | some received =>
      have whole := receive_framed framed []
      rw [List.append_nil, split, receive_append read back] at whole
      have following := congrArg Received.following (Option.some.inj whole)
      exact absurd (List.append_eq_nil_iff.mp following).2 missing

/-- The messages at the front of the input, as many as are all there. -/
def receiveAll : Nat → List Char → List Received
  | 0, _ => []
  | fuel + 1, input =>
      match receive input with
      | none => []
      | some received => received :: receiveAll fuel received.following

theorem framed_pos {text start : List Char} {headers : List (List Char)} {body : List Char}
    (framed : Framed text start headers body) : 0 < text.length := by
  have two : crlf.length = 2 := rfl
  rw [framed.written, write]
  simp only [List.length_append]
  omega

/-- A message that a reader gets whole. -/
structure Message where
  text : List Char
  start : List Char
  body : List Char
  framed : ∃ headers, Framed text start headers body

theorem receiveAll_short {fuel : Nat} {input : List Char} (short : receive input = none) :
    receiveAll fuel input = [] := by
  cases fuel with
  | zero => rfl
  | succ fuel => rw [receiveAll, short]

theorem receiveAll_message (message : Message) (fuel : Nat) (rest : List Char) :
    ∃ headers, receiveAll (fuel + 1) (message.text ++ rest) =
      ⟨message.start, headers, message.body, rest⟩ :: receiveAll fuel rest := by
  obtain ⟨headers, framed⟩ := message.framed
  exact ⟨headers, by rw [receiveAll, receive_framed framed]⟩

theorem receiveAll_beginning (messages : List Message) (fuel : Nat) (input : List Char)
    (enough : input.length ≤ fuel) (beginning : input <+: messages.flatMap Message.text) :
    (receiveAll fuel input).map (fun received => (received.start, received.body)) <+:
        messages.map (fun message => (message.start, message.body)) ∧
      ((receiveAll fuel input).length = messages.length ↔ input = messages.flatMap Message.text) := by
  induction messages generalizing fuel input with
  | nil =>
      have empty : input = [] := List.prefix_nil.mp beginning
      subst empty
      rw [receiveAll_short rfl]
      exact ⟨List.prefix_refl _, iff_of_true rfl rfl⟩
  | cons message messages ih =>
      have some' : 0 < message.text.length := message.framed.elim fun _ => framed_pos
      obtain ⟨missing, whole⟩ := beginning
      rw [List.flatMap_cons] at whole ⊢
      -- either the first message is not all there, or it is and something is left behind it
      have cases' : (∃ lacking, lacking ≠ [] ∧ message.text = input ++ lacking) ∨
          ∃ rest, input = message.text ++ rest ∧ messages.flatMap Message.text = rest ++ missing := by
        rcases List.append_eq_append_iff.mp whole with ⟨lacking, text, later⟩ | ⟨rest, here, behind⟩
        · by_cases none : lacking = []
          · subst none
            rw [List.append_nil] at text
            exact .inr ⟨[], by rw [text, List.append_nil], later.symm⟩
          · exact .inl ⟨lacking, none, text⟩
        · exact .inr ⟨rest, here, behind⟩
      rcases cases' with ⟨lacking, some'', text⟩ | ⟨rest, rfl, behind⟩
      · obtain ⟨headers, framed⟩ := message.framed
        rw [receiveAll_short (receive_short framed text some'')]
        refine ⟨List.nil_prefix, iff_of_false (Nat.succ_ne_zero _).symm fun same => ?_⟩
        have lengths := congrArg List.length same
        have positive := List.length_pos_iff.mpr some''
        rw [text, List.length_append, List.length_append] at lengths
        omega
      · rw [List.length_append] at enough
        obtain ⟨fuel, rfl⟩ := Nat.exists_eq_add_of_lt (Nat.lt_of_lt_of_le some' (by omega : _ ≤ fuel))
        obtain ⟨first, all⟩ := ih (0 + fuel) rest (by omega) ⟨missing, behind.symm⟩
        obtain ⟨headers, read⟩ := receiveAll_message message (0 + fuel) rest
        rw [read, List.length_cons, List.length_cons, Nat.add_right_cancel_iff,
          List.append_cancel_left_eq]
        exact ⟨List.cons_prefix_cons.mpr ⟨rfl, first⟩, all⟩

end OtaMqtt.Lib.Framing
