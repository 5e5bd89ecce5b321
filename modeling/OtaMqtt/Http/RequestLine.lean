import Mathlib.Data.List.TakeWhile
import OtaMqtt.Http.Requests

/-! `parse_request_line` against the grammar of a request line. -/

namespace OtaMqtt.Http.RequestLine

open OtaMqtt.Lib.CText
open OtaMqtt.Http.Parser OtaMqtt.Http.Requests

def verbOf : HttpMethod → List UInt8
  | .post => ascii "POST"
  | .get => ascii "GET"
  | .options => ascii "OPTIONS"
  | .none => []

def Gap (gap : List UInt8) : Prop := gap ≠ [] ∧ ∀ byte ∈ gap, byte ∈ blanks

/-- The grammar: a method, a gap, a uri without blanks, a gap and the version. -/
def Matches (text : List UInt8) (method : HttpMethod) (uri : List UInt8) : Prop :=
  method ≠ .none ∧ uri ≠ [] ∧ (∀ byte ∈ uri, byte ∉ blanks) ∧
    ∃ gap gap', Gap gap ∧ Gap gap' ∧
      text = verbOf method ++ (gap ++ (uri ++ (gap' ++ ascii "HTTP/1.1")))

/-- The line is taken as the grammar reads it, and leaves nothing behind when it is refused. -/
structure Meets (message : Message) (text : List UInt8) : Prop where
  accepted : ∀ method uri, Matches text method uri →
    (message.parseRequestLine text).1 = .noRequest ∧
      (message.parseRequestLine text).2.method = method ∧
      (message.parseRequestLine text).2.uri = uri ∧
      (message.parseRequestLine text).2.checkState = .header
  refused : (¬ ∃ method uri, Matches text method uri) →
    (message.parseRequestLine text).1 = .badRequest ∧
      (message.parseRequestLine text).2.method = message.method ∧
      (message.parseRequestLine text).2.uri = message.uri ∧
      (message.parseRequestLine text).2.checkState = message.checkState

def HasBlank (text : List UInt8) : Prop := ∃ byte ∈ text, byte ∈ blanks

instance (text : List UInt8) : Decidable (HasBlank text) :=
  inferInstanceAs (Decidable (∃ byte ∈ text, byte ∈ blanks))

def firstWord (text : List UInt8) : List UInt8 := text.takeWhile (· ∉ blanks)

def behindWord (text : List UInt8) : List UInt8 :=
  (text.dropWhile (· ∉ blanks)).dropWhile (· ∈ blanks)

theorem take_takeWhile {α : Type} (p : α → Bool) (list : List α) :
    list.take (list.length - (list.dropWhile p).length) = list.takeWhile p := by
  have split : (list.takeWhile p ++ list.dropWhile p).length = list.length := by
    rw [List.takeWhile_append_dropWhile]
  rw [List.length_append] at split
  calc
    list.take (list.length - (list.dropWhile p).length) =
        (list.takeWhile p ++ list.dropWhile p).take (list.takeWhile p).length := by
      rw [List.takeWhile_append_dropWhile, ← split, Nat.add_sub_cancel]
    _ = list.takeWhile p := List.take_left

theorem drop_takeWhile {α : Type} (p : α → Bool) (list : List α) :
    list.drop (list.takeWhile p).length = list.dropWhile p := by
  calc
    list.drop (list.takeWhile p).length =
        (list.takeWhile p ++ list.dropWhile p).drop (list.takeWhile p).length := by
      rw [List.takeWhile_append_dropWhile]
    _ = list.dropWhile p := List.drop_left

theorem dropWhile_word_nil (text : List UInt8) :
    text.dropWhile (· ∉ blanks) = [] ↔ ¬ HasBlank text := by
  rw [List.dropWhile_eq_nil_iff, HasBlank]
  simp

theorem strpbrk_none (text : List UInt8) (absent : ¬ HasBlank text) : strpbrk text blanks = none := by
  rw [strpbrk, (dropWhile_word_nil text).mpr absent]

theorem strpbrk_some (text : List UInt8) (present : HasBlank text) :
    strpbrk text blanks = some (text.dropWhile (· ∉ blanks)) := by
  have found : text.dropWhile (· ∉ blanks) ≠ [] := fun none => (dropWhile_word_nil text).mp none present
  rw [strpbrk]
  split
  · contradiction
  · rfl

theorem parseRequestLine_eq (message : Message) (text : List UInt8) :
    message.parseRequestLine text =
      if ¬ HasBlank text then (.badRequest, message)
      else match methodOf text with
        | none => (.badRequest, message)
        | some method =>
            if ¬ HasBlank (behindWord text) then (.badRequest, { message with method := method })
            else if startsWith (ascii "HTTP/1.1") (behindWord (behindWord text)) then
              (.noRequest, { message with
                method := method, uri := firstWord (behindWord text), checkState := .header })
            else (.badRequest, { message with
              method := method, uri := firstWord (behindWord text) }) := by
  have folded (text : List UInt8) :
      (text.dropWhile (· ∉ blanks)).dropWhile (· ∈ blanks) = behindWord text := rfl
  by_cases blank : HasBlank text
  · rw [if_neg (not_not.mpr blank), Message.parseRequestLine, strpbrk_some text blank]
    simp only [strspn, drop_takeWhile, folded]
    change (match methodOf text with | none => _ | some method => _) = _
    cases methodOf text with
    | none => rfl
    | some method =>
        by_cases second : HasBlank (behindWord text)
        · simp only [strpbrk_some _ second, if_neg (not_not.mpr second), take_takeWhile, folded]
          rfl
        · simp only [strpbrk_none _ second, if_pos second]
  · rw [if_pos blank, Message.parseRequestLine, strpbrk_none text blank]

/-- No gap starts here: the text is empty or begins with a word. -/
def Leads (text : List UInt8) : Prop := ∀ byte, text.head? = some byte → byte ∉ blanks

theorem behindWord_leads (text : List UInt8) : Leads (behindWord text) := by
  intro byte first
  have stopped := List.head?_dropWhile_not (fun byte => decide (byte ∈ blanks))
    (text.dropWhile (· ∉ blanks))
  rw [behindWord] at first
  rw [first] at stopped
  simpa using stopped

theorem words_append (word gap rest : List UInt8) (plain : ∀ byte ∈ word, byte ∉ blanks)
    (between : Gap gap) (leads : Leads rest) :
    HasBlank (word ++ (gap ++ rest)) ∧ firstWord (word ++ (gap ++ rest)) = word ∧
      behindWord (word ++ (gap ++ rest)) = rest := by
  obtain ⟨nonempty, white⟩ := between
  cases gap with
  | nil => exact absurd rfl nonempty
  | cons blank gap =>
      have first : blank ∈ blanks := white blank List.mem_cons_self
      have word' : ∀ byte ∈ word, decide (byte ∉ blanks) = true := fun byte member =>
        decide_eq_true (plain byte member)
      have gap' : ∀ byte ∈ blank :: gap, decide (byte ∈ blanks) = true := fun byte member =>
        decide_eq_true (white byte member)
      refine ⟨⟨blank, by simp, first⟩, ?_, ?_⟩
      · rw [firstWord, List.takeWhile_append_of_pos word']
        simp [first]
      · rw [behindWord, List.dropWhile_append_of_pos word', List.cons_append,
          List.dropWhile_cons_of_neg (by simp [first]), ← List.cons_append,
          List.dropWhile_append_of_pos gap']
        cases rest with
        | nil => rfl
        | cons byte rest =>
            have other := leads byte rfl
            exact List.dropWhile_cons_of_neg (by simpa using other)

theorem words_split (text : List UInt8) (blank : HasBlank text) :
    ∃ gap, Gap gap ∧ text = firstWord text ++ (gap ++ behindWord text) := by
  refine ⟨(text.dropWhile (· ∉ blanks)).takeWhile (· ∈ blanks), ⟨?_, ?_⟩, ?_⟩
  · have present : text.dropWhile (· ∉ blanks) ≠ [] := fun none =>
      (dropWhile_word_nil text).mp none blank
    have stopped := List.head?_dropWhile_not (fun byte => decide (byte ∉ blanks)) text
    cases rest : text.dropWhile (· ∉ blanks) with
    | nil => exact absurd rest present
    | cons byte rest' =>
        rw [rest] at stopped
        have white : byte ∈ blanks := by simpa using stopped
        simp [white]
  · intro byte member
    simpa using List.mem_takeWhile_imp member
  · rw [firstWord, behindWord, List.takeWhile_append_dropWhile, List.takeWhile_append_dropWhile]

theorem verbOf_plain (method : HttpMethod) : ∀ byte ∈ verbOf method, byte ∉ blanks := by
  cases method <;> decide +kernel

theorem methodOf_verb (method : HttpMethod) (known : method ≠ .none) (rest : List UInt8) :
    methodOf (verbOf method ++ rest) = some method := by
  cases method with
  | post => rfl
  | get => rfl
  | options => rfl
  | none => exact absurd rfl known

theorem methodOf_known (text : List UInt8) (method : HttpMethod) (found : methodOf text = some method) :
    method ≠ .none := by
  unfold methodOf at found
  split at found
  · cases found
    decide
  · split at found
    · cases found
      decide
    · split at found
      · cases found
        decide
      · cases found

theorem matches_iff (text : List UInt8) (method : HttpMethod) (uri : List UInt8) :
    Matches text method uri ↔
      HasBlank text ∧ methodOf text = some method ∧ HasBlank (behindWord text) ∧
        firstWord text = verbOf method ∧ firstWord (behindWord text) = uri ∧
        behindWord (behindWord text) = ascii "HTTP/1.1" := by
  constructor
  · rintro ⟨known, nonempty, plain, gap, gap', between, between', rfl⟩
    have leads : Leads (uri ++ (gap' ++ ascii "HTTP/1.1")) := by
      intro byte first
      cases uri with
      | nil => exact absurd rfl nonempty
      | cons head uri =>
          cases first
          exact plain _ List.mem_cons_self
    have version : Leads (ascii "HTTP/1.1") := by
      intro byte first
      cases first
      decide
    obtain ⟨blank, first, behind⟩ := words_append (verbOf method) gap _ (verbOf_plain method) between leads
    obtain ⟨blank', second, last⟩ := words_append uri gap' _ plain between' version
    refine ⟨blank, methodOf_verb method known _, ?_⟩
    rw [behind]
    exact ⟨blank', first, second, last⟩
  · rintro ⟨blank, found, blank', first, rfl, last⟩
    obtain ⟨gap, between, split⟩ := words_split text blank
    obtain ⟨gap', between', split'⟩ := words_split (behindWord text) blank'
    refine ⟨methodOf_known text method found, ?_, ?_, gap, gap', between, between', ?_⟩
    · intro none
      rw [none, List.nil_append] at split'
      cases gap' with
      | nil => exact between'.1 rfl
      | cons byte gap' =>
          have leads := behindWord_leads text byte (by rw [split']; rfl)
          exact leads (between'.2 byte List.mem_cons_self)
    · intro byte member
      simpa using List.mem_takeWhile_imp member
    · rw [← first, ← last, ← split', ← split]

/-- The lines that come out right: those refused before the method is read; those refused
later when the fields already hold what is stored before the refusal; and those whose first
word is the method and whose version has nothing behind it. -/
def Spotless (message : Message) (text : List UInt8) : Prop :=
  HasBlank text → ∀ method, methodOf text = some method →
    if ¬ HasBlank (behindWord text) then message.method = method
    else if startsWith (ascii "HTTP/1.1") (behindWord (behindWord text)) then
      firstWord text = verbOf method ∧ behindWord (behindWord text) = ascii "HTTP/1.1"
    else message.method = method ∧ message.uri = firstWord (behindWord text)

theorem meets_bad (message after : Message) (text : List UInt8)
    (answer : message.parseRequestLine text = (.badRequest, after))
    (outside : ∀ method uri, ¬ Matches text method uri) :
    Meets message text ↔ after.method = message.method ∧ after.uri = message.uri ∧
      after.checkState = message.checkState := by
  constructor
  · intro meets
    have refused := meets.refused (fun ⟨method, uri, line⟩ => outside method uri line)
    rw [answer] at refused
    exact refused.2
  · intro kept
    refine ⟨fun method uri line => absurd line (outside method uri), fun _ => ?_⟩
    rw [answer]
    exact ⟨rfl, kept⟩

theorem meets_good (message after : Message) (text : List UInt8)
    (answer : message.parseRequestLine text = (.noRequest, after)) :
    Meets message text ↔ after.checkState = .header ∧ Matches text after.method after.uri := by
  constructor
  · intro meets
    by_cases inside : ∃ method uri, Matches text method uri
    · obtain ⟨method, uri, line⟩ := inside
      have accepted := meets.accepted method uri line
      rw [answer] at accepted
      obtain ⟨_, rfl, rfl, header⟩ := accepted
      exact ⟨header, line⟩
    · have refused := (meets.refused inside).1
      rw [answer] at refused
      cases refused
  · rintro ⟨header, line⟩
    refine ⟨fun method uri other => ?_, fun outside => absurd ⟨_, _, line⟩ outside⟩
    obtain ⟨_, found, _, _, word, _⟩ := (matches_iff ..).mp line
    obtain ⟨_, found', _, _, word', _⟩ := (matches_iff ..).mp other
    rw [answer]
    exact ⟨rfl, Option.some.inj (found.symm.trans found'), word.symm.trans word', header⟩

/-- For every state of the parser and every text, the request line is read by its grammar
exactly when it is `Spotless`. -/
theorem request_line_meets_grammar_iff (message : Message) (text : List UInt8) :
    Meets message text ↔ Spotless message text := by
  have answer := parseRequestLine_eq message text
  by_cases blank : HasBlank text
  · rw [if_neg (not_not.mpr blank)] at answer
    cases found : methodOf text with
    | none =>
        rw [found] at answer
        have outside : ∀ method uri, ¬ Matches text method uri := by
          intro method uri line
          have named := ((matches_iff ..).mp line).2.1
          rw [found] at named
          cases named
        rw [meets_bad message message text answer outside]
        refine ⟨fun _ _ method named => ?_, fun _ => ⟨rfl, rfl, rfl⟩⟩
        rw [found] at named
        cases named
    | some method =>
        rw [found] at answer
        have named : Spotless message text ↔
            if ¬ HasBlank (behindWord text) then message.method = method
            else if startsWith (ascii "HTTP/1.1") (behindWord (behindWord text)) then
              firstWord text = verbOf method ∧ behindWord (behindWord text) = ascii "HTTP/1.1"
            else message.method = method ∧ message.uri = firstWord (behindWord text) := by
          refine ⟨fun spotless => spotless blank method found, fun holds _ other same => ?_⟩
          rw [found] at same
          cases same
          exact holds
        rw [named]
        by_cases second : HasBlank (behindWord text)
        · simp only [if_neg (not_not.mpr second)] at answer ⊢
          by_cases version : startsWith (ascii "HTTP/1.1") (behindWord (behindWord text))
          · rw [if_pos version] at answer ⊢
            rw [meets_good message _ text answer, matches_iff]
            exact ⟨fun ⟨_, line⟩ => ⟨line.2.2.2.1, line.2.2.2.2.2⟩,
              fun ⟨first, last⟩ => ⟨rfl, blank, found, second, first, rfl, last⟩⟩
          · rw [if_neg version] at answer ⊢
            have outside : ∀ method uri, ¬ Matches text method uri := by
              intro method uri line
              apply version
              rw [((matches_iff ..).mp line).2.2.2.2.2]
              decide
            rw [meets_bad message _ text answer outside]
            exact ⟨fun kept => ⟨kept.1.symm, kept.2.1.symm⟩, fun same => ⟨same.1.symm, same.2.symm, rfl⟩⟩
        · simp only [if_pos second] at answer ⊢
          have outside : ∀ method uri, ¬ Matches text method uri := fun method uri line =>
            second ((matches_iff ..).mp line).2.2.1
          rw [meets_bad message _ text answer outside]
          exact ⟨fun kept => kept.1.symm, fun same => ⟨same.symm, rfl, rfl⟩⟩
  · rw [if_pos blank] at answer
    have outside : ∀ method uri, ¬ Matches text method uri := fun method uri line =>
      blank ((matches_iff ..).mp line).1
    rw [meets_bad message message text answer outside]
    exact ⟨fun _ present => absurd present blank, fun _ => ⟨rfl, rfl, rfl⟩⟩

/-- `GETX / HTTP/1.1` is accepted as a GET. -/
theorem glued_method_accepted :
    ¬ ∀ (message : Message) (text : List UInt8), 0 ∉ text → 13 ∉ text → 10 ∉ text →
      Meets message text := by
  intro all_meet
  have meets := all_meet Message.fresh (ascii "GETX / HTTP/1.1") (by decide) (by decide) (by decide)
  have outside : ¬ ∃ method uri, Matches (ascii "GETX / HTTP/1.1") method uri := by
    rintro ⟨method, uri, line⟩
    have first := ((matches_iff ..).mp line).2.2.2.1
    have word : firstWord (ascii "GETX / HTTP/1.1") = ascii "GETX" := by decide +kernel
    rw [word] at first
    cases method with
    | post => exact absurd first (by decide)
    | get => exact absurd first (by decide)
    | options => exact absurd first (by decide)
    | none => exact absurd first (by decide)
  have refused := (meets.refused outside).1
  exact absurd refused (by decide +kernel)

end OtaMqtt.Http.RequestLine
