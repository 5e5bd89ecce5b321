import OtaMqtt.Lib.Delimited
import OtaMqtt.Log.Formatting

/-! The grammar of the log patterns against the reading of them.

The second sign of an escape is read again as the start of a directive, and a closing brace is
read again as a character. The reading therefore writes a percent sign or a brace more than the
grammar asks for, or takes the letter behind an escape for a directive. -/

namespace OtaMqtt.Log.Patterns

open OtaMqtt.Lib.Delimited

inductive Token where
  | literal (char : Char)
  | escape
  | directive (letter : Char)
  | braced (letter : Char) (fmt : List Char)
  deriving DecidableEq, Repr

def Token.text : Token → List Char
  | literal char => [char]
  | escape => ['%', '%']
  | directive letter => ['%', letter]
  | braced letter fmt => '%' :: letter :: '\x7b' :: (fmt ++ ['\x7d'])

def spelled (tokens : List Token) : List Char := tokens.flatMap Token.text

def Token.Legal (behind : List Char) : Token → Prop
  | literal char => char ≠ '%'
  | escape => True
  | directive letter => letter ∈ letters ∧ Stops behind
  | braced letter fmt => letter ∈ letters ∧ '\x7d' ∉ fmt

inductive Legal : List Token → Prop
  | nil : Legal []
  | cons {token : Token} {tokens : List Token} : token.Legal (spelled tokens) → Legal tokens →
      Legal (token :: tokens)

def rendered (strftime : Strftime) (level : LogLevel) (event : LogEvent) (letter : Char)
    (fmt : List Char) : List Char :=
  match formatItem (.ofList [letter]) (.ofList fmt) with
  | some item => item.format strftime level event
  | none => []

def Token.meaning (strftime : Strftime) (level : LogLevel) (event : LogEvent) : Token → List Char
  | literal char => [char]
  | escape => ['%']
  | directive letter => rendered strftime level event letter []
  | braced letter fmt => rendered strftime level event letter fmt

def meant (strftime : Strftime) (level : LogLevel) (event : LogEvent) (tokens : List Token) :
    List Char := tokens.flatMap (Token.meaning strftime level event)

/-- A percent sign whose brace stays open to the end, or whose letters have no item. -/
def Faulty (behind : List Char) : Prop :=
  behind.head? ≠ some '%' ∧
    ((∃ name fmt, behind = name ++ '\x7b' :: fmt ∧ (∀ char ∈ name, char.isAlpha = true) ∧
      '\x7d' ∉ fmt) ∨
    ∀ letter ∈ letters, behind.takeWhile Char.isAlpha ≠ [letter])

/-- The grammar of the patterns: tokens are read and shown as what they mean, and a faulty
directive behind tokens is reported. -/
structure Implements (strftime : Strftime) (pattern : String) : Prop where
  tokens : ∀ tokens, Legal tokens → pattern.toList = spelled tokens →
    (LogFormatter.make pattern).error = false ∧
    ∀ level event, (LogFormatter.make pattern).format strftime level event =
      meant strftime level event tokens
  faults : ∀ tokens behind, Legal tokens → pattern.toList = spelled tokens ++ '%' :: behind →
    Faulty behind → (LogFormatter.make pattern).error = true

def Token.Bare : Token → Prop
  | literal _ => True
  | directive _ => True
  | escape => False
  | braced _ _ => False

theorem spelled_cons (token : Token) (tokens : List Token) :
    spelled (token :: tokens) = token.text ++ spelled tokens := List.flatMap_cons

theorem meant_cons (strftime : Strftime) (level : LogLevel) (event : LogEvent) (token : Token)
    (tokens : List Token) : meant strftime level event (token :: tokens) =
      token.meaning strftime level event ++ meant strftime level event tokens :=
  List.flatMap_cons

theorem rendered_found (strftime : Strftime) (level : LogLevel) (event : LogEvent) {letter : Char}
    {fmt : List Char} {item : FormatItem}
    (found : formatItem (.ofList [letter]) (.ofList fmt) = some item) :
    rendered strftime level event letter fmt = item.format strftime level event := by
  rw [rendered, found]

theorem reads_bare {tokens : List Token} (legal : Legal tokens)
    (bare : ∀ token ∈ tokens, token.Bare) : ∃ items, Reads (spelled tokens) items ∧
      ∀ strftime level event,
        written strftime level event items = meant strftime level event tokens := by
  induction legal with
  | nil => exact ⟨[], .done, fun _ _ _ => rfl⟩
  | @cons token tokens allowed legal ih =>
      obtain ⟨first, bare⟩ := List.forall_mem_cons.mp bare
      obtain ⟨items, reads, shown⟩ := ih bare
      cases token with
      | literal char =>
          refine ⟨_, .plain allowed reads, fun strftime level event => ?_⟩
          rw [written_cons, meant_cons, shown, FormatItem.format, String.toList_ofList]
          rfl
      | directive letter =>
          obtain ⟨item, found⟩ := formatItem_some (.ofList []) letter allowed.1
          refine ⟨_, .bare found allowed.2 reads, fun strftime level event => ?_⟩
          rw [written_cons, meant_cons, shown, Token.meaning, rendered_found _ _ _ found]
      | escape => cases first
      | braced letter fmt => cases first

def marks (text : List Char) : Nat := text.countP fun char => char = '%' || char = '\x7d'

theorem marks_append (text more : List Char) : marks (text ++ more) = marks text + marks more :=
  List.countP_append

/-- One when a percent sign that is left over in front of the tokens is shown. -/
def leftover : List Token → Nat
  | .literal _ :: _ => 0
  | _ => 1

def surplus : List Token → Nat
  | [] => 0
  | .literal _ :: tokens => surplus tokens
  | .escape :: tokens => leftover tokens + surplus tokens
  | .directive _ :: tokens => surplus tokens
  | .braced _ _ :: tokens => surplus tokens + 1

def Opens (rest : List Char) : Prop := rest = [] ∨ ∃ behind, rest = '%' :: behind

theorem literals_of_plain {tokens : List Token} {stretch rest behind : List Char}
    (legal : Legal tokens) (opens : Opens rest) (plain : '%' ∉ stretch)
    (same : spelled tokens ++ rest = stretch ++ behind) : ∃ tokens', Legal tokens' ∧
      tokens = stretch.map Token.literal ++ tokens' ∧ behind = spelled tokens' ++ rest := by
  induction stretch generalizing tokens with
  | nil => exact ⟨tokens, legal, rfl, same.symm⟩
  | cons char stretch ih =>
      obtain ⟨apart, others⟩ := not_or.mp (mt List.mem_cons.mpr plain)
      cases legal with
      | nil =>
          rcases opens with rfl | ⟨_, rfl⟩
          · cases same
          · exact absurd (List.cons.inj same).1 apart
      | @cons token tokens allowed legal =>
          cases token with
          | literal letter =>
              obtain ⟨rfl, tails⟩ := List.cons.inj same
              obtain ⟨tokens', legal', rfl, rest⟩ := ih legal others tails
              exact ⟨tokens', legal', rfl, rest⟩
          | escape => exact absurd (List.cons.inj same).1 apart
          | directive letter => exact absurd (List.cons.inj same).1 apart
          | braced letter fmt => exact absurd (List.cons.inj same).1 apart

theorem reads_char {char : Char} {rest : List Char} {items : List FormatItem} (plain : char ≠ '%')
    (reads : Reads (char :: rest) items) :
    ∃ items', items = .text (.ofList [char]) :: items' ∧ Reads rest items' := by
  cases reads with
  | plain _ reads => exact ⟨_, rfl, reads⟩
  | percent => exact absurd rfl plain
  | bare => exact absurd rfl plain
  | closed => exact absurd rfl plain

theorem reads_percent {rest : List Char} {items : List FormatItem}
    (reads : Reads ('%' :: rest) items) :
    (∃ items', items = .text (.ofList ['%']) :: items' ∧ rest.head? = some '%' ∧
      Reads rest items') ∨
    (∃ letter item rest' items', letter ∈ letters ∧ rest = letter :: rest' ∧
      formatItem (.ofList [letter]) (.ofList []) = some item ∧ Stops rest' ∧
      items = item :: items' ∧ Reads rest' items') ∨
    ∃ letter item format rest' items', letter ∈ letters ∧
      rest = letter :: '\x7b' :: (format ++ '\x7d' :: rest') ∧
      formatItem (.ofList [letter]) (.ofList format) = some item ∧ Inside format ∧
      items = item :: .text (.ofList ['\x7d']) :: items' ∧ Reads rest' items' := by
  cases reads with
  | plain plain => exact absurd rfl plain
  | percent reads => exact .inl ⟨_, rfl, rfl, reads⟩
  | bare found stops reads =>
      obtain ⟨_, member, same⟩ := formatItem_letter found
      obtain rfl := (List.cons.inj same).1
      exact .inr (.inl ⟨_, _, _, _, member, rfl, found, stops, rfl, reads⟩)
  | closed found inside reads =>
      obtain ⟨_, member, same⟩ := formatItem_letter found
      obtain rfl := (List.cons.inj same).1
      obtain ⟨items', rfl, behind⟩ := reads_char (by decide) reads
      exact .inr (.inr ⟨_, _, _, _, _, member, rfl, found, inside, rfl, behind⟩)

theorem reads_escape {rest : List Char} {items : List FormatItem}
    (reads : Reads ('%' :: '%' :: rest) items) :
    ∃ items', items = .text (.ofList ['%']) :: items' ∧ Reads ('%' :: rest) items' := by
  rcases reads_percent reads with ⟨items', shown, -, after⟩ | ⟨_, _, _, _, member, same, -⟩ |
    ⟨_, _, _, _, _, member, same, -⟩
  · exact ⟨items', shown, after⟩
  · exact absurd (List.cons.inj same).1.symm (letter_walked _ member).2.2.2
  · exact absurd (List.cons.inj same).1.symm (letter_walked _ member).2.2.2

theorem reads_directive {letter : Char} {rest : List Char} {items : List FormatItem}
    (member : letter ∈ letters) (stops : Stops rest) (reads : Reads ('%' :: letter :: rest) items) :
    ∃ item items', items = item :: items' ∧
      formatItem (.ofList [letter]) (.ofList []) = some item ∧ Reads rest items' := by
  rcases reads_percent reads with ⟨_, -, double, -⟩ | ⟨_, item, _, items', -, same, found, -, shown, after⟩ |
    ⟨_, _, _, _, _, -, same, -⟩
  · exact absurd (Option.some.inj double) (letter_walked _ member).2.2.2
  · obtain ⟨rfl, rfl⟩ := List.cons.inj same
    exact ⟨item, items', shown, found, after⟩
  · rw [(List.cons.inj same).2] at stops
    cases stops '\x7b' rfl

theorem reads_braced {letter : Char} {fmt rest : List Char} {items : List FormatItem}
    (member : letter ∈ letters) (free : '\x7d' ∉ fmt)
    (reads : Reads ('%' :: letter :: '\x7b' :: (fmt ++ '\x7d' :: rest)) items) :
    ∃ item items', items = item :: .text (.ofList ['\x7d']) :: items' ∧
      formatItem (.ofList [letter]) (.ofList fmt) = some item ∧ Reads rest items' := by
  rcases reads_percent reads with ⟨_, -, double, -⟩ | ⟨_, _, _, _, -, same, -, stops, -⟩ |
    ⟨_, item, _, _, items', -, same, found, inside, shown, after⟩
  · exact absurd (Option.some.inj double) (letter_walked _ member).2.2.2
  · rw [← (List.cons.inj same).2] at stops
    cases stops '\x7b' rfl
  · obtain ⟨rfl, tails⟩ := List.cons.inj same
    obtain ⟨rfl, rfl⟩ := split_first free (fun within => (inside _ within).2 rfl)
      (List.cons.inj tails).2
    exact ⟨item, items', shown, found, after⟩

theorem marks_brace (strftime : Strftime) (level : LogLevel) (event : LogEvent) :
    marks (FormatItem.format strftime level event (.text (.ofList ['\x7d']))) = 1 := by
  rw [FormatItem.format, String.toList_ofList]
  rfl

theorem surplus_literals (stretch : List Char) (tokens : List Token) :
    surplus (stretch.map Token.literal ++ tokens) = surplus tokens := by
  induction stretch with
  | nil => rfl
  | cons char stretch ih => rw [List.map_cons, List.cons_append, surplus, ih]

theorem meant_literals (strftime : Strftime) (level : LogLevel) (event : LogEvent)
    (stretch : List Char) (tokens : List Token) :
    meant strftime level event (stretch.map Token.literal ++ tokens) =
      stretch ++ meant strftime level event tokens := by
  induction stretch with
  | nil => rfl
  | cons char stretch ih => rw [List.map_cons, List.cons_append, meant_cons, ih]; rfl

theorem marks_inside {format : List Char} (inside : Inside format) : marks format = 0 := by
  rw [marks, List.countP_eq_zero]
  intro char member
  obtain ⟨along, apart⟩ := inside char member
  have plain : char ≠ '%' := by
    rintro rfl
    cases along
  simp [apart, plain]

theorem marks_letter (letter : Char) (member : letter ∈ letters) : marks [letter] = 0 := by
  obtain ⟨-, -, close, sign⟩ := letter_walked letter member
  simp [marks, close, sign]

section
variable (strftime : Strftime) (level : LogLevel) (event : LogEvent) (rest : List Char)

/-- Whatever reads the tokens behind the front reads on where they end, and shows at least the
marks that they mean, their surplus and some extra. -/
def Covers (front : List Char) (extra : Nat) (tokens : List Token) : Prop :=
  ∀ items, Reads (front ++ (spelled tokens ++ rest)) items → ∃ items', Reads rest items' ∧
    marks (meant strftime level event tokens) + surplus tokens + extra +
      marks (written strftime level event items') ≤ marks (written strftime level event items)

variable {strftime level event rest}

theorem covers_pending (opens : Opens rest) {tokens : List Token} (legal : Legal tokens)
    (first : ∀ tokens', Legal tokens' → tokens'.length ≤ tokens.length →
      Covers strftime level event rest [] 0 tokens') :
    Covers strftime level event rest ['%'] (leftover tokens) tokens := by
  intro items reads
  rcases reads_percent reads with ⟨items', rfl, -, reads⟩ |
    ⟨letter, item, rest', items', member, same, found, -, rfl, reads⟩ |
    ⟨letter, item, format, rest', items', member, same, found, inside, rfl, reads⟩
  · obtain ⟨items'', behind, bound⟩ := first tokens legal (Nat.le_refl _) items' reads
    refine ⟨items'', behind, ?_⟩
    have one : leftover tokens ≤ 1 := by
      unfold leftover
      split <;> decide
    have sign : marks (FormatItem.format strftime level event (.text (.ofList ['%']))) = 1 := by
      rw [FormatItem.format, String.toList_ofList]
      rfl
    rw [written_cons, marks_append, sign]
    omega
  · obtain ⟨-, -, -, apart⟩ := letter_walked letter member
    obtain ⟨tokens', legal', rfl, rfl⟩ := @literals_of_plain tokens [letter] rest rest' legal opens
      (by simpa using apart.symm) same
    obtain ⟨items'', behind, bound⟩ := first tokens' legal' (Nat.le_succ _) items' reads
    refine ⟨items'', behind, ?_⟩
    rw [meant_literals, surplus_literals, marks_append, marks_letter letter member, written_cons,
      marks_append, List.map_singleton, List.singleton_append, leftover]
    omega
  · obtain ⟨-, -, -, apart⟩ := letter_walked letter member
    have plain : '%' ∉ letter :: '\x7b' :: (format ++ ['\x7d']) := by
      have outside : '%' ∉ format := fun within => by cases (inside _ within).1
      simp [apart.symm, outside]
    obtain ⟨tokens', legal', rfl, rfl⟩ := literals_of_plain legal opens plain
      (same.trans (by simp) : _ = _ ++ rest')
    have shorter : tokens'.length ≤ (List.map Token.literal
        (letter :: '\x7b' :: (format ++ ['\x7d'])) ++ tokens').length := by
      rw [List.length_append]
      exact Nat.le_add_left _ _
    obtain ⟨items'', behind, bound⟩ := first tokens' legal' shorter items' reads
    refine ⟨items'', behind, ?_⟩
    have stretch : marks (letter :: '\x7b' :: (format ++ ['\x7d'])) = 1 := by
      rw [← List.singleton_append, marks_append, marks_letter letter member,
        ← List.singleton_append, marks_append, marks_append, marks_inside inside]
      rfl
    rw [meant_literals, surplus_literals, marks_append, stretch, written_cons, written_cons,
      marks_append, marks_append, marks_brace, List.map_cons, List.cons_append, leftover]
    omega

theorem stops_append {behind : List Char} (opens : Opens rest) (stops : Stops behind) :
    Stops (behind ++ rest) := by
  intro next first
  cases behind with
  | nil =>
      rcases opens with rfl | ⟨_, rfl⟩
      · cases first
      · rw [← Option.some.inj first]
        decide
  | cons char behind => exact stops next first

theorem covers_tokens (opens : Opens rest) (count : Nat) {tokens : List Token}
    (small : tokens.length ≤ count) (legal : Legal tokens) :
    Covers strftime level event rest [] 0 tokens := by
  induction count generalizing tokens with
  | zero =>
      obtain rfl := List.length_eq_zero_iff.mp (Nat.le_zero.mp small)
      exact fun items reads => ⟨items, reads, by simp [meant, surplus, marks]⟩
  | succ count ih =>
      cases legal with
      | nil => exact fun items reads => ⟨items, reads, by simp [meant, surplus, marks]⟩
      | @cons token tokens allowed legal =>
          have short : tokens.length ≤ count := Nat.le_of_succ_le_succ small
          intro items reads
          rw [List.nil_append, spelled_cons, List.append_assoc] at reads
          rw [meant_cons, marks_append]
          cases token with
          | literal char =>
              obtain ⟨items', rfl, after⟩ := reads_char allowed reads
              obtain ⟨items'', behind, bound⟩ := ih short legal items' after
              refine ⟨items'', behind, ?_⟩
              rw [written_cons, marks_append, FormatItem.format, String.toList_ofList,
                Token.meaning, surplus]
              omega
          | escape =>
              obtain ⟨items', rfl, after⟩ := reads_escape reads
              have pending : Covers strftime level event rest ['%'] (leftover tokens) tokens :=
                covers_pending opens legal fun tokens' legal' shorter =>
                  ih (shorter.trans short) legal'
              obtain ⟨items'', behind, bound⟩ := pending items' after
              refine ⟨items'', behind, ?_⟩
              rw [written_cons, marks_append, FormatItem.format, String.toList_ofList,
                Token.meaning, surplus]
              omega
          | directive letter =>
              obtain ⟨item, items', rfl, found, after⟩ :=
                reads_directive allowed.1 (stops_append opens allowed.2) reads
              obtain ⟨items'', behind, bound⟩ := ih short legal items' after
              refine ⟨items'', behind, ?_⟩
              rw [written_cons, marks_append, Token.meaning, rendered_found _ _ _ found, surplus]
              omega
          | braced letter fmt =>
              simp only [Token.text, List.cons_append, List.append_assoc, List.nil_append] at reads
              obtain ⟨item, items', rfl, found, after⟩ := reads_braced allowed.1 allowed.2 reads
              obtain ⟨items'', behind, bound⟩ := ih short legal items' after
              refine ⟨items'', behind, ?_⟩
              rw [written_cons, written_cons, marks_append, marks_append, marks_brace,
                Token.meaning, rendered_found _ _ _ found, surplus]
              omega

end

theorem faulty_unread {behind : List Char} (faulty : Faulty behind) (items : List FormatItem) :
    ¬ Reads ('%' :: behind) items := by
  intro reads
  obtain ⟨single, fault⟩ := faulty
  rcases reads_percent reads with ⟨_, -, double, -⟩ | ⟨letter, _, rest, _, member, rfl, -, stops, -⟩ |
    ⟨letter, _, format, rest, _, member, rfl, -, inside, -⟩
  · exact single double
  · obtain ⟨alpha, notOpen, -, -⟩ := letter_walked letter member
    rcases fault with ⟨name, fmt, same, alphas, -⟩ | other
    · cases name with
      | nil => exact notOpen (List.cons.inj same).1
      | cons first name =>
          rw [(List.cons.inj same).2] at stops
          cases name with
          | nil => cases stops '\x7b' rfl
          | cons second name =>
              have along := stops second rfl
              rw [walked, alphas second (by simp)] at along
              cases along
    · apply other letter member
      rw [List.takeWhile_cons_of_pos alpha]
      cases rest with
      | nil => rfl
      | cons next rest =>
          have halt := stops next rfl
          have notAlpha : ¬ next.isAlpha = true := by
            intro next_alpha
            rw [walked, next_alpha] at halt
            cases halt
          rw [List.takeWhile_cons_of_neg notAlpha]
  · obtain ⟨alpha, notOpen, -, -⟩ := letter_walked letter member
    rcases fault with ⟨name, fmt, same, alphas, free⟩ | other
    · have close : '\x7d' ∈ letter :: '\x7b' :: (format ++ '\x7d' :: rest) := by simp
      rw [same, List.mem_append, List.mem_cons] at close
      rcases close with within | opening | within
      · cases alphas _ within
      · cases opening
      · exact free within
    · apply other letter member
      rw [List.takeWhile_cons_of_pos alpha, List.takeWhile_cons_of_neg (by decide)]

theorem telling_event (strftime : Strftime) : ∃ event : LogEvent, ∀ letter ∈ letters,
    ∀ format item, formatItem (.ofList [letter]) (.ofList format) = some item →
      (letter = 'd' → format = []) →
      ∃ char rest, item.format strftime .info event = char :: rest ∧ char ≠ letter := by
  obtain ⟨time, digit, date, shown, isDigit⟩ := strftime.year
  refine ⟨⟨"?", 0, 0, 0, 0, time, "?", "?", "?"⟩, fun letter member format item found empty => ?_⟩
  have zero : (toString (0 : Int32).toInt).toList = ['0'] := by decide
  simp only [letters, List.mem_cons, List.not_mem_nil, or_false] at member
  rcases member with rfl | rfl | rfl | rfl | rfl | rfl | rfl | rfl | rfl | rfl | rfl | rfl
  · cases found
    exact ⟨'?', [], by simp [FormatItem.format], by decide⟩
  · cases found
    exact ⟨'I', ['N', 'F', 'O'], rfl, by decide⟩
  · cases found
    exact ⟨'0', [], by simp [FormatItem.format], by decide⟩
  · cases found
    exact ⟨'?', [], by simp [FormatItem.format], by decide⟩
  · cases found
    exact ⟨'\n', [], rfl, by decide⟩
  · obtain rfl := empty rfl
    obtain rfl : FormatItem.dateTime "%Y-%m-%d %H:%M:%S" = item := Option.some.inj found
    refine ⟨digit, date, shown, ?_⟩
    rintro rfl
    cases isDigit
  · cases found
    exact ⟨'?', [], by simp [FormatItem.format], by decide⟩
  · cases found
    exact ⟨'0', [], zero, by decide⟩
  · cases found
    exact ⟨'\t', [], rfl, by decide⟩
  · cases found
    exact ⟨'0', [], by simp [FormatItem.format], by decide⟩
  · cases found
    exact ⟨'0', [], by simp [FormatItem.format], by decide⟩
  · cases found
    exact ⟨'?', [], by simp [FormatItem.format], by decide⟩

theorem walked_narrow {char : Char} (letter : walked char = true) : char.utf8Size = 1 := by
  have brace : '\x7d'.utf8Size = 1 ∧ '\x7b'.utf8Size = 1 := by decide
  simp only [walked, Bool.or_eq_true, decide_eq_true_eq] at letter
  rcases letter with (alpha | rfl) | rfl
  · have either : (char.isUpper || char.isLower) = true := alpha
    have upper : 'Z'.val.toNat ≤ 127 ∧ 'z'.val.toNat ≤ 127 := by decide
    have low : char.val.toNat ≤ 127 := by
      rcases (Bool.or_eq_true ..).mp either with capital | small
      · have between : char.val ≥ 'A'.val ∧ char.val ≤ 'Z'.val := of_decide_eq_true capital
        exact (UInt32.le_iff_toNat_le.mp between.2).trans upper.1
      · have between : (decide (char.val ≥ 'a'.val) && decide (char.val ≤ 'z'.val)) = true := small
        have last : char.val ≤ 'z'.val := of_decide_eq_true ((Bool.and_eq_true ..).mp between).2
        exact (UInt32.le_iff_toNat_le.mp last).trans upper.2
    rw [Char.utf8Size_eq_one_iff]
    exact UInt32.le_iff_toNat_le.mpr low
  · exact brace.1
  · exact brace.2

theorem date_short (strftime : Strftime) (level : LogLevel) (event : LogEvent) {format : List Char}
    {item : FormatItem} (inside : Inside format) (filled : format ≠ [])
    (found : formatItem (.ofList ['d']) (.ofList format) = some item) :
    (item.format strftime level event).length ≤ format.length := by
  have given : String.ofList format ≠ "" := fun empty => filled (String.ofList_injective empty)
  obtain rfl : FormatItem.dateTime (.ofList format) = item := by
    have date : formatItem (.ofList ['d']) (.ofList format) = some (FormatItem.dateTime
        (if String.ofList format = "" then "%Y-%m-%d %H:%M:%S" else .ofList format)) := rfl
    rw [date, if_neg given] at found
    exact Option.some.inj found
  have plain : '%' ∉ (String.ofList format).toList := by
    rw [String.toList_ofList]
    exact fun within => by cases (inside _ within).1
  have narrow : bytes format = format.length := bytes_ascii fun char member =>
    walked_narrow (inside char member).1
  rw [FormatItem.format]
  by_cases short : bytes (String.ofList format).toList < 64
  · rw [strftime.copies _ _ plain short, String.toList_ofList]
  · have bound := strftime.fits (.ofList format) event.time
    have shown := length_le_bytes (strftime.shown (.ofList format) event.time)
    rw [String.toList_ofList] at short
    omega

theorem short_apart {shown format more behind : List Char} (short : shown.length ≤ format.length)
    (inside : Inside format) : shown ++ (['\x7d'] ++ more) ≠
      'd' :: '\x7b' :: (format ++ ['\x7d']) ++ behind := by
  intro same
  have there := congrArg (fun text => text[shown.length]?) same
  have left : (shown ++ (['\x7d'] ++ more))[shown.length]? = some '\x7d' := by simp
  have cut : 'd' :: '\x7b' :: (format ++ ['\x7d']) ++ behind =
      ('d' :: '\x7b' :: format) ++ (['\x7d'] ++ behind) := by simp
  have within : shown.length < ('d' :: '\x7b' :: format).length := by
    simp only [List.length_cons]
    omega
  simp only [left, cut, List.getElem?_append_left within] at there
  have member := List.mem_of_getElem? there.symm
  simp only [List.mem_cons, Char.reduceEq, false_or] at member
  exact (inside _ member).2 rfl

/-- Behind an escape that takes a literal for a directive something else is written. -/
theorem escape_tells (strftime : Strftime) {tokens : List Token} {items : List FormatItem}
    (legal : Legal tokens) (taken : leftover tokens = 0) (reads : Reads ('%' :: spelled tokens) items) :
    ∃ event, written strftime .info event items ≠ meant strftime .info event tokens := by
  obtain ⟨event, telling⟩ := telling_event strftime
  refine ⟨event, fun same => ?_⟩
  cases legal with
  | nil => cases taken
  | @cons token tokens allowed legal =>
      cases token with
      | literal char =>
          rcases reads_percent reads with ⟨_, -, double, -⟩ |
            ⟨letter, item, _, items', member, spelling, found, -, rfl, -⟩ |
            ⟨letter, item, format, rest, items', member, spelling, found, inside, rfl, -⟩
          · exact allowed (Option.some.inj double)
          · obtain rfl : char = letter := (List.cons.inj spelling).1
            obtain ⟨first, rest, shown, apart⟩ := telling char member [] item found fun _ => rfl
            rw [written_cons, shown] at same
            exact apart (List.cons.inj same).1
          · obtain rfl : char = letter := (List.cons.inj spelling).1
            by_cases dated : char = 'd' → format = []
            · obtain ⟨first, rest, shown, apart⟩ := telling char member format item found dated
              rw [written_cons, shown] at same
              exact apart (List.cons.inj same).1
            · obtain ⟨rfl, filled⟩ := Classical.not_imp.mp dated
              have plain : '%' ∉ 'd' :: '\x7b' :: (format ++ ['\x7d']) := by
                have outside : '%' ∉ format := fun within => by cases (inside _ within).1
                simp [outside]
              have stretch : spelled (.literal 'd' :: tokens) ++ [] =
                  'd' :: '\x7b' :: (format ++ ['\x7d']) ++ rest := by
                rw [List.append_nil, spelling]
                simp
              obtain ⟨tokens', -, rows, -⟩ :=
                literals_of_plain (.cons allowed legal) (.inl rfl) plain stretch
              rw [rows, meant_literals, written_cons, written_cons, FormatItem.format,
                String.toList_ofList] at same
              exact short_apart (date_short strftime .info event inside filled found) inside same
      | escape => cases taken
      | directive letter => cases taken
      | braced letter fmt => cases taken

theorem bare_of_shown (strftime : Strftime) {tokens : List Token} {items : List FormatItem}
    (legal : Legal tokens) (exact' : surplus tokens = 0) (reads : Reads (spelled tokens) items)
    (shown : ∀ level event,
      written strftime level event items = meant strftime level event tokens) :
    ∀ token ∈ tokens, token.Bare := by
  induction legal generalizing items with
  | nil => exact fun token member => absurd member (List.not_mem_nil)
  | @cons token tokens allowed legal ih =>
      rw [spelled_cons] at reads
      rw [List.forall_mem_cons]
      cases token with
      | literal char =>
          obtain ⟨items', rfl, after⟩ := reads_char allowed reads
          refine ⟨trivial, ih exact' after fun level event => ?_⟩
          have same := shown level event
          rw [written_cons, meant_cons, FormatItem.format, String.toList_ofList] at same
          exact List.append_cancel_left same
      | directive letter =>
          obtain ⟨item, items', rfl, found, after⟩ := reads_directive allowed.1 allowed.2 reads
          refine ⟨trivial, ih exact' after fun level event => ?_⟩
          have same := shown level event
          rw [written_cons, meant_cons, Token.meaning, rendered_found _ _ _ found] at same
          exact List.append_cancel_left same
      | escape =>
          obtain ⟨items', rfl, after⟩ := reads_escape reads
          obtain ⟨event, apart⟩ := escape_tells strftime legal (Nat.eq_zero_of_add_eq_zero exact').1 after
          have same := shown .info event
          rw [written_cons, meant_cons, FormatItem.format, String.toList_ofList] at same
          exact absurd (List.append_cancel_left same) apart
      | braced letter fmt => cases exact'

/-- Directives behind a percent sign that is a fault are reported, whatever stands in front. -/
theorem faults_reported {pattern : String} {tokens : List Token} {behind : List Char}
    (strftime : Strftime) (legal : Legal tokens)
    (spelling : pattern.toList = spelled tokens ++ '%' :: behind) (faulty : Faulty behind) :
    (LogFormatter.make pattern).error = true := by
  by_contra clear
  obtain ⟨items, reads⟩ := (make_error_iff pattern).mp (Bool.eq_false_of_not_eq_true clear)
  rw [spelling] at reads
  have opens : Opens ('%' :: behind) := .inr ⟨behind, rfl⟩
  obtain ⟨items', after, -⟩ := @covers_tokens strftime .info ⟨"", 0, 0, 0, 0, 0, "", "", ""⟩ _ opens
    _ _ (Nat.le_refl _) legal items reads
  exact faulty_unread faulty items' after

/-- The grammar is implemented exactly for the patterns without escapes and braces. -/
theorem implements_iff_bare (strftime : Strftime) (pattern : String) :
    Implements strftime pattern ↔ ∀ tokens, Legal tokens → pattern.toList = spelled tokens →
      ∀ token ∈ tokens, token.Bare := by
  constructor
  · intro implements tokens legal spelling
    obtain ⟨clear, shown⟩ := implements.tokens tokens legal spelling
    obtain ⟨items, reads⟩ := (make_error_iff pattern).mp clear
    have written_meant : ∀ level event,
        written strftime level event items = meant strftime level event tokens :=
      fun level event => (make_format reads strftime level event).symm.trans (shown level event)
    rw [spelling] at reads
    have covers := @covers_tokens strftime .info ⟨"", 0, 0, 0, 0, 0, "", "", ""⟩ [] (.inl rfl) _ _
      (Nat.le_refl _) legal items (by rwa [List.nil_append, List.append_nil])
    obtain ⟨items', -, bound⟩ := covers
    rw [written_meant] at bound
    exact bare_of_shown strftime legal (by omega) reads written_meant
  · intro bare
    constructor
    · intro tokens legal spelling
      obtain ⟨items, reads, shown⟩ := reads_bare legal (bare tokens legal spelling)
      rw [← spelling] at reads
      refine ⟨(make_error_iff pattern).mpr ⟨items, reads⟩, fun level event => ?_⟩
      rw [make_format reads, shown]
    · intro tokens behind legal spelling faulty
      exact faults_reported strftime legal spelling faulty

/-- A buffer that keeps a format that fits, and one date. -/
def epoch : Strftime where
  shown format _ := if format = "%Y-%m-%d %H:%M:%S" then "1970-01-01 00:00:00".toList
    else if bytes format.toList < 64 then format.toList else []
  copies format _ plain short := by
    have other : format ≠ "%Y-%m-%d %H:%M:%S" := by
      rintro rfl
      exact plain (by decide)
    rw [if_neg other, if_pos short]
  fits format _ := by
    split_ifs with date short
    · decide
    · exact short
    · decide
  year := ⟨0, '1', "970-01-01 00:00:00".toList, by decide, by decide⟩

/-- A percentage with its sign escaped is refused. -/
theorem percentage_refused : ¬ ∀ strftime pattern, Implements strftime pattern := by
  intro every
  have legal : Legal [.literal '1', .escape] :=
    .cons (by decide : '1' ≠ '%') (.cons trivial .nil)
  have accepted := ((every epoch "1%%").tokens _ legal (by decide)).1
  exact absurd accepted (by decide)

end OtaMqtt.Log.Patterns
