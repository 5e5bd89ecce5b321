import Mathlib.Data.List.TakeWhile
import OtaMqtt.Log.Logger

/-! What a formatter writes for an event, and how its pattern was read.

`Reads` is the reading of a pattern without an error, one character or one directive at a time;
`make_sound` and `make_complete` compare it with the constructor of the formatter. -/

namespace OtaMqtt.Log

/-- The members of an event that the items show; `logger` is the name of the event's logger. -/
structure LogEvent where
  file : String
  line : Int32
  elapse : UInt32
  threadId : UInt32
  fiberId : UInt32
  time : UInt64
  threadName : String
  logger : String
  content : String
  deriving DecidableEq, Repr

/-- How many bytes a text takes in a buffer. -/
def bytes (text : List Char) : Nat := (text.map Char.utf8Size).sum

theorem length_le_bytes (text : List Char) : text.length ≤ bytes text := by
  have each : ∀ size ∈ text.map Char.utf8Size, 1 ≤ size := by
    intro size member
    obtain ⟨char, -, rfl⟩ := List.mem_map.mp member
    exact char.utf8Size_pos
  simpa [bytes] using List.card_nsmul_le_sum (text.map Char.utf8Size) 1 each

theorem bytes_ascii {text : List Char} (ascii : ∀ char ∈ text, char.utf8Size = 1) :
    bytes text = text.length := by
  simp [bytes, List.map_congr_left ascii]

/-- What stands in the buffer of 64 bytes after `localtime_r` and `strftime`: a format without
conversions as it is when it fits, and a full date from the year on. -/
structure Strftime where
  shown : String → UInt64 → List Char
  copies : ∀ format time, '%' ∉ format.toList → bytes format.toList < 64 →
    shown format time = format.toList
  fits : ∀ format time, bytes (shown format time) < 64
  year : ∃ time digit rest, shown "%Y-%m-%d %H:%M:%S" time = digit :: rest ∧ digit.isDigit = true

/-- `format` of the classes that derive from `FormatItem`. -/
def FormatItem.format (strftime : Strftime) (level : LogLevel) (event : LogEvent) :
    FormatItem → List Char
  | text string => string.toList
  | message => event.content.toList
  | .level => level.toText.toList
  | elapse => Nat.toDigits 10 event.elapse.toNat
  | name => event.logger.toList
  | newLine => ['\n']
  | dateTime format => strftime.shown format event.time
  | filename => event.file.toList
  | line => (toString event.line.toInt).toList
  | tab => ['\t']
  | fiberId => Nat.toDigits 10 event.fiberId.toNat
  | threadId => Nat.toDigits 10 event.threadId.toNat
  | threadName => event.threadName.toList

def written (strftime : Strftime) (level : LogLevel) (event : LogEvent) (items : List FormatItem) :
    List Char := items.flatMap (FormatItem.format strftime level event)

def LogFormatter.format (formatter : LogFormatter) (strftime : Strftime) (level : LogLevel)
    (event : LogEvent) : List Char := written strftime level event formatter.items

theorem written_cons (strftime : Strftime) (level : LogLevel) (event : LogEvent)
    (item : FormatItem) (items : List FormatItem) :
    written strftime level event (item :: items) =
      item.format strftime level event ++ written strftime level event items := List.flatMap_cons

theorem written_nil (strftime : Strftime) (level : LogLevel) (event : LogEvent) :
    written strftime level event [] = [] := List.flatMap_nil

theorem written_append (strftime : Strftime) (level : LogLevel) (event : LogEvent)
    (items more : List FormatItem) : written strftime level event (items ++ more) =
      written strftime level event items ++ written strftime level event more :=
  List.flatMap_append

def letters : List Char := ['m', 'p', 'r', 'c', 'n', 'd', 'f', 'l', 'T', 'F', 't', 'N']

theorem formatItem_none {key format : String} (other : ∀ letter ∈ letters, key ≠ .ofList [letter]) :
    formatItem key format = none := by
  rw [formatItem, if_neg (other 'm' (by decide)), if_neg (other 'p' (by decide)),
    if_neg (other 'r' (by decide)), if_neg (other 'c' (by decide)), if_neg (other 'n' (by decide)),
    if_neg (other 'd' (by decide)), if_neg (other 'f' (by decide)), if_neg (other 'l' (by decide)),
    if_neg (other 'T' (by decide)), if_neg (other 'F' (by decide)), if_neg (other 't' (by decide)),
    if_neg (other 'N' (by decide))]

theorem formatItem_letter {key format : List Char} {item : FormatItem}
    (registered : formatItem (.ofList key) (.ofList format) = some item) :
    ∃ letter ∈ letters, key = [letter] := by
  by_contra other
  have missing := @formatItem_none (.ofList key) (.ofList format) fun letter member same =>
    other ⟨letter, member, String.ofList_injective same⟩
  rw [missing] at registered
  cases registered

theorem formatItem_some (format : String) :
    ∀ letter ∈ letters, ∃ item, formatItem (.ofList [letter]) format = some item := by
  unfold letters
  simp only [List.forall_mem_cons]
  exact ⟨⟨_, rfl⟩, ⟨_, rfl⟩, ⟨_, rfl⟩, ⟨_, rfl⟩, ⟨_, rfl⟩, ⟨_, rfl⟩, ⟨_, rfl⟩, ⟨_, rfl⟩, ⟨_, rfl⟩,
    ⟨_, rfl⟩, ⟨_, rfl⟩, ⟨_, rfl⟩, by simp⟩

theorem letter_walked (letter : Char) (member : letter ∈ letters) :
    letter.isAlpha = true ∧ letter ≠ '\x7b' ∧ letter ≠ '\x7d' ∧ letter ≠ '%' := by
  have all : letters.all (fun letter => decide (letter.isAlpha = true ∧ letter ≠ '\x7b' ∧
      letter ≠ '\x7d' ∧ letter ≠ '%')) = true := by decide
  exact of_decide_eq_true (List.all_eq_true.mp all letter member)

/-- Nothing that the inner loop walks along comes next. -/
def Stops (rest : List Char) : Prop := ∀ next ∈ rest.head?, walked next = false

def Inside (format : List Char) : Prop := ∀ char ∈ format, walked char = true ∧ char ≠ '\x7d'

/-- A pattern that is read without an error, and the items it gives. -/
inductive Reads : List Char → List FormatItem → Prop
  | done : Reads [] []
  | plain {char : Char} {rest : List Char} {items : List FormatItem} : char ≠ '%' →
      Reads rest items → Reads (char :: rest) (.text (.ofList [char]) :: items)
  | percent {rest : List Char} {items : List FormatItem} : Reads ('%' :: rest) items →
      Reads ('%' :: '%' :: rest) (.text (.ofList ['%']) :: items)
  | bare {letter : Char} {rest : List Char} {item : FormatItem} {items : List FormatItem} :
      formatItem (.ofList [letter]) (.ofList []) = some item → Stops rest → Reads rest items →
      Reads ('%' :: letter :: rest) (item :: items)
  | closed {letter : Char} {format rest : List Char} {item : FormatItem}
      {items : List FormatItem} : formatItem (.ofList [letter]) (.ofList format) = some item →
      Inside format → Reads ('\x7d' :: rest) items →
      Reads ('%' :: letter :: '\x7b' :: (format ++ '\x7d' :: rest)) (item :: items)

theorem scanFormat_cases (str seen text : List Char) :
    (scanFormat str seen text).status = .unclosed ∨
      ∃ format rest, text = format ++ '\x7d' :: rest ∧ Inside format ∧
        scanFormat str seen text = ⟨.closed, str, seen ++ format, '\x7d' :: rest⟩ := by
  induction text generalizing seen with
  | nil => exact .inl rfl
  | cons char text ih =>
      rw [scanFormat]
      by_cases along : walked char = true
      · rw [along, Bool.not_true, if_neg Bool.false_ne_true]
        by_cases closes : char = '\x7d'
        · subst closes
          exact .inr ⟨[], text, rfl, by simp [Inside], by rw [if_pos rfl, List.append_nil]⟩
        · rw [if_neg closes]
          cases ih (seen ++ [char]) with
          | inl unclosed => exact .inl unclosed
          | inr found =>
              obtain ⟨format, rest, rfl, inside, scanned⟩ := found
              refine .inr ⟨char :: format, rest, rfl, ?_, ?_⟩
              · exact List.forall_mem_cons.mpr ⟨⟨along, closes⟩, inside⟩
              · rw [scanned, List.append_assoc, List.singleton_append]
      · rw [Bool.not_eq_true] at along
        rw [along, Bool.not_false, if_pos rfl]
        exact .inl rfl

theorem scanName_cases (seen text : List Char) :
    (scanName seen text).status = .unclosed ∨
    (∃ name rest, text = name ++ rest ∧ Stops rest ∧
      scanName seen text = ⟨.unopened, seen ++ name, [], rest⟩) ∨
    ∃ name format rest, text = name ++ '\x7b' :: (format ++ '\x7d' :: rest) ∧ Inside format ∧
      scanName seen text = ⟨.closed, seen ++ name, format, '\x7d' :: rest⟩ := by
  induction text generalizing seen with
  | nil => exact .inr (.inl ⟨[], [], rfl, by simp [Stops], by rw [List.append_nil]; rfl⟩)
  | cons char text ih =>
      rw [scanName]
      by_cases along : walked char = true
      · rw [along, Bool.not_true, if_neg Bool.false_ne_true]
        by_cases opens : char = '\x7b'
        · subst opens
          rw [if_pos rfl]
          cases scanFormat_cases seen [] text with
          | inl unclosed => exact .inl unclosed
          | inr found =>
              obtain ⟨format, rest, rfl, inside, scanned⟩ := found
              refine .inr (.inr ⟨[], format, rest, rfl, inside, ?_⟩)
              rw [scanned, List.append_nil, List.nil_append]
        · rw [if_neg opens]
          rcases ih (seen ++ [char]) with unclosed | ⟨name, rest, rfl, stops, scanned⟩ |
            ⟨name, format, rest, rfl, inside, scanned⟩
          · exact .inl unclosed
          · refine .inr (.inl ⟨char :: name, rest, rfl, stops, ?_⟩)
            rw [scanned, List.append_assoc, List.singleton_append]
          · refine .inr (.inr ⟨char :: name, format, rest, rfl, inside, ?_⟩)
            rw [scanned, List.append_assoc, List.singleton_append]
      · rw [Bool.not_eq_true] at along
        rw [along, Bool.not_false, if_pos rfl]
        refine .inr (.inl ⟨[], char :: text, rfl, ?_, by rw [List.append_nil]⟩)
        intro next first
        rw [← Option.some.inj first]
        exact along

theorem scanName_bare {letter : Char} {rest : List Char} (member : letter ∈ letters)
    (stops : Stops rest) : scanName [] (letter :: rest) = ⟨.unopened, [letter], [], rest⟩ := by
  obtain ⟨alpha, notOpen, -, -⟩ := letter_walked letter member
  have along : walked letter = true := by rw [walked, alpha]; rfl
  rw [scanName, along, Bool.not_true, if_neg Bool.false_ne_true, if_neg notOpen]
  cases rest with
  | nil => rfl
  | cons next rest => rw [List.nil_append, scanName, stops next rfl, Bool.not_false, if_pos rfl]

theorem scanFormat_closed (str seen rest : List Char) {format : List Char}
    (inside : Inside format) : scanFormat str seen (format ++ '\x7d' :: rest) =
      ⟨.closed, str, seen ++ format, '\x7d' :: rest⟩ := by
  induction format generalizing seen with
  | nil => rw [List.append_nil]; rfl
  | cons char format ih =>
      obtain ⟨⟨along, open'⟩, inside⟩ := List.forall_mem_cons.mp inside
      rw [List.cons_append, scanFormat, along, Bool.not_true, if_neg Bool.false_ne_true,
        if_neg open', ih _ inside, List.append_assoc, List.singleton_append]

theorem scanName_closed {letter : Char} {format : List Char} (rest : List Char)
    (member : letter ∈ letters) (inside : Inside format) :
    scanName [] (letter :: '\x7b' :: (format ++ '\x7d' :: rest)) =
      ⟨.closed, [letter], format, '\x7d' :: rest⟩ := by
  obtain ⟨alpha, notOpen, -, -⟩ := letter_walked letter member
  have along : walked letter = true := by rw [walked, alpha]; rfl
  have brace : walked '\x7b' = true := by decide
  rw [scanName, along, Bool.not_true, if_neg Bool.false_ne_true, if_neg notOpen, scanName, brace,
    Bool.not_true, if_neg Bool.false_ne_true, if_pos rfl, scanFormat_closed _ _ _ inside,
    List.nil_append, List.nil_append]

def itemsOf (vec : List Piece) : List FormatItem := vec.map fun piece => piece.item.1

def Sound (vec : List Piece) : Prop := ∀ piece ∈ vec, piece.item.2 = false

theorem sound_append {vec more : List Piece} : Sound (vec ++ more) ↔ Sound vec ∧ Sound more :=
  List.forall_mem_append

theorem sound_flush {nstr : List Char} {vec : List Piece} : Sound (flush nstr vec) ↔ Sound vec := by
  unfold flush
  split_ifs with empty
  · exact Iff.rfl
  · rw [sound_append]
    exact and_iff_left fun piece member => by rw [List.mem_singleton.mp member]; rfl

theorem written_flush (strftime : Strftime) (level : LogLevel) (event : LogEvent)
    (nstr : List Char) (vec : List Piece) : written strftime level event (itemsOf (flush nstr vec)) =
      written strftime level event (itemsOf vec) ++ nstr := by
  unfold flush
  split_ifs with empty
  · rw [empty, List.append_nil]
  · rw [itemsOf, List.map_append, written_append]
    simp [written, itemsOf, Piece.item, FormatItem.format]

theorem item_sound {str fmt : List Char} (sound : Sound [.directive str fmt]) :
    ∃ item, formatItem (.ofList str) (.ofList fmt) = some item := by
  have registered := sound _ (List.mem_singleton_self _)
  cases found : formatItem (.ofList str) (.ofList fmt) with
  | none =>
      simp only [Piece.item, found] at registered
      cases registered
  | some item => exact ⟨item, rfl⟩

theorem item_found {str fmt : List Char} {item : FormatItem}
    (found : formatItem (.ofList str) (.ofList fmt) = some item) :
    (Piece.directive str fmt).item = (item, false) := by
  rw [Piece.item, found]

theorem sound_directive {str fmt : List Char} {item : FormatItem} {nstr : List Char}
    {vec : List Piece} (found : formatItem (.ofList str) (.ofList fmt) = some item)
    (sound : Sound vec) : Sound (flush nstr vec ++ [.directive str fmt]) := by
  refine sound_append.mpr ⟨sound_flush.mpr sound, fun piece member => ?_⟩
  rw [List.mem_singleton.mp member, item_found found]

theorem written_directive (strftime : Strftime) (level : LogLevel) (event : LogEvent)
    {str fmt : List Char} {item : FormatItem} (nstr : List Char) (vec : List Piece)
    (found : formatItem (.ofList str) (.ofList fmt) = some item) :
    written strftime level event (itemsOf (flush nstr vec ++ [.directive str fmt])) =
      written strftime level event (itemsOf vec) ++ nstr ++ item.format strftime level event := by
  rw [itemsOf, List.map_append, written_append, ← itemsOf, written_flush, List.map_singleton,
    item_found found, written_cons, written_nil, List.append_nil]

theorem pieces_plain {char : Char} (plain : char ≠ '%') (fuel : Nat) (rest nstr : List Char)
    (vec : List Piece) (error : Bool) : pieces (fuel + 1) (char :: rest) nstr vec error =
      pieces fuel rest (nstr ++ [char]) vec error := by
  rw [pieces, if_pos plain]

theorem pieces_percent (fuel : Nat) (rest nstr : List Char) (vec : List Piece) (error : Bool) :
    pieces (fuel + 1) ('%' :: '%' :: rest) nstr vec error =
      pieces fuel ('%' :: rest) (nstr ++ ['%']) vec error := by
  rw [pieces, if_neg (by simp), if_pos (by rfl)]

theorem pieces_bare {letter : Char} {rest : List Char} (member : letter ∈ letters)
    (stops : Stops rest) (fuel : Nat) (nstr : List Char) (vec : List Piece) (error : Bool) :
    pieces (fuel + 1) ('%' :: letter :: rest) nstr vec error =
      pieces fuel rest [] (flush nstr vec ++ [.directive [letter] []]) error := by
  obtain ⟨-, -, -, single⟩ := letter_walked letter member
  rw [pieces, if_neg (by simp), if_neg (by simpa using single)]
  simp only [scanName_bare member stops]

theorem pieces_closed {letter : Char} {format : List Char} (member : letter ∈ letters)
    (inside : Inside format) (fuel : Nat) (rest nstr : List Char) (vec : List Piece)
    (error : Bool) :
    pieces (fuel + 1) ('%' :: letter :: '\x7b' :: (format ++ '\x7d' :: rest)) nstr vec error =
      pieces fuel ('\x7d' :: rest) [] (flush nstr vec ++ [.directive [letter] format]) error := by
  obtain ⟨-, -, -, single⟩ := letter_walked letter member
  rw [pieces, if_neg (by simp), if_neg (by simpa using single)]
  simp only [scanName_closed rest member inside]

theorem pieces_sound {fuel : Nat} {text nstr : List Char} {vec out : List Piece} {error : Bool}
    (enough : text.length ≤ fuel) (run : pieces fuel text nstr vec error = (out, false))
    (sound : Sound out) : error = false ∧ Sound vec ∧ ∃ items, Reads text items := by
  induction fuel generalizing text nstr vec error with
  | zero =>
      have done : text = [] := List.length_eq_zero_iff.mp (Nat.le_zero.mp enough)
      subst done
      obtain ⟨rfl, rfl⟩ := Prod.mk.inj run
      exact ⟨rfl, sound_flush.mp sound, [], .done⟩
  | succ fuel ih =>
      cases text with
      | nil =>
          obtain ⟨rfl, rfl⟩ := Prod.mk.inj run
          exact ⟨rfl, sound_flush.mp sound, [], .done⟩
      | cons char rest =>
          have short : rest.length ≤ fuel := Nat.le_of_succ_le_succ enough
          by_cases plain : char ≠ '%'
          · rw [pieces_plain plain] at run
            obtain ⟨clear, before, items, reads⟩ := ih short run
            exact ⟨clear, before, _, .plain plain reads⟩
          · obtain rfl := not_not.mp plain
            rw [pieces, if_neg plain] at run
            by_cases double : rest.head? = some '%'
            · rw [if_pos double] at run
              obtain ⟨clear, before, items, reads⟩ := ih short run
              obtain ⟨rest, rfl⟩ := List.head?_eq_some_iff.mp double
              exact ⟨clear, before, _, .percent reads⟩
            · rw [if_neg double] at run
              rcases scanName_cases [] rest with unclosed | ⟨name, behind, rfl, stops, scanned⟩ |
                ⟨name, format, behind, rfl, inside, scanned⟩
              · simp only [unclosed] at run
                cases (ih short run).1
              · simp only [scanned] at run
                rw [List.length_append] at short
                obtain ⟨clear, both, items, reads⟩ := ih (by omega) run
                obtain ⟨before, directive⟩ := sound_append.mp both
                obtain ⟨item, found⟩ := item_sound directive
                obtain ⟨letter, -, rfl⟩ := formatItem_letter found
                exact ⟨clear, sound_flush.mp before, _, .bare found stops reads⟩
              · simp only [scanned] at run
                simp only [List.length_append, List.length_cons] at short
                obtain ⟨clear, both, items, reads⟩ := ih (by rw [List.length_cons]; omega) run
                obtain ⟨before, directive⟩ := sound_append.mp both
                obtain ⟨item, found⟩ := item_sound directive
                obtain ⟨letter, -, rfl⟩ := formatItem_letter found
                exact ⟨clear, sound_flush.mp before, _, .closed found inside reads⟩

theorem pieces_complete {text : List Char} {items : List FormatItem} (reads : Reads text items)
    {fuel : Nat} (enough : text.length ≤ fuel) (nstr : List Char) (vec : List Piece) (error : Bool) :
    ∃ out, pieces fuel text nstr vec error = (out, error) ∧ (Sound vec → Sound out) ∧
      ∀ strftime level event, written strftime level event (itemsOf out) =
        written strftime level event (itemsOf vec) ++ nstr ++ written strftime level event items := by
  induction reads generalizing fuel nstr vec with
  | done =>
      refine ⟨flush nstr vec, ?_, sound_flush.mpr, ?_⟩
      · cases fuel <;> rfl
      · intro strftime level event
        exact (written_flush ..).trans (List.append_nil _).symm
  | @plain char rest items plain _ ih =>
      obtain ⟨fuel, rfl⟩ := Nat.exists_eq_add_one_of_ne_zero (Nat.ne_zero_of_lt enough)
      obtain ⟨out, run, sound, shown⟩ := ih (Nat.le_of_succ_le_succ enough) (nstr ++ [char]) vec
      refine ⟨out, (pieces_plain plain ..).trans run, sound, fun strftime level event => ?_⟩
      rw [shown, written_cons, FormatItem.format, String.toList_ofList]
      simp only [List.append_assoc]
  | @percent rest items _ ih =>
      obtain ⟨fuel, rfl⟩ := Nat.exists_eq_add_one_of_ne_zero (Nat.ne_zero_of_lt enough)
      obtain ⟨out, run, sound, shown⟩ := ih (Nat.le_of_succ_le_succ enough) (nstr ++ ['%']) vec
      refine ⟨out, (pieces_percent ..).trans run, sound, fun strftime level event => ?_⟩
      rw [shown, written_cons, FormatItem.format, String.toList_ofList]
      simp only [List.append_assoc]
  | @bare letter rest item items found stops _ ih =>
      obtain ⟨_, member, same⟩ := formatItem_letter found
      obtain rfl := (List.cons.inj same).1
      obtain ⟨fuel, rfl⟩ := Nat.exists_eq_add_one_of_ne_zero (Nat.ne_zero_of_lt enough)
      simp only [List.length_cons] at enough
      obtain ⟨out, run, sound, shown⟩ := ih (by omega : rest.length ≤ fuel) []
        (flush nstr vec ++ [.directive [letter] []])
      refine ⟨out, (pieces_bare member stops ..).trans run,
        fun before => sound (sound_directive found before), fun strftime level event => ?_⟩
      rw [shown, written_directive strftime level event nstr vec found, written_cons]
      simp only [List.append_assoc, List.nil_append]
  | @closed letter format rest item items found inside _ ih =>
      obtain ⟨_, member, same⟩ := formatItem_letter found
      obtain rfl := (List.cons.inj same).1
      obtain ⟨fuel, rfl⟩ := Nat.exists_eq_add_one_of_ne_zero (Nat.ne_zero_of_lt enough)
      simp only [List.length_cons, List.length_append] at enough
      obtain ⟨out, run, sound, shown⟩ := ih (by rw [List.length_cons]; omega : _ ≤ fuel) []
        (flush nstr vec ++ [.directive [letter] format])
      refine ⟨out, (pieces_closed member inside ..).trans run,
        fun before => sound (sound_directive found before), fun strftime level event => ?_⟩
      rw [shown, written_directive strftime level event nstr vec found, written_cons]
      simp only [List.append_assoc, List.nil_append]

theorem make_error_iff (pattern : String) :
    (LogFormatter.make pattern).error = false ↔ ∃ items, Reads pattern.toList items := by
  unfold LogFormatter.make
  rw [Bool.or_eq_false_iff, List.any_eq_false]
  constructor
  · rintro ⟨clear, sound⟩
    have run : pieces pattern.toList.length pattern.toList [] [] false =
        ((pieces pattern.toList.length pattern.toList [] [] false).1, false) :=
      Prod.ext rfl clear
    exact (pieces_sound (Nat.le_refl _) run fun piece member => by simpa using sound piece member).2.2
  · rintro ⟨items, reads⟩
    obtain ⟨out, run, sound, -⟩ := pieces_complete reads (Nat.le_refl _) [] [] false
    rw [run]
    exact ⟨rfl, fun piece member => by simp [sound (by simp [Sound]) piece member]⟩

theorem make_format {pattern : String} {items : List FormatItem} (reads : Reads pattern.toList items)
    (strftime : Strftime) (level : LogLevel) (event : LogEvent) :
    (LogFormatter.make pattern).format strftime level event = written strftime level event items := by
  obtain ⟨out, run, -, shown⟩ := pieces_complete reads (Nat.le_refl _) [] [] false
  rw [LogFormatter.format, LogFormatter.make, run]
  exact shown strftime level event

end OtaMqtt.Log
