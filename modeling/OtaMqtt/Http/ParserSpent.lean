import OtaMqtt.Http.ParserLines

/-! Content mode over a ring whose unread part has already been taken.

`read_by_zero` leaves `m_start_idx` one past `m_end_idx`, whether or not the body was
complete. From there on the parser reads empty strings only. -/

namespace OtaMqtt.Http.ParserSpent

open OtaMqtt.Lib.Execution OtaMqtt.Lib.CText OtaMqtt.Lib.Ring
open OtaMqtt.Http.Buffer OtaMqtt.Http.Parser OtaMqtt.Http.ParserLines

/-- The only change `parse_line` makes to the ring is to store NULs. -/
structure Blanked (before after : HttpBuffer) : Prop where
  start : after.startIdx = before.startIdx
  finish : after.endIdx = before.endIdx
  bytes : ∀ slot, after.buffer slot = before.buffer slot ∨ after.buffer slot = 0

theorem Blanked.refl (ring : HttpBuffer) : Blanked ring ring := ⟨rfl, rfl, fun _ => .inl rfl⟩

theorem Blanked.trans {first second third : HttpBuffer} (left : Blanked first second)
    (right : Blanked second third) : Blanked first third := by
  refine ⟨right.start.trans left.start, right.finish.trans left.finish, fun slot => ?_⟩
  rcases right.bytes slot with same | zero
  · rw [same]
    exact left.bytes slot
  · exact .inr zero

theorem setVal_blanked (ring next : HttpBuffer) (idx : Nat) (done : ring.setVal 0 idx = .ok next) :
    Blanked ring next := by
  obtain ⟨bytes, stored, result⟩ := (bind_eq_ok _ _ _).mp done
  rw [store] at stored
  split at stored
  · cases stored
    cases result
    refine ⟨rfl, rfl, fun slot => ?_⟩
    by_cases here : slot = idx
    · subst here
      exact .inr (Function.update_self ..)
    · exact .inl (Function.update_of_ne here ..)
  · cases stored

theorem scanLine_blanks (endIdx fuel : Nat) (parser parser' : HttpParser) (ring ring' : HttpBuffer)
    (status : LineStatus)
    (done : HttpParser.scanLine endIdx fuel parser ring = .ok (status, parser', ring')) :
    parser'.message = parser.message ∧ Blanked ring ring' := by
  have twice {idx jdx : Nat} {once last : HttpBuffer} (one : ring.setVal 0 idx = .ok once)
      (two : once.setVal 0 jdx = .ok last) : Blanked ring last :=
    (setVal_blanked _ _ _ one).trans (setVal_blanked _ _ _ two)
  induction fuel generalizing parser with
  | zero => cases done
  | succ fuel ih =>
      rw [HttpParser.scanLine] at done
      split at done
      · cases done
        exact ⟨rfl, .refl ring⟩
      · obtain ⟨temp, _, done⟩ := (bind_eq_ok _ _ _).mp done
        split at done
        · obtain ⟨next, _, done⟩ := (bind_eq_ok _ _ _).mp done
          split at done
          · cases done
            exact ⟨rfl, .refl ring⟩
          · obtain ⟨following, _, done⟩ := (bind_eq_ok _ _ _).mp done
            split at done
            · obtain ⟨once, one, done⟩ := (bind_eq_ok _ _ _).mp done
              obtain ⟨last, two, done⟩ := (bind_eq_ok _ _ _).mp done
              obtain ⟨checked, _, done⟩ := (bind_eq_ok _ _ _).mp done
              cases done
              exact ⟨rfl, twice one two⟩
            · cases done
              exact ⟨rfl, .refl ring⟩
        · split at done
          · obtain ⟨before, _, done⟩ := (bind_eq_ok _ _ _).mp done
            split at done
            · cases done
              exact ⟨rfl, .refl ring⟩
            · obtain ⟨byte, _, done⟩ := (bind_eq_ok _ _ _).mp done
              split at done
              · obtain ⟨once, one, done⟩ := (bind_eq_ok _ _ _).mp done
                obtain ⟨last, two, done⟩ := (bind_eq_ok _ _ _).mp done
                obtain ⟨checked, _, done⟩ := (bind_eq_ok _ _ _).mp done
                cases done
                exact ⟨rfl, twice one two⟩
              · cases done
                exact ⟨rfl, .refl ring⟩
          · obtain ⟨checked, _, done⟩ := (bind_eq_ok _ _ _).mp done
            exact ih { parser with checkedIdx := checked } done

/-- Nothing but NULs is found from `m_end_idx` on, and nothing else is left to read. -/
structure Spent (ring : HttpBuffer) : Prop where
  order : ring.endIdx ≤ ring.startIdx
  blank : ∀ slot, ring.endIdx ≤ slot → ring.buffer slot = 0

theorem Spent.blanked {before after : HttpBuffer} (spent : Spent before)
    (change : Blanked before after) : Spent after := by
  refine ⟨?_, fun slot past => ?_⟩
  · rw [change.start, change.finish]
    exact spent.order
  · rcases change.bytes slot with same | zero
    · rw [same]
      exact spent.blank slot (by rw [← change.finish]; exact past)
    · exact zero

theorem readByZero_spent (ring next : HttpBuffer) (data : List UInt8) (spent : Spent ring)
    (done : ring.readByZero = .ok (data, next)) :
    data = [0] ∧ Spent next ∧ next.endIdx < next.startIdx := by
  have counted (size : Nat) (count : ring.countToZero (ring.slots + 1) ring.startIdx 0 = .ok size) :
      size = 0 := by
    rw [HttpBuffer.countToZero] at count
    split at count
    · cases count
      rfl
    · obtain ⟨byte, loaded, count⟩ := (bind_eq_ok _ _ _).mp count
      rw [load] at loaded
      split at loaded
      · rw [spent.blank ring.startIdx spent.order] at loaded
        cases loaded
        cases count
        rfl
      · cases loaded
  obtain ⟨size, count, done⟩ := (bind_eq_ok _ _ _).mp done
  obtain rfl := counted size count
  obtain ⟨bytes, copied, done⟩ := (bind_eq_ok _ _ _).mp done
  obtain ⟨startIdx, moved, done⟩ := (bind_eq_ok _ _ _).mp done
  cases copied
  rw [toInt] at moved
  split at moved
  · cases moved
    cases done
    have order := spent.order
    exact ⟨rfl, ⟨by show ring.endIdx ≤ ring.startIdx + 0 + 1; omega, spent.blank⟩,
      by show ring.endIdx < ring.startIdx + 0 + 1; omega⟩
  · cases moved

/-- Content mode on a text that is too short for the body: a fault, or one more round. -/
theorem parseText_short (parser parser' : HttpParser) (text : List UInt8) (code : HttpCode)
    (content : parser.message.checkState = .content)
    (short : (text.length : Int) ≤ parser.message.contentLength)
    (done : parser.parseText text = .ok (code, parser')) :
    code = .noRequest ∧ parser'.message = parser.message := by
  obtain ⟨line, _, done⟩ := (bind_eq_ok _ _ _).mp done
  simp only [content, HttpParser.parseContent] at done
  split at done
  · cases done
  · split at done
    · rw [if_neg (by omega)] at done
      cases done
    · cases done
      exact ⟨rfl, rfl⟩

theorem processLoop_spent (fuel : Nat) (status : LineStatus) (parser parser' : HttpParser)
    (ring ring' : HttpBuffer) (code : HttpCode) (spent : Spent ring)
    (content : parser.message.checkState = .content) (length : 1 ≤ parser.message.contentLength)
    (strict : status ≠ .ok → ring.endIdx < ring.startIdx)
    (done : HttpParser.processLoop fuel status parser ring = .ok (code, parser', ring')) :
    code = .noRequest ∧ parser'.message = parser.message ∧ Spent ring' ∧
      ring'.endIdx < ring'.startIdx := by
  induction fuel generalizing status parser ring with
  | zero => cases done
  | succ fuel ih =>
      rw [HttpParser.processLoop] at done
      obtain ⟨⟨status₁, parser₁, ring₁⟩, scanned, done⟩ := (bind_eq_ok _ _ _).mp done
      have framed : parser₁.message = parser.message ∧ Blanked ring ring₁ ∧
          (status₁ ≠ .ok → ring.endIdx < ring.startIdx) := by
        rw [HttpParser.nextStatus] at scanned
        split at scanned
        · cases scanned
          exact ⟨rfl, .refl ring, fun bad => absurd rfl bad⟩
        · rename_i other
          obtain ⟨kept, blanked⟩ := scanLine_blanks _ _ _ _ _ _ _ scanned
          exact ⟨kept, blanked, fun _ => strict fun ok => other ⟨content, ok⟩⟩
      obtain ⟨kept, blanked, behind⟩ := framed
      have spent₁ := spent.blanked blanked
      dsimp only at done
      split at done
      · rename_i stopped
        cases done
        refine ⟨rfl, kept, spent₁, ?_⟩
        rw [blanked.start, blanked.finish]
        exact behind stopped
      · rw [← kept] at content length
        obtain ⟨⟨data, ring₂⟩, taken, done⟩ := (bind_eq_ok _ _ _).mp done
        rw [HttpParser.takeText, if_pos content] at taken
        obtain ⟨rfl, spent₂, strict₂⟩ := readByZero_spent ring₁ ring₂ data spent₁ taken
        obtain ⟨⟨code₂, parser₂⟩, parsed, done⟩ := (bind_eq_ok _ _ _).mp done
        obtain ⟨rfl, kept₂⟩ := parseText_short parser₁ parser₂ [0] code₂ content length parsed
        rw [if_pos rfl] at done
        obtain ⟨answer, message, rest⟩ := ih _ parser₂ ring₂ spent₂ (by rw [kept₂]; exact content)
          (by rw [kept₂]; exact length) (fun _ => strict₂) done
        exact ⟨answer, message.trans (kept₂.trans kept), rest⟩

theorem receive_spent (parser parser' : HttpParser) (ring ring' : HttpBuffer) (chunk : List UInt8)
    (code : HttpCode) (spent : Spent ring) (strict : ring.endIdx < ring.startIdx)
    (content : parser.message.checkState = .content) (length : 1 ≤ parser.message.contentLength)
    (done : receive parser ring chunk = .ok (code, parser', ring')) :
    code = .noRequest ∧ parser'.message = parser.message ∧ Spent ring' ∧
      ring'.endIdx < ring'.startIdx := by
  obtain ⟨⟨accepted, filled⟩, wrote, done⟩ := (bind_eq_ok _ _ _).mp done
  obtain ⟨counted, counting, done⟩ := (bind_eq_ok _ _ _).mp done
  have message : counted.message = parser.message := by
    obtain ⟨readIdx, _, result⟩ := (bind_eq_ok _ _ _).mp counting
    cases result
    rfl
  have spent' : Spent filled := by
    rw [HttpBuffer.write, if_neg (by omega)] at wrote
    dsimp only at wrote
    split at wrote
    · cases wrote
      exact spent
    · obtain ⟨bytes, copied, wrote⟩ := (bind_eq_ok _ _ _).mp wrote
      obtain ⟨endIdx, fits, wrote⟩ := (bind_eq_ok _ _ _).mp wrote
      rw [copyIn] at copied
      split at copied
      · cases copied
        rw [toInt] at fits
        split at fits
        · cases fits
          cases wrote
          refine ⟨?_, fun slot past => ?_⟩
          · show ring.endIdx + chunk.length ≤ ring.startIdx
            omega
          · have behind : ring.endIdx + chunk.length ≤ slot := past
            show (if _ then _ else _) = _
            rw [if_neg (by omega)]
            exact spent.blank slot (by omega)
        · cases fits
      · cases copied
  rw [← message] at content length ⊢
  exact processLoop_spent _ _ counted parser' filled ring' code spent' content length
    (fun bad => absurd rfl bad) done

theorem processLoop_part (ring ring' : HttpBuffer) (pos fuel : Nat) (parser parser' : HttpParser)
    (part : List UInt8) (code : HttpCode) (content : parser.message.checkState = .content)
    (holds : Holds ring (fun _ => 0) pos part) (clean : 0 ∉ part)
    (short : (part.length : Int) < parser.message.contentLength)
    (done : HttpParser.processLoop (fuel + 1) .ok parser ring = .ok (code, parser', ring')) :
    code = .noRequest ∧ parser'.message = parser.message ∧ Spent ring' ∧
      ring'.endIdx < ring'.startIdx := by
  have start := holds.start
  have finish := holds.finish
  rw [HttpParser.processLoop, HttpParser.nextStatus, if_pos ⟨content, rfl⟩, ok_bind] at done
  simp only [ne_eq, not_true_eq_false, if_false, HttpParser.takeText, if_pos content,
    readByZero_clean part holds clean, ok_bind] at done
  obtain ⟨⟨code₂, parser₂⟩, parsed, done⟩ := (bind_eq_ok _ _ _).mp done
  obtain ⟨rfl, kept⟩ := parseText_short parser parser₂ _ code₂ content (by simp; omega) parsed
  rw [if_pos rfl] at done
  obtain ⟨startIdx, endIdx, buffer, _⟩ := drained_bounds ring part.length
  have strict : (drained ring part.length).endIdx < (drained ring part.length).startIdx := by
    rw [startIdx, endIdx]
    omega
  have spent : Spent (drained ring part.length) := by
    refine ⟨Nat.le_of_lt strict, fun slot past => ?_⟩
    rw [buffer]
    exact holds.beyond slot (by rw [← finish, ← endIdx]; exact past)
  obtain ⟨answer, message, rest⟩ := processLoop_spent _ _ parser₂ parser' _ ring' code spent
    (by rw [kept]; exact content) (by rw [kept]; omega) (fun _ => strict) done
  exact ⟨answer, message.trans kept, rest⟩

end OtaMqtt.Http.ParserSpent
