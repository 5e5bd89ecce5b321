import OtaMqtt.Http.Segments

/-! Several requests over one connection, each delivered whole. -/

namespace OtaMqtt.Http.KeepAlive

open OtaMqtt.Lib.Execution OtaMqtt.Lib.CText OtaMqtt.Lib.Refinement
open OtaMqtt.Http.Buffer OtaMqtt.Http.Parser OtaMqtt.Http.ParserLines OtaMqtt.Http.Requests
open OtaMqtt.Http.ParserRuns OtaMqtt.Http.ParserSpent OtaMqtt.Http.Segments

def method (request : Request) : HttpMethod :=
  if request.verb = ascii "GET" then .get
  else if request.verb = ascii "POST" then .post
  else if request.verb = ascii "OPTIONS" then .options
  else .none

structure Ordinary (request : Request) : Prop extends WellFormed request where
  named : method request ≠ .none
  current : request.version = ascii "HTTP/1.1"

def expected (request : Request) : Report :=
  ⟨.getRequest, method request, request.uri, request.body⟩

/-- A request that a fresh parser can report: no refused `Content-type`, and a body only
behind a length field that the parser can read. -/
structure Understood (request : Request) : Prop where
  accepted : ∀ line ∈ request.headers, refused line = false
  sized : request.body ≠ [] → request.headers.any legible = true

/-- What one connection can carry: requests the parser understands, all with the method
and uri of the first, and a body in the last one only. -/
structure Carried (requests : List Request) : Prop where
  understood : ∀ request ∈ requests, Understood request
  alike : ∀ first ∈ requests.head?, ∀ request ∈ requests,
    method request = method first ∧ request.uri = first.uri
  bodies : ∀ request ∈ requests.dropLast, request.body = []

theorem verb_cases (request : Request) (named : method request ≠ .none) :
    request.verb = ascii "GET" ∨ request.verb = ascii "POST" ∨ request.verb = ascii "OPTIONS" := by
  unfold method at named
  by_contra other
  simp only [not_or] at other
  rw [if_neg other.1, if_neg other.2.1, if_neg other.2.2] at named
  exact named rfl

theorem methodOf_named (request : Request) (named : method request ≠ .none) :
    methodOf request.verb = some (method request) := by
  unfold method
  rcases verb_cases request named with verb | verb | verb <;> rw [verb] <;> decide

theorem parseHeaders_requestLine (message : Message) (request : Request)
    (named : method request ≠ .none) :
    message.parseHeaders request.requestLine = (.noRequest, message) := by
  unfold Request.requestLine
  rcases verb_cases request named with verb | verb | verb <;> rw [verb] <;> rfl

/-- The parser between two requests; after the first, it stays in header mode. -/
structure Idle (connection : Connection) (junk : Nat → UInt8) (pos : Nat) : Prop where
  holds : Holds connection.2 junk pos []
  checked : connection.1.checkedIdx = pos
  read : connection.1.readIdx = pos
  reading : connection.1.message.checkState ≠ .content

structure Begun (message : Message) (request : Request) (begun : Message) : Prop where
  absorbed : absorb message request.requestLine = (.noRequest, begun)
  header : begun.checkState = .header
  unset : begun.contentLength = 0
  bodiless : begun.requestBody = []

theorem begun_fresh (request : Request) (shaped : Shaped request) (named : method request ≠ .none)
    (current : request.version = ascii "HTTP/1.1") :
    Begun Message.fresh request
      { Message.fresh with checkState := .header, method := method request, uri := request.uri } where
  absorbed := by
    have parsed := parseRequestLine_words Message.fresh request shaped
    rw [methodOf_named request named, current] at parsed
    exact parsed
  header := rfl
  unset := rfl
  bodiless := rfl

theorem begun_again (message : Message) (request : Request) (ordinary : Ordinary request)
    (header : message.checkState = .header) (unset : message.contentLength = 0)
    (bodiless : message.requestBody = []) : Begun message request message where
  absorbed := by
    rw [absorb_header message _ header]
    exact parseHeaders_requestLine message request ordinary.named
  header := header
  unset := unset
  bodiless := bodiless

/-- Where an accepted request leaves the parser: idle again without a body, on a spent ring
behind one. -/
structure LeftBy (connection : Connection) (junk : Nat → UInt8) (pos : Nat) (request : Request)
    (begun : Message) (next : Connection) : Prop where
  again : request.body = [] → next.2.capacity = connection.2.capacity ∧
    Idle next junk (pos + request.encode.length) ∧ next.1.message.checkState = .header ∧
    next.1.message.contentLength = 0 ∧ next.1.message.requestBody = [] ∧
    next.1.message.method = begun.method ∧ next.1.message.uri = begun.uri
  spoilt : request.body ≠ [] → request.headers.any legible = true → (∀ slot, junk slot = 0) →
    next.1.message.checkState = .content ∧ 1 ≤ next.1.message.contentLength ∧
    Spent next.2 ∧ next.2.endIdx < next.2.startIdx

section
variable {connection : Connection} {junk : Nat → UInt8} {pos : Nat} {request : Request}
  {begun : Message}

theorem deliver_head (shaped : Shaped request) (idle : Idle connection junk pos)
    (start : Begun connection.1.message request begun)
    (fits : pos + request.encode.length < connection.2.capacity)
    (calm after : List (List UInt8)) (last : List UInt8)
    (split : request.headers ++ [[]] = calm ++ [last] ++ after) (quiet : Calm begun calm) :
    ∃ fuel parser ring, ring.capacity = connection.2.capacity ∧
      Holds ring junk (pos + (encodeLines (request.requestLine :: (calm ++ [last]))).length)
        (encodeLines after ++ request.body) ∧
      parser.message = (absorb (absorbAll begun calm) last).2 ∧
      parser.checkedIdx = pos + (encodeLines (request.requestLine :: (calm ++ [last]))).length ∧
      parser.readIdx = pos + (encodeLines (request.requestLine :: (calm ++ [last]))).length +
        (encodeLines after ++ request.body).length ∧
      receive connection.1 connection.2 request.encode =
        if (absorb (absorbAll begun calm) last).1 = .noRequest then
          HttpParser.processLoop (fuel + 1) .ok parser ring
        else .ok ((absorb (absorbAll begun calm) last).1, parser, ring) := by
  have encoded : request.encode =
      encodeLines (request.requestLine :: (calm ++ [last])) ++ (encodeLines after ++ request.body) := by
    rw [Request.encode, Request.lines, List.cons_append, split, ← List.cons_append,
      encodeLines_append, List.append_assoc]
  have waiting : Waiting connection.1 connection.2 junk pos request.requestLine [] :=
    ⟨idle.holds, List.nil_prefix, by simp, by simp [idle.checked], by simp [idle.read]⟩
  have plain : ∀ line ∈ request.requestLine :: (calm ++ [last]), Plain line := by
    intro line member
    apply lines_plain request shaped
    rw [Request.lines, List.cons_append, split]
    simp only [List.mem_cons, List.mem_append] at member ⊢
    tauto
  have calmly : Calm connection.1.message (request.requestLine :: calm) := by
    refine ⟨idle.reading, ?_, ?_⟩
    · rw [start.absorbed]
    · rw [start.absorbed]
      exact quiet
  have absorbed : absorbAll connection.1.message (request.requestLine :: calm) =
      absorbAll begun calm := by
    show absorbAll (absorb connection.1.message request.requestLine).2 calm = _
    rw [start.absorbed]
  obtain ⟨fuel, parser, ring, capacity, holds, message, checked, read, received⟩ :=
    receive_last connection.1 connection.2 pos request.requestLine [] request.encode last
      (encodeLines after ++ request.body) (calm ++ [last]) (request.requestLine :: calm) waiting rfl
      calmly plain encoded (by simpa using fits)
  rw [absorbed] at message received
  exact ⟨fuel, parser, ring, capacity, holds, message, checked, read, received⟩

theorem deliver_refused (ordinary : Ordinary request) (idle : Idle connection junk pos)
    (start : Begun connection.1.message request begun)
    (fits : pos + request.encode.length < connection.2.capacity)
    (refusal : ∃ line ∈ request.headers, refused line = true) :
    ∃ reply next, deliver connection request.encode = .ok (reply, next) ∧
      reply.code = .badRequest := by
  obtain ⟨calm, last, after, shape, split, quiet, outcome⟩ :=
    decidingHeaders_shape begun request.headers start.header
      (fun line member => (ordinary.headers line member).1)
  rcases outcome with bad | ⟨_, _, _, accepted⟩
  · rw [shape] at split
    obtain ⟨fuel, parser, ring, _, _, _, _, _, received⟩ :=
      deliver_head ordinary.shaped idle start fits calm after last split quiet
    rw [if_neg (by rw [bad]; decide), bad] at received
    exact ⟨report .badRequest parser.message, (parser, ring), by rw [deliver, received]; rfl, rfl⟩
  · obtain ⟨line, member, refusal⟩ := refusal
    rw [accepted line member] at refusal
    cases refusal

theorem announced_none (request : Request) (silent : request.announced = 0) :
    (if request.headers.any legible then request.body else []) = [] := by
  unfold Request.announced at silent
  split at silent
  · rw [List.length_eq_zero_iff.mp silent]
    split <;> rfl
  · rename_i other
    rw [if_neg other]

theorem announced_some (request : Request) (loud : request.announced ≠ 0) :
    request.headers.any legible = true ∧ request.announced = request.body.length := by
  have sized : request.headers.any legible = true := by
    unfold Request.announced at loud
    by_contra unread
    rw [if_neg unread] at loud
    exact loud rfl
  refine ⟨sized, ?_⟩
  unfold Request.announced
  rw [if_pos sized]

def headSize (request : Request) : Nat :=
  (encodeLines (request.requestLine :: (request.headers ++ [[]]))).length

theorem encode_length (request : Request) :
    request.encode.length = headSize request + request.body.length := by
  rw [headSize, Request.encode, Request.lines, List.cons_append, List.length_append]

structure AtBody (connection : Connection) (junk : Nat → UInt8) (pos : Nat) (request : Request)
    (parser : HttpParser) (ring : HttpBuffer) : Prop where
  capacity : ring.capacity = connection.2.capacity
  holds : Holds ring junk (pos + headSize request) request.body
  checked : parser.checkedIdx = pos + headSize request
  read : parser.readIdx = pos + headSize request + request.body.length

/-- The head of a request whose header lines are all accepted: without a length the request
is complete with it, and with one the body comes next. -/
theorem deliver_headers (shaped : Shaped request) (idle : Idle connection junk pos)
    (start : Begun connection.1.message request begun)
    (fits : pos + request.encode.length < connection.2.capacity)
    (accepted : ∀ line ∈ request.headers, refused line = false)
    (length : (absorbAll begun request.headers).contentLength = request.announced) :
    Keeps begun (absorbAll begun request.headers) ∧
      ∃ fuel parser ring, AtBody connection junk pos request parser ring ∧
        ((request.announced = 0 ∧ parser.message = absorbAll begun request.headers ∧
            receive connection.1 connection.2 request.encode = .ok (.getRequest, parser, ring)) ∨
          (request.announced ≠ 0 ∧
            parser.message = { absorbAll begun request.headers with checkState := .content } ∧
            receive connection.1 connection.2 request.encode =
              HttpParser.processLoop (fuel + 1) .ok parser ring)) := by
  have fine : ∀ line ∈ request.headers, line ≠ [] ∧ refused line = false :=
    fun line member => ⟨(shaped.headers line member).1, accepted line member⟩
  obtain ⟨quiet, keeps⟩ := absorbAll_headers begun request.headers start.header fine
  obtain ⟨fuel, parser, ring, capacity, holds, message, checked, read, received⟩ :=
    deliver_head shaped idle start fits request.headers [] [] (by simp) quiet
  refine ⟨keeps, fuel, parser, ring, ⟨capacity, holds, checked, read⟩, ?_⟩
  have blank : absorb (absorbAll begun request.headers) [] =
      if (request.announced : Int) ≠ 0 then
        (.noRequest, { absorbAll begun request.headers with checkState := .content })
      else (.getRequest, absorbAll begun request.headers) := by
    rw [absorb_header _ _ (keeps.checkState.trans start.header), ← length]
    rfl
  by_cases silent : request.announced = 0
  · rw [if_neg (by simp [silent])] at blank
    rw [blank] at message received
    exact .inl ⟨silent, message, received⟩
  · rw [if_pos (by exact_mod_cast silent)] at blank
    rw [blank] at message received
    exact .inr ⟨silent, message, received⟩

theorem leftBy_silent {parser : HttpParser} {ring : HttpBuffer}
    (atBody : AtBody connection junk pos request parser ring)
    (start : Begun connection.1.message request begun)
    (keeps : Keeps begun (absorbAll begun request.headers))
    (length : (absorbAll begun request.headers).contentLength = request.announced)
    (silent : request.announced = 0) (message : parser.message = absorbAll begun request.headers) :
    LeftBy connection junk pos request begun (parser, ring) where
  again := by
    intro empty
    have total := encode_length request
    rw [empty, List.length_nil, Nat.add_zero] at total
    obtain ⟨capacity, holds, checked, read⟩ := atBody
    rw [empty] at holds read
    rw [← total] at holds checked read
    refine ⟨capacity, ⟨holds, checked, read, ?_⟩, ?_, ?_, ?_, ?_, ?_⟩
    · rw [message, keeps.checkState, start.header]
      decide
    · rw [message, keeps.checkState, start.header]
    · rw [message, length, silent]
      rfl
    · rw [message, keeps.requestBody, start.bodiless]
    · rw [message, keeps.method]
    · rw [message, keeps.uri]
  spoilt := by
    intro nonempty sized _
    unfold Request.announced at silent
    rw [if_pos sized] at silent
    exact absurd (List.length_eq_zero_iff.mp silent) nonempty

theorem leftBy_sized {parser : HttpParser} {ring : HttpBuffer} (nonempty : request.body ≠ [])
    (atBody : AtBody connection junk pos request parser ring)
    (content : parser.message.checkState = .content)
    (stated : parser.message.contentLength = request.body.length) :
    LeftBy connection junk pos request begun ({ parser with
        startLine := pos + headSize request,
        message := { parser.message with requestBody := request.body } },
      drained ring request.body.length) where
  again := fun empty => absurd empty nonempty
  spoilt := by
    intro _ _ zero
    obtain ⟨startIdx, endIdx, buffer, _⟩ := drained_bounds ring request.body.length
    have positive := List.length_pos_iff.mpr nonempty
    have first := atBody.holds.start
    have last := atBody.holds.finish
    have strict : (drained ring request.body.length).endIdx <
        (drained ring request.body.length).startIdx := by
      rw [startIdx, endIdx]
      omega
    refine ⟨content, by show 1 ≤ parser.message.contentLength; omega,
      ⟨Nat.le_of_lt strict, fun slot past => ?_⟩, strict⟩
    show (drained ring request.body.length).buffer slot = 0
    rw [buffer, ← zero slot]
    exact atBody.holds.beyond slot (by rw [← last, ← endIdx]; exact past)

theorem deliver_measured (shaped : Shaped request) (idle : Idle connection junk pos)
    (start : Begun connection.1.message request begun)
    (fits : pos + request.encode.length < connection.2.capacity)
    (accepted : ∀ line ∈ request.headers, refused line = false)
    (length : (absorbAll begun request.headers).contentLength = request.announced) :
    ∃ next, deliver connection request.encode = .ok (⟨.getRequest, begun.method, begun.uri,
        if request.headers.any legible then request.body else []⟩, next) ∧
      LeftBy connection junk pos request begun next := by
  obtain ⟨keeps, fuel, parser, ring, atBody, outcome⟩ :=
    deliver_headers shaped idle start fits accepted length
  rcases outcome with ⟨silent, message, received⟩ | ⟨loud, message, received⟩
  · refine ⟨(parser, ring), ?_, leftBy_silent atBody start keeps length silent message⟩
    rw [deliver, received, announced_none request silent, ok_bind]
    simp only [report, message, keeps.method, keeps.uri, keeps.requestBody, start.bodiless]
  · obtain ⟨sized, known⟩ := announced_some request loud
    have content : parser.message.checkState = .content := by rw [message]
    have stated : parser.message.contentLength = request.body.length := by
      rw [message, ← known]
      exact length
    have nonempty : request.body ≠ [] := by
      intro empty
      rw [known, empty] at loud
      exact loud rfl
    have finished := processLoop_body ring junk _ fuel parser request.body content atBody.holds
      shaped.body atBody.checked stated (Nat.le_of_eq atBody.read.symm)
    refine ⟨_, ?_, leftBy_sized nonempty atBody content stated⟩
    rw [deliver, received, finished, ok_bind]
    simp only [report, message, keeps.method, keeps.uri, if_pos sized]

theorem body_bound (idle : Idle connection junk pos)
    (fits : pos + request.encode.length < connection.2.capacity) :
    request.body.length < 2 ^ 31 := by
  have bound := idle.holds.capacity
  rw [Request.encode, List.length_append] at fits
  omega

theorem deliver_accepted (ordinary : Ordinary request) (idle : Idle connection junk pos)
    (start : Begun connection.1.message request begun)
    (fits : pos + request.encode.length < connection.2.capacity)
    (accepted : ∀ line ∈ request.headers, refused line = false) :
    ∃ next, deliver connection request.encode = .ok (⟨.getRequest, begun.method, begun.uri,
        if request.headers.any legible then request.body else []⟩, next) ∧
      LeftBy connection junk pos request begun next :=
  deliver_measured ordinary.shaped idle start fits accepted
    (absorbAll_announced begun request ordinary.toWellFormed start.header start.unset accepted
      (body_bound idle fits))

theorem understood_of_delivered (ordinary : Ordinary request) (idle : Idle connection junk pos)
    (start : Begun connection.1.message request begun)
    (fits : pos + request.encode.length < connection.2.capacity) (next : Connection)
    (delivered : deliver connection request.encode = .ok (expected request, next)) :
    Understood request ∧ method request = begun.method ∧ request.uri = begun.uri := by
  have accepted : ∀ line ∈ request.headers, refused line = false := by
    by_contra refusal
    push Not at refusal
    obtain ⟨line, member, refusal⟩ := refusal
    obtain ⟨reply, other, delivered', bad⟩ := deliver_refused ordinary idle start fits
      ⟨line, member, by simpa using refusal⟩
    obtain ⟨rfl, _⟩ := Prod.mk.inj (Except.ok.inj (delivered.symm.trans delivered'))
    cases bad
  obtain ⟨other, delivered', _⟩ := deliver_accepted ordinary idle start fits accepted
  obtain ⟨same, _⟩ := Prod.mk.inj (Except.ok.inj (delivered.symm.trans delivered'))
  obtain ⟨_, method', uri', body⟩ := Report.mk.inj same
  refine ⟨⟨accepted, fun nonempty => ?_⟩, method', uri'⟩
  by_contra unread
  rw [if_neg unread] at body
  exact nonempty body

end

theorem answers_of_carried (rest : List Request) (request : Request) (connection : Connection)
    (junk : Nat → UInt8) (pos : Nat) (begun : Message) (idle : Idle connection junk pos)
    (start : Begun connection.1.message request begun)
    (ordinary : ∀ other ∈ request :: rest, Ordinary other)
    (fits : pos + ((request :: rest).map Request.encode).flatten.length < connection.2.capacity)
    (understood : ∀ other ∈ request :: rest, Understood other)
    (alike : ∀ other ∈ request :: rest, method other = begun.method ∧ other.uri = begun.uri)
    (bodies : ∀ other ∈ (request :: rest).dropLast, other.body = []) :
    answers deliver connection ((request :: rest).map Request.encode) =
      .ok ((request :: rest).map expected) := by
  induction rest generalizing request connection pos begun with
  | nil =>
      have known := understood request List.mem_cons_self
      have same := alike request List.mem_cons_self
      obtain ⟨next, delivered, _, _⟩ := deliver_accepted (ordinary request List.mem_cons_self) idle start
        (by simpa using fits) known.accepted
      have body : (if request.headers.any legible then request.body else []) = request.body := by
        by_cases empty : request.body = []
        · rw [empty, ite_self]
        · rw [if_pos (known.sized empty)]
      rw [body, ← same.1, ← same.2] at delivered
      exact (answers_cons _ _ _ _ _).mpr ⟨_, next, [], delivered, rfl, rfl⟩
  | cons second rest ih =>
      have known := understood request List.mem_cons_self
      have same := alike request List.mem_cons_self
      have empty := bodies request (by simp)
      have later := ordinary second (by simp)
      rw [List.map_cons, List.flatten_cons, List.length_append, ← Nat.add_assoc] at fits
      obtain ⟨next, delivered, again, _⟩ := deliver_accepted (ordinary request List.mem_cons_self) idle
        start (by omega) known.accepted
      obtain ⟨capacity, idle', header, unset, bodiless, method', uri'⟩ := again empty
      have body : (if request.headers.any legible then request.body else []) = request.body := by
        rw [empty, ite_self]
      rw [body, ← same.1, ← same.2] at delivered
      have replied := ih second next (pos + request.encode.length) next.1.message idle'
        (begun_again next.1.message second later header unset bodiless)
        (fun other member => ordinary other (List.mem_cons_of_mem _ member))
        (by rw [capacity]; exact fits)
        (fun other member => understood other (List.mem_cons_of_mem _ member))
        (fun other member => by
          rw [method', uri']
          exact alike other (List.mem_cons_of_mem _ member))
        (fun other member => bodies other (List.mem_cons_of_mem _ member))
      exact (answers_cons _ _ _ _ _).mpr ⟨_, next, _, delivered, replied, rfl⟩

theorem carried_of_answers (rest : List Request) (request : Request) (connection : Connection)
    (pos : Nat) (begun : Message) (idle : Idle connection (fun _ => 0) pos)
    (start : Begun connection.1.message request begun)
    (ordinary : ∀ other ∈ request :: rest, Ordinary other)
    (fits : pos + ((request :: rest).map Request.encode).flatten.length < connection.2.capacity)
    (replied : answers deliver connection ((request :: rest).map Request.encode) =
      .ok ((request :: rest).map expected)) :
    (∀ other ∈ request :: rest, Understood other) ∧
      (∀ other ∈ request :: rest, method other = begun.method ∧ other.uri = begun.uri) ∧
      ∀ other ∈ (request :: rest).dropLast, other.body = [] := by
  induction rest generalizing request connection pos begun with
  | nil =>
      obtain ⟨reply, next, later, delivered, _, same⟩ := (answers_cons _ _ _ _ _).mp replied
      obtain rfl : expected request = reply := (List.cons.inj same).1
      obtain ⟨known, alike⟩ := understood_of_delivered (ordinary request List.mem_cons_self) idle start
        (by simpa using fits) next delivered
      exact ⟨by simpa using known, by simpa using alike, by simp⟩
  | cons second rest ih =>
      rw [List.map_cons, List.flatten_cons, List.length_append, ← Nat.add_assoc] at fits
      obtain ⟨reply, next, later, delivered, replied', same⟩ := (answers_cons _ _ _ _ _).mp replied
      obtain ⟨rfl, rfl⟩ := List.cons.inj same
      have head := ordinary request List.mem_cons_self
      obtain ⟨known, alike⟩ := understood_of_delivered head idle start (by omega) next delivered
      obtain ⟨next', delivered', again, spoilt⟩ := deliver_accepted head idle start (by omega)
        known.accepted
      obtain ⟨_, rfl⟩ := Prod.mk.inj (Except.ok.inj (delivered.symm.trans delivered'))
      have empty : request.body = [] := by
        by_contra nonempty
        obtain ⟨content, length, spent, strict⟩ := spoilt nonempty (known.sized nonempty) (fun _ => rfl)
        have silent := spent_answers _ next _ content length spent strict replied' (expected second)
          List.mem_cons_self
        cases silent
      obtain ⟨capacity, idle', header, unset, bodiless, method', uri'⟩ := again empty
      obtain ⟨knownRest, alikeRest, bodies⟩ := ih second next (pos + request.encode.length)
        next.1.message idle' (begun_again next.1.message second (ordinary second (by simp)) header unset
          bodiless)
        (fun other member => ordinary other (List.mem_cons_of_mem _ member))
        (by rw [capacity]; exact fits) replied'
      rw [method', uri'] at alikeRest
      exact ⟨List.forall_mem_cons.mpr ⟨known, knownRest⟩, List.forall_mem_cons.mpr ⟨alike, alikeRest⟩,
        List.forall_mem_cons.mpr ⟨empty, bodies⟩⟩

theorem opened_idle (capacity : Nat) (junk : Nat → UInt8) (positive : 0 < capacity)
    (bound : capacity < 2 ^ 31) : Idle (opened capacity junk) junk 0 where
  holds := fresh_holds capacity junk positive bound
  checked := rfl
  read := rfl
  reading := by
    show CheckState.requestLine ≠ .content
    decide

/-- Requests delivered one after another over one connection are all reported with their
own method, uri and body exactly when the connection can carry them. -/
theorem reports_expected_iff_carried (requests : List Request) (capacity : Nat)
    (ordinary : ∀ request ∈ requests, Ordinary request)
    (fits : (requests.map Request.encode).flatten.length < capacity) (bound : capacity < 2 ^ 31) :
    (∀ junk, reports capacity junk (requests.map Request.encode) = .ok (requests.map expected)) ↔
      Carried requests := by
  cases requests with
  | nil => exact ⟨fun _ => ⟨by simp, by simp, by simp⟩, fun _ _ => rfl⟩
  | cons first rest =>
      have idle (junk : Nat → UInt8) := opened_idle capacity junk (Nat.zero_lt_of_lt fits) bound
      have start := begun_fresh first (ordinary first List.mem_cons_self).shaped
        (ordinary first List.mem_cons_self).named (ordinary first List.mem_cons_self).current
      constructor
      · intro answered
        obtain ⟨understood, alike, bodies⟩ := carried_of_answers rest first _ 0 _ (idle _) start ordinary
          (by rw [Nat.zero_add]; exact fits) (answered _)
        refine ⟨understood, ?_, bodies⟩
        intro other same request member
        obtain rfl : first = other := by simpa using same
        exact alike request member
      · intro carried junk
        exact answers_of_carried rest first _ junk 0 _ (idle junk) start ordinary
          (by rw [Nat.zero_add]; exact fits) carried.understood
          (fun other member => carried.alike first rfl other member) carried.bodies

def got (uri : String) : Request := ⟨ascii "GET", ascii uri, ascii "HTTP/1.1", [], []⟩

theorem got_ordinary (uri : String) (token : Token (ascii uri)) : Ordinary (got uri) where
  verb := by
    show Token (ascii "GET")
    decide +kernel
  uri := token
  version := by
    show Token (ascii "HTTP/1.1")
    decide +kernel
  headers := by
    intro line member
    cases member
  body := List.not_mem_nil
  length := .inl ⟨rfl, rfl⟩
  named := by
    have get : method (got uri) = .get := if_pos rfl
    rw [get]
    decide
  current := rfl

/-- The same request twice is reported twice. -/
theorem repeated_request_reported :
    reports 64 (fun _ => 7) ([got "/a", got "/a"].map Request.encode) =
      .ok ([got "/a", got "/a"].map expected) :=
  (reports_expected_iff_carried [got "/a", got "/a"] 64
    (by
      intro request member
      obtain rfl : request = got "/a" := by simpa using member
      exact got_ordinary "/a" (by decide +kernel))
    (by decide) (by decide)).mpr
    ⟨by
      intro request member
      obtain rfl : request = got "/a" := by simpa using member
      exact ⟨by decide, fun nonempty => absurd rfl nonempty⟩,
      by decide, by decide⟩ (fun _ => 7)

/-- Two GETs: the second one is reported with the uri of the first. -/
theorem second_request_reported_as_first :
    ¬ ∀ (requests : List Request) (capacity : Nat) (junk : Nat → UInt8),
      (∀ request ∈ requests, Ordinary request) →
      (requests.map Request.encode).flatten.length < capacity →
      reports capacity junk (requests.map Request.encode) = .ok (requests.map expected) := by
  intro all_reported
  have answered := all_reported [got "/a", got "/b"] 64 (fun _ => 0)
    (by
      intro request member
      rcases List.mem_pair.mp member with rfl | rfl
      · exact got_ordinary "/a" (by decide +kernel)
      · exact got_ordinary "/b" (by decide +kernel))
    (by decide)
  have actual : reports 64 (fun _ => 0) ([got "/a", got "/b"].map Request.encode) =
      .ok [⟨.getRequest, .get, ascii "/a", []⟩, ⟨.getRequest, .get, ascii "/a", []⟩] := by
    decide +kernel
  rw [actual] at answered
  exact absurd answered (by decide)

end OtaMqtt.Http.KeepAlive
