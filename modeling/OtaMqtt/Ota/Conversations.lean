import OtaMqtt.Http.Wire
import OtaMqtt.Ota.Framing

/-! The answers on one connection, from the builder through the session to the client
(`response_to_server` and `send_file` of sherry/ota_manager.cc, `response` of
sherry/http/http_server.cc).

A handler passes the pieces of its answer to `write_buffer`, one call behind the other. The
client goes by the length headers, and asks again when it has read every answer. -/

namespace OtaMqtt.Ota.Conversations

open OtaMqtt.Lib OtaMqtt.Lib.Trace OtaMqtt.Lib.Framing
open OtaMqtt.Ota OtaMqtt.Ota.Framing
open OtaMqtt.Http.Session OtaMqtt.Http.Wire

/-- Bytes as a text, one character a byte. -/
def textOf (bytes : List UInt8) : List Char := bytes.map fun byte => Char.ofNat byte.toNat

/-- The calls of `response_to_server` for one request: the text of the builder, and for a
download the chunks of the file behind it. -/
structure Answer (builder : OTAHttpResBuilder) (bufferSize : Nat) where
  type : String
  success : Bool
  json : Json
  file : List Char
  text : String
  chunks : List (List Char)
  pieces : List (List UInt8)
  passes : Passes type success json file
  served : ¬ (type = "file_download" ∧ success = false)
  built : builder.buildHttpResponse success json type = some text
  sends : Sends bufferSize file chunks
  written : pieces.map textOf = text.toList :: chunks

/-- A connection with the answers that the client asked for. `pieces` are those of the last
answer that its handler has yet to pass on, `handler` is the call that it made last. -/
structure Conversation (builder : OTAHttpResBuilder) (bufferSize : Nat) where
  channel : Channel
  asked : List (Answer builder bufferSize)
  pieces : List (List UInt8)
  handler : Option Nat

inductive Event (builder : OTAHttpResBuilder) (bufferSize : Nat) where
  | ask (answer : Answer builder bufferSize)
  | respond (waiting : Waiting)
  | move (move : Move)

/-- A call of `write_buffer` is the handler's. -/
def isCall : Move → Bool
  | .act (.call _ _) => true
  | _ => false

namespace Conversation

variable {builder : OTAHttpResBuilder} {bufferSize : Nat}

def fresh (capacity : Nat) : Conversation builder bufferSize := ⟨.fresh capacity, [], [], none⟩

def read (conversation : Conversation builder bufferSize) : List Received :=
  receiveAll conversation.channel.session.wire.length (textOf conversation.channel.session.wire)

def returned (conversation : Conversation builder bufferSize) : Bool :=
  match conversation.handler with
  | none => true
  | some writer => conversation.channel.session.writers[writer]? = some .returned

def step (conversation : Conversation builder bufferSize) :
    Event builder bufferSize → Option (Conversation builder bufferSize)
  | .ask answer =>
      if conversation.read.length = conversation.asked.length then some { conversation with
        asked := conversation.asked ++ [answer]
        pieces := answer.pieces
        handler := none }
      else none
  | .respond waiting =>
      match conversation.pieces with
      | [] => none
      | piece :: pieces =>
          if conversation.returned then
            (conversation.channel.step (.act (.call waiting piece))).map fun channel =>
              { conversation with
                channel
                pieces
                handler := some conversation.channel.session.writers.length }
          else none
  | .move move =>
      if isCall move then none
      else (conversation.channel.step move).map fun channel => { conversation with channel }

end Conversation

/-- The bytes that a call of `write_buffer` has yet to append. -/
def owedBy : Option Writer → List UInt8
  | some (.entered _ data) => data
  | some (.held data) => data
  | _ => []

section
variable {session next : HttpSession}

theorem owed_set {writers : List Writer} {index : Nat} (writer : Writer)
    (same : owedBy (some writer) = owedBy writers[index]?) (other : Nat) :
    owedBy (writers.set index writer)[other]? = owedBy writers[other]? := by
  rw [List.getElem?_set]
  split
  · rename_i here
    subst here
    split
    · exact same
    · rename_i outside
      rw [List.getElem?_eq_none (Nat.le_of_not_lt outside)]
  · rfl

theorem wakeWriter_owed (session : HttpSession) (writer : Nat) :
    owedBy session.wakeWriter.writers[writer]? = owedBy session.writers[writer]? := by
  rw [HttpSession.wakeWriter]
  split
  · rfl
  · split
    · rename_i data found
      exact owed_set _ (by rw [found]; rfl) writer
    · rfl

theorem registWrite_owed (session : HttpSession) (writer : Nat) :
    owedBy session.registWrite.writers[writer]? = owedBy session.writers[writer]? := by
  rw [HttpSession.registWrite]
  split
  · exact wakeWriter_owed session writer
  · exact wakeWriter_owed _ writer

theorem send_writers (session : HttpSession) (data : List UInt8) :
    (session.send data).writers = session.writers := by
  rw [HttpSession.send]
  split <;> rfl

theorem transmitted_writers (session : HttpSession) (data : List UInt8) (len : Nat) :
    (session.transmitted data len).writers = session.writers := by
  rw [HttpSession.transmitted]
  dsimp only
  split
  · exact send_writers _ _
  · rfl

/-- What a step does to the bytes that calls have yet to append: nothing, or it appends those of
one call. -/
def Settles (session next : HttpSession) (taken : List UInt8) : Prop :=
  (taken = [] ∧ ∀ writer : Nat, owedBy next.writers[writer]? = owedBy session.writers[writer]?) ∨
    ∃ writer : Nat, taken = owedBy session.writers[writer]? ∧ owedBy next.writers[writer]? = [] ∧
      ∀ other : Nat, other ≠ writer → owedBy next.writers[other]? = owedBy session.writers[other]?

theorem append_settles {writer : Nat} {waiting : Waiting} {data : List UInt8}
    (found : session.writers[writer]? = some (.entered waiting data)) :
    Settles session (session.append writer waiting data) (taken session (.append writer)) := by
  rw [taken, found, HttpSession.append.eq_def]
  dsimp only
  by_cases room : session.writeBuffer.length + data.length ≤ session.capacity
  · rw [if_pos room, if_pos room]
    refine .inr ⟨writer, by rw [found]; rfl, ?_, fun other apart => ?_⟩
    · dsimp only
      rw [List.getElem?_set_self (List.getElem?_eq_some_iff.mp found).1]
      rfl
    · dsimp only
      rw [List.getElem?_set_ne apart.symm]
  · rw [if_neg room, if_neg room]
    refine .inl ⟨rfl, owed_set _ ?_⟩
    rw [found]
    cases waiting <;> rfl

theorem act_settles (action : Action) (apart : isCall (.act action) = false)
    (stepped : session.step action = some next) : Settles session next (taken session action) := by
  cases action with
  | call waiting data => cases apart
  | append writer =>
      rw [HttpSession.step] at stepped
      split at stepped
      · rename_i waiting data found
        cases stepped
        exact append_settles found
      · cases stepped
  | signal writer =>
      rw [HttpSession.step] at stepped
      split at stepped
      · rename_i found
        cases stepped
        exact .inl ⟨rfl, owed_set _ (by rw [found]; rfl)⟩
      · cases stepped
  | pipeReadable =>
      rw [HttpSession.step] at stepped
      split at stepped
      · cases stepped
        exact .inl ⟨rfl, fun _ => rfl⟩
      · cases stepped
  | socketWritable =>
      obtain ⟨task, -, rfl⟩ := Option.map_eq_some_iff.mp stepped
      exact .inl ⟨rfl, fun _ => rfl⟩
  | work task =>
      refine .inl ⟨rfl, fun writer => ?_⟩
      rw [HttpSession.step] at stepped
      split at stepped
      · cases stepped
        rfl
      · cases stepped
        rfl
      · cases stepped
        exact registWrite_owed _ writer
      · cases stepped
        rw [send_writers]
      · cases stepped
  | sent task len =>
      refine .inl ⟨rfl, fun writer => ?_⟩
      rw [HttpSession.step] at stepped
      split at stepped
      · split at stepped
        · cases stepped
          rw [transmitted_writers]
        · cases stepped
      · cases stepped

end

theorem textOf_flatten (pieces : List (List UInt8)) :
    textOf pieces.flatten = (pieces.map textOf).flatten := by
  rw [textOf, List.map_flatten]
  rfl

theorem textOf_flatMap {α : Type} (bytes : α → List UInt8) (items : List α) :
    textOf (items.flatMap bytes) = items.flatMap fun item => textOf (bytes item) := by
  rw [textOf, List.map_flatMap]
  rfl

namespace Answer

variable {builder : OTAHttpResBuilder} {bufferSize : Nat}

def bytes (answer : Answer builder bufferSize) : List UInt8 := answer.pieces.flatten

def meant (answer : Answer builder bufferSize) : Option (List Char) :=
  expected builder answer.type answer.success answer.json answer.file

theorem recovered (answer : Answer builder bufferSize) (positive : 0 < bufferSize)
    (version : Plain builder.httpVersion.toList)
    (integers : ∀ number : Nat, builder.dump (.integer number) = some (toString number)) :
    Recovered builder answer.type answer.success answer.json answer.file (textOf answer.bytes) := by
  obtain ⟨type, success, json, file, text, chunks, pieces, passes, served, built, sends, written⟩ :=
    answer
  have whole : textOf pieces.flatten = text.toList ++ file := by
    rw [textOf_flatten, written, List.flatten_cons, sends_all positive sends]
  dsimp only [bytes]
  rw [whole]
  cases passes with
  | other _ _ _ known =>
      rw [List.append_nil]
      exact other_recovered type json text version known built
  | unregistered deviceType => exact absurd ⟨rfl, rfl⟩ served
  | file => exact file_recovered text file version integers built

theorem framed (answer : Answer builder bufferSize) (positive : 0 < bufferSize)
    (version : Plain builder.httpVersion.toList)
    (integers : ∀ number : Nat, builder.dump (.integer number) = some (toString number)) :
    ∃ headers, Framed (textOf answer.bytes) (status builder answer.success) headers
      (answer.meant.getD []) := by
  obtain ⟨headers, body, same, framed, -⟩ := answer.recovered positive version integers
  exact ⟨headers, by rw [meant, same]; exact framed⟩

end Answer

def owed (session : HttpSession) (handler : Option Nat) : List UInt8 :=
  handler.elim [] fun writer => owedBy session.writers[writer]?

/-- What was asked for is in the buffer or beyond it, in the handler's call, or still before it;
and no other call has anything left. -/
structure Keeps {builder : OTAHttpResBuilder} {bufferSize : Nat}
    (conversation : Conversation builder bufferSize) : Prop where
  flowing : Flowing conversation.channel
  text : conversation.channel.accepted ++ owed conversation.channel.session conversation.handler ++
    conversation.pieces.flatten = conversation.asked.flatMap Answer.bytes
  quiet : ∀ writer, conversation.handler ≠ some writer →
    owedBy conversation.channel.session.writers[writer]? = []

/-- What the client has read are the answers that it asked for, from the first one on, each with its
status and its whole body; and it has read all of them when nothing is on the way. -/
def Told {builder : OTAHttpResBuilder} {bufferSize : Nat}
    (conversation : Conversation builder bufferSize) : Prop :=
  conversation.read.map (fun received => (received.start, some received.body)) <+:
      conversation.asked.map (fun answer => (status builder answer.success, answer.meant)) ∧
    (conversation.pieces = [] →
      (∀ writer ∈ conversation.channel.session.writers, writer = .returned) →
      conversation.channel.session.wire = conversation.channel.accepted →
        conversation.read.length = conversation.asked.length)

section
variable {builder : OTAHttpResBuilder} {bufferSize : Nat}
  {conversation next : Conversation builder bufferSize}

theorem Keeps.beginning (keeps : Keeps conversation) :
    conversation.channel.session.wire <+: conversation.asked.flatMap Answer.bytes := by
  rw [← keeps.text, List.append_assoc]
  exact List.prefix_append_of_prefix keeps.flowing.inOrder

section
variable (positive : 0 < bufferSize) (version : Plain builder.httpVersion.toList)
  (integers : ∀ number : Nat, builder.dump (.integer number) = some (toString number))
include positive version integers

theorem Keeps.read (keeps : Keeps conversation) :
    conversation.read.map (fun received => (received.start, some received.body)) <+:
        conversation.asked.map (fun answer => (status builder answer.success, answer.meant)) ∧
      (conversation.read.length = conversation.asked.length ↔
        conversation.channel.session.wire = conversation.asked.flatMap Answer.bytes) := by
  let messages := conversation.asked.map fun answer => (⟨textOf answer.bytes,
    status builder answer.success, answer.meant.getD [],
    answer.framed positive version integers⟩ : Message)
  have texts : messages.flatMap Message.text = textOf (conversation.asked.flatMap Answer.bytes) := by
    rw [textOf_flatMap, List.flatMap_map]
  have length : (textOf conversation.channel.session.wire).length =
      conversation.channel.session.wire.length := List.length_map _
  have beginning : textOf conversation.channel.session.wire <+: messages.flatMap Message.text := by
    rw [texts]
    exact keeps.beginning.map _
  obtain ⟨first, all⟩ := receiveAll_beginning messages conversation.channel.session.wire.length _
    (Nat.le_of_eq length) beginning
  have meant : ∀ answer : Answer builder bufferSize, some (answer.meant.getD []) = answer.meant := by
    intro answer
    obtain ⟨headers, body, same, -⟩ := answer.recovered positive version integers
    rw [Answer.meant, same]
    rfl
  constructor
  · have pairs := first.map fun pair => (pair.1, some pair.2)
    rw [List.map_map, List.map_map, List.map_map] at pairs
    simp only [Function.comp_def, meant] at pairs
    exact pairs
  · rw [List.length_map] at all
    refine all.trans ⟨fun same => ?_, fun same => by rw [same, texts]⟩
    refine keeps.beginning.eq_of_length ?_
    have lengths := congrArg List.length same
    rw [texts, length] at lengths
    rw [lengths]
    exact List.length_map _

theorem ask_keeps (keeps : Keeps conversation) (answer : Answer builder bufferSize)
    (taken : conversation.step (.ask answer) = some next) : Keeps next := by
  rw [Conversation.step] at taken
  split at taken
  · rename_i asks
    cases taken
    have wire := (keeps.read positive version integers).2.mp asks
    obtain ⟨behind, sent⟩ := keeps.flowing.inOrder
    have text := keeps.text
    rw [← sent, wire, List.append_assoc, List.append_assoc, List.append_right_eq_self,
      List.append_eq_nil_iff, List.append_eq_nil_iff] at text
    obtain ⟨rfl, none, -⟩ := text
    refine ⟨keeps.flowing, ?_, fun writer _ => ?_⟩
    · dsimp only [owed, Option.elim]
      rw [← sent, wire, List.append_nil, List.append_nil, List.flatMap_append, List.flatMap_singleton]
      rfl
    · by_cases mine : conversation.handler = some writer
      · rw [mine] at none
        exact none
      · exact keeps.quiet writer mine
  · cases taken

end

theorem owed_returned (returned : conversation.returned = true) :
    owed conversation.channel.session conversation.handler = [] := by
  rw [Conversation.returned] at returned
  rw [owed]
  cases handler : conversation.handler with
  | none => rfl
  | some writer =>
      rw [handler] at returned
      dsimp only at returned
      rw [Option.elim, of_decide_eq_true returned]
      rfl

theorem respond_keeps (keeps : Keeps conversation) (waiting : Waiting)
    (taken : conversation.step (.respond waiting) = some next) : Keeps next := by
  rw [Conversation.step] at taken
  split at taken
  · cases taken
  · rename_i piece pieces found
    split at taken
    · rename_i returned
      obtain ⟨channel, stepped, rfl⟩ := Option.map_eq_some_iff.mp taken
      have flowing := step_flowing _ _ _ keeps.flowing stepped
      rw [Channel.step] at stepped
      obtain ⟨session, called, rfl⟩ := Option.map_eq_some_iff.mp stepped
      cases called
      have nothing := owed_returned returned
      have text := keeps.text
      rw [nothing, found, List.append_nil, List.flatten_cons] at text
      refine ⟨flowing, ?_, fun writer apart => ?_⟩
      · have mine : owedBy (some (if piece = [] then Writer.returned else .entered waiting piece)) =
            piece := by
          split
          · rename_i empty
            rw [empty]
            rfl
          · rfl
        dsimp only [owed, Option.elim, Http.Wire.taken]
        rw [List.append_nil, List.getElem?_concat_length, mine, List.append_assoc]
        exact text
      · dsimp only
        by_cases before : writer < conversation.channel.session.writers.length
        · rw [List.getElem?_append_left before]
          by_cases last : conversation.handler = some writer
          · rw [owed, last] at nothing
            exact nothing
          · exact keeps.quiet writer last
        · have other : conversation.channel.session.writers.length ≠ writer := fun same =>
            apart (congrArg some same)
          rw [List.getElem?_eq_none (by rw [List.length_append, List.length_singleton]; omega)]
          rfl
    · cases taken

theorem settled_keeps (keeps : Keeps conversation) {channel : Channel} {taken : List UInt8}
    (flowing : Flowing channel) (settles : Settles conversation.channel.session channel.session taken)
    (accepted : channel.accepted = conversation.channel.accepted ++ taken) :
    Keeps { conversation with channel } := by
  have text := keeps.text
  rcases settles with ⟨rfl, same⟩ | ⟨writer, rfl, none, same⟩
  · rw [List.append_nil] at accepted
    have owes : owed channel.session conversation.handler =
        owed conversation.channel.session conversation.handler := by
      unfold owed
      cases conversation.handler with
      | none => rfl
      | some writer => exact same writer
    refine ⟨flowing, ?_, fun writer apart => (same writer).trans (keeps.quiet writer apart)⟩
    dsimp only
    rw [accepted, owes]
    exact text
  · by_cases mine : conversation.handler = some writer
    · refine ⟨flowing, ?_, fun other apart => ?_⟩
      · rw [owed, mine] at text
        dsimp only [owed]
        rw [accepted, mine, Option.elim, none, List.append_nil]
        exact text
      · have different : other ≠ writer := by
          rintro rfl
          exact apart mine
        exact (same other different).trans (keeps.quiet other apart)
    · have empty := keeps.quiet writer mine
      rw [empty, List.append_nil] at accepted
      have all : ∀ other : Nat, owedBy channel.session.writers[other]? =
          owedBy conversation.channel.session.writers[other]? := by
        intro other
        by_cases here : other = writer
        · rw [here, none, empty]
        · exact same other here
      have owes : owed channel.session conversation.handler =
          owed conversation.channel.session conversation.handler := by
        unfold owed
        cases conversation.handler with
        | none => rfl
        | some other => exact all other
      refine ⟨flowing, ?_, fun other apart => (all other).trans (keeps.quiet other apart)⟩
      dsimp only
      rw [accepted, owes]
      exact text

theorem move_keeps (keeps : Keeps conversation) (move : Move)
    (taken : conversation.step (.move move) = some next) : Keeps next := by
  rw [Conversation.step] at taken
  split at taken
  · cases taken
  · rename_i apart
    obtain ⟨channel, stepped, rfl⟩ := Option.map_eq_some_iff.mp taken
    have flowing := step_flowing _ _ _ keeps.flowing stepped
    cases move with
    | act action =>
        obtain ⟨session, acted, rfl⟩ := Option.map_eq_some_iff.mp stepped
        exact settled_keeps keeps flowing (act_settles action (by simpa using apart) acted) rfl
    | sendFailed task =>
        rw [Channel.step] at stepped
        split at stepped
        · cases stepped
          exact settled_keeps keeps flowing (.inl ⟨rfl, fun _ => rfl⟩) (List.append_nil _).symm
        · cases stepped

theorem fresh_keeps (capacity : Nat) :
    Keeps (Conversation.fresh capacity : Conversation builder bufferSize) := by
  refine ⟨flowing_fresh capacity, rfl, fun writer _ => ?_⟩
  rfl

end

/-- A client that asks again when it has read every answer, with any number of handlers' calls still
under way, partial sends and refused attempts: in every state reached it has read the answers to
its first requests in their order, each with its status line and its whole body. -/
theorem client_reads_answers (builder : OTAHttpResBuilder) (bufferSize : Nat)
    (positive : 0 < bufferSize) (version : Plain builder.httpVersion.toList)
    (integers : ∀ number : Nat, builder.dump (.integer number) = some (toString number))
    (capacity : Nat) (events : List (Event builder bufferSize)) :
    Always Conversation.step Told (.fresh capacity) events := by
  refine preserves_always (fun conversation event next keeps taken => ?_) (fun conversation keeps => ?_)
    events _ (fresh_keeps capacity)
  · cases event with
    | ask answer => exact ask_keeps positive version integers keeps answer taken
    | respond waiting => exact respond_keeps keeps waiting taken
    | move move => exact move_keeps keeps move taken
  · obtain ⟨first, all⟩ := keeps.read positive version integers
    refine ⟨first, fun pieces returned wire => all.mpr ?_⟩
    have text := keeps.text
    have nothing : owed conversation.channel.session conversation.handler = [] := by
      rw [owed]
      cases conversation.handler with
      | none => rfl
      | some writer =>
          dsimp only [Option.elim]
          cases found : conversation.channel.session.writers[writer]? with
          | none => rfl
          | some call =>
              rw [returned call (List.mem_of_getElem? found)]
              rfl
    rw [nothing, pieces, List.flatten_nil, List.append_nil, List.append_nil] at text
    rw [wire, text]

theorem textOf_bytes (text : List Char) (bytes : ∀ character ∈ text, character.toNat < 256) :
    textOf (text.map fun character => UInt8.ofNat character.toNat) = text := by
  rw [textOf, List.map_map]
  refine (List.map_congr_left fun character member => ?_).trans (List.map_id text)
  rw [Function.comp_apply, UInt8.toNat_ofNat', Nat.mod_eq_of_lt (bytes character member),
    Char.ofNat_toNat, id_eq]

def numbers : OTAHttpResBuilder where
  httpVersion := "1.1"
  dump
    | .integer value => some (toString value)
    | _ => some "null"

def notified : String :=
  "HTTP/1.1 200 OK\r\nContent-Type: application/json\r\nContent-Length: 4\r\nConnection: close\r\n\r\nnull"

def notifyAnswer : Answer numbers 1024 where
  type := "notify"
  success := true
  json := .null
  file := []
  text := notified
  chunks := []
  pieces := [notified.toList.map fun character => UInt8.ofNat character.toNat]
  passes := .other _ _ _ (by decide)
  served := by decide
  built := rfl
  sends := .finished [] rfl
  written := by
    have bytes : (notified.toList.all fun character => character.toNat < 256) = true := by decide +kernel
    rw [List.map_singleton, textOf_bytes]
    exact fun character member => of_decide_eq_true (List.all_eq_true.mp bytes character member)

/-- The answer is sent in two attempts. -/
def exchange : List (Event numbers 1024) :=
  [.ask notifyAnswer, .respond .toReady, .move (.act (.append 0)), .move (.act (.signal 0)),
    .move (.act .pipeReadable), .move (.act (.work 0)), .move (.act (.work 0)), .move (.act (.work 0)),
    .move (.act .socketWritable), .move (.act (.work 0)), .move (.act .socketWritable),
    .move (.act (.sent 0 60)), .move (.act .socketWritable), .move (.act (.sent 0 33))]

theorem notified_and_read : ∃ reached, run Conversation.step (.fresh 4096) exchange = some reached ∧
    reached.read.map (fun received => (received.start, some received.body)) =
      [(status numbers true, some "null".toList)] := by
  have ends : (run Conversation.step (.fresh 4096) exchange).map (fun reached => (reached.pieces,
      reached.channel.session.writers, decide (reached.channel.session.wire = reached.channel.accepted),
      reached.asked.map fun answer => (status numbers answer.success, answer.meant))) =
      some ([], [.returned], true, [(status numbers true, some "null".toList)]) := by rfl
  obtain ⟨reached, ran, done⟩ := Option.map_eq_some_iff.mp ends
  rw [Prod.mk.injEq, Prod.mk.injEq, Prod.mk.injEq] at done
  obtain ⟨pieces, writers, wire, asked⟩ := done
  obtain ⟨first, all⟩ := client_reads_answers numbers 1024 (by decide) (by decide) (fun _ => rfl) 4096
    exchange exchange [] reached (List.append_nil _) ran
  have length := all pieces (by rw [writers]; simp) (of_decide_eq_true wire)
  rw [asked] at first
  refine ⟨reached, ran, first.eq_of_length ?_⟩
  rw [List.length_map, length, ← List.length_map, asked]

end OtaMqtt.Ota.Conversations
