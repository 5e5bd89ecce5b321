import OtaMqtt.Http.Buffer
import OtaMqtt.Lib.CText

/-! The incremental request parser (sherry/http/http_parser.h, http_parser.cc).

The fields that the line parsers fill are grouped as `Message`; the indices that tie the
parser to its ring stay in `HttpParser`. -/

namespace OtaMqtt.Http.Parser

open OtaMqtt.Lib.Execution OtaMqtt.Lib.CText
open OtaMqtt.Http.Buffer

inductive CheckState where
  | requestLine
  | header
  | content
  deriving DecidableEq, Repr

inductive LineStatus where
  | ok
  | open
  | bad
  deriving DecidableEq, Repr

/-- `INTERNAL_ERROR` is the `default:` of a switch over all states and is never returned. -/
inductive HttpCode where
  | badRequest
  | noRequest
  | getRequest
  deriving DecidableEq, Repr

inductive HttpMethod where
  | post
  | get
  | options
  | none
  deriving DecidableEq, Repr

structure Message where
  checkState : CheckState
  method : HttpMethod
  uri : List UInt8
  requestBody : List UInt8
  contentLength : Int
  keepAlive : Bool
  host : List UInt8
  deriving DecidableEq

structure HttpParser where
  readIdx : Nat
  checkedIdx : Nat
  startLine : Nat
  bufferSize : Nat
  message : Message
  deriving DecidableEq

def Message.fresh : Message := ⟨.requestLine, .none, [], [], 0, false, []⟩

def blanks : List UInt8 := [32, 9]

/-- The method is stored before the rest of the line has been checked. -/
def Message.parseRequestLine (message : Message) (text : List UInt8) : HttpCode × Message :=
  match strpbrk text blanks with
  | none => (.badRequest, message)
  | some uri =>
      let uri := uri.drop (strspn uri blanks)
      let found : Option HttpMethod :=
        if startsWith (ascii "POST") text then some .post
        else if startsWith (ascii "GET") text then some .get
        else if startsWith (ascii "OPTIONS") text then some .options
        else none
      match found with
      | none => (.badRequest, message)
      | some method =>
          let message := { message with method := method }
          match strpbrk uri blanks with
          | none => (.badRequest, message)
          | some version =>
              let message := { message with uri := uri.take (uri.length - version.length) }
              let version := version.drop (strspn version blanks)
              if startsWith (ascii "HTTP/1.1") version then
                (.noRequest, { message with checkState := .header })
              else (.badRequest, message)

/-- The value of a header line: what follows its name and the blanks behind it. -/
def headerValue (name : String) (text : List UInt8) : List UInt8 :=
  let rest := text.drop (ascii name).length
  rest.drop (strspn rest blanks)

def Message.parseHeaders (message : Message) (text : List UInt8) : HttpCode × Message :=
  if text = [] then
    if message.contentLength ≠ 0 then (.noRequest, { message with checkState := .content })
    else (.getRequest, message)
  else if startsWith (ascii "Connection:") text then
    (.noRequest, { message with keepAlive := headerValue "Connection:" text ≠ ascii "Close" })
  else if startsWith (ascii "Content-Length:") text then
    let (value, rest) := strtol (headerValue "Content-Length:" text)
    (.noRequest, { message with
      contentLength := if rest ≠ [] then 0 else Int.bmod value (2 ^ 32) })
  else if startsWith (ascii "Host:") text then
    (.noRequest, { message with host := headerValue "Host:" text })
  else if startsWith (ascii "Content-type:") text then
    if startsWith (ascii "application/json") (headerValue "Content-type:" text) then
      (.noRequest, message)
    else (.badRequest, message)
  else (.noRequest, message)

namespace HttpParser

def fresh (bufferSize : Nat) : HttpParser := ⟨0, 0, 0, bufferSize, Message.fresh⟩

/-- `text[m_content_length] = NUL` must stay inside the array that `read_by_zero` made. -/
def parseContent (parser : HttpParser) (text : List UInt8) : Run (HttpCode × HttpParser) :=
  let needed := parser.message.contentLength + parser.checkedIdx
  if 2 ^ 31 ≤ needed ∨ needed < -2 ^ 31 then .error .intOverflow
  else if needed ≤ parser.readIdx then
    if 0 ≤ parser.message.contentLength ∧ parser.message.contentLength < text.length then do
      let body ← cstring (text.set parser.message.contentLength.toNat 0)
      .ok (.getRequest, { parser with message := { parser.message with requestBody := body } })
    else .error .outOfBounds
  else .ok (.noRequest, parser)

/-- The loop of `parse_line`, towards the `m_end_idx` read before it started. -/
def scanLine (endIdx : Nat) : Nat → HttpParser → HttpBuffer → Run (LineStatus × HttpParser × HttpBuffer)
  | 0, _, _ => .error .outOfFuel
  | fuel + 1, parser, ring =>
      if parser.checkedIdx = endIdx then .ok (.open, parser, ring)
      else do
        let temp ← ring.getVal parser.checkedIdx
        if temp = 13 then do
          let nextIdx ← ring.nextIdx parser.checkedIdx
          if nextIdx = endIdx then .ok (.open, parser, ring)
          else do
            let following ← ring.getVal nextIdx
            if following = 10 then do
              let ring ← ring.setVal 0 parser.checkedIdx
              let ring ← ring.setVal 0 nextIdx
              let checkedIdx ← ring.nextIdx nextIdx
              .ok (.ok, { parser with checkedIdx := checkedIdx }, ring)
            else .ok (.bad, parser, ring)
        else if temp = 10 then do
          let preIdx ← ring.preIdx parser.checkedIdx
          if parser.checkedIdx = ring.startIdx then .ok (.bad, parser, ring)
          else do
            let before ← ring.getVal preIdx
            if before = 13 then do
              let ring ← ring.setVal 0 preIdx
              let ring ← ring.setVal 0 parser.checkedIdx
              let checkedIdx ← ring.nextIdx parser.checkedIdx
              .ok (.ok, { parser with checkedIdx := checkedIdx }, ring)
            else .ok (.bad, parser, ring)
        else do
          let checkedIdx ← ring.nextIdx parser.checkedIdx
          scanLine endIdx fuel { parser with checkedIdx := checkedIdx } ring

/-- After the first step the index stays below `m_capacity`, so a scan of more than
`m_capacity + 1` steps repeats itself for ever. -/
def parseLine (parser : HttpParser) (ring : HttpBuffer) :
    Run (LineStatus × HttpParser × HttpBuffer) :=
  scanLine ring.endIdx (ring.capacity + 2) parser ring

/-- One pass of the `switch`: the text of a line, or of the content, is parsed. -/
def parseText (parser : HttpParser) (data : List UInt8) : Run (HttpCode × HttpParser) := do
  let text ← cstring data
  let parser := { parser with startLine := parser.checkedIdx }
  match parser.message.checkState with
  | .requestLine =>
      let (code, message) := parser.message.parseRequestLine text
      .ok (code, { parser with message := message })
  | .header =>
      let (code, message) := parser.message.parseHeaders text
      .ok (code, { parser with message := message })
  | .content => parser.parseContent data

/-- The bytes handed to the `switch`; a null pointer from `read_by_end` is followed. -/
def takeText (parser : HttpParser) (ring : HttpBuffer) : Run (List UInt8 × HttpBuffer) :=
  if parser.message.checkState = .content then ring.readByZero
  else do
    let (data, ring) ← ring.readByEnd parser.checkedIdx
    match data with
    | none => .error .nullPointer
    | some data => .ok (data, ring)

/-- The condition of the `while`: content mode needs no further line. -/
def nextStatus (lineStatus : LineStatus) (parser : HttpParser) (ring : HttpBuffer) :
    Run (LineStatus × HttpParser × HttpBuffer) :=
  if parser.message.checkState = .content ∧ lineStatus = .ok then .ok (.ok, parser, ring)
  else parser.parseLine ring

/-- The `while` of `process_read`. A pass in content mode leaves `line_status` at
`LINE_OPEN`, every other pass at `LINE_OK`. -/
def processLoop : Nat → LineStatus → HttpParser → HttpBuffer →
    Run (HttpCode × HttpParser × HttpBuffer)
  | 0, _, _, _ => .error .outOfFuel
  | fuel + 1, lineStatus, parser, ring => do
      let (lineStatus, parser, ring) ← nextStatus lineStatus parser ring
      if lineStatus ≠ .ok then .ok (.noRequest, parser, ring)
      else do
        let content := parser.message.checkState = .content
        let (data, ring) ← parser.takeText ring
        let (code, parser) ← parser.parseText data
        if code = .noRequest then
          processLoop fuel (if content then .open else .ok) parser ring
        else .ok (code, parser, ring)

/-- Each pass that goes on has turned a CR LF of the ring into NULs. -/
def processRead (parser : HttpParser) (ring : HttpBuffer) :
    Run (HttpCode × HttpParser × HttpBuffer) :=
  processLoop (ring.capacity + 3) .ok parser ring

def updateBufferSize (parser : HttpParser) (len : Nat) : Run HttpParser := do
  let readIdx ← toInt (parser.readIdx + len)
  .ok { parser with readIdx := readIdx }

end HttpParser

/-- What the READ handler does with a received chunk; the result of `write` is ignored. -/
def receive (parser : HttpParser) (ring : HttpBuffer) (chunk : List UInt8) :
    Run (HttpCode × HttpParser × HttpBuffer) := do
  let (_, ring) ← ring.write (fun index => chunk.getD index 0) chunk.length
  let parser ← parser.updateBufferSize chunk.length
  parser.processRead ring

end OtaMqtt.Http.Parser
