import OtaMqtt.Lib.Json

/-! The texts of the HTTP responses (sherry/ota_http_response_builder.cc).

The printer of the JSON library is a parameter: `none` stands for the exception that it throws.
`httpVersion` is `m_http_version` as a stream prints it. A text is the sequence of its bytes,
one character a byte. -/

namespace OtaMqtt.Ota

open OtaMqtt.Lib

structure OTAHttpResBuilder where
  httpVersion : String
  dump : Json → Option String

namespace OTAHttpResBuilder

variable (builder : OTAHttpResBuilder) (success : Bool) (response : Json)

def statusLine : String :=
  "HTTP/" ++ builder.httpVersion ++ if success then " 200 OK\r\n" else " 400 Bad Request\r\n"

def withStatus : Json := response.set "status" (.string (if success then "ok" else "error"))

/-- The head and the body of the responses that carry a JSON value. -/
def jsonRes (connection : String) : Option String := do
  let body ← builder.dump (withStatus success response)
  some (builder.statusLine success ++ "Content-Type: application/json" ++ "\r\nContent-Length: " ++
    toString body.length ++ "\r\nConnection: " ++ connection ++ "\r\n" ++ body)

def notifyRes : Option String := builder.jsonRes success response "close\r\n"

def stopNotifyRes : Option String := builder.jsonRes success response "close\r\n"

def queryRes : Option String := builder.jsonRes success response "close\r\n"

/-- A success keeps the connection, unless the device says that the download is down. -/
def queryDownloadRes : Option String :=
  builder.jsonRes success response
    (if success && !((withStatus success response).get "download_status").isText "down" then
      "keep-alive\r\n"
    else "close\r\n")

/-- The body is built and then left out. -/
def fileDownloadRes : Option String := do
  let response := if success then response else response.set "status" (.string "error")
  let _ ← builder.dump response
  let fileSize ← builder.dump (response.get "file_size")
  some (builder.statusLine success ++ "Content-Type: application/octet-stream" ++
    "\r\nContent-Length: " ++ fileSize ++
    "\r\nContent-Disposition: attachment; filename=" ++ "your_file_name.jpg" ++
    "\r\nConnection: " ++ "close\r\n" ++ "\r\n")

def optionsRes : Option String :=
  let body := "OK"
  some (builder.statusLine success ++ "Access-Control-Allow-Origin: *\r\n" ++
    "Access-Control-Allow-Methods: GET, POST, OPTIONS\r\n" ++
    "Access-Control-Allow-Headers: Content-Type\r\n" ++ "Content-Type: text/plain\r\n" ++
    "Content-Length: " ++ toString body.length ++ "\r\n" ++ "Connection: close\r\n\r\n" ++ body)

/-- An unknown type gets an empty text. -/
def buildHttpResponse (type : String) : Option String :=
  match type with
  | "notify" => builder.notifyRes success response
  | "query" => builder.queryRes success response
  | "stop_notify" => builder.stopNotifyRes success response
  | "query_download" => builder.queryDownloadRes success response
  | "file_download" => builder.fileDownloadRes success response
  | "OPTIONS" => builder.optionsRes success
  | _ => some ""

end OTAHttpResBuilder

end OtaMqtt.Ota
