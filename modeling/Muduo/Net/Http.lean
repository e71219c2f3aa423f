/-
`HttpServer`: what it makes of the bytes of a connection.

The parser takes the lines of a request off the input buffer, one in each round of its loop,
and notes in the context of the connection how far it has come.  A round that would never
end the loop is one of the ways in which handling a message can go wrong; a failed assertion
is the other.
-/
import Mathlib.Data.List.DropRight
import Muduo.Lib.Assoc
import Muduo.Lib.Lines
import Muduo.Lib.Numeral
import Muduo.Lib.Runs
import Muduo.Net.Buffer
import Muduo.Net.TimerQueue

namespace Net

open Lib

/-- The bytes of an ASCII string. -/
def ascii (s : String) : Bytes := s.toList.map fun c => UInt8.ofNat c.toNat

/-! ### The buffer -/

namespace Buffer

/-- `findCRLF()`, as a distance from `peek()`. -/
def findCRLF (b : Buffer) : Option Nat := crlf? b.readable

end Buffer

/-! ### Requests -/

namespace Http

/-- What can become of the handling of a message. -/
inductive Failure where
  | assertion
  /-- The loop of `parseRequest` does not end. -/
  | hangs
deriving DecidableEq

inductive Method where
  | kInvalid
  | kGet
  | kPost
  | kHead
  | kPut
  | kDelete
deriving DecidableEq

def Method.methodString : Method → Bytes
  | kGet => ascii "GET"
  | kPost => ascii "POST"
  | kHead => ascii "HEAD"
  | kPut => ascii "PUT"
  | kDelete => ascii "DELETE"
  | kInvalid => ascii "UNKNOWN"

inductive Version where
  | kUnknown
  | kHttp10
  | kHttp11
deriving DecidableEq

structure HttpRequest where
  method : Method
  version : Version
  path : Bytes
  receiveTime : Timestamp
  headers : List (Bytes × Bytes)

namespace HttpRequest

def init : HttpRequest := ⟨.kInvalid, .kUnknown, [], 0, []⟩

/-- The method that a word names. -/
def methodOf (m : Bytes) : Method :=
  if m = ascii "GET" then .kGet
  else if m = ascii "POST" then .kPost
  else if m = ascii "HEAD" then .kHead
  else if m = ascii "PUT" then .kPut
  else if m = ascii "DELETE" then .kDelete
  else .kInvalid

def setMethod (r : HttpRequest) (m : Bytes) : Except Failure (Bool × HttpRequest) :=
  if r.method = .kInvalid then
    .ok (decide (methodOf m ≠ .kInvalid), { r with method := methodOf m })
  else .error .assertion

/-- A header value without the white space around it. -/
def trim (value : Bytes) : Bytes := (value.dropWhile isSpace).rdropWhile isSpace

/-- `addHeader`, with what stands in front of the colon and what behind it. -/
def addHeader (r : HttpRequest) (field after : Bytes) : HttpRequest :=
  { r with headers := assign field (trim after) r.headers }

def getHeader (r : HttpRequest) (field : Bytes) : Bytes := (r.headers.lookup field).getD []

/-- `swap` with a new request, which leaves the version. -/
def swapNew (r : HttpRequest) : HttpRequest := { init with version := r.version }

end HttpRequest

/-! ### The context of a connection -/

inductive HttpRequestParseState where
  | kExpectRequestLine
  | kExpectHeaders
  | kExpectBody
  | kGotAll
deriving DecidableEq

structure HttpContext where
  state : HttpRequestParseState
  request : HttpRequest

namespace HttpContext

def init : HttpContext := ⟨.kExpectRequestLine, .init⟩

def gotAll (c : HttpContext) : Bool := c.state = .kGotAll

def receiveRequestLine (c : HttpContext) : HttpContext := { c with state := .kExpectHeaders }

def receiveHeaders (c : HttpContext) : HttpContext := { c with state := .kGotAll }

def reset (c : HttpContext) : HttpContext := ⟨.kExpectRequestLine, c.request.swapNew⟩

end HttpContext

/-! ### The parser -/

/-- Whether a line is a request line, and the request as far as it has been filled in. -/
def processRequestLine (line : Bytes) (request : HttpRequest) :
    Except Failure (Bool × HttpRequest) :=
  match cutAt 32 line with
  | none => .ok (false, request)
  | some (m, rest) => do
      let (known, request) ← request.setMethod m
      if known then
        match cutAt 32 rest with
        | none => return (false, request)
        | some (path, version) =>
            let request := { request with path := path }
            if version.length = 8 ∧ version.take 7 = ascii "HTTP/1." then
              if version.drop 7 = ascii "1" then
                return (true, { request with version := .kHttp11 })
              else if version.drop 7 = ascii "0" then
                return (true, { request with version := .kHttp10 })
              else return (false, request)
            else return (false, request)
      else return (false, request)

/-- `retrieveUntil`, with a distance from `peek()`. -/
def retrieveUntil (b : Buffer) (len : Nat) : Except Failure Buffer :=
  if h : len ≤ b.readableBytes then .ok (b.retrieve len h) else .error .assertion

/-- Where a round of the loop leaves things. -/
structure Round where
  ok : Bool
  hasMore : Bool
  buf : Buffer
  context : HttpContext

/-- The body of the loop of `parseRequest`. -/
def parseRound (receiveTime : Timestamp) (buf : Buffer) (context : HttpContext) :
    Except Failure Round :=
  match context.state with
  | .kExpectRequestLine =>
      match buf.findCRLF with
      | none => .ok ⟨true, false, buf, context⟩
      | some crlf => do
          let (ok, request) ← processRequestLine (buf.readable.take crlf) context.request
          if ok then
            let buf ← retrieveUntil buf (crlf + 2)
            let context := { context with request := { request with receiveTime := receiveTime } }
            return ⟨true, true, buf, context.receiveRequestLine⟩
          else return ⟨false, false, buf, { context with request := request }⟩
  | .kExpectHeaders =>
      match buf.findCRLF with
      | none => .ok ⟨true, false, buf, context⟩
      | some crlf =>
          match cutAt 58 (buf.readable.take crlf) with
          | some (field, after) => do
              let buf ← retrieveUntil buf (crlf + 2)
              return ⟨true, true, buf,
                { context with request := context.request.addHeader field after }⟩
          | none => do
              let context := context.receiveHeaders
              let buf ← retrieveUntil buf (crlf + 2)
              return ⟨true, !context.gotAll, buf, context⟩
  -- neither test of the source holds or does anything, and the loop goes on
  | .kExpectBody => .ok ⟨true, true, buf, context⟩
  | .kGotAll => .ok ⟨true, true, buf, context⟩

/-- The loop of `parseRequest`, for so many rounds at most. -/
def parseLoop (receiveTime : Timestamp) :
    Nat → Buffer → HttpContext → Except Failure (Bool × Buffer × HttpContext)
  | 0, _, _ => .error .hangs
  | rounds + 1, buf, context => do
      let r ← parseRound receiveTime buf context
      if r.hasMore then parseLoop receiveTime rounds r.buf r.context
      else return (r.ok, r.buf, r.context)

/-- `parseRequest`.  A round that goes on has taken bytes off the buffer, so that there can be
one more than there are bytes. -/
def parseRequest (buf : Buffer) (context : HttpContext) (receiveTime : Timestamp) :
    Except Failure (Bool × Buffer × HttpContext) :=
  parseLoop receiveTime (buf.readableBytes + 1) buf context

/-! ### Responses -/

structure HttpResponse where
  headers : List (Bytes × Bytes)
  statusCode : Nat
  statusMessage : Bytes
  closeConnection : Bool
  body : Bytes

namespace HttpResponse

def init (close : Bool) : HttpResponse := ⟨[], 0, [], close, []⟩

/-- `snprintf` into 32 characters. -/
def snprintf (text : Bytes) : Bytes := text.take 31

/-- What `appendToBuffer` appends. -/
def text (r : HttpResponse) : Bytes :=
  let connection := if r.closeConnection then ascii "Connection: close" ++ crlf
    else snprintf (ascii "Content-Length: " ++ natText r.body.length ++ crlf)
      ++ ascii "Connection: Keep-Alive" ++ crlf
  let headers := r.headers.flatMap fun h => h.1 ++ ascii ": " ++ h.2 ++ crlf
  snprintf (ascii "HTTP/1.1 " ++ natText r.statusCode ++ ascii " ") ++ r.statusMessage ++ crlf
    ++ connection ++ headers ++ crlf ++ r.body

end HttpResponse

/-- `httpCallback_`, which fills in a response. -/
abbrev HttpCallback := HttpRequest → HttpResponse → HttpResponse

def defaultHttpCallback : HttpCallback := fun _ resp =>
  { resp with statusCode := 404, statusMessage := ascii "Not Found", closeConnection := true }

/-! ### The server -/

/-- What a connection has been told to send. -/
inductive Sent where
  /-- `HTTP/1.1 400 Bad Request` -/
  | badRequest
  | response (text : Bytes)
deriving DecidableEq

structure HttpConnection where
  inputBuffer : Buffer
  context : HttpContext
  /-- `state_ == kConnected`, which `send` and `shutdown` ask for. -/
  connected : Bool
  /-- The requests of the calls of `onRequest`. -/
  requests : List HttpRequest
  sent : List Sent

namespace HttpConnection

/-- The connection behind `onConnection`. -/
def init : HttpConnection := ⟨.init, .init, true, [], []⟩

/-- `TcpConnection::send` -/
def send (c : HttpConnection) (s : Sent) : HttpConnection :=
  if c.connected then { c with sent := c.sent ++ [s] } else c

/-- `TcpConnection::shutdown` -/
def shutdown (c : HttpConnection) : HttpConnection := { c with connected := false }

def onRequest (httpCallback : HttpCallback) (c : HttpConnection) (req : HttpRequest) :
    HttpConnection :=
  let connection := req.getHeader (ascii "Connection")
  let close := connection = ascii "close"
    ∨ (req.version = .kHttp10 ∧ connection ≠ ascii "Keep-Alive")
  let response := httpCallback req (.init (decide close))
  let c := { c with requests := c.requests ++ [req] }.send (.response response.text)
  if response.closeConnection then c.shutdown else c

def onMessage (httpCallback : HttpCallback) (receiveTime : Timestamp) (c : HttpConnection) :
    Except Failure HttpConnection := do
  let (ok, buf, context) ← parseRequest c.inputBuffer c.context receiveTime
  let c := { c with inputBuffer := buf, context := context }
  let c := if ok then c else (c.send .badRequest).shutdown
  if context.gotAll then
    let c := c.onRequest httpCallback context.request
    return { c with context := c.context.reset }
  else return c

/-- The socket has given some bytes at some time. -/
abbrev Delivery := Timestamp × Bytes

/-- `TcpConnection::handleRead`, when it has read the bytes. -/
def deliver (httpCallback : HttpCallback) (d : Delivery) (c : HttpConnection) :
    Except Failure HttpConnection :=
  { c with inputBuffer := c.inputBuffer.append d.2 }.onMessage httpCallback d.1

end HttpConnection

end Http

end Net
