/-
The hub: publishers and subscribers of topics, connected through one server.

Requests are text.  A line names a command and a topic, and behind the line of `pub` there
is a line with the content.  The server remembers of every topic what was published last
and who its audiences are, and of every connection what it has subscribed to.  Everything
runs in one loop, one callback after the other.

A buffer is the bytes that are readable in it, and what a connection is given to send is
kept in its order.  A connection that goes down while it is subscribed unsubscribes by
references into the set that it takes the subscriptions out of.
-/
import Muduo.Net.Http
import Muduo.Net.TcpConnection

namespace PubSub

open Lib Net

/-- What a successful `parseMessage` has found. -/
structure Message where
  cmd : Bytes
  topic : Bytes
  content : Bytes
deriving DecidableEq

inductive ParseResult where
  | kError
  | kSuccess (message : Message)
  | kContinue
deriving DecidableEq

/-- The result, and the buffer behind it. -/
def parseMessage (buf : Bytes) : ParseResult × Bytes :=
  match crlf? buf with
  | none => (.kContinue, buf)
  | some line =>
      match cutAt 32 (buf.take line) with
      | none => (.kError, buf)
      | some (cmd, topic) =>
          if cmd = ascii "pub" then
            let start := buf.drop (line + 2)
            match crlf? start with
            | some content => (.kSuccess ⟨cmd, topic, start.take content⟩, start.drop (content + 2))
            | none => (.kContinue, buf)
          else (.kSuccess ⟨cmd, topic, []⟩, buf.drop (line + 2))

private theorem crlf?_add_two_le {b : Bytes} {n : Nat} (h : crlf? b = some n) :
    n + 2 ≤ b.length := by
  obtain ⟨line, rest, rfl, -, rfl⟩ := crlf?_eq_some h
  simp only [crlf, List.length_append, List.length_cons, List.length_nil]
  omega

/-- Every message takes bytes off the buffer. -/
theorem parseMessage_lt {buf rest : Bytes} {message : Message}
    (h : parseMessage buf = (.kSuccess message, rest)) : rest.length < buf.length := by
  unfold parseMessage at h
  split at h
  · cases h
  · rename_i line hline
    have hle := crlf?_add_two_le hline
    split at h
    · cases h
    · dsimp only at h
      split at h
      · split at h
        · obtain ⟨-, rfl⟩ := Prod.mk.inj h
          simp only [List.length_drop]
          omega
        · cases h
      · obtain ⟨-, rfl⟩ := Prod.mk.inj h
        rw [List.length_drop]
        omega

/-! ### `PubSubServer` -/

/-- A connection, by the object that it is. -/
abbrev Conn := Nat

structure Topic where
  topic : Bytes
  content : Bytes := []
  /-- Not `valid()` before the first publication. -/
  lastPubTime : Timestamp := 0
  audiences : List Conn := []
deriving DecidableEq

def Topic.makeMessage (t : Topic) : Bytes :=
  ascii "pub " ++ t.topic ++ crlf ++ t.content ++ crlf

structure Connection where
  state : StateE := .kConnecting
  /-- `ConnectionSubscription` -/
  context : List Bytes := []
  inputBuffer : Bytes := []
  sent : List Bytes := []
deriving DecidableEq

/-- `TcpConnection::send` -/
def Connection.send (c : Connection) (message : Bytes) : Connection :=
  if c.state = .kConnected then { c with sent := c.sent ++ [message] } else c

/-- `TcpConnection::shutdown` -/
def Connection.shutdown (c : Connection) : Connection :=
  if c.state = .kConnected then { c with state := .kDisconnecting } else c

/-- `topics` says for every name which topic `getTopic` returns: one that is not in the map is
put there as it is made. -/
structure PubSubServer where
  connections : Conn → Connection
  topics : Bytes → Topic

namespace PubSubServer

def init : PubSubServer := ⟨fun _ => {}, fun topic => { topic }⟩

def modify (s : PubSubServer) (conn : Conn) (f : Connection → Connection) : PubSubServer :=
  { s with connections := Function.update s.connections conn (f (s.connections conn)) }

def modifyTopic (s : PubSubServer) (topic : Bytes) (f : Topic → Topic) : PubSubServer :=
  { s with topics := Function.update s.topics topic (f (s.topics topic)) }

def send (s : PubSubServer) (conn : Conn) (message : Bytes) : PubSubServer :=
  s.modify conn (·.send message)

def doSubscribe (s : PubSubServer) (conn : Conn) (topic : Bytes) : PubSubServer :=
  let s := s.modify conn fun c => { c with context := c.context.insert topic }
  let s := s.modifyTopic topic fun t => { t with audiences := t.audiences.insert conn }
  if 0 < (s.topics topic).lastPubTime then s.send conn (s.topics topic).makeMessage else s

def doUnsubscribe (s : PubSubServer) (conn : Conn) (topic : Bytes) : PubSubServer :=
  let s := s.modify conn fun c => { c with context := c.context.erase topic }
  s.modifyTopic topic fun t => { t with audiences := t.audiences.erase conn }

def doPublish (s : PubSubServer) (topic content : Bytes) (time : Timestamp) : PubSubServer :=
  let s := s.modifyTopic topic fun t => { t with content, lastPubTime := time }
  let message := (s.topics topic).makeMessage
  (s.topics topic).audiences.foldl (fun s conn => s.send conn message) s

/-- The loop of `onMessage`, and what it leaves in the buffer. -/
def messageLoop (conn : Conn) (receiveTime : Timestamp) (s : PubSubServer) (buf : Bytes) :
    PubSubServer × Bytes :=
  match _h : parseMessage buf with
  | (.kContinue, buf) => (s, buf)
  | (.kError, buf) => (s.modify conn Connection.shutdown, buf)
  | (.kSuccess ⟨cmd, topic, content⟩, rest) =>
      if cmd = ascii "pub" then
        messageLoop conn receiveTime (s.doPublish topic content receiveTime) rest
      else if cmd = ascii "sub" then messageLoop conn receiveTime (s.doSubscribe conn topic) rest
      else if cmd = ascii "unsub" then
        messageLoop conn receiveTime (s.doUnsubscribe conn topic) rest
      else (s.modify conn Connection.shutdown, rest)
termination_by buf.length
decreasing_by all_goals exact parseMessage_lt _h

/-- `onMessage`, when more bytes have arrived. -/
def onMessage (s : PubSubServer) (conn : Conn) (bytes : Bytes) (receiveTime : Timestamp) :
    PubSubServer :=
  let r := messageLoop conn receiveTime s ((s.connections conn).inputBuffer ++ bytes)
  r.1.modify conn fun c => { c with inputBuffer := r.2 }

end PubSubServer

/-! ### The loop -/

/-- What the loop calls the server for. -/
inductive Action where
  | up (conn : Conn)
  | message (conn : Conn) (bytes : Bytes) (receiveTime : Timestamp)
  | down (conn : Conn)
  | timer (now : Timestamp)
deriving DecidableEq

inductive Failure where
  /-- A subscription is read, and the set walked on from it, after it was erased. -/
  | dangling
  /-- No loop calls so. -/
  | impossible
deriving DecidableEq

/-- The connection has been up and is not down. -/
def Connection.established (c : Connection) : Prop :=
  c.state = .kConnected ∨ c.state = .kDisconnecting

instance (c : Connection) : Decidable c.established := inferInstanceAs (Decidable (_ ∨ _))

/-- One callback.  `toFormattedString` is the text of a time. -/
def step (toFormattedString : Timestamp → Bytes) :
    Action → PubSubServer → Except Failure PubSubServer
  | .up conn, s =>
      if (s.connections conn).state = .kConnecting then
        .ok (s.modify conn fun c => { c with state := .kConnected, context := [] })
      else .error .impossible
  | .message conn bytes receiveTime, s =>
      if (s.connections conn).established then .ok (s.onMessage conn bytes receiveTime)
      else .error .impossible
  | .down conn, s =>
      if (s.connections conn).established then
        if (s.connections conn).context = [] then
          .ok (s.modify conn fun c => { c with state := .kDisconnected })
        else .error .dangling
      else .error .impossible
  | .timer now, s => .ok (s.doPublish (ascii "utc_time") (toFormattedString now) now)

/-! ### `PubSubClient` -/

/-- The texts of `subscribe`, `unsubscribe` and `publish`. -/
inductive Request where
  | publish (topic content : Bytes)
  | subscribe (topic : Bytes)
  | unsubscribe (topic : Bytes)
deriving DecidableEq

def Request.text : Request → Bytes
  | .publish topic content => ascii "pub " ++ topic ++ crlf ++ content ++ crlf
  | .subscribe topic => ascii "sub " ++ topic ++ crlf
  | .unsubscribe topic => ascii "unsub " ++ topic ++ crlf

/-- A client: what its callback has been called with, and whether the connection was shut down. -/
structure PubSubClient where
  called : List (Bytes × Bytes) := []
  shutdown : Bool := false
deriving DecidableEq

/-- The loop of `onMessage`, once there is a callback. -/
def PubSubClient.messageLoop (c : PubSubClient) (buf : Bytes) : PubSubClient × Bytes :=
  match _h : parseMessage buf with
  | (.kContinue, buf) => (c, buf)
  | (.kError, buf) => ({ c with shutdown := true }, buf)
  | (.kSuccess ⟨cmd, topic, content⟩, rest) =>
      if cmd = ascii "pub" then
        messageLoop { c with called := c.called ++ [(topic, content)] } rest
      else messageLoop c rest
termination_by buf.length
decreasing_by all_goals exact parseMessage_lt _h

/-- `onMessage` for each of the pieces in which bytes arrive. -/
def PubSubClient.receive (c : PubSubClient × Bytes) (pieces : List Bytes) : PubSubClient × Bytes :=
  pieces.foldl (fun c bytes => c.1.messageLoop (c.2 ++ bytes)) c

end PubSub
