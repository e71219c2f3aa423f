/-
What the hub sends, told from what has happened.

A history is the list of what has happened, with the newest in front.  It says who is
subscribed to what, what was published last on a topic and, of every connection, what must
have been delivered to it: each publication on a topic at the time of which it was subscribed,
once, and the last one of a topic that it subscribes to.

The server keeps none of this as a history.  It keeps two sets that must not drift apart, the
audiences of each topic and the subscriptions of each connection, and the last publication.
Every callback leaves it in agreement with the history of the run, and so the connections have
been sent what the history says.
-/
import Muduo.Examples.Hub

namespace PubSub

open Lib Net

/-! ### Histories -/

inductive Event where
  | up (conn : Conn)
  | down (conn : Conn)
  | shutdown (conn : Conn)
  /-- By a connection, or by the server itself. -/
  | publish (source : Option Conn) (topic content : Bytes) (time : Timestamp)
  | subscribe (conn : Conn) (topic : Bytes)
  | unsubscribe (conn : Conn) (topic : Bytes)
deriving DecidableEq

/-- What `conn` says is sent. -/
def isOpen (conn : Conn) : List Event → Bool
  | [] => false
  | .up c :: h => c == conn || isOpen conn h
  | .down c :: h => c != conn && isOpen conn h
  | .shutdown c :: h => c != conn && isOpen conn h
  | _ :: h => isOpen conn h

def subscribed (conn : Conn) (topic : Bytes) : List Event → Bool
  | [] => false
  | .subscribe c t :: h => (c == conn && t == topic) || subscribed conn topic h
  | .unsubscribe c t :: h => !(c == conn && t == topic) && subscribed conn topic h
  | _ :: h => subscribed conn topic h

/-- The last publication, and its time: none is valid before the first one. -/
def lastPublished (topic : Bytes) : List Event → Bytes × Timestamp
  | [] => ([], 0)
  | .publish _ t content time :: h => if t = topic then (content, time) else lastPublished topic h
  | _ :: h => lastPublished topic h

/-- The topics and contents that a connection must have been sent, in their order. -/
def delivered (conn : Conn) : List Event → List (Bytes × Bytes)
  | [] => []
  | .publish _ topic content _ :: h =>
      delivered conn h ++ if isOpen conn h && subscribed conn topic h then [(topic, content)] else []
  | .subscribe c topic :: h =>
      delivered conn h ++
        if c == conn && isOpen conn h && decide (0 < (lastPublished topic h).2) then
          [(topic, (lastPublished topic h).1)]
        else []
  | _ :: h => delivered conn h

/-! ### What happens in a run -/

/-- What a message of `conn` makes happen. -/
def Message.event (conn : Conn) (receiveTime : Timestamp) (m : Message) : Event :=
  if m.cmd = ascii "pub" then .publish (some conn) m.topic m.content receiveTime
  else if m.cmd = ascii "sub" then .subscribe conn m.topic
  else if m.cmd = ascii "unsub" then .unsubscribe conn m.topic
  else .shutdown conn

/-- What the bytes in the buffer of `conn` make happen, in its order, and those that are left. -/
def eventsIn (conn : Conn) (receiveTime : Timestamp) (buf : Bytes) : List Event × Bytes :=
  match _h : parseMessage buf with
  | (.kContinue, buf) => ([], buf)
  | (.kError, buf) => ([.shutdown conn], buf)
  | (.kSuccess m, rest) =>
      if m.event conn receiveTime = .shutdown conn then ([.shutdown conn], rest)
      else
        let r := eventsIn conn receiveTime rest
        (m.event conn receiveTime :: r.1, r.2)
termination_by buf.length
decreasing_by exact parseMessage_lt _h

/-- A history, and the bytes of each connection that wait for more. -/
structure Log where
  events : List Event
  pending : Conn → Bytes

def Log.init : Log := ⟨[], fun _ => []⟩

def Log.step (toFormattedString : Timestamp → Bytes) (l : Log) : Action → Log
  | .up conn => { l with events := .up conn :: l.events }
  | .down conn => { l with events := .down conn :: l.events }
  | .timer now =>
      { l with events :=
          .publish none (ascii "utc_time") (toFormattedString now) now :: l.events }
  | .message conn bytes receiveTime =>
      let r := eventsIn conn receiveTime (l.pending conn ++ bytes)
      ⟨r.1.reverse ++ l.events, Function.update l.pending conn r.2⟩

/-- What happens in a run. -/
def log (toFormattedString : Timestamp → Bytes) (acts : List Action) : Log :=
  acts.foldl (Log.step toFormattedString) .init

/-! ### The server does what happens -/

namespace PubSubServer

/-- What an event does. -/
def happen (s : PubSubServer) : Event → PubSubServer
  | .up conn => s.modify conn fun c => { c with state := .kConnected, context := [] }
  | .down conn => s.modify conn fun c => { c with state := .kDisconnected }
  | .shutdown conn => s.modify conn Connection.shutdown
  | .publish _ topic content time => s.doPublish topic content time
  | .subscribe conn topic => s.doSubscribe conn topic
  | .unsubscribe conn topic => s.doUnsubscribe conn topic

end PubSubServer

open PubSubServer

section

variable {conn : Conn} {time : Timestamp} {buf rest : Bytes} {m : Message}

theorem eventsIn_kContinue (h : parseMessage buf = (.kContinue, rest)) :
    eventsIn conn time buf = ([], rest) := by
  rw [eventsIn]
  split <;> simp_all

theorem eventsIn_kError (h : parseMessage buf = (.kError, rest)) :
    eventsIn conn time buf = ([.shutdown conn], rest) := by
  rw [eventsIn]
  split <;> simp_all

theorem eventsIn_unknown (h : parseMessage buf = (.kSuccess m, rest))
    (hm : m.event conn time = .shutdown conn) :
    eventsIn conn time buf = ([.shutdown conn], rest) := by
  rw [eventsIn]
  split <;> simp_all

theorem eventsIn_kSuccess (h : parseMessage buf = (.kSuccess m, rest))
    (hm : m.event conn time ≠ .shutdown conn) :
    eventsIn conn time buf =
      (m.event conn time :: (eventsIn conn time rest).1, (eventsIn conn time rest).2) := by
  rw [eventsIn]
  split <;> simp_all

theorem messageLoop_kContinue (h : parseMessage buf = (.kContinue, rest)) (s : PubSubServer) :
    messageLoop conn time s buf = (s, rest) := by
  rw [messageLoop]
  split <;> simp_all

theorem messageLoop_kError (h : parseMessage buf = (.kError, rest)) (s : PubSubServer) :
    messageLoop conn time s buf = (s.modify conn Connection.shutdown, rest) := by
  rw [messageLoop]
  split <;> simp_all

theorem messageLoop_kSuccess (h : parseMessage buf = (.kSuccess m, rest)) (s : PubSubServer) :
    messageLoop conn time s buf =
      if m.event conn time = .shutdown conn then (s.modify conn Connection.shutdown, rest)
      else messageLoop conn time (s.happen (m.event conn time)) rest := by
  conv_lhs => rw [messageLoop]
  obtain ⟨cmd, topic, content⟩ := m
  split
  · simp_all
  · simp_all
  · rename_i heq
    rw [h] at heq
    simp only [Prod.mk.injEq, ParseResult.kSuccess.injEq, Message.mk.injEq] at heq
    obtain ⟨⟨rfl, rfl, rfl⟩, rfl⟩ := heq
    unfold Message.event
    dsimp only
    by_cases hpub : cmd = ascii "pub"
    · simp only [if_pos hpub, happen, reduceCtorEq, if_false]
    · simp only [if_neg hpub]
      by_cases hsub : cmd = ascii "sub"
      · simp only [if_pos hsub, happen, reduceCtorEq, if_false]
      · simp only [if_neg hsub]
        by_cases hunsub : cmd = ascii "unsub"
        · simp only [if_pos hunsub, happen, reduceCtorEq, if_false]
        · simp only [if_neg hunsub, if_true]

end

/-- The loop of `onMessage` does what the bytes make happen. -/
theorem messageLoop_eq (conn : Conn) (time : Timestamp) (s : PubSubServer) (buf : Bytes) :
    messageLoop conn time s buf =
      ((eventsIn conn time buf).1.foldl happen s, (eventsIn conn time buf).2) := by
  induction buf using eventsIn.induct conn time generalizing s with
  | case1 buf rest h =>
      rw [messageLoop_kContinue h, eventsIn_kContinue h]
      rfl
  | case2 buf rest h =>
      rw [messageLoop_kError h, eventsIn_kError h]
      rfl
  | case3 buf m rest h hm =>
      rw [messageLoop_kSuccess h, if_pos hm, eventsIn_unknown h hm]
      rfl
  | case4 buf m rest h hm ih =>
      rw [messageLoop_kSuccess h, if_neg hm, ih, eventsIn_kSuccess h hm]
      rfl

/-! ### What the operations change -/

namespace PubSubServer

variable (s : PubSubServer) (conn : Conn) (topic : Bytes)

@[simp] theorem modify_connections (f : Connection → Connection) (c : Conn) :
    (s.modify conn f).connections c =
      if c = conn then f (s.connections conn) else s.connections c :=
  Function.update_apply _ _ _ _

@[simp] theorem modify_topics (f : Connection → Connection) :
    (s.modify conn f).topics = s.topics := rfl

@[simp] theorem modifyTopic_connections (f : Topic → Topic) :
    (s.modifyTopic topic f).connections = s.connections := rfl

@[simp] theorem modifyTopic_topics (f : Topic → Topic) (t : Bytes) :
    (s.modifyTopic topic f).topics t = if t = topic then f (s.topics topic) else s.topics t :=
  Function.update_apply _ _ _ _

@[simp] theorem send_topics (message : Bytes) : (s.send conn message).topics = s.topics := rfl

/-- One message for each of the audiences. -/
theorem foldl_send {audiences : List Conn} (h : audiences.Nodup) (message : Bytes) :
    (audiences.foldl (fun s conn => s.send conn message) s).topics = s.topics ∧
      ∀ c, (audiences.foldl (fun s conn => s.send conn message) s).connections c =
        if c ∈ audiences then (s.connections c).send message else s.connections c := by
  induction audiences generalizing s with
  | nil => exact ⟨rfl, fun c => (if_neg List.not_mem_nil).symm⟩
  | cons a audiences ih =>
      obtain ⟨ha, hnodup⟩ := List.nodup_cons.mp h
      obtain ⟨htopics, hconnections⟩ := ih (s.send a message) hnodup
      refine ⟨htopics, fun c => ?_⟩
      rw [List.foldl_cons, hconnections, send, modify_connections]
      by_cases hc : c = a
      · subst hc
        rw [if_neg ha, if_pos rfl, if_pos List.mem_cons_self]
      · simp only [List.mem_cons, hc, false_or, if_false]

end PubSubServer

@[simp] theorem Connection.send_context (c : Connection) (message : Bytes) :
    (c.send message).context = c.context := by
  unfold Connection.send
  split <;> rfl

@[simp] theorem Connection.send_state (c : Connection) (message : Bytes) :
    (c.send message).state = c.state := by
  unfold Connection.send
  split <;> rfl

@[simp] theorem Connection.send_inputBuffer (c : Connection) (message : Bytes) :
    (c.send message).inputBuffer = c.inputBuffer := by
  unfold Connection.send
  split <;> rfl

theorem Connection.send_sent (c : Connection) (message : Bytes) :
    (c.send message).sent = c.sent ++ if c.state = .kConnected then [message] else [] := by
  unfold Connection.send
  split
  · rfl
  · rw [List.append_nil]

@[simp] theorem Connection.shutdown_context (c : Connection) :
    c.shutdown.context = c.context := by
  unfold Connection.shutdown
  split <;> rfl

@[simp] theorem Connection.shutdown_sent (c : Connection) : c.shutdown.sent = c.sent := by
  unfold Connection.shutdown
  split <;> rfl

/-! ### Agreement -/

/-- The server as the history says it is. -/
structure Agrees (h : List Event) (s : PubSubServer) : Prop where
  topic : ∀ t, (s.topics t).topic = t
  last : ∀ t, ((s.topics t).content, (s.topics t).lastPubTime) = lastPublished t h
  nodup : ∀ t, (s.topics t).audiences.Nodup
  audiences : ∀ t c, c ∈ (s.topics t).audiences ↔ subscribed c t h = true
  set : ∀ c, (s.connections c).context.Nodup
  context : ∀ c t, t ∈ (s.connections c).context ↔ subscribed c t h = true
  connected : ∀ c, (s.connections c).state = .kConnected ↔ isOpen c h = true
  fresh : ∀ c, (s.connections c).state = .kConnecting → (s.connections c).context = []
  sent : ∀ c, (s.connections c).sent =
    (delivered c h).map fun p => (Request.publish p.1 p.2).text

theorem agrees_init : Agrees [] .init where
  topic _ := rfl
  last _ := rfl
  nodup _ := List.nodup_nil
  audiences _ _ := by simp [PubSubServer.init, subscribed]
  set _ := List.nodup_nil
  context _ _ := by simp [PubSubServer.init, subscribed]
  connected _ := by simp [PubSubServer.init, isOpen]
  fresh _ _ := rfl
  sent _ := rfl

namespace Agrees

variable {h : List Event} {s : PubSubServer}

theorem makeMessage (ha : Agrees h s) (t : Bytes) :
    (s.topics t).makeMessage = (Request.publish t (lastPublished t h).1).text := by
  rw [Topic.makeMessage, ha.topic, ← ha.last]
  rfl

theorem publish (ha : Agrees h s) (source : Option Conn) (topic content : Bytes)
    (time : Timestamp) :
    Agrees (.publish source topic content time :: h) (s.doPublish topic content time) := by
  have hnodup := ha.nodup topic
  have hmessage : (s.modifyTopic topic fun t => { t with content, lastPubTime := time }).topics
      topic = { s.topics topic with content, lastPubTime := time } := by simp
  obtain ⟨htopics, hconnections⟩ := foldl_send
    (s.modifyTopic topic fun t => { t with content, lastPubTime := time }) hnodup
    (Request.publish topic content).text
  have hpublish : s.doPublish topic content time =
      (s.topics topic).audiences.foldl (fun s conn => s.send conn (Request.publish topic content).text)
        (s.modifyTopic topic fun t => { t with content, lastPubTime := time }) := by
    unfold doPublish
    simp only [hmessage, Topic.makeMessage, ha.topic]
    rfl
  rw [← hpublish] at htopics hconnections
  simp only [modifyTopic_connections] at hconnections
  have hstate : ∀ c, ((s.doPublish topic content time).connections c).state =
      (s.connections c).state := fun c => by rw [hconnections]; split <;> simp
  have hcontext : ∀ c, ((s.doPublish topic content time).connections c).context =
      (s.connections c).context := fun c => by rw [hconnections]; split <;> simp
  refine ⟨fun t => ?_, fun t => ?_, fun t => ?_, fun t c => ?_, fun c => ?_, fun c t => ?_,
    fun c => ?_, fun c => ?_, fun c => ?_⟩
  · rw [htopics, modifyTopic_topics]
    split <;> simp_all [ha.topic]
  · rw [htopics, modifyTopic_topics, lastPublished]
    by_cases ht : t = topic
    · rw [if_pos ht, if_pos ht.symm]
    · rw [if_neg ht, if_neg (Ne.symm ht), ha.last]
  · rw [htopics, modifyTopic_topics]
    split <;> simp_all [ha.nodup]
  · rw [htopics, modifyTopic_topics]
    split
    · rename_i ht
      rw [ht]
      exact ha.audiences topic c
    · exact ha.audiences t c
  · rw [hcontext]
    exact ha.set c
  · rw [hcontext]
    exact ha.context c t
  · rw [hstate]
    exact ha.connected c
  · rw [hstate, hcontext]
    exact ha.fresh c
  · rw [hconnections, delivered, List.map_append, ← ha.sent]
    have hmem := ha.audiences topic c
    have hopen := ha.connected c
    by_cases hsub : c ∈ (s.topics topic).audiences
    · rw [if_pos hsub, Connection.send_sent, hmem.mp hsub, Bool.and_true]
      by_cases hstate : (s.connections c).state = .kConnected
      · rw [if_pos hstate, hopen.mp hstate]
        rfl
      · rw [if_neg hstate, if_neg fun hc => hstate (hopen.mpr hc)]
        rfl
    · rw [if_neg hsub, if_neg]
      · rw [List.map_nil, List.append_nil]
      · rw [Bool.and_eq_true]
        exact fun hc => hsub (hmem.mpr hc.2)

/-- A subscription, before the topic's last publication is sent. -/
def listed (s : PubSubServer) (conn : Conn) (topic : Bytes) : PubSubServer :=
  (s.modify conn fun c => { c with context := c.context.insert topic }).modifyTopic topic
    fun t => { t with audiences := t.audiences.insert conn }

theorem listed_connections (s : PubSubServer) (conn : Conn) (topic : Bytes) (c : Conn) :
    (listed s conn topic).connections c =
      if c = conn then
        { s.connections c with context := (s.connections c).context.insert topic }
      else s.connections c := by
  unfold listed
  rw [modifyTopic_connections, modify_connections]
  split
  · rename_i hc
    rw [hc]
  · rfl

theorem listed_topics (s : PubSubServer) (conn : Conn) (topic t : Bytes) :
    (listed s conn topic).topics t =
      if t = topic then { s.topics t with audiences := (s.topics t).audiences.insert conn }
      else s.topics t := by
  unfold listed
  rw [modifyTopic_topics, modify_topics]
  split
  · rename_i ht
    rw [ht]
  · rfl

theorem subscribe (ha : Agrees h s) {conn : Conn} (hconn : (s.connections conn).state ≠ .kConnecting)
    (topic : Bytes) : Agrees (.subscribe conn topic :: h) (s.doSubscribe conn topic) := by
  have hlast := ha.last topic
  have hsubscribe : s.doSubscribe conn topic =
      if 0 < (lastPublished topic h).2 then
        (listed s conn topic).send conn (Request.publish topic (lastPublished topic h).1).text
      else listed s conn topic := by
    have htopic : (listed s conn topic).topics topic =
        { s.topics topic with audiences := (s.topics topic).audiences.insert conn } := by
      rw [listed_topics, if_pos rfl]
    rw [← ha.makeMessage topic, ← hlast]
    show (if 0 < ((listed s conn topic).topics topic).lastPubTime then
      (listed s conn topic).send conn ((listed s conn topic).topics topic).makeMessage
        else listed s conn topic) = _
    rw [htopic]
    rfl
  have htopics : (s.doSubscribe conn topic).topics = (listed s conn topic).topics := by
    rw [hsubscribe]
    split <;> rfl
  have hconnections : ∀ c, (s.doSubscribe conn topic).connections c =
      if c = conn ∧ 0 < (lastPublished topic h).2 then
        ((listed s conn topic).connections c).send
          (Request.publish topic (lastPublished topic h).1).text
      else (listed s conn topic).connections c := by
    intro c
    rw [hsubscribe]
    by_cases htime : 0 < (lastPublished topic h).2
    · rw [if_pos htime, PubSubServer.send, modify_connections]
      by_cases hc : c = conn
      · rw [if_pos hc, if_pos ⟨hc, htime⟩, hc]
      · rw [if_neg hc, if_neg fun h => hc h.1]
    · rw [if_neg htime, if_neg fun h => htime h.2]
  have hstate : ∀ c, ((s.doSubscribe conn topic).connections c).state =
      (s.connections c).state := by
    intro c
    rw [hconnections, listed_connections]
    split <;> split <;> simp
  have hcontext : ∀ c, ((s.doSubscribe conn topic).connections c).context =
      if c = conn then (s.connections c).context.insert topic else (s.connections c).context := by
    intro c
    rw [hconnections, listed_connections]
    split <;> split <;> simp
  refine ⟨fun t => ?_, fun t => ?_, fun t => ?_, fun t c => ?_, fun c => ?_, fun c t => ?_,
    fun c => ?_, fun c => ?_, fun c => ?_⟩
  · rw [htopics, listed_topics]
    split <;> exact ha.topic t
  · rw [htopics, listed_topics]
    split <;> exact ha.last t
  · rw [htopics, listed_topics]
    split
    · exact (ha.nodup t).insert
    · exact ha.nodup t
  · have haud := ha.audiences t c
    rw [htopics, listed_topics, subscribed, Bool.or_eq_true, Bool.and_eq_true, beq_iff_eq,
      beq_iff_eq, ← haud]
    split
    · rename_i ht
      simp [ht, eq_comm]
    · rename_i ht
      simp [Ne.symm ht]
  · rw [hcontext]
    split
    · exact (ha.set c).insert
    · exact ha.set c
  · have hctx := ha.context c t
    rw [hcontext, subscribed, Bool.or_eq_true, Bool.and_eq_true, beq_iff_eq, beq_iff_eq, ← hctx]
    split
    · rename_i hc
      simp [hc, eq_comm]
    · rename_i hc
      simp [Ne.symm hc]
  · rw [hstate]
    exact ha.connected c
  · rw [hstate, hcontext]
    intro hfresh
    rw [if_neg fun hc : c = conn => hconn (hc ▸ hfresh)]
    exact ha.fresh c hfresh
  · have hlisted : ((listed s conn topic).connections c).state = (s.connections c).state ∧
        ((listed s conn topic).connections c).sent = (s.connections c).sent := by
      rw [listed_connections]
      split <;> exact ⟨rfl, rfl⟩
    have hopen := ha.connected c
    rw [hconnections, delivered, List.map_append, ← ha.sent]
    by_cases hreplay : c = conn ∧ 0 < (lastPublished topic h).2
    · rw [if_pos hreplay, Connection.send_sent, hlisted.1, hlisted.2, hreplay.1]
      rw [hreplay.1] at hopen
      by_cases hstate : (s.connections conn).state = .kConnected
      · simp [hstate, hopen.mp hstate, hreplay.2]
      · rw [if_neg hstate, if_neg, List.map_nil]
        simp only [Bool.and_eq_true, not_and]
        exact fun hc => absurd (hopen.mpr hc.2) hstate
    · rw [if_neg hreplay, hlisted.2, if_neg, List.map_nil, List.append_nil]
      simp only [Bool.and_eq_true, beq_iff_eq, decide_eq_true_eq, not_and]
      exact fun hc htime => hreplay ⟨hc.1.symm, htime⟩

theorem unsubscribe (ha : Agrees h s) (conn : Conn) (topic : Bytes) :
    Agrees (.unsubscribe conn topic :: h) (s.doUnsubscribe conn topic) := by
  have hconnections : ∀ c, (s.doUnsubscribe conn topic).connections c =
      if c = conn then { s.connections c with context := (s.connections c).context.erase topic }
      else s.connections c := by
    intro c
    unfold doUnsubscribe
    rw [modifyTopic_connections, modify_connections]
    split
    · rename_i hc
      rw [hc]
    · rfl
  have htopics : ∀ t, (s.doUnsubscribe conn topic).topics t =
      if t = topic then { s.topics t with audiences := (s.topics t).audiences.erase conn }
      else s.topics t := by
    intro t
    unfold doUnsubscribe
    rw [modifyTopic_topics, modify_topics]
    split
    · rename_i ht
      rw [ht]
    · rfl
  have hsubscribed : ∀ c t, subscribed c t (.unsubscribe conn topic :: h) = true ↔
      ¬(conn = c ∧ topic = t) ∧ subscribed c t h = true := by
    intro c t
    rw [subscribed, Bool.and_eq_true, Bool.not_eq_true', ← Bool.not_eq_true, Bool.and_eq_true,
      beq_iff_eq, beq_iff_eq]
  refine ⟨fun t => ?_, fun t => ?_, fun t => ?_, fun t c => ?_, fun c => ?_, fun c t => ?_,
    fun c => ?_, fun c => ?_, fun c => ?_⟩
  · rw [htopics]
    split <;> exact ha.topic t
  · rw [htopics]
    split <;> exact ha.last t
  · rw [htopics]
    split
    · exact (ha.nodup t).erase conn
    · exact ha.nodup t
  · rw [htopics, hsubscribed, ← ha.audiences]
    split
    · rename_i ht
      subst ht
      show c ∈ (s.topics t).audiences.erase conn ↔ _
      rw [(ha.nodup t).mem_erase_iff]
      simp [eq_comm]
    · rename_i ht
      simp [Ne.symm ht]
  · rw [hconnections]
    split
    · exact (ha.set c).erase topic
    · exact ha.set c
  · rw [hconnections, hsubscribed, ← ha.context]
    split
    · rename_i hc
      subst hc
      show t ∈ (s.connections c).context.erase topic ↔ _
      rw [(ha.set c).mem_erase_iff]
      simp [eq_comm]
    · rename_i hc
      simp [Ne.symm hc]
  · rw [hconnections]
    split <;> exact ha.connected c
  · rw [hconnections]
    split
    · intro hfresh
      exact List.eq_nil_of_subset_nil (ha.fresh c hfresh ▸ List.erase_subset)
    · exact ha.fresh c
  · rw [hconnections]
    split <;> exact ha.sent c

/-- Only the state of one connection changes. -/
theorem modify_state (ha : Agrees h s) {conn : Conn} {f : Connection → Connection} {e : Event}
    (hcontext : (f (s.connections conn)).context = (s.connections conn).context)
    (hsent : (f (s.connections conn)).sent = (s.connections conn).sent)
    (hfresh : (f (s.connections conn)).state ≠ .kConnecting)
    (hopen : (f (s.connections conn)).state = .kConnected ↔ isOpen conn (e :: h) = true)
    (hother : ∀ c, c ≠ conn → isOpen c (e :: h) = isOpen c h)
    (he : (∀ c t, subscribed c t (e :: h) = subscribed c t h) ∧
      (∀ t, lastPublished t (e :: h) = lastPublished t h) ∧
      ∀ c, delivered c (e :: h) = delivered c h) :
    Agrees (e :: h) (s.modify conn f) := by
  refine ⟨ha.topic, fun t => ?_, ha.nodup, fun t c => ?_, fun c => ?_, fun c t => ?_,
    fun c => ?_, fun c => ?_, fun c => ?_⟩
  · rw [he.2.1]
    exact ha.last t
  · rw [he.1]
    exact ha.audiences t c
  · rw [modify_connections]
    split
    · rw [hcontext]
      exact ha.set conn
    · exact ha.set c
  · rw [modify_connections, he.1, ← ha.context]
    split
    · rename_i hc
      rw [hcontext, hc]
    · rfl
  · rw [modify_connections]
    split
    · rename_i hc
      rw [hc]
      exact hopen
    · rename_i hc
      rw [hother c hc]
      exact ha.connected c
  · rw [modify_connections]
    split
    · exact fun hc => absurd hc hfresh
    · exact ha.fresh c
  · rw [modify_connections, he.2.2, ← ha.sent]
    split
    · rename_i hc
      rw [hsent, hc]
    · rfl

theorem up (ha : Agrees h s) {conn : Conn} (hconn : (s.connections conn).state = .kConnecting) :
    Agrees (.up conn :: h)
      (s.modify conn fun c => { c with state := .kConnected, context := [] }) :=
  ha.modify_state (ha.fresh conn hconn).symm rfl (by simp) (by simp [isOpen])
    (fun c hc => by simp [isOpen, Ne.symm hc]) ⟨fun _ _ => rfl, fun _ => rfl, fun _ => rfl⟩

theorem down (ha : Agrees h s) (conn : Conn) :
    Agrees (.down conn :: h) (s.modify conn fun c => { c with state := .kDisconnected }) :=
  ha.modify_state rfl rfl (by simp) (by simp [isOpen])
    (fun c hc => by simp [isOpen, Ne.symm hc]) ⟨fun _ _ => rfl, fun _ => rfl, fun _ => rfl⟩

theorem shutdown (ha : Agrees h s) {conn : Conn}
    (hconn : (s.connections conn).state ≠ .kConnecting) :
    Agrees (.shutdown conn :: h) (s.modify conn Connection.shutdown) := by
  refine ha.modify_state (by simp) (by simp) ?_ ?_
    (fun c hc => by simp [isOpen, Ne.symm hc]) ⟨fun _ _ => rfl, fun _ => rfl, fun _ => rfl⟩
  · unfold Connection.shutdown
    split
    · simp
    · exact hconn
  · unfold Connection.shutdown
    split <;> simp_all [isOpen]

/-- Only a buffer changes. -/
theorem store (ha : Agrees h s) (conn : Conn) (buf : Bytes) :
    Agrees h (s.modify conn fun c => { c with inputBuffer := buf }) := by
  have hsame : ∀ c,
      ((s.modify conn fun c => { c with inputBuffer := buf }).connections c).context =
          (s.connections c).context ∧
        ((s.modify conn fun c => { c with inputBuffer := buf }).connections c).state =
          (s.connections c).state ∧
        ((s.modify conn fun c => { c with inputBuffer := buf }).connections c).sent =
          (s.connections c).sent := by
    intro c
    rw [modify_connections]
    split
    · rename_i hc
      rw [hc]
      exact ⟨rfl, rfl, rfl⟩
    · exact ⟨rfl, rfl, rfl⟩
  refine ⟨ha.topic, ha.last, ha.nodup, ha.audiences, fun c => ?_, fun c t => ?_, fun c => ?_,
    fun c => ?_, fun c => ?_⟩
  · rw [(hsame c).1]
    exact ha.set c
  · rw [(hsame c).1]
    exact ha.context c t
  · rw [(hsame c).2.1]
    exact ha.connected c
  · rw [(hsame c).1, (hsame c).2.1]
    exact ha.fresh c
  · rw [(hsame c).2.2]
    exact ha.sent c

end Agrees

/-! ### What the callbacks leave alone -/

/-- No bytes leave a buffer, and a connection that was up stays one that was. -/
def Keeps (s s' : PubSubServer) : Prop :=
  ∀ c, (s'.connections c).inputBuffer = (s.connections c).inputBuffer ∧
    ((s.connections c).state ≠ .kConnecting → (s'.connections c).state ≠ .kConnecting)

namespace Keeps

variable {s s' s'' : PubSubServer}

theorem refl (s : PubSubServer) : Keeps s s := fun _ => ⟨rfl, id⟩

theorem trans (h : Keeps s s') (h' : Keeps s' s'') : Keeps s s'' := fun c =>
  ⟨(h' c).1.trans (h c).1, fun hc => (h' c).2 ((h c).2 hc)⟩

theorem modify (s : PubSubServer) (conn : Conn) {f : Connection → Connection}
    (hf : ∀ c, (f c).inputBuffer = c.inputBuffer ∧
      (c.state ≠ .kConnecting → (f c).state ≠ .kConnecting)) : Keeps s (s.modify conn f) := by
  intro c
  rw [modify_connections]
  split
  · rename_i hc
    rw [hc]
    exact hf _
  · exact ⟨rfl, id⟩

theorem send (s : PubSubServer) (conn : Conn) (message : Bytes) :
    Keeps s (s.send conn message) :=
  modify s conn fun c => ⟨c.send_inputBuffer message, by rw [c.send_state message]; exact id⟩

theorem foldl_send (audiences : List Conn) (message : Bytes) (s : PubSubServer) :
    Keeps s (audiences.foldl (fun s conn => s.send conn message) s) := by
  induction audiences generalizing s with
  | nil => exact refl s
  | cons c audiences ih => exact (send s c message).trans (ih _)

theorem shutdown (s : PubSubServer) (conn : Conn) :
    Keeps s (s.modify conn Connection.shutdown) := by
  refine modify s conn fun c => ?_
  unfold Connection.shutdown
  split
  · exact ⟨rfl, fun _ => by simp⟩
  · exact ⟨rfl, id⟩

theorem publish (s : PubSubServer) (topic content : Bytes) (time : Timestamp) :
    Keeps s (s.doPublish topic content time) :=
  (show Keeps s (s.modifyTopic topic fun t => { t with content, lastPubTime := time }) from
    fun _ => ⟨rfl, id⟩).trans (foldl_send _ _ _)

theorem subscribe (s : PubSubServer) (conn : Conn) (topic : Bytes) :
    Keeps s (s.doSubscribe conn topic) := by
  have hlisted : Keeps s (Agrees.listed s conn topic) :=
    modify s conn (f := fun c => { c with context := c.context.insert topic }) fun _ => ⟨rfl, id⟩
  show Keeps s (if 0 < ((Agrees.listed s conn topic).topics topic).lastPubTime then
    (Agrees.listed s conn topic).send conn ((Agrees.listed s conn topic).topics topic).makeMessage
      else Agrees.listed s conn topic)
  split
  · exact hlisted.trans (send _ _ _)
  · exact hlisted

theorem unsubscribe (s : PubSubServer) (conn : Conn) (topic : Bytes) :
    Keeps s (s.doUnsubscribe conn topic) :=
  modify s conn (f := fun c => { c with context := c.context.erase topic }) fun _ => ⟨rfl, id⟩

end Keeps

/-! ### Runs -/

/-- Something that messages of `conn` make happen. -/
def Event.By (conn : Conn) : Event → Prop
  | .publish source _ _ _ => source = some conn
  | .subscribe c _ => c = conn
  | .unsubscribe c _ => c = conn
  | .shutdown c => c = conn
  | .up _ => False
  | .down _ => False

theorem event_by (conn : Conn) (time : Timestamp) (m : Message) : (m.event conn time).By conn := by
  unfold Message.event
  split
  · rfl
  · split
    · rfl
    · split <;> rfl

theorem eventsIn_by (conn : Conn) (time : Timestamp) (buf : Bytes) :
    ∀ e ∈ (eventsIn conn time buf).1, e.By conn := by
  induction buf using eventsIn.induct conn time with
  | case1 buf rest h => simp [eventsIn_kContinue h]
  | case2 buf rest h =>
      rw [eventsIn_kError h]
      simp [Event.By]
  | case3 buf m rest h hm =>
      rw [eventsIn_unknown h hm]
      simp [Event.By]
  | case4 buf m rest h hm ih =>
      rw [eventsIn_kSuccess h hm]
      intro e he
      rcases List.mem_cons.mp he with rfl | he
      · exact event_by conn time m
      · exact ih e he

theorem happen_spec {h : List Event} {s : PubSubServer} (ha : Agrees h s) {conn : Conn}
    (hconn : (s.connections conn).state ≠ .kConnecting) {e : Event} (he : e.By conn) :
    Agrees (e :: h) (s.happen e) ∧ Keeps s (s.happen e) := by
  cases e with
  | publish source topic content time =>
      exact ⟨ha.publish source topic content time, Keeps.publish s topic content time⟩
  | subscribe c topic =>
      cases he
      exact ⟨ha.subscribe hconn topic, Keeps.subscribe s conn topic⟩
  | unsubscribe c topic =>
      cases he
      exact ⟨ha.unsubscribe conn topic, Keeps.unsubscribe s conn topic⟩
  | shutdown c =>
      cases he
      exact ⟨ha.shutdown hconn, Keeps.shutdown s conn⟩
  | up c => exact absurd he id
  | down c => exact absurd he id

theorem happen_all {conn : Conn} {es : List Event} (hes : ∀ e ∈ es, e.By conn) {h : List Event}
    {s : PubSubServer} (ha : Agrees h s) (hconn : (s.connections conn).state ≠ .kConnecting) :
    Agrees (es.reverse ++ h) (es.foldl happen s) ∧ Keeps s (es.foldl happen s) := by
  induction es generalizing h s with
  | nil => exact ⟨ha, Keeps.refl s⟩
  | cons e es ih =>
      obtain ⟨ha', hkeeps⟩ := happen_spec ha hconn (hes e List.mem_cons_self)
      obtain ⟨ha'', hkeeps'⟩ := ih (fun e he => hes e (List.mem_cons_of_mem _ he)) ha'
        ((hkeeps conn).2 hconn)
      refine ⟨?_, hkeeps.trans hkeeps'⟩
      rwa [List.reverse_cons, List.append_assoc]

/-- The server and what has happened. -/
structure Follows (l : Log) (s : PubSubServer) : Prop where
  agrees : Agrees l.events s
  pending : ∀ c, (s.connections c).inputBuffer = l.pending c

theorem follows_init : Follows .init .init := ⟨agrees_init, fun _ => rfl⟩

namespace Follows

variable {toFormattedString : Timestamp → Bytes} {l : Log} {s s' : PubSubServer}

theorem message (hf : Follows l s) {conn : Conn} (hconn : (s.connections conn).established)
    (bytes : Bytes) (time : Timestamp) :
    Follows (l.step toFormattedString (.message conn bytes time)) (s.onMessage conn bytes time) := by
  have hne : (s.connections conn).state ≠ .kConnecting := by
    rcases hconn with h | h <;> rw [h] <;> simp
  obtain ⟨ha, hkeeps⟩ := happen_all (eventsIn_by conn time (l.pending conn ++ bytes)) hf.agrees hne
  have hmessage : s.onMessage conn bytes time =
      ((eventsIn conn time (l.pending conn ++ bytes)).1.foldl happen s).modify conn fun c =>
        { c with inputBuffer := (eventsIn conn time (l.pending conn ++ bytes)).2 } := by
    unfold onMessage
    rw [hf.pending, messageLoop_eq]
  rw [hmessage]
  refine ⟨ha.store conn _, fun c => ?_⟩
  rw [modify_connections]
  show _ = Function.update l.pending conn _ c
  rw [Function.update_apply]
  split
  · rfl
  · exact (hkeeps c).1.trans (hf.pending c)

theorem step (hf : Follows l s) {a : Action} (h : PubSub.step toFormattedString a s = .ok s') :
    Follows (l.step toFormattedString a) s' := by
  cases a with
  | up conn =>
      rw [PubSub.step] at h
      split at h
      · rename_i hconn
        cases h
        refine ⟨hf.agrees.up hconn, fun c => Eq.trans ?_ (hf.pending c)⟩
        rw [modify_connections]
        split
        · rename_i hc
          rw [hc]
        · rfl
      · cases h
  | message conn bytes receiveTime =>
      rw [PubSub.step] at h
      split at h
      · rename_i hconn
        cases h
        exact hf.message hconn bytes receiveTime
      · cases h
  | down conn =>
      rw [PubSub.step] at h
      split at h
      · split at h
        · cases h
          refine ⟨hf.agrees.down conn, fun c => Eq.trans ?_ (hf.pending c)⟩
          rw [modify_connections]
          split
          · rename_i hc
            rw [hc]
          · rfl
        · cases h
      · cases h
  | timer now =>
      cases h
      exact ⟨hf.agrees.publish none _ _ now, fun c =>
        (Keeps.publish s _ _ now c).1.trans (hf.pending c)⟩

theorem run (hf : Follows l s) {acts : List Action}
    (h : Lib.run (PubSub.step toFormattedString) acts s = .ok s') :
    Follows (acts.foldl (Log.step toFormattedString) l) s' := by
  induction acts generalizing l s with
  | nil =>
      cases h
      exact hf
  | cons a acts ih =>
      obtain ⟨t, ht, hrest⟩ := run_cons_ok h
      exact ih (hf.step ht) hrest

theorem down_iff (hf : Follows l s) (conn : Conn) :
    PubSub.step toFormattedString (.down conn) s = .error .dangling ↔
      (s.connections conn).established ∧ ∃ topic, subscribed conn topic l.events = true := by
  have hcontext : (s.connections conn).context = [] ↔
      ¬∃ topic, subscribed conn topic l.events = true := by
    rw [List.eq_nil_iff_forall_not_mem, not_exists]
    exact forall_congr' fun topic => not_congr (hf.agrees.context conn topic)
  rw [PubSub.step]
  by_cases hup : (s.connections conn).established
  · rw [if_pos hup]
    by_cases hnil : (s.connections conn).context = []
    · rw [if_pos hnil]
      simp [hup, hcontext.mp hnil]
    · rw [if_neg hnil]
      simp only [hup, true_and, true_iff]
      exact not_not.mp fun hno => hnil (hcontext.mpr hno)
  · rw [if_neg hup]
    simp [hup]

/-- Nothing else reads what was erased. -/
theorem dangling_eq {a : Action} (h : PubSub.step toFormattedString a s = .error .dangling) :
    ∃ conn, a = .down conn := by
  cases a with
  | up conn =>
      rw [PubSub.step] at h
      split at h <;> cases h
  | message conn bytes receiveTime =>
      rw [PubSub.step] at h
      split at h <;> cases h
  | down conn => exact ⟨conn, rfl⟩
  | timer now => cases h

theorem dangling_iff (hf : Follows l s) (acts : List Action) :
    Lib.run (PubSub.step toFormattedString) acts s = .error .dangling ↔
      ∃ before conn after t, acts = before ++ .down conn :: after ∧
        Lib.run (PubSub.step toFormattedString) before s = .ok t ∧
        (t.connections conn).established ∧
        ∃ topic, subscribed conn topic (before.foldl (Log.step toFormattedString) l).events =
          true := by
  constructor
  · intro h
    induction acts generalizing l s with
    | nil => cases h
    | cons a acts ih =>
        cases hstep : PubSub.step toFormattedString a s with
        | ok t =>
            rw [run_cons_of_ok hstep] at h
            obtain ⟨before, conn, after, t', rfl, hrun, hup, topic, hsub⟩ := ih (hf.step hstep) h
            exact ⟨a :: before, conn, after, t', rfl, (run_cons_of_ok hstep before).trans hrun, hup,
              topic, hsub⟩
        | error e =>
            rw [Lib.run, hstep] at h
            cases h
            obtain ⟨conn, rfl⟩ := dangling_eq hstep
            obtain ⟨hup, topic, hsub⟩ := (hf.down_iff conn).mp hstep
            exact ⟨[], conn, acts, s, rfl, rfl, hup, topic, hsub⟩
  · rintro ⟨before, conn, after, t, rfl, hrun, hup, hsub⟩
    rw [run_append_of_ok hrun, Lib.run, ((hf.run hrun).down_iff conn).mpr ⟨hup, hsub⟩]
    rfl

end Follows

/-- **The hub.**  Behind every run every connection has been sent what the history of the run says,
each publication once, and it is among the audiences of the topics of its subscriptions. -/
theorem hub_delivers {toFormattedString : Timestamp → Bytes} {acts : List Action}
    {s : PubSubServer} (h : run (step toFormattedString) acts .init = .ok s) (conn : Conn) :
    (s.connections conn).sent =
        (delivered conn (log toFormattedString acts).events).map
          (fun p => (Request.publish p.1 p.2).text) ∧
      ∀ topic, (conn ∈ (s.topics topic).audiences ↔ topic ∈ (s.connections conn).context) ∧
        (topic ∈ (s.connections conn).context ↔
          subscribed conn topic (log toFormattedString acts).events = true) := by
  have ha := (follows_init.run h).agrees
  exact ⟨ha.sent conn, fun topic =>
    ⟨(ha.audiences topic conn).trans (ha.context conn topic).symm, ha.context conn topic⟩⟩

/-- Two subscribers of a topic and a publisher of it, whose request comes in two pieces. -/
def smallHub : List Action :=
  [.up 0, .up 1, .message 0 (ascii "sub a\r\n") 5, .message 1 (ascii "pub a\r\n1\r\npub a\r\n") 6,
    .message 1 (ascii "2\r\nsub a\r\n") 7, .message 0 (ascii "unsub a\r\n") 8, .timer 9]

theorem smallHub_ok : (run (step fun _ => []) smallHub .init).isOk = true := by decide +kernel

theorem smallHub_delivers : ∃ s, run (step fun _ => []) smallHub .init = .ok s ∧
    (s.connections 0).sent =
      (delivered 0 (log (fun _ => []) smallHub).events).map
        (fun p => (Request.publish p.1 p.2).text) := by
  cases h : run (step fun _ => []) smallHub .init with
  | ok s => exact ⟨s, rfl, (hub_delivers h 0).1⟩
  | error e =>
      have hok := smallHub_ok
      rw [h] at hok
      cases hok

/-- **When the hub goes wrong.**  A run reads what was erased exactly if a connection goes down in
it that is subscribed to something. -/
theorem hub_dangles_iff (toFormattedString : Timestamp → Bytes) (acts : List Action) :
    run (step toFormattedString) acts .init = .error .dangling ↔
      ∃ before conn after s, acts = before ++ .down conn :: after ∧
        run (step toFormattedString) before .init = .ok s ∧ (s.connections conn).established ∧
        ∃ topic, subscribed conn topic (log toFormattedString before).events = true :=
  follows_init.dangling_iff acts

end PubSub
