/-
The hub and its clients on the wire.

A request is one line or two, and a connection delivers its bytes in pieces that end anywhere.
A request is handled when it has arrived to its end and not before, so that the pieces do not
matter: the hub takes the requests that a client has made, in their order, and a client is
called with what the hub has delivered to it.
-/
import Muduo.Proofs.HubHistory

namespace PubSub

open Lib Net

/-! ### Requests -/

/-- Texts that a line can hold. -/
def Request.Valid : Request → Prop
  | .publish topic content => crlf? topic = none ∧ crlf? content = none
  | .subscribe topic => crlf? topic = none
  | .unsubscribe topic => crlf? topic = none

instance : DecidablePred Request.Valid
  | .publish _ _ => inferInstanceAs (Decidable (_ ∧ _))
  | .subscribe _ => inferInstanceAs (Decidable (_ = _))
  | .unsubscribe _ => inferInstanceAs (Decidable (_ = _))

/-- What `parseMessage` finds of a request. -/
def Request.message : Request → Message
  | .publish topic content => ⟨ascii "pub", topic, content⟩
  | .subscribe topic => ⟨ascii "sub", topic, []⟩
  | .unsubscribe topic => ⟨ascii "unsub", topic, []⟩

/-- The first line of a request. -/
def Request.line : Request → Bytes
  | .publish topic _ => ascii "pub " ++ topic
  | .subscribe topic => ascii "sub " ++ topic
  | .unsubscribe topic => ascii "unsub " ++ topic

/-- What follows it. -/
def Request.body : Request → Bytes
  | .publish _ content => content ++ crlf
  | .subscribe _ => []
  | .unsubscribe _ => []

theorem Request.text_eq (r : Request) : r.text = r.line ++ crlf ++ r.body := by
  cases r <;> simp [text, line, body]

/-- A word without a CR in it in front of a line. -/
theorem crlf?_word {w : Bytes} (hw : 13 ∉ w) {b : Bytes} (h : crlf? b = none) :
    crlf? (w ++ b) = none := by
  induction w with
  | nil => exact h
  | cons x w ih =>
      rw [List.mem_cons, not_or] at hw
      exact crlf?_cons_eq_none.mpr ⟨fun hc => hw.1 hc.1.symm, ih hw.2⟩

theorem crlf?_of_suffix {a b : Bytes} (h : crlf? (a ++ b) = none) : crlf? b = none := by
  induction a with
  | nil => exact h
  | cons x a ih => exact ih (crlf?_cons_eq_none.mp h).2

theorem Request.line_valid {r : Request} (h : r.Valid) : crlf? r.line = none := by
  cases r with
  | publish topic content => exact crlf?_word (by decide) h.1
  | subscribe topic => exact crlf?_word (by decide) h
  | unsubscribe topic => exact crlf?_word (by decide) h

theorem Request.cutAt_line (r : Request) :
    cutAt 32 r.line = some (r.message.cmd, r.message.topic) := by
  cases r with
  | publish topic content => exact cutAt_append (l := ascii "pub") (by decide) topic
  | subscribe topic => exact cutAt_append (l := ascii "sub") (by decide) topic
  | unsubscribe topic => exact cutAt_append (l := ascii "unsub") (by decide) topic

/-- When the line is there. -/
theorem parseMessage_line {r : Request} (h : r.Valid) (rest : Bytes) :
    parseMessage (r.line ++ crlf ++ rest) =
      if r.message.cmd = ascii "pub" then
        (crlf? rest).elim (.kContinue, r.line ++ crlf ++ rest) fun n =>
          (.kSuccess ⟨r.message.cmd, r.message.topic, rest.take n⟩, rest.drop (n + 2))
      else (.kSuccess ⟨r.message.cmd, r.message.topic, []⟩, rest) := by
  have htake : (r.line ++ crlf ++ rest).take r.line.length = r.line := by
    rw [List.append_assoc, List.take_left]
  have hdrop : (r.line ++ crlf ++ rest).drop (r.line.length + 2) = rest := by
    rw [show r.line.length + 2 = (r.line ++ crlf).length by
      rw [List.length_append]
      rfl, List.drop_left]
  unfold parseMessage
  simp only [crlf?_line (Request.line_valid h), htake, hdrop, Request.cutAt_line]
  by_cases hpub : r.message.cmd = ascii "pub"
  · rw [if_pos hpub, if_pos hpub]
    cases crlf? rest <;> rfl
  · rw [if_neg hpub, if_neg hpub]

/-- A request that has arrived. -/
theorem parseMessage_text {r : Request} (h : r.Valid) (rest : Bytes) :
    parseMessage (r.text ++ rest) = (.kSuccess r.message, rest) := by
  rw [r.text_eq, List.append_assoc, parseMessage_line h]
  cases r with
  | publish topic content =>
      have hline : crlf? (content ++ crlf ++ rest) = some content.length := crlf?_line h.2 rest
      have hpub : (Request.publish topic content).message.cmd = ascii "pub" := rfl
      rw [if_pos hpub, Request.body, hline, Option.elim_some, List.append_assoc, List.take_left,
        show content.length + 2 = (content ++ crlf).length by
          rw [List.length_append]
          rfl, ← List.append_assoc, List.drop_left]
      rfl
  | subscribe topic => exact if_neg (show ¬ascii "sub" = ascii "pub" by decide)
  | unsubscribe topic => exact if_neg (show ¬ascii "unsub" = ascii "pub" by decide)

theorem parseMessage_of_crlf?_none {b : Bytes} (h : crlf? b = none) :
    parseMessage b = (.kContinue, b) := by
  unfold parseMessage
  rw [h]

/-- A request that is arriving. -/
theorem parseMessage_arrived {r : Request} (h : r.Valid) {b y rest : Bytes}
    (hb : b ++ y = r.text ++ rest) :
    parseMessage b = (.kContinue, b) ∨ ∃ b', b = r.text ++ b' ∧ b' ++ y = rest := by
  rw [r.text_eq, List.append_assoc] at hb
  rcases arrived hb (Request.line_valid h) with hnone | ⟨b', rfl, hb'⟩
  · exact Or.inl (parseMessage_of_crlf?_none hnone)
  · cases r with
    | publish topic content =>
        rcases arrived hb' h.2 with hnone | ⟨b'', rfl, hb''⟩
        · refine Or.inl ?_
          have hpub : (Request.publish topic content).message.cmd = ascii "pub" := rfl
          rw [parseMessage_line h, if_pos hpub, hnone, Option.elim_none]
        · exact Or.inr ⟨b'', by rw [Request.text_eq, Request.body]; simp, hb''⟩
    | subscribe topic => exact Or.inr ⟨b', by rw [Request.text_eq, Request.body]; simp, hb'⟩
    | unsubscribe topic => exact Or.inr ⟨b', by rw [Request.text_eq, Request.body]; simp, hb'⟩

def texts (rs : List Request) : Bytes := rs.flatMap Request.text

theorem texts_cons (r : Request) (rs : List Request) : texts (r :: rs) = r.text ++ texts rs := rfl

/-- Requests that are arriving: those that have, and the beginning of the next one. -/
theorem texts_arrived {rs : List Request} (h : ∀ r ∈ rs, r.Valid) {b y : Bytes}
    (hb : b ++ y = texts rs) :
    ∃ rs₁ rs₂ tail, rs = rs₁ ++ rs₂ ∧ b = texts rs₁ ++ tail ∧ tail ++ y = texts rs₂ ∧
      parseMessage tail = (.kContinue, tail) := by
  induction rs generalizing b with
  | nil =>
      obtain ⟨rfl, rfl⟩ := List.append_eq_nil_iff.mp hb
      exact ⟨[], [], [], rfl, rfl, rfl, rfl⟩
  | cons r rs ih =>
      rcases parseMessage_arrived (h r List.mem_cons_self) hb with hnone | ⟨b', rfl, hb'⟩
      · exact ⟨[], r :: rs, b, rfl, rfl, hb, hnone⟩
      · obtain ⟨rs₁, rs₂, tail, rfl, rfl, htail, hnone⟩ :=
          ih (fun r hr => h r (List.mem_cons_of_mem _ hr)) hb'
        exact ⟨r :: rs₁, rs₂, tail, rfl, by rw [texts_cons, List.append_assoc], htail, hnone⟩

/-! ### The hub -/

/-- What a request of `conn` makes happen. -/
def Request.event (conn : Conn) (time : Timestamp) : Request → Event
  | .publish topic content => .publish (some conn) topic content time
  | .subscribe topic => .subscribe conn topic
  | .unsubscribe topic => .unsubscribe conn topic

theorem Request.message_event (conn : Conn) (time : Timestamp) (r : Request) :
    r.message.event conn time = r.event conn time ∧ r.event conn time ≠ .shutdown conn := by
  cases r with
  | publish topic content => exact ⟨rfl, by simp [event]⟩
  | subscribe topic => exact ⟨rfl, by simp [event]⟩
  | unsubscribe topic => exact ⟨rfl, by simp [event]⟩

theorem eventsIn_texts (conn : Conn) (time : Timestamp) {rs : List Request}
    (h : ∀ r ∈ rs, r.Valid) {tail : Bytes} (htail : parseMessage tail = (.kContinue, tail)) :
    eventsIn conn time (texts rs ++ tail) = (rs.map (Request.event conn time), tail) := by
  induction rs with
  | nil => exact eventsIn_kContinue htail
  | cons r rs ih =>
      obtain ⟨hevent, hne⟩ := r.message_event conn time
      have hparse := parseMessage_text (h r List.mem_cons_self) (texts rs ++ tail)
      rw [texts_cons, List.append_assoc, eventsIn_kSuccess hparse (hevent ▸ hne), hevent,
        ih fun r hr => h r (List.mem_cons_of_mem _ hr)]
      rfl

/-- The request of `conn` that an event is. -/
def Event.request (conn : Conn) : Event → Option Request
  | .publish source topic content _ =>
      if source = some conn then some (.publish topic content) else none
  | .subscribe c topic => if c = conn then some (.subscribe topic) else none
  | .unsubscribe c topic => if c = conn then some (.unsubscribe topic) else none
  | _ => none

/-- The requests of `conn`, in their order. -/
def taken (conn : Conn) (h : List Event) : List Request := h.reverse.filterMap (Event.request conn)

theorem taken_append (conn : Conn) (es h : List Event) :
    taken conn (es.reverse ++ h) = taken conn h ++ es.filterMap (Event.request conn) := by
  rw [taken, List.reverse_append, List.reverse_reverse, List.filterMap_append]
  rfl

theorem request_event (conn c : Conn) (time : Timestamp) (r : Request) :
    (r.event c time).request conn = if c = conn then some r else none := by
  cases r <;> simp [Request.event, Event.request]

theorem filterMap_request (conn : Conn) (time : Timestamp) (c : Conn) (rs : List Request) :
    (rs.map (Request.event c time)).filterMap (Event.request conn) =
      if c = conn then rs else [] := by
  induction rs with
  | nil => simp
  | cons r rs ih =>
      rw [List.map_cons, List.filterMap_cons, request_event, ih]
      by_cases hc : c = conn <;> simp [hc]

/-- The bytes that arrive from `conn` in a run. -/
def received (conn : Conn) : List Action → Bytes
  | [] => []
  | .message c bytes _ :: acts => (if c = conn then bytes else []) ++ received conn acts
  | _ :: acts => received conn acts

/-- Of the requests that `conn` makes, those that the history has, and the bytes of the others. -/
structure Serves (l : Log) (requests : List Request) (later : Bytes) (conn : Conn) : Prop where
  valid : ∀ r ∈ requests, r.Valid
  stopped : parseMessage (l.pending conn) = (.kContinue, l.pending conn)
  rest : ∃ waiting, requests = taken conn l.events ++ waiting ∧
    l.pending conn ++ later = texts waiting

namespace Serves

variable {l : Log} {requests : List Request} {later : Bytes} {conn : Conn}
  {toFormattedString : Timestamp → Bytes}

/-- When everything has arrived, everything is in it. -/
theorem all (hs : Serves l requests [] conn) : requests = taken conn l.events := by
  obtain ⟨waiting, hrequests, hbytes⟩ := hs.rest
  cases waiting with
  | nil => rwa [List.append_nil] at hrequests
  | cons r waiting =>
      have hvalid := hs.valid r (hrequests ▸ List.mem_append_right _ List.mem_cons_self)
      rw [List.append_nil] at hbytes
      have hparse := parseMessage_text hvalid (texts waiting)
      rw [← texts_cons, ← hbytes, hs.stopped] at hparse
      cases hparse

/-- Nothing of what `conn` has sent is in it. -/
theorem event (hs : Serves l requests later conn) {e : Event} (he : e.request conn = none) :
    Serves { l with events := e :: l.events } requests later conn := by
  refine ⟨hs.valid, hs.stopped, ?_⟩
  have htaken : taken conn (e :: l.events) = taken conn l.events := by
    rw [show e :: l.events = [e].reverse ++ l.events from rfl, taken_append]
    simp [he]
  show ∃ waiting, requests = taken conn (e :: l.events) ++ waiting ∧ _
  rw [htaken]
  exact hs.rest

/-- Bytes of it. -/
theorem own {bytes : Bytes} {time : Timestamp} (hs : Serves l requests (bytes ++ later) conn) :
    Serves (l.step toFormattedString (.message conn bytes time)) requests later conn := by
  obtain ⟨waiting, hrequests, hbytes⟩ := hs.rest
  have hvalid : ∀ r ∈ waiting, r.Valid := fun r hr =>
    hs.valid r (hrequests ▸ List.mem_append_right _ hr)
  rw [← List.append_assoc] at hbytes
  obtain ⟨rs₁, rs₂, tail, rfl, hb, htail, hnone⟩ := texts_arrived hvalid hbytes
  have hevents := eventsIn_texts conn time (fun r hr => hvalid r (List.mem_append_left _ hr)) hnone
  rw [← hb] at hevents
  have hpending : (l.step toFormattedString (.message conn bytes time)).pending conn = tail := by
    show Function.update l.pending conn _ conn = _
    rw [Function.update_self, hevents]
  refine ⟨hs.valid, by rwa [hpending], rs₂, ?_, by rwa [hpending]⟩
  show requests = taken conn ((eventsIn conn time _).1.reverse ++ l.events) ++ rs₂
  rw [hevents, taken_append, filterMap_request, if_pos rfl, hrequests, List.append_assoc]

/-- Bytes of somebody else. -/
theorem other (hs : Serves l requests later conn) {c : Conn} (hc : c ≠ conn) (bytes : Bytes)
    (time : Timestamp) :
    Serves (l.step toFormattedString (.message c bytes time)) requests later conn := by
  obtain ⟨waiting, hrequests, hbytes⟩ := hs.rest
  have hnone : ∀ e ∈ (eventsIn c time (l.pending c ++ bytes)).1, e.request conn = none := by
    intro e he
    have hby := eventsIn_by c time _ e he
    cases e <;> simp_all [Event.By, Event.request]
  have hpending : (l.step toFormattedString (.message c bytes time)).pending conn =
      l.pending conn := Function.update_of_ne hc.symm _ _
  refine ⟨hs.valid, by rw [hpending, hs.stopped], waiting, ?_, by rwa [hpending]⟩
  show requests = taken conn ((eventsIn c time _).1.reverse ++ l.events) ++ waiting
  rw [taken_append, List.filterMap_eq_nil_iff.mpr hnone, List.append_nil]
  exact hrequests

theorem run {acts : List Action} (hs : Serves l requests (received conn acts ++ later) conn) :
    Serves (acts.foldl (Log.step toFormattedString) l) requests later conn := by
  induction acts generalizing l with
  | nil => exact hs
  | cons a acts ih =>
      rw [List.foldl_cons]
      cases a with
      | up c => exact ih (hs.event rfl)
      | down c => exact ih (hs.event rfl)
      | timer now => exact ih (hs.event (by simp [Event.request]))
      | message c bytes time =>
          rw [received] at hs
          by_cases hc : c = conn
          · subst hc
            rw [if_pos rfl, List.append_assoc] at hs
            exact ih hs.own
          · rw [if_neg hc] at hs
            exact ih (hs.other hc bytes time)

end Serves

section

variable {buf rest : Bytes} {m : Message}

theorem clientLoop_kContinue (h : parseMessage buf = (.kContinue, rest)) (c : PubSubClient) :
    c.messageLoop buf = (c, rest) := by
  rw [PubSubClient.messageLoop]
  split <;> simp_all

theorem clientLoop_pub {topic content : Bytes}
    (h : parseMessage buf = (.kSuccess ⟨ascii "pub", topic, content⟩, rest)) (c : PubSubClient) :
    c.messageLoop buf =
      ({ c with called := c.called ++ [(topic, content)] } : PubSubClient).messageLoop rest := by
  conv_lhs => rw [PubSubClient.messageLoop]
  split <;> simp_all

end

/-- The requests that say what was published. -/
def publications (ps : List (Bytes × Bytes)) : List Request :=
  ps.map fun p => .publish p.1 p.2

theorem clientLoop_texts {ps : List (Bytes × Bytes)} (h : ∀ r ∈ publications ps, r.Valid)
    {tail : Bytes} (htail : parseMessage tail = (.kContinue, tail)) (c : PubSubClient) :
    c.messageLoop (texts (publications ps) ++ tail) =
      ({ c with called := c.called ++ ps }, tail) := by
  induction ps generalizing c with
  | nil =>
      rw [List.append_nil]
      exact clientLoop_kContinue htail c
  | cons p ps ih =>
      have hparse : parseMessage ((Request.publish p.1 p.2).text ++
          (texts (publications ps) ++ tail)) =
            (.kSuccess ⟨ascii "pub", p.1, p.2⟩, texts (publications ps) ++ tail) :=
        parseMessage_text (h _ List.mem_cons_self) _
      rw [publications, List.map_cons, texts_cons, List.append_assoc, ← publications,
        clientLoop_pub hparse, ih fun r hr => h r (List.mem_cons_of_mem _ hr), List.append_assoc]
      rfl

/-- The pieces that arrive of what was published. -/
theorem receive_texts {pieces : List Bytes} {ps : List (Bytes × Bytes)}
    (h : ∀ r ∈ publications ps, r.Valid) {tail later : Bytes}
    (htail : parseMessage tail = (.kContinue, tail))
    (hbytes : tail ++ pieces.flatten ++ later = texts (publications ps)) (c : PubSubClient) :
    ∃ ps₁ ps₂ tail', ps = ps₁ ++ ps₂ ∧
      PubSubClient.receive (c, tail) pieces = ({ c with called := c.called ++ ps₁ }, tail') ∧
      parseMessage tail' = (.kContinue, tail') ∧ tail' ++ later = texts (publications ps₂) := by
  induction pieces generalizing ps tail c with
  | nil =>
      refine ⟨[], ps, tail, rfl, ?_, htail, ?_⟩
      · rw [List.append_nil]
        rfl
      · rwa [List.flatten_nil, List.append_nil] at hbytes
  | cons piece pieces ih =>
      have hpiece : tail ++ piece ++ (pieces.flatten ++ later) = texts (publications ps) := by
        rw [← hbytes, List.flatten_cons]
        simp only [List.append_assoc]
      obtain ⟨rs₁, rs₂, tail', hrs, hb, hrest, hnone⟩ := texts_arrived h hpiece
      obtain ⟨ps₁, ps₂, rfl, rfl, rfl⟩ := List.map_eq_append_iff.mp hrs
      rw [← publications] at hb hrest
      have hvalid₁ : ∀ r ∈ publications ps₁, r.Valid := fun r hr => h r (by
        rw [publications, List.map_append]
        exact List.mem_append_left _ hr)
      have hvalid₂ : ∀ r ∈ publications ps₂, r.Valid := fun r hr => h r (by
        rw [publications, List.map_append]
        exact List.mem_append_right _ hr)
      rw [← List.append_assoc] at hrest
      obtain ⟨qs₁, qs₂, tail'', rfl, hreceive, hnone', hlater⟩ :=
        ih hvalid₂ hnone hrest { c with called := c.called ++ ps₁ }
      refine ⟨ps₁ ++ qs₁, qs₂, tail'', (List.append_assoc _ _ _).symm, ?_, hnone', hlater⟩
      show PubSubClient.receive (c.messageLoop (tail ++ piece)) pieces = _
      rw [hb, clientLoop_texts hvalid₁ hnone, hreceive, List.append_assoc]

/-! ### What the hub knows is text of lines -/

/-- Texts that a line can hold. -/
def Event.Valid : Event → Prop
  | .publish _ topic content _ => crlf? topic = none ∧ crlf? content = none
  | .subscribe _ topic => crlf? topic = none
  | _ => True

theorem parseMessage_valid {buf rest : Bytes} {m : Message}
    (h : parseMessage buf = (.kSuccess m, rest)) : crlf? m.topic = none ∧ crlf? m.content = none := by
  unfold parseMessage at h
  split at h
  · cases h
  · rename_i n hn
    obtain ⟨line, r, rfl, hline, rfl⟩ := crlf?_eq_some hn
    split at h
    · cases h
    · rename_i cmd topic hcut
      rw [List.append_assoc, List.take_left] at hcut
      have htopic : crlf? topic = none := by
        obtain ⟨rfl, -⟩ := cutAt_eq_some hcut
        exact crlf?_of_suffix (a := cmd ++ [32]) (by rwa [List.append_assoc])
      dsimp only at h
      split at h
      · split at h
        · rename_i k hk
          obtain ⟨content, r', hr', hcontent, rfl⟩ := crlf?_eq_some hk
          cases h
          refine ⟨htopic, ?_⟩
          show crlf? (List.take _ _) = none
          rwa [hr', List.append_assoc, List.take_left]
        · cases h
      · cases h
        exact ⟨htopic, rfl⟩

theorem eventsIn_valid (conn : Conn) (time : Timestamp) (buf : Bytes) :
    ∀ e ∈ (eventsIn conn time buf).1, e.Valid := by
  induction buf using eventsIn.induct conn time with
  | case1 buf rest h => simp [eventsIn_kContinue h]
  | case2 buf rest h =>
      rw [eventsIn_kError h]
      simp [Event.Valid]
  | case3 buf m rest h hm =>
      rw [eventsIn_unknown h hm]
      simp [Event.Valid]
  | case4 buf m rest h hm ih =>
      rw [eventsIn_kSuccess h hm]
      intro e he
      rcases List.mem_cons.mp he with rfl | he
      · obtain ⟨htopic, hcontent⟩ := parseMessage_valid h
        unfold Message.event
        split
        · exact ⟨htopic, hcontent⟩
        · split
          · exact htopic
          · split <;> trivial
      · exact ih e he

theorem log_valid {toFormattedString : Timestamp → Bytes}
    (hformat : ∀ now, crlf? (toFormattedString now) = none) {acts : List Action} {l : Log}
    (hl : ∀ e ∈ l.events, e.Valid) :
    ∀ e ∈ (acts.foldl (Log.step toFormattedString) l).events, e.Valid := by
  induction acts generalizing l with
  | nil => exact hl
  | cons a acts ih =>
      refine ih fun e he => ?_
      cases a with
      | up c => exact (List.mem_cons.mp he).elim (fun h => h ▸ trivial) (hl e)
      | down c => exact (List.mem_cons.mp he).elim (fun h => h ▸ trivial) (hl e)
      | timer now =>
          exact (List.mem_cons.mp he).elim (fun h => h ▸ ⟨by decide, hformat now⟩) (hl e)
      | message c bytes time =>
          rcases List.mem_append.mp he with he | he
          · exact eventsIn_valid c time _ e (List.mem_reverse.mp he)
          · exact hl e he

theorem lastPublished_valid {h : List Event} (hv : ∀ e ∈ h, e.Valid) (topic : Bytes) :
    crlf? (lastPublished topic h).1 = none := by
  induction h with
  | nil => rfl
  | cons e h ih =>
      have ih := ih fun e he => hv e (List.mem_cons_of_mem _ he)
      cases e with
      | publish source t content time =>
          rw [lastPublished]
          split
          · exact (hv _ List.mem_cons_self).2
          · exact ih
      | _ => exact ih

theorem delivered_valid {h : List Event} (hv : ∀ e ∈ h, e.Valid) (conn : Conn) :
    ∀ r ∈ publications (delivered conn h), r.Valid := by
  suffices hp : ∀ p ∈ delivered conn h, crlf? p.1 = none ∧ crlf? p.2 = none by
    intro r hr
    obtain ⟨p, hmem, rfl⟩ := List.mem_map.mp hr
    exact hp p hmem
  induction h with
  | nil => simp [delivered]
  | cons e h ih =>
      have hv' : ∀ e ∈ h, e.Valid := fun e he => hv e (List.mem_cons_of_mem _ he)
      have ih := ih hv'
      have he := hv e List.mem_cons_self
      cases e with
      | publish source topic content time =>
          intro p hp
          rw [delivered] at hp
          rcases List.mem_append.mp hp with hp | hp
          · exact ih p hp
          · split at hp
            · rw [List.mem_singleton.mp hp]
              exact he
            · exact absurd hp List.not_mem_nil
      | subscribe c topic =>
          intro p hp
          rw [delivered] at hp
          rcases List.mem_append.mp hp with hp | hp
          · exact ih p hp
          · split at hp
            · rw [List.mem_singleton.mp hp]
              exact ⟨he, lastPublished_valid hv' topic⟩
            · exact absurd hp List.not_mem_nil
      | _ => exact ih

/-- **Subscribers hear.**  Whatever bytes the clients of the hub send: of the bytes that the hub has
sent to a connection, and however they are cut, the client there makes the publications that must be
delivered to it, in their order, and all of them when all the bytes have arrived. -/
theorem subscribers_hear {toFormattedString : Timestamp → Bytes}
    (hformat : ∀ now, crlf? (toFormattedString now) = none) {acts : List Action}
    {s : PubSubServer} (hrun : run (step toFormattedString) acts .init = .ok s) (conn : Conn)
    {pieces : List Bytes} {later : Bytes}
    (h : pieces.flatten ++ later = (s.connections conn).sent.flatten) :
    ∃ called tail, PubSubClient.receive ({}, []) pieces = (⟨called, false⟩, tail) ∧
      called <+: delivered conn (log toFormattedString acts).events ∧
      (later = [] → called = delivered conn (log toFormattedString acts).events) := by
  have hsent := (follows_init.run hrun).agrees.sent conn
  have hvalid : ∀ r ∈ publications (delivered conn (log toFormattedString acts).events), r.Valid :=
    delivered_valid (log_valid hformat (l := .init) fun e he => absurd he List.not_mem_nil) conn
  have hbytes : [] ++ pieces.flatten ++ later =
      texts (publications (delivered conn (log toFormattedString acts).events)) := by
    rw [List.nil_append, h, hsent, texts, publications, List.flatMap_map, List.flatMap_def]
    rfl
  obtain ⟨ps₁, ps₂, tail, hps, hreceive, hnone, hlater⟩ := receive_texts hvalid rfl hbytes {}
  refine ⟨ps₁, tail, hreceive, ⟨ps₂, hps.symm⟩, fun hnil => ?_⟩
  cases ps₂ with
  | nil => exact (hps.trans (List.append_nil ps₁)).symm
  | cons p ps₂ =>
      have hv := hvalid (.publish p.1 p.2) (by simp [hps, publications])
      subst hnil
      rw [List.append_nil] at hlater
      have hparse := parseMessage_text hv (texts (publications ps₂))
      rw [show (Request.publish p.1 p.2).text ++ texts (publications ps₂) = tail from hlater.symm,
        hnone] at hparse
      cases hparse

theorem smallHub_heard : ∃ s, run (step fun _ => []) smallHub .init = .ok s ∧
    ∃ called tail, PubSubClient.receive ({}, []) [(s.connections 0).sent.flatten] =
        (⟨called, false⟩, tail) ∧
      called <+: delivered 0 (log (fun _ => []) smallHub).events := by
  cases hrun : run (step fun _ => []) smallHub .init with
  | ok s =>
      obtain ⟨called, tail, hreceive, hprefix, -⟩ :=
        subscribers_hear (fun _ => rfl) hrun 0
          (show [(s.connections 0).sent.flatten].flatten ++ [] = _ by simp)
      exact ⟨s, rfl, called, tail, hreceive, hprefix⟩
  | error e =>
      have hok := smallHub_ok
      rw [hrun] at hok
      cases hok

end PubSub
