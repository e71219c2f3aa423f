/-
What `HttpServer` makes of a connection's stream, delivery by delivery.

The first part is about any stream.  A request line that is rejected stays in the buffer,
and if it began with a method the server knows, the method stays in the c: the next
delivery then fails the assertion of `setMethod`.  Nothing else can go wrong.

The second part is about streams of requests.  Between two deliveries the connection is
somewhere in the text of one request, and a delivery takes it further in that text or to its
end.  A delivery is good for one call of `onRequest` and no more.
-/
import Muduo.Proofs.HttpParsing

namespace Net.Http

open Lib HttpRequest

variable {t : Timestamp} {buf : Buffer} {c : HttpContext} {k : Nat}

/-! ### Any bytes -/

/-- A line that the parser leaves in the buffer. -/
def Stuck (b : Bytes) : Prop := ∃ line rest, b = line ++ crlf ++ rest ∧ crlf? line = none ∧ 32 ∈ line

/-- How the parser may leave the c. -/
inductive Parsed (ok : Bool) (b : Bytes) (c : HttpContext) : Prop
  | requestLine (hstate : c.state = .kExpectRequestLine)
      (hmethod : c.request.method = .kInvalid)
  | rejected (hstate : c.state = .kExpectRequestLine) (hstuck : Stuck b)
  | headers (hok : ok = true) (hstate : c.state = .kExpectHeaders)
  | gotAll (hok : ok = true) (hstate : c.state = .kGotAll)

theorem parseLoop_total_headers (hstate : c.state = .kExpectHeaders)
    (hrounds : buf.readableBytes < k) :
    ∃ buf' context', parseLoop t k buf c = .ok (true, buf', context') ∧
      Parsed true buf'.readable context' := by
  obtain ⟨hs, tail, hbuf, hv, htail⟩ := exists_headers buf.readable
  rcases htail with htail | ⟨last, rest, rfl, hlast, hcolon⟩
  · obtain ⟨buf', -, hloop⟩ := parseLoop_headers_wait (t := t) hv htail hstate
      hbuf hrounds
    exact ⟨buf', _, hloop, .headers rfl hstate⟩
  · obtain ⟨buf', -, hloop⟩ := parseLoop_headers_end (t := t) hv hlast hcolon
      hstate hbuf hrounds
    exact ⟨buf', _, hloop, .gotAll rfl rfl⟩

/-- With no method noted while a request line is expected, the parser comes to an end. -/
theorem parseRequest_total (hstate : c.state = .kExpectHeaders ∨
    c.state = .kExpectRequestLine ∧ c.request.method = .kInvalid) :
    ∃ ok buf' context', parseRequest buf c t = .ok (ok, buf', context') ∧
      Parsed ok buf'.readable context' := by
  have hrounds : buf.readableBytes < buf.readableBytes + 1 := Nat.lt_succ_self _
  rcases hstate with hstate | ⟨hstate, hmethod⟩
  · exact ⟨true, parseLoop_total_headers hstate hrounds⟩
  · cases hcrlf : crlf? buf.readable with
    | none =>
        have hround := parseRound_none (t := t) (Or.inl hstate) hcrlf
        exact ⟨true, buf, c, parseLoop_done hround rfl, .requestLine hstate hmethod⟩
    | some k =>
        obtain ⟨line, rest, hbuf, hline, -⟩ := crlf?_eq_some hcrlf
        rcases processRequestLine_cases line hmethod hline with
          ⟨m, target, v, his⟩ | ⟨r, hproc, hr⟩
        · obtain ⟨buf₁, n, -, hlt, hloop⟩ := parseLoop_requestLine (t := t)
            his hstate hmethod hbuf hrounds
          obtain ⟨buf', context', hloop', hparsed⟩ := parseLoop_total_headers (t := t) (c := ⟨_, _⟩)
            rfl hlt
          exact ⟨true, buf', context', hloop.trans hloop', hparsed⟩
        · have hround := parseRound_rejected (t := t) hstate hbuf hline hproc
          refine ⟨false, buf, _, parseLoop_done hround rfl, ?_⟩
          rcases hr with hr | hspace
          · exact .requestLine hstate hr
          · exact .rejected hstate ⟨line, rest, hbuf, hline, hspace⟩

/-- With a method noted and the line still there, the assertion of `setMethod` fails. -/
theorem parseRequest_fault (hstate : c.state = .kExpectRequestLine)
    (hmethod : c.request.method ≠ .kInvalid) (hstuck : Stuck buf.readable) :
    parseRequest buf c t = .error .assertion := by
  obtain ⟨line, rest, hbuf, hline, hspace⟩ := hstuck
  have hround := parseRound_fault (t := t) hstate hbuf hline
    (processRequestLine_fault hmethod hspace)
  simp [parseRequest, parseLoop, hround, bind, Except.bind]

theorem Stuck.append {b : Bytes} (h : Stuck b) (c : Bytes) : Stuck (b ++ c) := by
  obtain ⟨line, rest, rfl, hline, hspace⟩ := h
  exact ⟨line, rest ++ c, by simp only [List.append_assoc], hline, hspace⟩

namespace HttpConnection

variable {f : HttpCallback} {c : HttpConnection} {d : Delivery}

/-- The connection behind a message, as far as the request is not complete. -/
def afterParse (c : HttpConnection) (ok : Bool) (buf' : Buffer) (context' : HttpContext) :
    HttpConnection :=
  let c := { c with inputBuffer := buf', context := context' }
  if ok then c else (c.send .badRequest).shutdown

theorem deliver_of_parse {ok : Bool} {buf' : Buffer} {context' : HttpContext}
    (h : parseRequest (c.inputBuffer.append d.2) c.context d.1 = .ok (ok, buf', context')) :
    deliver f d c = .ok (
      let c' := { c with inputBuffer := c.inputBuffer.append d.2 }.afterParse ok buf' context'
      if context'.gotAll then
        { c'.onRequest f context'.request with
          context := (c'.onRequest f context'.request).context.reset }
      else c') := by
  simp only [deliver, onMessage, h, bind, Except.bind, afterParse]
  cases context'.gotAll <;> rfl

@[simp] theorem onRequest_context (req : HttpRequest) :
    (c.onRequest f req).context = c.context := by
  simp only [onRequest, send, shutdown]
  split_ifs <;> rfl

@[simp] theorem onRequest_inputBuffer (req : HttpRequest) :
    (c.onRequest f req).inputBuffer = c.inputBuffer := by
  simp only [onRequest, send, shutdown]
  split_ifs <;> rfl

@[simp] theorem onRequest_requests (req : HttpRequest) :
    (c.onRequest f req).requests = c.requests ++ [req] := by
  simp only [onRequest, send, shutdown]
  split_ifs <;> rfl

@[simp] theorem afterParse_context (ok : Bool) (buf' : Buffer) (context' : HttpContext) :
    (c.afterParse ok buf' context').context = context' := by
  simp only [afterParse, send, shutdown]
  split_ifs <;> rfl

@[simp] theorem afterParse_inputBuffer (ok : Bool) (buf' : Buffer) (context' : HttpContext) :
    (c.afterParse ok buf' context').inputBuffer = buf' := by
  simp only [afterParse, send, shutdown]
  split_ifs <;> rfl

@[simp] theorem afterParse_requests (ok : Bool) (buf' : Buffer) (context' : HttpContext) :
    (c.afterParse ok buf' context').requests = c.requests := by
  simp only [afterParse, send, shutdown]
  split_ifs <;> rfl

/-- At most one refusal, and none as long as the connection takes responses. -/
structure OnceBad (c : HttpConnection) : Prop where
  once : c.sent.count .badRequest ≤ 1
  none : c.connected = true → c.sent.count .badRequest = 0

theorem OnceBad.shutdown (h : OnceBad c) : OnceBad c.shutdown := ⟨h.once, nofun⟩

theorem OnceBad.sendResponse (h : OnceBad c) (text : Bytes) : OnceBad (c.send (.response text)) := by
  rw [send]
  by_cases hconn : c.connected = true
  · rw [if_pos hconn]
    exact ⟨by simpa using h.once, fun _ => by simpa using h.none hconn⟩
  · rw [if_neg hconn]
    exact h

theorem OnceBad.onRequest (h : OnceBad c) (req : HttpRequest) :
    OnceBad (c.onRequest f req) := by
  have hcalled : OnceBad { c with requests := c.requests ++ [req] } := ⟨h.once, h.none⟩
  have hsent := fun text => hcalled.sendResponse text
  simp only [HttpConnection.onRequest]
  split
  · exact (hsent _).shutdown
  · exact hsent _

theorem OnceBad.afterParse (h : OnceBad c) (ok : Bool) (buf' : Buffer) (context' : HttpContext) :
    OnceBad (c.afterParse ok buf' context') := by
  simp only [HttpConnection.afterParse, send, HttpConnection.shutdown]
  split_ifs with hok hconn
  · exact ⟨h.once, fun hc => h.none hc⟩
  · refine ⟨?_, nofun⟩
    have hnone := h.none hconn
    simp [hnone]
  · exact ⟨h.once, nofun⟩

/-- What holds between two deliveries. -/
structure Between (c : HttpConnection) : Prop where
  state : c.context.state = .kExpectHeaders ∨ c.context.state = .kExpectRequestLine
  line : c.context.state = .kExpectRequestLine →
    c.context.request.method = .kInvalid ∨ Stuck c.inputBuffer.readable
  bad : OnceBad c

/-- No method has been left in the c by a request line that was rejected. -/
def Ready (c : HttpConnection) : Prop :=
  c.context.state = .kExpectRequestLine → c.context.request.method = .kInvalid

instance (c : HttpConnection) : Decidable c.Ready := inferInstanceAs (Decidable (_ → _))

theorem between_init : Between init :=
  ⟨Or.inr rfl, fun _ => Or.inl rfl, ⟨Nat.zero_le _, fun _ => rfl⟩⟩

/-- A delivery: no fault, and the invariant is kept. -/
theorem Between.deliver (h : Between c) (hready : c.Ready) :
    ∃ c', deliver f d c = .ok c' ∧ Between c' := by
  have hstate : c.context.state = .kExpectHeaders ∨
      c.context.state = .kExpectRequestLine ∧ c.context.request.method = .kInvalid :=
    h.state.imp id fun hs => ⟨hs, hready hs⟩
  obtain ⟨ok, buf', context', hparse, hparsed⟩ := parseRequest_total (t := d.1)
    hstate
  refine ⟨_, deliver_of_parse hparse, ?_⟩
  have hbad : OnceBad { c with inputBuffer := c.inputBuffer.append d.2 } :=
    ⟨h.bad.once, h.bad.none⟩
  have hafter := hbad.afterParse ok buf' context'
  set c' := HttpConnection.afterParse { c with inputBuffer := c.inputBuffer.append d.2 } ok buf' context'
    with hc'
  have hcontext : c'.context = context' := afterParse_context ok buf' context'
  have hbuffer : c'.inputBuffer = buf' := afterParse_inputBuffer ok buf' context'
  cases hparsed with
  | requestLine hs hm =>
      have hall : context'.gotAll = false := by simp [HttpContext.gotAll, hs]
      simp only [hall, Bool.false_eq_true, if_false]
      exact ⟨Or.inr (by rw [hcontext, hs]), fun _ => Or.inl (by rw [hcontext, hm]), hafter⟩
  | rejected hs hstuck =>
      have hall : context'.gotAll = false := by simp [HttpContext.gotAll, hs]
      simp only [hall, Bool.false_eq_true, if_false]
      exact ⟨Or.inr (by rw [hcontext, hs]), fun _ => Or.inr (by rw [hbuffer]; exact hstuck), hafter⟩
  | headers _ hs =>
      have hall : context'.gotAll = false := by simp [HttpContext.gotAll, hs]
      simp only [hall, Bool.false_eq_true, if_false]
      have hnot : c'.context.state ≠ .kExpectRequestLine := by
        rw [hcontext, hs]
        decide
      exact ⟨Or.inl (by rw [hcontext, hs]), fun hl => absurd hl hnot, hafter⟩
  | gotAll _ hs =>
      have hall : context'.gotAll = true := by simp [HttpContext.gotAll, hs]
      simp only [hall, if_true]
      have hdone := hafter.onRequest (f := f) context'.request
      exact ⟨Or.inr rfl, fun _ => Or.inl rfl, hdone.once, hdone.none⟩

/-- A method that was left in the c is what the next delivery fails on. -/
theorem Between.ready (h : Between c) {c' : HttpConnection}
    (hdeliver : HttpConnection.deliver f d c = .ok c') : c.Ready := by
  intro hs
  by_contra hmethod
  rcases h.line hs with hm | hstuck
  · exact hmethod hm
  · have hfault : parseRequest (c.inputBuffer.append d.2) c.context d.1 = .error .assertion := by
      refine parseRequest_fault hs hmethod ?_
      rw [Buffer.readable_append]
      exact hstuck.append d.2
    simp [HttpConnection.deliver, onMessage, hfault, bind, Except.bind] at hdeliver

/-- **No client can crash the server**, if and only if no delivery comes when a rejected request
line has left its method in the c. -/
theorem no_crash_iff (f : HttpCallback) (ds : List Delivery) :
    (∃ c, run (deliver f) ds init = .ok c ∧ c.sent.count .badRequest ≤ 1) ↔
      Along (deliver f) (fun _ c => c.Ready) ds init := by
  have hstep : ∀ d c, Between c → c.Ready → ∃ c', deliver f d c = .ok c' ∧ Between c' :=
    fun _ _ h hready => h.deliver hready
  have hready : ∀ d c c', Between c → deliver f d c = .ok c' → c.Ready :=
    fun _ _ _ h hdeliver => h.ready hdeliver
  constructor
  · rintro ⟨c, hc, -⟩
    exact (run_ok_iff hstep hready between_init).mp ⟨c, hc⟩
  · intro halong
    obtain ⟨c, hc, hbetween⟩ := run_ok hstep between_init halong
    exact ⟨c, hc, hbetween.bad.once⟩

/-- A delivery whose request line is rejected behind its method, and any other. -/
theorem rejected_then_fault {d' : Delivery} {buf' : Buffer} {context' : HttpContext}
    (hparse : parseRequest (c.inputBuffer.append d.2) c.context d.1 = .ok (false, buf', context'))
    (hstate : context'.state = .kExpectRequestLine) (hmethod : context'.request.method ≠ .kInvalid)
    (hstuck : Stuck buf'.readable) : run (deliver f) [d, d'] c = .error .assertion := by
  have hall : context'.gotAll = false := by simp [HttpContext.gotAll, hstate]
  rw [run, deliver_of_parse hparse]
  simp only [hall, Bool.false_eq_true, if_false, Except.bind, run]
  have hfault : parseRequest (buf'.append d'.2) context' d'.1 = .error .assertion := by
    refine parseRequest_fault hstate hmethod ?_
    rw [Buffer.readable_append]
    exact hstuck.append d'.2
  simp [deliver, onMessage, hfault, bind, Except.bind]

/-- A request line with a known method and an unknown version, and one more byte. -/
theorem second_delivery_crashes :
    run (deliver defaultHttpCallback) [(0, ascii "GET / HTTP/2.0\r\n"), (0, ascii "x")] init
      = .error .assertion := by
  have hread : (Buffer.init.append (ascii "GET / HTTP/2.0\r\n")).readable
      = ascii "GET / HTTP/2.0" ++ crlf ++ [] := by
    rw [Buffer.readable_append]
    decide
  have hproc : processRequestLine (ascii "GET / HTTP/2.0") HttpRequest.init
      = .ok (false, { HttpRequest.init with method := .kGet, path := ascii "/" }) := rfl
  have hround := parseRound_rejected (t := 0) (c := .init) rfl hread (by decide) hproc
  refine rejected_then_fault (parseLoop_done hround rfl) rfl (by decide) ?_
  exact ⟨_, _, hread, by decide, by decide⟩

end HttpConnection

/-! ### Streams of requests -/

/-- The bytes of some requests. -/
def stream (qs : List RequestText) : Bytes := qs.flatMap RequestText.render

@[simp] theorem stream_nil : stream [] = [] := rfl

@[simp] theorem stream_cons (q : RequestText) (qs : List RequestText) :
    stream (q :: qs) = q.render ++ stream qs := rfl

@[simp] theorem stream_append (qs qs' : List RequestText) :
    stream (qs ++ qs') = stream qs ++ stream qs' := List.flatMap_append

/-- The requests that are complete in the first `n` bytes of the stream. -/
def completeIn : List RequestText → Nat → List RequestText
  | [], _ => []
  | q :: qs, n => if q.render.length ≤ n then q :: completeIn qs (n - q.render.length) else []

theorem completeIn_eq {done rest : List RequestText} {q : RequestText} {n : Nat}
    (hdone : (stream done).length ≤ n) (hq : n < (stream done).length + q.render.length) :
    completeIn (done ++ q :: rest) n = done := by
  induction done generalizing n with
  | nil =>
      simp only [stream_nil, List.length_nil, Nat.zero_add] at hq
      rw [List.nil_append, completeIn, if_neg (by omega)]
  | cons x done ih =>
      simp only [stream_cons, List.length_append] at hdone hq
      rw [List.cons_append, completeIn, if_pos (by omega), ih (by omega) (by omega)]

theorem length_le_completeIn {done : List RequestText} (rest : List RequestText) {n : Nat}
    (hdone : (stream done).length ≤ n) :
    done.length ≤ (completeIn (done ++ rest) n).length := by
  induction done generalizing n with
  | nil => exact Nat.zero_le _
  | cons x done ih =>
      simp only [stream_cons, List.length_append] at hdone
      rw [List.cons_append, completeIn, if_pos (by omega)]
      have := ih (n := n - x.render.length) (by omega)
      simp only [List.length_cons]
      omega

/-- A request that is not complete in `n` bytes may as well not follow. -/
theorem completeIn_append_singleton {qs : List RequestText} {last : RequestText} {n : Nat}
    (hn : n < (stream qs).length + last.render.length) :
    completeIn (qs ++ [last]) n = completeIn qs n := by
  induction qs generalizing n with
  | nil =>
      simp only [stream_nil, List.length_nil, Nat.zero_add] at hn
      show (if last.render.length ≤ n then _ else []) = []
      rw [if_neg (by omega)]
  | cons x qs ih =>
      simp only [stream_cons, List.length_append] at hn
      rw [List.cons_append, completeIn, completeIn]
      by_cases hx : x.render.length ≤ n
      · rw [if_pos hx, if_pos hx, ih (by omega)]
      · rw [if_neg hx, if_neg hx]

/-! ### In the text of a request -/

/-- The bytes `b` of the request have been read and not consumed, and `y` are to come. -/
inductive Progress (q : RequestText) (c : HttpContext) (b y : Bytes) : Prop
  | line (hstate : c.state = .kExpectRequestLine)
      (hmethod : c.request.method = .kInvalid) (hheaders : c.request.headers = [])
      (hbytes : b ++ y = q.render)
  | headers (done hs : List Header) (t : Timestamp) (hq : q.headers = done ++ hs)
      (hcontext : c
        = ⟨.kExpectHeaders, addHeaders ⟨q.method, q.version, q.target, t, []⟩ done⟩)
      (hbytes : b ++ y = headerLines hs ++ crlf)

theorem Progress.more {q : RequestText} {b chunk y : Bytes}
    (h : Progress q c b (chunk ++ y)) : Progress q c (b ++ chunk) y := by
  cases h with
  | line hs hm hh hb => exact .line hs hm hh (by rw [List.append_assoc, hb])
  | headers done hs t hq hc hb => exact .headers done hs t hq hc (by rw [List.append_assoc, hb])

/-- Part of the lines of some headers: the first of them, and a line that is not complete. -/
theorem arrived_headers {hs : List Header} (hv : ∀ h ∈ hs, h.Valid) {b y : Bytes}
    (h : b ++ y = headerLines hs ++ crlf) (hy : y ≠ []) :
    ∃ hs₁ hs₂ tail, hs = hs₁ ++ hs₂ ∧ b = headerLines hs₁ ++ tail ∧ crlf? tail = none ∧
      tail ++ y = headerLines hs₂ ++ crlf := by
  induction hs generalizing b with
  | nil =>
      have hempty : b ++ y = [] ++ crlf ++ [] := by simpa using h
      rcases arrived hempty rfl with hnone | ⟨b', -, hb'⟩
      · exact ⟨[], [], b, rfl, rfl, hnone, h⟩
      · exact absurd (List.append_eq_nil_iff.mp hb').2 hy
  | cons h₀ hs ih =>
      have hline : b ++ y = h₀.line ++ crlf ++ (headerLines hs ++ crlf) := by
        rw [h, headerLines_cons, List.append_assoc]
      rcases arrived hline (hv h₀ List.mem_cons_self).one_line with hnone | ⟨b', rfl, hb'⟩
      · exact ⟨[], h₀ :: hs, b, rfl, rfl, hnone, h⟩
      · obtain ⟨hs₁, hs₂, tail, rfl, rfl, htail, hrest⟩ :=
          ih (fun h hh => hv h (List.mem_cons_of_mem _ hh)) hb'
        exact ⟨h₀ :: hs₁, hs₂, tail, rfl, by simp only [headerLines_cons, List.append_assoc],
          htail, hrest⟩

variable {q : RequestText}

/-- In the headers, a delivery that does not bring all of them. -/
theorem parseLoop_wait_headers {done hs : List Header} {u : Timestamp} {y : Bytes}
    (hq : q.headers = done ++ hs)
    (hcontext : c
      = ⟨.kExpectHeaders, addHeaders ⟨q.method, q.version, q.target, u, []⟩ done⟩)
    (hbytes : buf.readable ++ y = headerLines hs ++ crlf) (hy : y ≠ [])
    (hrounds : buf.readableBytes < k) :
    ∃ buf' context', parseLoop t k buf c = .ok (true, buf', context') ∧
      context'.gotAll = false ∧ Progress q context' buf'.readable y := by
  have hvalid : ∀ h ∈ hs, h.Valid := fun h hh => q.valid h (by rw [hq]; exact List.mem_append_right _ hh)
  obtain ⟨hs₁, hs₂, tail, rfl, hb, htail, hrest⟩ := arrived_headers hvalid hbytes hy
  have hstate : c.state = .kExpectHeaders := by rw [hcontext]
  obtain ⟨buf', hread, hloop⟩ := parseLoop_headers_wait (t := t)
    (fun h hh => hvalid h (List.mem_append_left _ hh)) htail hstate hb hrounds
  refine ⟨buf', _, hloop, by simp [HttpContext.gotAll, hstate], ?_⟩
  refine .headers (done ++ hs₁) hs₂ u (by rw [hq, List.append_assoc]) ?_ (by rw [hread, hrest])
  rw [hcontext, addHeaders_append]

/-- A delivery that does not bring all of the request. -/
theorem Progress.wait {y : Bytes} (h : Progress q c buf.readable y) (hy : y ≠ []) :
    ∃ buf' context', parseRequest buf c t = .ok (true, buf', context') ∧
      context'.gotAll = false ∧ Progress q context' buf'.readable y := by
  have hrounds : buf.readableBytes < buf.readableBytes + 1 := Nat.lt_succ_self _
  cases h with
  | headers done hs u hq hcontext hbytes =>
      exact parseLoop_wait_headers hq hcontext hbytes hy hrounds
  | line hstate hmethod hheaders hbytes =>
      have hline : buf.readable ++ y = q.line ++ crlf ++ (headerLines q.headers ++ crlf) := by
        rw [hbytes, RequestText.render, List.append_assoc]
      rcases arrived hline q.is_line.one_line with hnone | ⟨b', hb, hb'⟩
      · have hround := parseRound_none (t := t) (Or.inl hstate) hnone
        exact ⟨buf, c, parseLoop_done hround rfl, by simp [HttpContext.gotAll, hstate],
          .line hstate hmethod hheaders hbytes⟩
      · obtain ⟨buf₁, n, hread, hlt, hloop⟩ := parseLoop_requestLine (t := t)
          q.is_line hstate hmethod hb hrounds
        rw [parseRequest, hloop]
        have hq : q.headers = [] ++ q.headers := rfl
        refine parseLoop_wait_headers (u := t) hq ?_ (by rw [hread, hb']) hy hlt
        simp only [hheaders, addHeaders_nil]

/-- In the headers, a delivery that brings the rest of them. -/
theorem parseLoop_finish_headers {done hs : List Header} {u : Timestamp} {z : Bytes}
    (hq : q.headers = done ++ hs)
    (hcontext : c
      = ⟨.kExpectHeaders, addHeaders ⟨q.method, q.version, q.target, u, []⟩ done⟩)
    (hbytes : buf.readable = headerLines hs ++ crlf ++ z) (hrounds : buf.readableBytes < k) :
    ∃ buf' context', parseLoop t k buf c = .ok (true, buf', context') ∧
      context'.gotAll = true ∧ buf'.readable = z ∧ q.Describes context'.request := by
  have hvalid : ∀ h ∈ hs, h.Valid := fun h hh => q.valid h (by rw [hq]; exact List.mem_append_right _ hh)
  have hstate : c.state = .kExpectHeaders := by rw [hcontext]
  have hempty : buf.readable = headerLines hs ++ ([] ++ crlf ++ z) := by simpa using hbytes
  obtain ⟨buf', hread, hloop⟩ := parseLoop_headers_end (t := t) hvalid rfl (by simp) hstate hempty
    hrounds
  refine ⟨buf', _, hloop, rfl, hread, ?_⟩
  rw [hcontext, ← addHeaders_append, ← hq]
  exact q.describes u

/-- A delivery that brings the rest of the request, and perhaps more. -/
theorem Progress.finish {b y z : Bytes} (h : Progress q c b y)
    (hbuf : buf.readable = b ++ y ++ z) :
    ∃ buf' context', parseRequest buf c t = .ok (true, buf', context') ∧
      context'.gotAll = true ∧ buf'.readable = z ∧ q.Describes context'.request := by
  have hrounds : buf.readableBytes < buf.readableBytes + 1 := Nat.lt_succ_self _
  cases h with
  | headers done hs u hq hcontext hbytes =>
      exact parseLoop_finish_headers hq hcontext (by rw [hbuf, hbytes]) hrounds
  | line hstate hmethod hheaders hbytes =>
      have hline : buf.readable = q.line ++ crlf ++ (headerLines q.headers ++ crlf ++ z) := by
        rw [hbuf, hbytes, RequestText.render]
        simp only [List.append_assoc]
      obtain ⟨buf₁, n, hread, hlt, hloop⟩ := parseLoop_requestLine (t := t)
        q.is_line hstate hmethod hline hrounds
      rw [parseRequest, hloop]
      have hq : q.headers = [] ++ q.headers := rfl
      refine parseLoop_finish_headers (u := t) hq ?_ hread hlt
      simp only [hheaders, addHeaders_nil]

theorem Progress.length_le {b y : Bytes} (h : Progress q c b y) :
    y.length ≤ q.render.length := by
  cases h with
  | line hs hm hh hb =>
      rw [← hb, List.length_append]
      omega
  | headers done hs t hq hc hb =>
      have hlen := congrArg List.length hb
      rw [RequestText.render, hq, headerLines, List.map_append]
      simp only [headerLines, unlines, List.flatMap_append, List.length_append] at hlen ⊢
      omega

/-! ### In the stream -/

namespace HttpConnection

variable {f : HttpCallback} {c : HttpConnection} {d : Delivery}

/-- The bytes of some deliveries. -/
def bytes (ds : List Delivery) : Bytes := ds.flatMap Prod.snd

/-- The calls of `onRequest` so far are those for the requests that are complete. -/
def OnTime (f : HttpCallback) (qs : List RequestText) (ds : List Delivery) : Prop :=
  ∀ k ≤ ds.length, ∃ c, run (deliver f) (ds.take k) init = .ok c ∧
    List.Forall₂ RequestText.Describes (completeIn qs (bytes (ds.take k)).length) c.requests

/-- No delivery brings the last byte of more than one request. -/
def OneAtATime (qs : List RequestText) (ds : List Delivery) : Prop :=
  ∀ k < ds.length, (completeIn qs (bytes (ds.take (k + 1))).length).length
    ≤ (completeIn qs (bytes (ds.take k)).length).length + 1

/-- A delivery is good for one call of `onRequest` at most. -/
theorem requests_deliver {c' : HttpConnection} (h : deliver f d c = .ok c') :
    c'.requests.length ≤ c.requests.length + 1 := by
  cases hparse : parseRequest (c.inputBuffer.append d.2) c.context d.1 with
  | error e => simp [deliver, onMessage, hparse, bind, Except.bind] at h
  | ok p =>
      obtain ⟨ok, buf', context'⟩ := p
      rw [deliver_of_parse hparse] at h
      simp only [Except.ok.injEq] at h
      subst h
      split
      · simp
      · simp

/-- Where the connection is in the stream, when `received` of it has been delivered: some
requests are done, and one is in progress. -/
structure Serving (all : List RequestText) (received : Bytes) (c : HttpConnection)
    (done : List RequestText) (q : RequestText) (rest : List RequestText) (y : Bytes) : Prop where
  all_eq : all = done ++ q :: rest
  missing : y ≠ []
  bytes_eq : received ++ y = stream done ++ q.render
  progress : Progress q c.context c.inputBuffer.readable y
  calls : List.Forall₂ RequestText.Describes done c.requests

variable {all done rest : List RequestText} {received y : Bytes}

theorem Serving.completeIn_eq (h : Serving all received c done q rest y) :
    completeIn all received.length = done := by
  have hlen := congrArg List.length h.bytes_eq
  simp only [List.length_append] at hlen
  have hpos : 0 < y.length := List.length_pos_iff.mpr h.missing
  have hle := h.progress.length_le
  rw [h.all_eq]
  exact Http.completeIn_eq (by omega) (by omega)

theorem serving_init {first : RequestText} {later : List RequestText} :
    Serving (first :: later) [] init [] first later first.render where
  all_eq := rfl
  missing := by simp [RequestText.render, crlf]
  bytes_eq := rfl
  progress := .line rfl rfl rfl rfl
  calls := .nil

/-- A delivery inside the text of a request. -/
theorem Serving.wait (h : Serving all received c done q rest (d.2 ++ y)) (hy : y ≠ []) :
    ∃ c', deliver f d c = .ok c' ∧ Serving all (received ++ d.2) c' done q rest y := by
  have hmore : Progress q c.context (c.inputBuffer.append d.2).readable y := by
    rw [Buffer.readable_append]
    exact h.progress.more
  obtain ⟨buf', context', hparse, hall, hprogress⟩ := hmore.wait (t := d.1) hy
  refine ⟨_, deliver_of_parse hparse, ?_⟩
  simp only [hall, Bool.false_eq_true, if_false]
  refine ⟨h.all_eq, hy, by rw [List.append_assoc, h.bytes_eq], ?_, ?_⟩
  · simpa using hprogress
  · simpa using h.calls

/-- A delivery that brings the rest of a request and part of the next. -/
theorem Serving.finish {q' : RequestText} {z y' : Bytes}
    (h : Serving all received c done q (q' :: rest) y) (hd : d.2 = y ++ z)
    (hz : z ++ y' = q'.render) (hy' : y' ≠ []) :
    ∃ c', deliver f d c = .ok c' ∧
      Serving all (received ++ d.2) c' (done ++ [q]) q' rest y' := by
  have hbuf : (c.inputBuffer.append d.2).readable = c.inputBuffer.readable ++ y ++ z := by
    rw [Buffer.readable_append, hd, List.append_assoc]
  obtain ⟨buf', context', hparse, hall, hread, hdescribes⟩ :=
    h.progress.finish (t := d.1) hbuf
  refine ⟨_, deliver_of_parse hparse, ?_⟩
  simp only [hall, if_true]
  refine ⟨by rw [h.all_eq, List.append_assoc]; rfl, hy', ?_, ?_, ?_⟩
  · rw [hd, ← List.append_assoc, h.bytes_eq, List.append_assoc, hz, stream_append, stream_cons,
      stream_nil, List.append_nil]
  · refine .line rfl rfl rfl ?_
    simp only [onRequest_inputBuffer, afterParse_inputBuffer]
    rw [hread, hz]
  · simp only [onRequest_requests, afterParse_requests]
    exact List.rel_append h.calls (.cons hdescribes .nil)

/-- A delivery that completes at most one request, in a stream that it does not complete. -/
theorem Serving.deliver (h : Serving all received c done q rest y) {future : Bytes}
    (hfuture : future ≠ []) (hstream : received ++ d.2 ++ future = stream all)
    (hone : (completeIn all (received ++ d.2).length).length
      ≤ (completeIn all received.length).length + 1) :
    ∃ c' done' q' rest' y', HttpConnection.deliver f d c = .ok c' ∧
      Serving all (received ++ d.2) c' done' q' rest' y' := by
  have hcut : d.2 ++ future = y ++ stream rest := by
    have hsame : received ++ (d.2 ++ future) = received ++ (y ++ stream rest) := by
      rw [← List.append_assoc, hstream, ← List.append_assoc, h.bytes_eq, h.all_eq, stream_append,
        stream_cons, List.append_assoc]
    exact List.append_cancel_left hsame
  -- the delivery ends inside the text of `q`, or behind it
  have hcases : (∃ a, y = d.2 ++ a ∧ a ≠ []) ∨ ∃ z, d.2 = y ++ z ∧ stream rest = z ++ future := by
    rcases List.append_eq_append_iff.mp hcut with ⟨a, ha, hfut⟩ | ⟨z, hz, hrest⟩
    · by_cases hnil : a = []
      · subst hnil
        exact Or.inr ⟨[], by rw [ha]; simp, by rw [hfut]; simp⟩
      · exact Or.inl ⟨a, ha, hnil⟩
    · exact Or.inr ⟨z, hz, hrest⟩
  rcases hcases with ⟨a, rfl, ha⟩ | ⟨z, hz, hrest⟩
  · obtain ⟨c', hc', hserving⟩ := h.wait (f := f) ha
    exact ⟨c', _, _, _, _, hc', hserving⟩
  · cases rest with
    | nil => exact absurd (List.append_eq_nil_iff.mp hrest.symm).2 hfuture
    | cons q' rest =>
        have hshort : z.length < q'.render.length := by
          by_contra hlong
          have hlen := congrArg List.length h.bytes_eq
          have hz' := congrArg List.length hz
          simp only [List.length_append] at hlen hz'
          have hlong' : (stream (done ++ [q, q'])).length ≤ (received ++ d.2).length := by
            simp only [stream_append, stream_cons, stream_nil, List.length_append, List.append_nil]
            omega
          have htwo := length_le_completeIn rest hlong'
          rw [h.completeIn_eq] at hone
          have hall : done ++ [q, q'] ++ rest = all := by rw [h.all_eq]; simp
          rw [hall] at htwo
          simp only [List.length_append, List.length_cons, List.length_nil] at htwo hone
          omega
        obtain ⟨y', hy'⟩ : ∃ y', z ++ y' = q'.render := by
          have hprefix : z <+: q'.render ++ stream rest := ⟨future, by rw [← stream_cons, hrest]⟩
          exact List.prefix_of_prefix_length_le hprefix (List.prefix_append _ _) hshort.le
        have hne : y' ≠ [] := by
          rintro rfl
          rw [← hy', List.append_nil] at hshort
          exact absurd hshort (Nat.lt_irrefl _)
        obtain ⟨c', hc', hserving⟩ := h.finish (f := f) hz hy' hne
        exact ⟨c', _, _, _, _, hc', hserving⟩

theorem bytes_take_succ {ds : List Delivery} {k : Nat} (hk : k < ds.length) :
    bytes (ds.take (k + 1)) = bytes (ds.take k) ++ (ds[k]).2 := by
  rw [bytes, List.take_succ_eq_append_getElem hk, List.flatMap_append]
  simp [bytes]

theorem run_take_succ {ds : List Delivery} {k : Nat} (hk : k < ds.length) :
    run (HttpConnection.deliver f) (ds.take (k + 1)) init
      = (run (HttpConnection.deliver f) (ds.take k) init).bind
        (HttpConnection.deliver f ds[k]) := by
  rw [List.take_succ_eq_append_getElem hk, run_append]
  congr 1
  funext c
  exact run_singleton _ c

/-- Deliveries that complete one request at a time, up to the last one of the stream. -/
theorem serving_run {ds : List Delivery} {first : RequestText} {later : List RequestText}
    {future : Bytes} (hfuture : future ≠ []) (hstream : bytes ds ++ future = stream (first :: later))
    (hone : OneAtATime (first :: later) ds) :
    ∀ k ≤ ds.length, ∃ c done q rest y,
      run (HttpConnection.deliver f) (ds.take k) init = .ok c ∧
        Serving (first :: later) (bytes (ds.take k)) c done q rest y := by
  intro k
  induction k with
  | zero => exact fun _ => ⟨init, [], first, later, first.render, rfl, serving_init⟩
  | succ k ih =>
      intro hk
      obtain ⟨c, done, q, rest, y, hrun, hserving⟩ := ih (by omega)
      have hrest : bytes (ds.take (k + 1)) ++ bytes (ds.drop (k + 1)) = bytes ds := by
        rw [bytes, bytes, ← List.flatMap_append, List.take_append_drop, bytes]
      have hcond := hone k hk
      rw [bytes_take_succ hk] at hcond hrest ⊢
      have hlater : bytes (ds.drop (k + 1)) ++ future ≠ [] := by simp [hfuture]
      obtain ⟨c', done', q', rest', y', hc', hserving'⟩ := hserving.deliver (f := f) hlater
        (by rw [← List.append_assoc, hrest, hstream]) hcond
      refine ⟨c', done', q', rest', y', ?_, hserving'⟩
      rw [run_take_succ hk, hrun]
      exact hc'

/-- **Pipelined requests are served on time, however the stream is split**, if and only if no
delivery brings the last byte of more than one of them. -/
theorem on_time_iff (f : HttpCallback) (qs : List RequestText) (last : RequestText)
    (tail missing : Bytes) (ds : List Delivery) (hlast : tail ++ missing = last.render)
    (hmissing : missing ≠ []) (hds : bytes ds = stream qs ++ tail) :
    OnTime f qs ds ↔ OneAtATime qs ds := by
  have hcomplete : ∀ k ≤ ds.length,
      completeIn (qs ++ [last]) (bytes (ds.take k)).length
        = completeIn qs (bytes (ds.take k)).length := by
    intro k hk
    have hle : (bytes (ds.take k)).length ≤ (bytes ds).length := by
      conv => rhs; rw [← List.take_append_drop k ds, bytes, List.flatMap_append, List.length_append]
      exact Nat.le_add_right _ _
    have hpos : 0 < missing.length := List.length_pos_iff.mpr hmissing
    have hlen := congrArg List.length hlast
    rw [hds, List.length_append] at hle
    rw [List.length_append] at hlen
    exact completeIn_append_singleton (by omega)
  constructor
  · intro hontime k hk
    obtain ⟨c, hc, hcalls⟩ := hontime k hk.le
    obtain ⟨c', hc', hcalls'⟩ := hontime (k + 1) hk
    rw [run_take_succ hk, hc] at hc'
    rw [hcalls.length_eq, hcalls'.length_eq]
    exact requests_deliver hc'
  · intro hone k hk
    obtain ⟨first, later, hfirst⟩ : ∃ first later, qs ++ [last] = first :: later :=
      List.exists_cons_of_ne_nil (by simp)
    have hstream : bytes ds ++ missing = stream (first :: later) := by
      rw [← hfirst, hds, List.append_assoc, hlast, stream_append, stream_cons, stream_nil,
        List.append_nil]
    have hone' : OneAtATime (first :: later) ds := by
      intro k hk
      rw [← hfirst, hcomplete (k + 1) hk, hcomplete k hk.le]
      exact hone k hk
    obtain ⟨c, done, q, rest, y, hrun, hserving⟩ :=
      serving_run (f := f) hmissing hstream hone' k hk
    refine ⟨c, hrun, ?_⟩
    have hdone := hserving.completeIn_eq
    rw [← hfirst, hcomplete k hk] at hdone
    rw [hdone]
    exact hserving.calls

/-- `GET / HTTP/1.1` without headers. -/
def bareGet : RequestText where
  line := ascii "GET / HTTP/1.1"
  method := .kGet
  target := ascii "/"
  version := .kHttp11
  headers := []
  is_line := ⟨by decide, by decide, by decide, by decide, by decide⟩
  valid := nofun

/-- Its bytes one by one, with the beginning of the next. -/
theorem on_time_bareGet :
    let ds := (bareGet.render ++ ascii "G").map fun b => ((0, [b]) : Delivery)
    OnTime defaultHttpCallback [bareGet] ds ↔ OneAtATime [bareGet] ds := by
  intro ds
  refine on_time_iff defaultHttpCallback [bareGet] bareGet (ascii "G") (bareGet.render.drop 1) ds ?_
    ?_ ?_
  · decide
  · decide
  · decide

/-- Two requests in one delivery: the second one waits for another. -/
theorem pipelined_waits : ¬OnTime defaultHttpCallback [bareGet, bareGet]
    [(0, bareGet.render ++ bareGet.render)] := by
  intro h
  obtain ⟨c, hc, hcalls⟩ := h 1 (Nat.le_refl _)
  rw [List.take_succ_cons, List.take_zero] at hc hcalls
  rw [run_singleton] at hc
  have hone := requests_deliver hc
  rw [← hcalls.length_eq] at hone
  exact absurd hone (by decide)

end HttpConnection

end Net.Http
