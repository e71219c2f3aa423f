/-
What one request leaves behind for the next on a connection that stays open.

A connection is watched while deliveries come in, however they split the bytes: for each
request that is completed, there are the deliveries since the one before, what had been in
the buffer already, what stays in it, the request that was handed to the callback and the
context behind `reset`.

The request is always the one that a new context makes of its bytes alone, for the parser
sets every field before it has got all of a request.  The context never is a new one:
`swap` leaves the version.
-/
import Muduo.Proofs.HttpServing

namespace Net.Http

open Lib HttpRequest HttpConnection

/-! ### Watching a connection -/

/-- A request that has been completed. -/
structure Served where
  /-- What was in the buffer behind the request before. -/
  carried : Bytes
  /-- The deliveries since then. -/
  deliveries : List Delivery
  /-- What is in the buffer behind this request. -/
  left : Bytes
  /-- The argument of the callback. -/
  request : HttpRequest
  /-- The context behind `reset`. -/
  context : HttpContext

/-- The requests that are completed from here on. -/
def watch (f : HttpCallback) : List Delivery → Bytes → List Delivery → HttpConnection → List Served
  | [], _, _, _ => []
  | d :: ds, carried, pending, c =>
      match deliver f d c with
      | .error _ => []
      | .ok c' =>
          match c'.requests.drop c.requests.length with
          | [] => watch f ds carried (pending ++ [d]) c'
          | request :: _ =>
              ⟨carried, pending ++ [d], c'.inputBuffer.readable, request, c'.context⟩ ::
                watch f ds c'.inputBuffer.readable [] c'

/-- The requests that are completed on a connection. -/
def served (f : HttpCallback) (ds : List Delivery) : List Served := watch f ds [] [] .init

namespace Served

/-- The request is what a new context makes of the bytes of the request, at the time of one of its
deliveries. -/
def Alone (s : Served) : Prop :=
  ∃ b, s.carried ++ bytes s.deliveries = b ++ s.left ∧
    ∃ t ∈ s.deliveries.map Prod.fst, ∃ buf, buf.readable = [] ∧
      parseRequest (Buffer.init.append b) .init t = .ok (true, buf, ⟨.kGotAll, s.request⟩)

/-- Nothing of the requests before shows, in the request or in the context. -/
def Isolated (s : Served) : Prop := s.context = .init ∧ s.Alone

/-- What `reset` really leaves. -/
def OnlyVersion (s : Served) : Prop :=
  s.context = ⟨.kExpectRequestLine, { HttpRequest.init with version := s.request.version }⟩ ∧
    s.request.version ≠ .kUnknown

theorem OnlyVersion.not_isolated {s : Served} (h : s.OnlyVersion) : ¬s.Isolated := by
  rintro ⟨hinit, -⟩
  rw [h.1] at hinit
  exact h.2 (congrArg (fun c => c.request.version) hinit)

end Served

/-! ### The parser inside a request -/

/-- Where the parser is, when it has taken these bytes of a request at these times. -/
inductive Begun (taken : Bytes) (times : List Timestamp) (c : HttpContext) : Prop
  | line (hstate : c.state = .kExpectRequestLine) (htaken : taken = [])
      (hheaders : c.request.headers = [])
  | headers {line target : Bytes} {m : Method} {v : Version} {t : Timestamp} {hs : List Header}
      (hline : IsRequestLine line m target v) (hvalid : ∀ h ∈ hs, h.Valid) (ht : t ∈ times)
      (htaken : taken = line ++ crlf ++ headerLines hs)
      (hcontext : c = ⟨.kExpectHeaders, addHeaders ⟨m, v, target, t, []⟩ hs⟩)

/-- The parser has got all of a request. -/
inductive Whole (taken : Bytes) (times : List Timestamp) (c : HttpContext) : Prop
  | mk {line last target : Bytes} {m : Method} {v : Version} {t : Timestamp} {hs : List Header}
      (hline : IsRequestLine line m target v) (hended : Ended taken line last [] hs) (ht : t ∈ times)
      (hcontext : c = ⟨.kGotAll, addHeaders ⟨m, v, target, t, []⟩ hs⟩)

variable {f : HttpCallback} {t : Timestamp} {buf : Buffer} {c : HttpContext} {k : Nat}
  {taken : Bytes} {times : List Timestamp}

/-- A request line does not touch the headers. -/
theorem processRequestLine_headers {line : Bytes} {r r' : HttpRequest} {ok : Bool}
    (h : processRequestLine line r = .ok (ok, r')) : r'.headers = r.headers := by
  simp only [processRequestLine, setMethod, bind, Except.bind, pure, Except.pure] at h
  split at h
  · cases h
    rfl
  · split_ifs at h
    split at h
    · cases h
    · rename_i heq
      cases heq
      split_ifs at h
      · split at h
        · cases h
          rfl
        · split_ifs at h
          all_goals
            cases h
            rfl
      · cases h
        rfl

/-- The loop in the headers of a request. -/
theorem parseLoop_begun_headers {line target : Bytes} {m : Method} {v : Version} {u : Timestamp}
    {hs : List Header} (hline : IsRequestLine line m target v) (hvalid : ∀ h ∈ hs, h.Valid)
    (hu : u ∈ times) (htaken : taken = line ++ crlf ++ headerLines hs)
    (hrounds : buf.readableBytes < k) :
    ∃ buf' c' more, parseLoop t k buf ⟨.kExpectHeaders, addHeaders ⟨m, v, target, u, []⟩ hs⟩
        = .ok (true, buf', c') ∧ buf.readable = more ++ buf'.readable ∧
      (Begun (taken ++ more) times c' ∧ c'.gotAll = false ∨ Whole (taken ++ more) times c') := by
  obtain ⟨hs', tail, hbuf, hv, htail⟩ := exists_headers buf.readable
  have hall : ∀ h ∈ hs ++ hs', h.Valid := by
    intro h hh
    rcases List.mem_append.mp hh with hh | hh
    · exact hvalid h hh
    · exact hv h hh
  have hlines : headerLines (hs ++ hs') = headerLines hs ++ headerLines hs' := by
    simp only [headerLines, List.map_append, unlines, List.flatMap_append]
  rcases htail with htail | ⟨last, rest, rfl, hlast, hcolon⟩
  · obtain ⟨buf', hread, hloop⟩ := parseLoop_headers_wait (t := t)
      (c := ⟨.kExpectHeaders, addHeaders ⟨m, v, target, u, []⟩ hs⟩) hv htail rfl hbuf hrounds
    refine ⟨buf', _, headerLines hs', hloop, by rw [hread, hbuf], Or.inl ⟨?_, rfl⟩⟩
    refine .headers hline hall hu ?_ ?_
    · rw [htaken, hlines, List.append_assoc]
    · rw [addHeaders_append]
  · obtain ⟨buf', hread, hloop⟩ := parseLoop_headers_end (t := t)
      (c := ⟨.kExpectHeaders, addHeaders ⟨m, v, target, u, []⟩ hs⟩) hv hlast hcolon rfl hbuf hrounds
    refine ⟨buf', _, headerLines hs' ++ (last ++ crlf), hloop, ?_, Or.inr ?_⟩
    · rw [hread, hbuf]
      simp only [List.append_assoc]
    · have hended :
          Ended (taken ++ (headerLines hs' ++ (last ++ crlf))) line last [] (hs ++ hs') := by
        refine ⟨?_, ⟨m, target, v, hline⟩, hall, hlast, hcolon⟩
        rw [htaken, hlines]
        simp only [List.append_assoc, List.append_nil]
      exact .mk hline hended hu (by rw [addHeaders_append])

/-- One call of the parser, unless a method has been left by a line that was rejected. -/
theorem Begun.parse (h : Begun taken times c) (buf : Buffer)
    (hready : c.state = .kExpectRequestLine → c.request.method = .kInvalid) :
    ∃ ok buf' c' more, parseRequest buf c t = .ok (ok, buf', c') ∧
      buf.readable = more ++ buf'.readable ∧
      (Begun (taken ++ more) (times ++ [t]) c' ∧ c'.gotAll = false ∨
        Whole (taken ++ more) (times ++ [t]) c') := by
  have hrounds : buf.readableBytes < buf.readableBytes + 1 := Nat.lt_succ_self _
  cases h with
  | headers hline hvalid hu htaken hcontext =>
      have hmem : _ ∈ times ++ [t] := List.mem_append_left _ hu
      obtain ⟨buf', c', more, hloop, hread, hwhere⟩ := parseLoop_begun_headers (t := t) hline hvalid
        hmem htaken hrounds
      rw [parseRequest, hcontext]
      exact ⟨true, buf', c', more, hloop, hread, hwhere⟩
  | line hstate htaken hheaders =>
      subst htaken
      cases hcrlf : crlf? buf.readable with
      | none =>
          have hround := parseRound_none (t := t) (Or.inl hstate) hcrlf
          refine ⟨true, buf, c, [], parseLoop_done hround rfl, rfl, Or.inl ⟨?_, ?_⟩⟩
          · exact .line hstate rfl hheaders
          · simp [HttpContext.gotAll, hstate]
      | some n =>
          obtain ⟨line, rest, hbuf, hcr, -⟩ := crlf?_eq_some hcrlf
          rcases processRequestLine_cases line (hready hstate) hcr with
            ⟨m, target, v, hline⟩ | ⟨r, hproc, -⟩
          · obtain ⟨buf₁, n, hread₁, hlt, hloop₁⟩ := parseLoop_requestLine (t := t) hline hstate
              (hready hstate) hbuf hrounds
            have hmem : t ∈ times ++ [t] := List.mem_append_right _ (List.mem_singleton_self t)
            have hvalid : ∀ h ∈ ([] : List Header), h.Valid := fun _ h => absurd h List.not_mem_nil
            obtain ⟨buf', c', more, hloop, hread, hwhere⟩ := parseLoop_begun_headers (t := t) hline
              hvalid hmem rfl hlt
            refine ⟨true, buf', c', line ++ crlf ++ more, ?_, ?_, ?_⟩
            · have hcontext : ({ c.request with
                  method := m, path := target, version := v, receiveTime := t } : HttpRequest)
                  = addHeaders ⟨m, v, target, t, []⟩ [] := by
                show HttpRequest.mk m v target t c.request.headers = _
                rw [hheaders, addHeaders_nil]
              rw [parseRequest, hloop₁, hcontext]
              exact hloop
            · rw [hbuf, ← hread₁, hread]
              simp only [List.append_assoc]
            · simpa using hwhere
          · have hround := parseRound_rejected (t := t) hstate hbuf hcr hproc
            refine ⟨false, buf, _, [], parseLoop_done hround rfl, rfl, Or.inl ⟨?_, ?_⟩⟩
            · exact .line hstate rfl ((processRequestLine_headers hproc).trans hheaders)
            · simp [HttpContext.gotAll, hstate]

/-- A whole request is what a new context makes of its bytes, and it has a version. -/
theorem Whole.alone (h : Whole taken times c) :
    c.gotAll = true ∧ c.request.version ≠ .kUnknown ∧ ∃ t ∈ times, ∃ buf, buf.readable = [] ∧
      parseRequest (Buffer.init.append taken) .init t = .ok (true, buf, ⟨.kGotAll, c.request⟩) := by
  obtain ⟨hline, hended, ht, rfl⟩ := h
  refine ⟨rfl, ?_, _, ht, ?_⟩
  · rw [addHeaders_eq]
    exact hline.numbered
  · rw [← List.nil_append taken, ← Buffer.readable_init, ← Buffer.readable_append] at hended
    exact hended.parse hline

/-! ### The connection -/

namespace HttpConnection

variable {c : HttpConnection} {d : Delivery}

/-- A delivery inside a request, or one that completes it. -/
theorem deliver_begun (hbetween : Between c) (h : Begun taken times c.context)
    {c' : HttpConnection} (hdeliver : deliver f d c = .ok c') :
    ∃ more, c.inputBuffer.readable ++ d.2 = more ++ c'.inputBuffer.readable ∧
      (Begun (taken ++ more) (times ++ [d.1]) c'.context ∧ c'.requests = c.requests ∨
        ∃ whole, Whole (taken ++ more) (times ++ [d.1]) whole ∧ c'.context = whole.reset ∧
          c'.requests = c.requests ++ [whole.request]) := by
  obtain ⟨ok, buf', whole, more, hparse, hread, hwhere⟩ := h.parse (t := d.1)
    (c.inputBuffer.append d.2) (hbetween.ready hdeliver)
  rw [Buffer.readable_append] at hread
  rw [deliver_of_parse hparse, Except.ok.injEq] at hdeliver
  subst hdeliver
  rcases hwhere with ⟨hbegun, hall⟩ | hwhole
  · refine ⟨more, ?_, Or.inl ⟨?_, ?_⟩⟩
    · simpa [hall] using hread
    · simpa [hall] using hbegun
    · simp [hall]
  · have hall := hwhole.alone.1
    refine ⟨more, ?_, Or.inr ⟨whole, hwhole, ?_, ?_⟩⟩
    · simpa [hall] using hread
    · simp [hall]
    · simp [hall]

/-- A delivery that completes a request. -/
theorem watch_completed (ds : List Delivery) (carried : Bytes) (pending : List Delivery)
    {c' : HttpConnection} {request : HttpRequest} (hdeliver : deliver f d c = .ok c')
    (hrequests : c'.requests = c.requests ++ [request]) :
    watch f (d :: ds) carried pending c
      = ⟨carried, pending ++ [d], c'.inputBuffer.readable, request, c'.context⟩ ::
        watch f ds c'.inputBuffer.readable [] c' := by
  simp only [watch, hdeliver, hrequests, List.drop_left]

/-- Everything that is completed on a connection inside some request. -/
theorem watch_spec {ds : List Delivery} : ∀ {carried : Bytes} {pending : List Delivery}
    {c : HttpConnection} {taken : Bytes}, Between c → Begun taken (pending.map Prod.fst) c.context →
      carried ++ bytes pending = taken ++ c.inputBuffer.readable →
      ∀ s ∈ watch f ds carried pending c, s.Alone ∧ s.OnlyVersion := by
  induction ds with
  | nil =>
      intro carried pending c taken _ _ _ s hs
      cases hs
  | cons d ds ih =>
      intro carried pending c taken hbetween hbegun hbytes s hs
      cases hdeliver : deliver f d c with
      | error e =>
          simp only [watch, hdeliver] at hs
          cases hs
      | ok c' =>
          have hbetween' : Between c' := by
            obtain ⟨c₁, hc₁, hb₁⟩ := hbetween.deliver (f := f) (d := d) (hbetween.ready hdeliver)
            rw [hdeliver] at hc₁
            cases hc₁
            exact hb₁
          obtain ⟨more, hread, hwhere⟩ := deliver_begun hbetween hbegun hdeliver
          have hmore : carried ++ bytes (pending ++ [d])
              = (taken ++ more) ++ c'.inputBuffer.readable := by
            rw [List.append_assoc, ← hread, ← List.append_assoc, ← hbytes, bytes, bytes,
              List.flatMap_append]
            simp
          rcases hwhere with ⟨hbegun', hrequests⟩ | ⟨whole, hwhole, hcontext, hrequests⟩
          · simp only [watch, hdeliver, hrequests, List.drop_length] at hs
            refine ih hbetween' ?_ hmore s hs
            simpa using hbegun'
          · rw [watch_completed _ _ _ hdeliver hrequests] at hs
            rcases List.mem_cons.mp hs with rfl | hs
            · obtain ⟨-, hversion, t, ht, hparse⟩ := hwhole.alone
              refine ⟨⟨taken ++ more, hmore, t, by simpa using ht, hparse⟩, ?_, hversion⟩
              exact hcontext
            · have hnew : Begun [] (([] : List Delivery).map Prod.fst) c'.context := by
                rw [hcontext]
                exact .line rfl rfl rfl
              exact ih hbetween' hnew (by simp [bytes]) s hs

theorem served_spec (f : HttpCallback) (ds : List Delivery) :
    ∀ s ∈ served f ds, s.Alone ∧ s.OnlyVersion := by
  have hnew : Begun [] (([] : List Delivery).map Prod.fst) init.context := .line rfl rfl rfl
  exact watch_spec between_init hnew rfl

/-- `GET / HTTP/1.1` without headers, in one delivery. -/
theorem bareGet_served : ∃ s ∈ served defaultHttpCallback [(0, bareGet.render)],
    s.context = ⟨.kExpectRequestLine, { HttpRequest.init with version := .kHttp11 }⟩ := by
  obtain ⟨rest, -, hended⟩ := RequestText.ended (q := bareGet) (List.prefix_refl _)
  have hread : (init.inputBuffer.append bareGet.render).readable = bareGet.render :=
    Buffer.readable_append _ _
  rw [← hread] at hended
  obtain ⟨buf', -, hparse⟩ := hended.parse (t := 0) bareGet.is_line
  have hdeliver := deliver_of_parse (f := defaultHttpCallback) (c := init) (d := (0, bareGet.render))
    hparse
  have hmem := watch_completed [] [] [] hdeliver (onRequest_requests _)
  exact ⟨_, by rw [served, hmem]; exact List.mem_cons_self, rfl⟩

/-- **A reset context is never a new one**, whatever requests have been completed: it has the
version of the last of them.  The requests themselves are what new contexts would have made of
their bytes. -/
theorem served_not_isolated (f : HttpCallback) (ds : List Delivery) :
    ∀ s ∈ served f ds, ¬s.Isolated ∧ s.Alone ∧ s.OnlyVersion := by
  intro s hs
  obtain ⟨halone, hversion⟩ := served_spec f ds s hs
  exact ⟨hversion.not_isolated, halone, hversion⟩

theorem served_not_isolated_bareGet :
    ∃ s ∈ served defaultHttpCallback [(0, bareGet.render)],
      ¬s.Isolated ∧ s.Alone ∧ s.OnlyVersion := by
  obtain ⟨s, hs, -⟩ := bareGet_served
  exact ⟨s, hs, served_not_isolated defaultHttpCallback _ s hs⟩

/-- The context behind it is not new: it still has the version. -/
theorem reset_keeps_version :
    ∃ s ∈ served defaultHttpCallback [(0, bareGet.render)], s.context ≠ .init := by
  obtain ⟨s, hs, hcontext⟩ := bareGet_served
  refine ⟨s, hs, ?_⟩
  intro hinit
  rw [hcontext] at hinit
  have hversion : Version.kHttp11 = .kUnknown := congrArg (fun c => c.request.version) hinit
  cases hversion

end HttpConnection

end Net.Http
