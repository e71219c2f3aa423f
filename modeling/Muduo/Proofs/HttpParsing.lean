/-
What `parseRequest` accepts.

The grammar of requests is stated on its own, as the texts that requests have.  What the
loop of the parser does to a buffer follows from how the bytes of the buffer fall into
lines, and a buffer falls into lines in one way only.

The parser takes any line without a colon for the end of the headers, and so it reads the
grammar exactly from the buffers in which such a line is empty.
-/
import Muduo.Net.Http

namespace Net.Http

open Lib HttpRequest

/-! ### The grammar -/

def Version.text : Version → Bytes
  | kHttp10 => ascii "HTTP/1.0"
  | kHttp11 => ascii "HTTP/1.1"
  | kUnknown => []

/-- A request line with its parts. -/
structure IsRequestLine (line : Bytes) (method : Method) (target : Bytes) (version : Version) :
    Prop where
  text : line = method.methodString ++ 32 :: (target ++ 32 :: version.text)
  known : method ≠ .kInvalid
  numbered : version ≠ .kUnknown
  no_space : 32 ∉ target
  one_line : crlf? line = none

/-- A header, as a field and what follows its colon. -/
abbrev Header := Bytes × Bytes

namespace Header

def line (h : Header) : Bytes := h.1 ++ 58 :: h.2

structure Valid (h : Header) : Prop where
  no_colon : 58 ∉ h.1
  one_line : crlf? h.line = none

end Header

/-- The lines of some headers. -/
def headerLines (hs : List Header) : Bytes := unlines (hs.map Header.line)

@[simp] theorem headerLines_nil : headerLines [] = [] := rfl

@[simp] theorem headerLines_cons (h : Header) (hs : List Header) :
    headerLines (h :: hs) = h.line ++ crlf ++ headerLines hs := rfl

/-- A request without a body. -/
structure RequestText where
  line : Bytes
  method : Method
  target : Bytes
  version : Version
  headers : List Header
  is_line : IsRequestLine line method target version
  valid : ∀ h ∈ headers, h.Valid

/-- The value without the white space around it. -/
structure Stripped (value stripped : Bytes) : Prop where
  around : ∃ l r, value = l ++ stripped ++ r ∧ (∀ x ∈ l, isSpace x = true) ∧
    ∀ x ∈ r, isSpace x = true
  first : ∀ x ∈ stripped.head?, isSpace x = false
  last : ∀ x ∈ stripped.getLast?, isSpace x = false

namespace RequestText

def render (q : RequestText) : Bytes := q.line ++ crlf ++ headerLines q.headers ++ crlf

/-- The last header with this field. -/
def lastHeader (q : RequestText) (field : Bytes) : Option Header :=
  q.headers.reverse.find? fun h => h.1 = field

/-- The request says what its text says. -/
structure Describes (q : RequestText) (r : HttpRequest) : Prop where
  method : r.method = q.method
  path : r.path = q.target
  version : r.version = q.version
  headers : ∀ field, match q.lastHeader field with
    | none => r.headers.lookup field = none
    | some h => ∃ value, r.headers.lookup field = some value ∧ Stripped h.2 value

end RequestText

/-! ### Header values -/

theorem stripped_trim (value : Bytes) : Stripped value (trim value) where
  around := by
    refine ⟨value.takeWhile isSpace, (value.dropWhile isSpace).rtakeWhile isSpace, ?_, ?_, ?_⟩
    · rw [trim, List.append_assoc, List.rdropWhile_append_rtakeWhile,
        List.takeWhile_append_dropWhile]
    · intro x hx
      exact List.mem_takeWhile_imp hx
    · intro x hx
      exact List.mem_rtakeWhile_imp hx
  first := by
    intro x hx
    obtain ⟨t, ht⟩ := List.rdropWhile_prefix isSpace (l := value.dropWhile isSpace)
    have hhead : (value.dropWhile isSpace).head? = some x := by
      rw [← ht, List.head?_append]
      show ((trim value).head?.or _) = _
      rw [Option.mem_def.mp hx]
      rfl
    have hnot := List.head?_dropWhile_not isSpace value
    rw [hhead] at hnot
    simpa using hnot
  last := by
    intro x hx
    have hne : trim value ≠ [] := by
      intro hnil
      rw [hnil] at hx
      cases hx
    have hlast := List.rdropWhile_last_not isSpace (value.dropWhile isSpace) hne
    rw [Option.mem_def, List.getLast?_eq_some_getLast hne, Option.some.injEq] at hx
    rw [← hx]
    simpa [trim] using hlast

/-- The headers of a request, one after the other. -/
def addHeaders (r : HttpRequest) (hs : List Header) : HttpRequest :=
  hs.foldl (fun r h => r.addHeader h.1 h.2) r

@[simp] theorem addHeaders_nil (r : HttpRequest) : addHeaders r [] = r := rfl

@[simp] theorem addHeaders_cons (r : HttpRequest) (h : Header) (hs : List Header) :
    addHeaders r (h :: hs) = addHeaders (r.addHeader h.1 h.2) hs := rfl

theorem addHeaders_append (r : HttpRequest) (hs hs' : List Header) :
    addHeaders r (hs ++ hs') = addHeaders (addHeaders r hs) hs' := List.foldl_append

/-- Headers are all that is added. -/
theorem addHeaders_eq (r : HttpRequest) (hs : List Header) :
    addHeaders r hs = { r with headers := (addHeaders r hs).headers } := by
  induction hs generalizing r with
  | nil => rfl
  | cons h hs ih =>
      rw [addHeaders_cons, ih]
      rfl

/-- The last header with a field is the one that counts. -/
theorem lookup_addHeaders (r : HttpRequest) (hs : List Header) (field : Bytes) :
    (addHeaders r hs).headers.lookup field
      = match hs.reverse.find? (fun h => h.1 = field) with
        | none => r.headers.lookup field
        | some h => some (trim h.2) := by
  induction hs using List.reverseRecOn with
  | nil => rfl
  | append_singleton hs h ih =>
      rw [addHeaders_append, addHeaders_cons, addHeaders_nil]
      show (assign h.1 (trim h.2) _).lookup field = _
      rw [lookup_assign, List.reverse_append, List.reverse_singleton, List.singleton_append, List.find?_cons]
      by_cases hf : h.1 = field
      · simp [hf]
      · simp [hf, Ne.symm hf, ih]

/-! ### The request line -/

theorem methodOf_methodString {m : Method} (h : m ≠ .kInvalid) : methodOf m.methodString = m := by
  cases m with
  | kInvalid => exact absurd rfl h
  | _ => rfl

theorem methodString_methodOf {w : Bytes} (h : methodOf w ≠ .kInvalid) :
    (methodOf w).methodString = w := by
  unfold methodOf at h ⊢
  split_ifs at h ⊢ with h₁ h₂ h₃ h₄ h₅
  · exact h₁.symm
  · exact h₂.symm
  · exact h₃.symm
  · exact h₄.symm
  · exact h₅.symm
  · exact absurd rfl h

theorem methodString_no_space (m : Method) : 32 ∉ m.methodString := by
  cases m <;> decide

theorem processRequestLine_text {line target : Bytes} {m : Method} {v : Version}
    (h : IsRequestLine line m target v) {r : HttpRequest} (hr : r.method = .kInvalid) :
    processRequestLine line r
      = .ok (true, { r with method := m, path := target, version := v }) := by
  obtain ⟨rfl, hknown, hnumbered, hspace, -⟩ := h
  simp only [processRequestLine, cutAt_append (methodString_no_space m), setMethod, if_pos hr,
    methodOf_methodString hknown, bind, Except.bind, cutAt_append hspace]
  cases v with
  | kUnknown => exact absurd rfl hnumbered
  | kHttp10 => simp [hknown, Version.text, ascii, pure, Except.pure]
  | kHttp11 => simp [hknown, Version.text, ascii, pure, Except.pure]

/-- A line has its parts in one way only. -/
theorem IsRequestLine.unique {line target target' : Bytes} {m m' : Method} {v v' : Version}
    (h : IsRequestLine line m target v) (h' : IsRequestLine line m' target' v') :
    m = m' ∧ target = target' ∧ v = v' := by
  have heq := (processRequestLine_text h (r := HttpRequest.init) rfl).symm.trans
    (processRequestLine_text h' rfl)
  simp only [Except.ok.injEq, Prod.mk.injEq, HttpRequest.mk.injEq, true_and] at heq
  exact ⟨heq.1, heq.2.2.1, heq.2.1⟩

private theorem version_text {w : Bytes} (hpre : w.take 7 = ascii "HTTP/1.")
    {v : Version} {d : Bytes} (hd : w.drop 7 = d) (hv : v.text = ascii "HTTP/1." ++ d) :
    w = v.text := by
  rw [hv, ← hpre, ← hd, List.take_append_drop]

/-- With no method noted, a line is one of the grammar, or it is rejected. -/
theorem processRequestLine_cases (line : Bytes) {r : HttpRequest} (hr : r.method = .kInvalid)
    (hline : crlf? line = none) :
    (∃ m target v, IsRequestLine line m target v) ∨
      ∃ r', processRequestLine line r = .ok (false, r') ∧ (r'.method = .kInvalid ∨ 32 ∈ line) := by
  cases hcut : cutAt 32 line with
  | none => exact Or.inr ⟨r, by simp only [processRequestLine, hcut], Or.inl hr⟩
  | some p =>
      obtain ⟨w, rest⟩ := p
      obtain ⟨hw, -⟩ := cutAt_eq_some hcut
      have hspace : 32 ∈ line := by rw [hw]; simp
      by_cases hknown : methodOf w = .kInvalid
      · refine Or.inr ⟨{ r with method := methodOf w }, ?_, Or.inr hspace⟩
        simp [processRequestLine, hcut, setMethod, hr, hknown, bind, Except.bind, pure, Except.pure]
      · cases hcut' : cutAt 32 rest with
        | none =>
            refine Or.inr ⟨{ r with method := methodOf w }, ?_, Or.inr hspace⟩
            simp [processRequestLine, hcut, setMethod, hr, hknown, hcut', bind, Except.bind, pure,
              Except.pure]
        | some p =>
            obtain ⟨target, w'⟩ := p
            obtain ⟨hw', htarget⟩ := cutAt_eq_some hcut'
            have hgood : ∀ v : Version, v ≠ .kUnknown → w' = v.text →
                IsRequestLine line (methodOf w) target v := by
              intro v hv hw''
              refine ⟨?_, hknown, hv, htarget, hline⟩
              rw [methodString_methodOf hknown, ← hw'', ← hw', ← hw]
            by_cases hver : w'.length = 8 ∧ w'.take 7 = ascii "HTTP/1."
            · by_cases h1 : w'.drop 7 = ascii "1"
              · refine Or.inl ⟨_, target, .kHttp11, hgood _ (by decide) ?_⟩
                exact version_text hver.2 h1 rfl
              · by_cases h0 : w'.drop 7 = ascii "0"
                · refine Or.inl ⟨_, target, .kHttp10, hgood _ (by decide) ?_⟩
                  exact version_text hver.2 h0 rfl
                · refine Or.inr ⟨{ r with method := methodOf w, path := target }, ?_, Or.inr hspace⟩
                  simp [processRequestLine, hcut, setMethod, hr, hknown, hcut', bind,
                    Except.bind, pure, Except.pure, hver, h1, h0]
            · refine Or.inr ⟨{ r with method := methodOf w, path := target }, ?_, Or.inr hspace⟩
              simp [processRequestLine, hcut, setMethod, hr, hknown, hcut', bind,
                Except.bind, pure, Except.pure, hver]

/-- With a method noted, a line with a space in it fails the assertion of `setMethod`. -/
theorem processRequestLine_fault {line : Bytes} {r : HttpRequest} (hr : r.method ≠ .kInvalid)
    (hspace : 32 ∈ line) : processRequestLine line r = .error .assertion := by
  cases hcut : cutAt 32 line with
  | none => exact absurd hspace (cutAt_eq_none_iff.mp hcut)
  | some p => simp [processRequestLine, hcut, setMethod, hr, bind, Except.bind]

/-! ### How bytes fall into lines -/

theorem line_unique {l r l' r' : Bytes} (h : l ++ crlf ++ r = l' ++ crlf ++ r')
    (hl : crlf? l = none) (hl' : crlf? l' = none) : l = l' ∧ r = r' := by
  have hlen : l.length = l'.length := by
    have hfirst := crlf?_line hl r
    rw [h, crlf?_line hl' r'] at hfirst
    exact (Option.some.inj hfirst).symm
  rw [List.append_assoc, List.append_assoc] at h
  obtain ⟨rfl, hrest⟩ := List.append_inj h hlen
  exact ⟨rfl, List.append_cancel_left hrest⟩

theorem colon_mem_line (h : Header) : 58 ∈ h.line := by simp [Header.line]

theorem cutAt_line {h : Header} (hv : h.Valid) : cutAt 58 h.line = some h :=
  cutAt_append hv.no_colon h.2

/-- What ends the headers is found in one place only. -/
theorem headers_unique {hs hs' : List Header} {last rest last' rest' : Bytes}
    (h : headerLines hs ++ last ++ crlf ++ rest = headerLines hs' ++ last' ++ crlf ++ rest')
    (hv : ∀ h ∈ hs, h.Valid) (hv' : ∀ h ∈ hs', h.Valid) (hlast : crlf? last = none)
    (hlast' : crlf? last' = none) (hc : 58 ∉ last) (hc' : 58 ∉ last') :
    hs = hs' ∧ last = last' ∧ rest = rest' := by
  induction hs generalizing hs' with
  | nil =>
      cases hs' with
      | nil =>
          obtain ⟨hl, hr⟩ := line_unique (by simpa using h) hlast hlast'
          exact ⟨rfl, hl, hr⟩
      | cons h' hs' =>
          have heq : last ++ crlf ++ rest
              = h'.line ++ crlf ++ (headerLines hs' ++ last' ++ crlf ++ rest') := by simpa using h
          have hline := (line_unique heq hlast (hv' h' List.mem_cons_self).one_line).1
          exact absurd (colon_mem_line h') (by rw [← hline]; exact hc)
  | cons h₀ hs ih =>
      have hv₀ := hv h₀ List.mem_cons_self
      cases hs' with
      | nil =>
          have heq : h₀.line ++ crlf ++ (headerLines hs ++ last ++ crlf ++ rest)
              = last' ++ crlf ++ rest' := by simpa using h
          have hline := (line_unique heq hv₀.one_line hlast').1
          exact absurd (colon_mem_line h₀) (by rw [hline]; exact hc')
      | cons h' hs' =>
          have hv₁ := hv' h' List.mem_cons_self
          have heq : h₀.line ++ crlf ++ (headerLines hs ++ last ++ crlf ++ rest)
              = h'.line ++ crlf ++ (headerLines hs' ++ last' ++ crlf ++ rest') := by simpa using h
          obtain ⟨hline, hrest⟩ := line_unique heq hv₀.one_line hv₁.one_line
          have hhead : h₀ = h' := by
            have hcut := cutAt_line hv₀
            rw [hline, cutAt_line hv₁] at hcut
            exact (Option.some.inj hcut).symm
          obtain ⟨rfl, hl, hr⟩ := ih hrest (fun h hh => hv h (List.mem_cons_of_mem _ hh))
            fun h hh => hv' h (List.mem_cons_of_mem _ hh)
          exact ⟨by rw [hhead], hl, hr⟩

/-- The headers that bytes begin with, and what the next line is if it has arrived. -/
theorem exists_headers (b : Bytes) : ∃ (hs : List Header) (tail : Bytes),
    b = headerLines hs ++ tail ∧ (∀ h ∈ hs, h.Valid) ∧
      (crlf? tail = none ∨
        ∃ last rest, tail = last ++ crlf ++ rest ∧ crlf? last = none ∧ 58 ∉ last) := by
  induction hn : b.length using Nat.strong_induction_on generalizing b with
  | _ n ih =>
      subst hn
      cases hb : crlf? b with
      | none => exact ⟨[], b, rfl, by simp, Or.inl hb⟩
      | some k =>
          obtain ⟨line, rest, rfl, hline, rfl⟩ := crlf?_eq_some hb
          cases hcut : cutAt 58 line with
          | none =>
              refine ⟨[], _, rfl, by simp, Or.inr ⟨line, rest, rfl, hline, ?_⟩⟩
              exact cutAt_eq_none_iff.mp hcut
          | some h =>
              obtain ⟨hline', hcolon⟩ := cutAt_eq_some hcut
              have hshort : rest.length < (line ++ crlf ++ rest).length := by
                simp only [crlf, List.length_append, List.length_cons]
                omega
              obtain ⟨hs, tail, rfl, hv, htail⟩ := ih rest.length hshort rest rfl
              refine ⟨h :: hs, tail, ?_, ?_, htail⟩
              · rw [hline', headerLines_cons, Header.line]
                simp only [List.append_assoc]
              · intro h' hh'
                rcases List.mem_cons.mp hh' with rfl | hh'
                · exact ⟨hcolon, by rw [Header.line, ← hline']; exact hline⟩
                · exact hv h' hh'

/-! ### The k of the loop -/

variable {t : Timestamp} {buf : Buffer} {c : HttpContext}

theorem findCRLF_line {line rest : Bytes} (hbuf : buf.readable = line ++ crlf ++ rest)
    (hline : crlf? line = none) : buf.findCRLF = some line.length := by
  rw [Buffer.findCRLF, hbuf, crlf?_line hline]

theorem take_line {line rest : Bytes} (hbuf : buf.readable = line ++ crlf ++ rest) :
    buf.readable.take line.length = line := by
  rw [hbuf, List.append_assoc, List.take_left]

theorem retrieveUntil_line {line rest : Bytes} (hbuf : buf.readable = line ++ crlf ++ rest) :
    ∃ buf', retrieveUntil buf (line.length + 2) = .ok buf' ∧ buf'.readable = rest := by
  have hlen : line.length + 2 ≤ buf.readableBytes := by
    rw [← Buffer.length_readable, hbuf]
    simp only [crlf, List.length_append, List.length_cons]
    omega
  refine ⟨_, dif_pos hlen, ?_⟩
  have hprefix : line.length + 2 = (line ++ crlf).length := by simp [crlf]
  rw [Buffer.readable_retrieve, hbuf, hprefix, List.drop_left]

theorem parseRound_none (hstate : c.state = .kExpectRequestLine ∨
    c.state = .kExpectHeaders) (hnone : crlf? buf.readable = none) :
    parseRound t buf c = .ok ⟨true, false, buf, c⟩ := by
  rcases hstate with hstate | hstate <;> simp [parseRound, hstate, Buffer.findCRLF, hnone]

theorem parseRound_requestLine {line rest : Bytes} {r : HttpRequest}
    (hstate : c.state = .kExpectRequestLine)
    (hbuf : buf.readable = line ++ crlf ++ rest) (hline : crlf? line = none)
    (hproc : processRequestLine line c.request = .ok (true, r)) :
    ∃ buf', buf'.readable = rest ∧ parseRound t buf c
      = .ok ⟨true, true, buf', ⟨.kExpectHeaders, { r with receiveTime := t }⟩⟩ := by
  obtain ⟨buf', hret, hbuf'⟩ := retrieveUntil_line hbuf
  refine ⟨buf', hbuf', ?_⟩
  simp [parseRound, hstate, findCRLF_line hbuf hline, take_line hbuf, hproc, hret, bind,
    Except.bind, pure, Except.pure, HttpContext.receiveRequestLine]

theorem parseRound_rejected {line rest : Bytes} {r : HttpRequest}
    (hstate : c.state = .kExpectRequestLine)
    (hbuf : buf.readable = line ++ crlf ++ rest) (hline : crlf? line = none)
    (hproc : processRequestLine line c.request = .ok (false, r)) :
    parseRound t buf c
      = .ok ⟨false, false, buf, { c with request := r }⟩ := by
  simp [parseRound, hstate, findCRLF_line hbuf hline, take_line hbuf, hproc, bind,
    Except.bind, pure, Except.pure]

theorem parseRound_fault {line rest : Bytes} (hstate : c.state = .kExpectRequestLine)
    (hbuf : buf.readable = line ++ crlf ++ rest) (hline : crlf? line = none)
    (hproc : processRequestLine line c.request = .error .assertion) :
    parseRound t buf c = .error .assertion := by
  simp [parseRound, hstate, findCRLF_line hbuf hline, take_line hbuf, hproc, bind, Except.bind]

theorem parseRound_header {h : Header} {rest : Bytes} (hstate : c.state = .kExpectHeaders)
    (hbuf : buf.readable = h.line ++ crlf ++ rest) (hv : h.Valid) :
    ∃ buf', buf'.readable = rest ∧ parseRound t buf c
      = .ok ⟨true, true, buf', { c with request := c.request.addHeader h.1 h.2 }⟩ := by
  obtain ⟨buf', hret, hbuf'⟩ := retrieveUntil_line hbuf
  refine ⟨buf', hbuf', ?_⟩
  simp [parseRound, hstate, findCRLF_line hbuf hv.one_line, take_line hbuf, cutAt_line hv, hret,
    bind, Except.bind, pure, Except.pure]

theorem parseRound_end {last rest : Bytes} (hstate : c.state = .kExpectHeaders)
    (hbuf : buf.readable = last ++ crlf ++ rest) (hlast : crlf? last = none) (hcolon : 58 ∉ last) :
    ∃ buf', buf'.readable = rest ∧ parseRound t buf c
      = .ok ⟨true, false, buf', { c with state := .kGotAll }⟩ := by
  obtain ⟨buf', hret, hbuf'⟩ := retrieveUntil_line hbuf
  refine ⟨buf', hbuf', ?_⟩
  simp [parseRound, hstate, findCRLF_line hbuf hlast, take_line hbuf,
    cutAt_eq_none_iff.mpr hcolon, hret, bind, Except.bind, pure, Except.pure,
    HttpContext.receiveHeaders, HttpContext.gotAll]

/-! ### The loop -/

variable {k : Nat}

theorem parseLoop_more {r : Round} (hround : parseRound t buf c = .ok r)
    (hmore : r.hasMore = true) :
    parseLoop t (k + 1) buf c = parseLoop t k r.buf r.context := by
  simp [parseLoop, hround, hmore, bind, Except.bind]

theorem parseLoop_done {r : Round} (hround : parseRound t buf c = .ok r)
    (hmore : r.hasMore = false) :
    parseLoop t (k + 1) buf c = .ok (r.ok, r.buf, r.context) := by
  simp [parseLoop, hround, hmore, bind, Except.bind, pure, Except.pure]

/-- The loop takes the headers off the buffer, one after the other. -/
theorem parseLoop_headers {hs : List Header} (hv : ∀ h ∈ hs, h.Valid) {tail : Bytes}
    (hstate : c.state = .kExpectHeaders) (hbuf : buf.readable = headerLines hs ++ tail)
    (hrounds : buf.readableBytes < k) :
    ∃ buf' rounds', buf'.readable = tail ∧ buf'.readableBytes < rounds' ∧
      parseLoop t k buf c
        = parseLoop t rounds' buf'
          { c with request := addHeaders c.request hs } := by
  induction hs generalizing buf c k with
  | nil => exact ⟨buf, k, hbuf, hrounds, rfl⟩
  | cons h hs ih =>
      have hbuf₁ : buf.readable = h.line ++ crlf ++ (headerLines hs ++ tail) := by
        rw [hbuf, headerLines_cons, List.append_assoc]
      obtain ⟨buf₁, hread, hround⟩ := parseRound_header (t := t) hstate hbuf₁
        (hv h List.mem_cons_self)
      obtain ⟨n, rfl⟩ : ∃ n, k = n + 1 := ⟨k - 1, by omega⟩
      have hshort : buf₁.readableBytes < n := by
        rw [← Buffer.length_readable, hread]
        rw [← Buffer.length_readable, hbuf₁] at hrounds
        simp only [crlf, List.length_append, List.length_cons] at hrounds ⊢
        omega
      obtain ⟨buf', rounds', hread', hlt, hloop⟩ := ih (c := { c with
        request := c.request.addHeader h.1 h.2 }) (fun h hh => hv h (List.mem_cons_of_mem _ hh))
        hstate hread hshort
      refine ⟨buf', rounds', hread', hlt, ?_⟩
      rw [parseLoop_more hround rfl, hloop]
      rfl

/-- Headers and the line that ends them. -/
theorem parseLoop_headers_end {hs : List Header} (hv : ∀ h ∈ hs, h.Valid) {last rest : Bytes}
    (hlast : crlf? last = none) (hcolon : 58 ∉ last) (hstate : c.state = .kExpectHeaders)
    (hbuf : buf.readable = headerLines hs ++ (last ++ crlf ++ rest))
    (hrounds : buf.readableBytes < k) :
    ∃ buf', buf'.readable = rest ∧ parseLoop t k buf c
      = .ok (true, buf', ⟨.kGotAll, addHeaders c.request hs⟩) := by
  obtain ⟨buf₁, n, hread, hlt, hloop⟩ := parseLoop_headers (t := t) hv hstate
    hbuf hrounds
  obtain ⟨buf', hread', hround⟩ := parseRound_end (t := t)
    (c := { c with request := addHeaders c.request hs }) hstate hread hlast hcolon
  obtain ⟨n, rfl⟩ : ∃ m, n = m + 1 := ⟨n - 1, by omega⟩
  exact ⟨buf', hread', by rw [hloop, parseLoop_done hround rfl]⟩

/-- Headers and a line that has not arrived to its end. -/
theorem parseLoop_headers_wait {hs : List Header} (hv : ∀ h ∈ hs, h.Valid) {tail : Bytes}
    (htail : crlf? tail = none) (hstate : c.state = .kExpectHeaders)
    (hbuf : buf.readable = headerLines hs ++ tail) (hrounds : buf.readableBytes < k) :
    ∃ buf', buf'.readable = tail ∧ parseLoop t k buf c
      = .ok (true, buf', { c with request := addHeaders c.request hs }) := by
  obtain ⟨buf', n, hread, hlt, hloop⟩ := parseLoop_headers (t := t) hv hstate
    hbuf hrounds
  have hnone : crlf? buf'.readable = none := by
    rw [hread]
    exact htail
  have hround := parseRound_none (t := t) (c := { c with request := addHeaders c.request hs })
    (Or.inr hstate) hnone
  obtain ⟨n, rfl⟩ : ∃ m, n = m + 1 := ⟨n - 1, by omega⟩
  exact ⟨buf', hread, by rw [hloop, parseLoop_done hround rfl]⟩

/-- A request line of the grammar brings the loop to the headers. -/
theorem parseLoop_requestLine {line target rest : Bytes} {m : Method} {v : Version}
    (hline : IsRequestLine line m target v) (hstate : c.state = .kExpectRequestLine)
    (hmethod : c.request.method = .kInvalid)
    (hbuf : buf.readable = line ++ crlf ++ rest) (hrounds : buf.readableBytes < k) :
    ∃ buf' rounds', buf'.readable = rest ∧ buf'.readableBytes < rounds' ∧
      parseLoop t k buf c
        = parseLoop t rounds' buf' ⟨.kExpectHeaders, { c.request with
          method := m, path := target, version := v, receiveTime := t }⟩ := by
  obtain ⟨buf', hread, hround⟩ := parseRound_requestLine (t := t) hstate hbuf
    hline.one_line (processRequestLine_text hline hmethod)
  obtain ⟨n, rfl⟩ : ∃ n, k = n + 1 := ⟨k - 1, by omega⟩
  refine ⟨buf', n, hread, ?_, by rw [parseLoop_more hround rfl]⟩
  rw [← Buffer.length_readable, hread]
  rw [← Buffer.length_readable, hbuf] at hrounds
  simp only [crlf, List.length_append, List.length_cons] at hrounds
  omega

/-! ### What is accepted -/

/-- From a new c, the parser gets all of a request from the first bytes `p`. -/
def Accepts (t : Timestamp) (buf : Buffer) (p : Bytes) (r : HttpRequest) : Prop :=
  ∃ ok buf' c, parseRequest buf .init t = .ok (ok, buf', c) ∧
    c.gotAll = true ∧ buf.readable = p ++ buf'.readable ∧ c.request = r

/-- A request line, headers, and a line without a colon that the parser takes for their end. -/
structure Ended (b line last rest : Bytes) (hs : List Header) : Prop where
  bytes : b = line ++ crlf ++ (headerLines hs ++ (last ++ crlf ++ rest))
  is_line : ∃ m target v, IsRequestLine line m target v
  valid : ∀ h ∈ hs, h.Valid
  one_line : crlf? last = none
  no_colon : 58 ∉ last

/-- The line that ends the headers is empty. -/
def EndsEmpty (b : Bytes) : Prop :=
  ∀ line last rest hs, Ended b line last rest hs → last = []

theorem Ended.unique {b line last rest line' last' rest' : Bytes} {hs hs' : List Header}
    (h : Ended b line last rest hs) (h' : Ended b line' last' rest' hs') :
    line = line' ∧ hs = hs' ∧ last = last' ∧ rest = rest' := by
  obtain ⟨_, _, _, hl⟩ := h.is_line
  obtain ⟨_, _, _, hl'⟩ := h'.is_line
  obtain ⟨rfl, hrest⟩ := line_unique (h.bytes.symm.trans h'.bytes) hl.one_line hl'.one_line
  obtain ⟨rfl, rfl, rfl⟩ := headers_unique (by simpa using hrest) h.valid h'.valid h.one_line
    h'.one_line h.no_colon h'.no_colon
  exact ⟨rfl, rfl, rfl, rfl⟩

/-- Such bytes are accepted. -/
theorem Ended.parse {line last rest target : Bytes} {hs : List Header} {m : Method} {v : Version}
    (h : Ended buf.readable line last rest hs) (hline : IsRequestLine line m target v) :
    ∃ buf', buf'.readable = rest ∧ parseRequest buf .init t
      = .ok (true, buf', ⟨.kGotAll, addHeaders ⟨m, v, target, t, []⟩ hs⟩) := by
  obtain ⟨buf₁, n, hread, hlt, hloop⟩ := parseLoop_requestLine (t := t)
    (c := .init) hline rfl rfl h.bytes (Nat.lt_succ_self _)
  obtain ⟨buf', hread', hend⟩ := parseLoop_headers_end (t := t) h.valid h.one_line
    h.no_colon (c := ⟨.kExpectHeaders, ⟨m, v, target, t, []⟩⟩) rfl hread hlt
  exact ⟨buf', hread', hloop.trans hend⟩

/-- No other bytes are. -/
theorem exists_ended {ok : Bool} {buf' : Buffer} {context' : HttpContext}
    (hparse : parseRequest buf .init t = .ok (ok, buf', context'))
    (hall : context'.gotAll = true) :
    ∃ line last rest hs, Ended buf.readable line last rest hs := by
  have hrounds : buf.readableBytes < buf.readableBytes + 1 := Nat.lt_succ_self _
  cases hcrlf : crlf? buf.readable with
  | none =>
      have hround := parseRound_none (t := t) (c := .init) (Or.inl rfl) hcrlf
      rw [parseRequest, parseLoop_done hround rfl] at hparse
      cases hparse
      cases hall
  | some k =>
      obtain ⟨line, rest, hbuf, hline, -⟩ := crlf?_eq_some hcrlf
      rcases processRequestLine_cases line (r := HttpRequest.init) rfl hline with
        ⟨m, target, v, his⟩ | ⟨r, hproc, -⟩
      · obtain ⟨hs, tail, rfl, hv, htail⟩ := exists_headers rest
        rcases htail with htail | ⟨last, rest', rfl, hlast, hcolon⟩
        · obtain ⟨buf₁, n, hread, hlt, hloop⟩ := parseLoop_requestLine (t := t)
            (c := .init) his rfl rfl hbuf hrounds
          obtain ⟨buf₂, -, hwait⟩ := parseLoop_headers_wait (t := t) hv htail
            (c := ⟨.kExpectHeaders, ⟨m, v, target, t, []⟩⟩) rfl hread hlt
          rw [parseRequest] at hparse
          rw [hloop.trans hwait] at hparse
          cases hparse
          cases hall
        · exact ⟨line, last, rest', hs, hbuf, ⟨m, target, v, his⟩, hv, hlast, hcolon⟩
      · have hround := parseRound_rejected (t := t) (c := .init) rfl hbuf
          hline hproc
        rw [parseRequest, parseLoop_done hround rfl] at hparse
        cases hparse
        cases hall

theorem accepts_iff {p : Bytes} {r : HttpRequest} :
    Accepts t buf p r ↔ ∃ line last rest hs m target v,
      Ended buf.readable line last rest hs ∧ IsRequestLine line m target v ∧
      p = line ++ crlf ++ (headerLines hs ++ (last ++ crlf)) ∧
      r = addHeaders ⟨m, v, target, t, []⟩ hs := by
  constructor
  · rintro ⟨ok, buf', context', hparse, hall, hread, rfl⟩
    obtain ⟨line, last, rest, hs, hended⟩ := exists_ended hparse hall
    obtain ⟨m, target, v, hline⟩ := hended.is_line
    obtain ⟨buf₁, hread₁, hparse₁⟩ := hended.parse (t := t) hline
    rw [hparse] at hparse₁
    cases hparse₁
    refine ⟨line, last, rest, hs, m, target, v, hended, hline, ?_, rfl⟩
    rw [hread₁, hended.bytes] at hread
    have hsame : p ++ rest = line ++ crlf ++ (headerLines hs ++ (last ++ crlf)) ++ rest := by
      rw [← hread]
      simp only [List.append_assoc]
    exact List.append_cancel_right hsame
  · rintro ⟨line, last, rest, hs, m, target, v, hended, hline, rfl, rfl⟩
    obtain ⟨buf', hread, hparse⟩ := hended.parse (t := t) hline
    refine ⟨true, buf', _, hparse, rfl, ?_, rfl⟩
    rw [hread, hended.bytes]
    simp only [List.append_assoc]

theorem RequestText.describes (q : RequestText) (t : Timestamp) :
    q.Describes (addHeaders ⟨q.method, q.version, q.target, t, []⟩ q.headers) := by
  refine ⟨?_, ?_, ?_, ?_⟩
  · rw [addHeaders_eq]
  · rw [addHeaders_eq]
  · rw [addHeaders_eq]
  · intro field
    rw [lookup_addHeaders, RequestText.lastHeader]
    cases q.headers.reverse.find? fun h => h.1 = field with
    | none => rfl
    | some h => exact ⟨_, rfl, stripped_trim h.2⟩

theorem RequestText.ended {q : RequestText} {b : Bytes} (h : q.render <+: b) :
    ∃ rest, b = q.render ++ rest ∧ Ended b q.line [] rest q.headers := by
  obtain ⟨rest, rfl⟩ := h
  refine ⟨rest, rfl, ?_, ⟨_, _, _, q.is_line⟩, q.valid, rfl, by simp⟩
  simp only [RequestText.render, List.append_assoc, List.nil_append]

/-- **The parser reads the grammar** from a buffer, if and only if the line without a colon
that ends the headers, if there is one, is empty. -/
theorem parse_grammar_iff (t : Timestamp) (buf : Buffer) :
    ((∀ p, (∃ r, Accepts t buf p r) ↔
        ∃ q : RequestText, q.render = p ∧ p <+: buf.readable) ∧
      ∀ (q : RequestText) r, Accepts t buf q.render r → q.Describes r) ↔
    EndsEmpty buf.readable := by
  constructor
  · rintro ⟨hgrammar, -⟩ line last rest hs hended
    obtain ⟨m, target, v, hline⟩ := hended.is_line
    obtain ⟨q, hq, hprefix⟩ := (hgrammar _).mp ⟨_, accepts_iff.mpr
      ⟨line, last, rest, hs, m, target, v, hended, hline, rfl, rfl⟩⟩
    obtain ⟨rest', -, hended'⟩ := RequestText.ended (hq ▸ hprefix)
    exact (hended.unique hended').2.2.1
  · intro hempty
    refine ⟨fun p => ⟨?_, ?_⟩, ?_⟩
    · rintro ⟨r, haccepts⟩
      obtain ⟨line, last, rest, hs, m, target, v, hended, hline, rfl, -⟩ := accepts_iff.mp haccepts
      obtain rfl := hempty line last rest hs hended
      refine ⟨⟨line, m, target, v, hs, hline, hended.valid⟩, ?_, rest, ?_⟩
      · simp only [RequestText.render, List.append_assoc, List.nil_append]
      · rw [hended.bytes]
        simp only [List.append_assoc]
    · rintro ⟨q, rfl, hprefix⟩
      obtain ⟨rest, -, hended⟩ := RequestText.ended hprefix
      refine ⟨_, accepts_iff.mpr ⟨_, _, _, _, _, _, _, hended, q.is_line, ?_, rfl⟩⟩
      simp only [RequestText.render, List.append_assoc, List.nil_append]
    · intro q r haccepts
      obtain ⟨line, last, rest, hs, m, target, v, hended, hline, hp, rfl⟩ := accepts_iff.mp haccepts
      obtain ⟨rest', -, hended'⟩ := RequestText.ended (q := q) (b := buf.readable)
        ⟨rest, by rw [hp, hended.bytes]; simp only [List.append_assoc]⟩
      obtain ⟨rfl, rfl, -, -⟩ := hended.unique hended'
      obtain ⟨rfl, rfl, rfl⟩ := hline.unique q.is_line
      exact q.describes t

/-- A word without a colon ends the headers: the request is accepted, and it is not one of the
grammar. -/
theorem word_ends_headers :
    let buf := Buffer.init.append (ascii "GET / HTTP/1.1\r\nHost\r\n")
    ∃ r, Accepts 0 buf buf.readable r ∧ ¬∃ q : RequestText, q.render = buf.readable := by
  intro buf
  have hread : buf.readable
      = ascii "GET / HTTP/1.1" ++ crlf ++ (headerLines [] ++ (ascii "Host" ++ crlf ++ [])) := by
    rw [Buffer.readable_append]
    decide
  have hline : IsRequestLine (ascii "GET / HTTP/1.1") .kGet (ascii "/") .kHttp11 :=
    ⟨by decide, by decide, by decide, by decide, by decide⟩
  have hended : Ended buf.readable (ascii "GET / HTTP/1.1") (ascii "Host") [] [] :=
    ⟨hread, ⟨_, _, _, hline⟩, by simp, by decide, by decide⟩
  refine ⟨_, accepts_iff.mpr ⟨_, _, _, _, _, _, _, hended, hline, ?_, rfl⟩, ?_⟩
  · simpa using hread
  · rintro ⟨q, hq⟩
    obtain ⟨rest, -, hended'⟩ := RequestText.ended (q := q) (b := buf.readable) (by rw [hq])
    have hlast := (hended.unique hended').2.2.1
    exact absurd hlast (by decide)

end Net.Http
