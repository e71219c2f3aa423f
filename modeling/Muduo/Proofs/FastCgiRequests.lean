/-
Requests that arrive at a FastCGI application.

A web server cuts the parameters and the body of a request into records as it likes, and the
network cuts the records.  The codec calls back once for each request, with all of its parameters
and its body, as long as no delivery brings bytes of two requests.
-/
import Mathlib.Data.Nat.Bitwise
import Muduo.Examples.FastCgi

namespace FastCgi

open Lib FastCgiCodec

/-! ### What is sent -/

structure Record where
  type : UInt8
  id : UInt16
  content : Bytes
  padding : Bytes
  content_lt : content.length < 65536
  padding_lt : padding.length < 256

namespace Record

def text (r : Record) : Bytes :=
  [1, r.type] ++ beU16 r.id ++ beU16 (UInt16.ofNat r.content.length) ++
    [UInt8.ofNat r.padding.length, 0] ++ (r.content ++ r.padding)

def part (r : Record) : UInt8 × Bytes := (r.type, r.content)

theorem lengthOf_text (r : Record) : lengthOf r.text = r.content.length := by
  have hlength : lengthOf r.text = (UInt16.ofNat r.content.length).toNat :=
    congrArg UInt16.toNat (toU16_beU16 _)
  rw [hlength, UInt16.toNat_ofNat', Nat.mod_eq_of_lt r.content_lt]

theorem paddingOf_text (r : Record) : paddingOf r.text = r.padding.length := by
  have hpadding : paddingOf r.text = (UInt8.ofNat r.padding.length).toNat := rfl
  rw [hpadding, UInt8.toNat_ofNat', Nat.mod_eq_of_lt r.padding_lt]

theorem length_text (r : Record) :
    r.text.length = kRecordHeader + r.content.length + r.padding.length := by
  rw [text, List.length_append, @List.length_append _ r.content, ← Nat.add_assoc]
  rfl

theorem isFrame_text (r : Record) : records.IsFrame r.text := by
  have hle : kRecordHeader ≤ r.text.length := by
    rw [length_text]
    omega
  show (if kRecordHeader ≤ r.text.length then some _ else none) = some _
  rw [if_pos hle, lengthOf_text, paddingOf_text, length_text]

theorem handle_text (c : FastCgiCodec) (r : Record) :
    c.handle r.text = c.onRecord r.part.1 r.part.2 := by
  have hcontent : (r.text.drop kRecordHeader).take (lengthOf r.text) = r.content := by
    rw [lengthOf_text]
    exact List.take_left
  rw [handle, hcontent]
  rfl

end Record

/-- The length of a name or of a value. -/
def lengthText (n : Nat) : Bytes :=
  if n < 128 then [UInt8.ofNat n] else beU32 (UInt32.ofNat (n + 2 ^ 31))

def nameValue (p : Bytes × Bytes) : Bytes :=
  lengthText p.1.length ++ (lengthText p.2.length ++ (p.1 ++ p.2))

structure Request where
  keepConn : Bool
  params : List (Bytes × Bytes)
  stdin : Bytes
  params_lt : ∀ p ∈ params, p.1.length < 2 ^ 31 ∧ p.2.length < 2 ^ 31

namespace Request

/-- Of two values of one name the later one counts. -/
def paramMap (r : Request) : ParamMap := r.params.foldl (fun m p => assign p.1 p.2 m) []

def beginContent (r : Request) : Bytes := [0, 1, if r.keepConn then 1 else 0, 0, 0, 0, 0, 0]

/-- The records of a request, whose streams are cut into pieces that are not empty. -/
structure Sent (r : Request) (params stdin : List Bytes) : Prop where
  params_ne : ∀ piece ∈ params, piece ≠ []
  params_eq : params.flatten = (r.params.map nameValue).flatten
  stdin_ne : ∀ piece ∈ stdin, piece ≠ []
  stdin_eq : stdin.flatten = r.stdin

def parts (r : Request) (params stdin : List Bytes) : List (UInt8 × Bytes) :=
  (kFcgiBeginRequest, r.beginContent) :: params.map (kFcgiParams, ·) ++
    (kFcgiParams, []) :: stdin.map (kFcgiStdin, ·)

/-- The deliveries of a request bring such records, with an empty one at the end. -/
def Delivered (r : Request) (pieces : List Bytes) : Prop :=
  ∃ (params stdin : List Bytes) (rs : List Record), r.Sent params stdin ∧
    rs.map Record.part = r.parts params stdin ++ [(kFcgiStdin, [])] ∧
      pieces.flatten = (rs.map Record.text).flatten

end Request

/-! ### Parameters that are read -/

theorem high_bit (x : UInt8) : x &&& 0x80 = 0 ↔ x.toNat < 128 := by
  have hx := x.toNat_lt
  rw [← UInt8.toNat_inj, UInt8.toNat_and]
  show x.toNat &&& 2 ^ 7 = 0 ↔ _
  rw [Nat.and_two_pow, Nat.testBit_eq_decide_div_mod_eq]
  by_cases h : x.toNat / 2 ^ 7 % 2 = 1
  · simp only [h, decide_true]
    constructor
    · intro h0
      cases h0
    · omega
  · simp only [h, decide_false]
    constructor
    · omega
    · exact fun _ => rfl

theorem readLen_short {byte : UInt8} (h : byte.toNat < 128) (rest : Bytes) :
    readLen (byte :: rest) = (some byte.toUInt32, rest) :=
  if_neg (not_not_intro ((high_bit byte).mpr h))

theorem readLen_long {byte : UInt8} (h : ¬byte.toNat < 128) {rest : Bytes}
    (hlen : 4 ≤ (byte :: rest).length) :
    readLen (byte :: rest) = (some (toU32 ((byte :: rest).getD 0 0) ((byte :: rest).getD 1 0)
      ((byte :: rest).getD 2 0) ((byte :: rest).getD 3 0) &&& 0x7fffffff),
      (byte :: rest).drop 4) :=
  (if_pos fun h0 => h ((high_bit byte).mp h0)).trans (if_pos hlen)

theorem readLen_lengthText {n : Nat} (hn : n < 2 ^ 31) (rest : Bytes) :
    readLen (lengthText n ++ rest) = (some (UInt32.ofNat n), rest) := by
  unfold lengthText
  by_cases hshort : n < 128
  · have hbyte : (UInt8.ofNat n).toNat = n := by
      rw [UInt8.toNat_ofNat']
      omega
    have hword : (UInt8.ofNat n).toUInt32 = UInt32.ofNat n := by
      apply UInt32.toNat_inj.mp
      rw [UInt8.toNat_toUInt32, hbyte, UInt32.toNat_ofNat']
      omega
    rw [if_pos hshort, ← hword]
    exact readLen_short (by rwa [hbyte]) rest
  · have hword : (UInt32.ofNat (n + 2 ^ 31)).toNat = n + 2 ^ 31 := by
      rw [UInt32.toNat_ofNat']
      omega
    have hmask : UInt32.ofNat (n + 2 ^ 31) &&& 0x7fffffff = UInt32.ofNat n := by
      apply UInt32.toNat_inj.mp
      rw [UInt32.toNat_and, hword, UInt32.toNat_ofNat']
      show (n + 2 ^ 31) &&& (2 ^ 31 - 1) = _
      rw [Nat.and_two_pow_sub_one_eq_mod]
      omega
    have hhigh : ¬(UInt8.ofNat ((UInt32.ofNat (n + 2 ^ 31)).toNat / 16777216)).toNat < 128 := by
      rw [UInt8.toNat_ofNat', hword]
      omega
    rw [if_neg hshort]
    refine (readLen_long hhigh (Nat.le_add_left 4 _)).trans ?_
    exact congrArg (fun w => (some w, rest))
      ((congrArg (· &&& 0x7fffffff) (toU32_beU32 _)).trans hmask)

theorem parseAllParams_some {b b₁ b₂ : Bytes} {m n : UInt32} (hname : readLen b = (some m, b₁))
    (hvalue : readLen b₁ = (some n, b₂)) (hle : (m + n).toNat ≤ b₂.length) (params : ParamMap) :
    parseAllParams params b = parseAllParams
      (assign (b₂.take m.toNat) ((b₂.drop m.toNat).take n.toNat) params)
      ((b₂.drop m.toNat).drop n.toNat) := by
  have hpos : 0 < b.length := Nat.zero_lt_of_lt (readLen_lt hname)
  conv_lhs => rw [parseAllParams]
  rw [if_pos hpos]
  split
  · rename_i hnone
    rw [hname] at hnone
    cases hnone
  · rename_i hsome
    rw [hname] at hsome
    cases hsome
    split
    · rename_i hnone
      rw [hvalue] at hnone
      cases hnone
    · rename_i hsome
      rw [hvalue] at hsome
      cases hsome
      rw [if_pos hle]

theorem parseAllParams_nameValues {ps : List (Bytes × Bytes)}
    (hlt : ∀ p ∈ ps, p.1.length < 2 ^ 31 ∧ p.2.length < 2 ^ 31) (params : ParamMap) :
    parseAllParams params (ps.map nameValue).flatten =
      (true, ps.foldl (fun m p => assign p.1 p.2 m) params, []) := by
  induction ps generalizing params with
  | nil =>
      rw [parseAllParams, if_neg (by exact Nat.lt_irrefl 0)]
      rfl
  | cons p ps ih =>
      obtain ⟨hname, hvalue⟩ := hlt p List.mem_cons_self
      have hm : (UInt32.ofNat p.1.length).toNat = p.1.length := by
        rw [UInt32.toNat_ofNat']
        omega
      have hn : (UInt32.ofNat p.2.length).toNat = p.2.length := by
        rw [UInt32.toNat_ofNat']
        omega
      have hsum : (UInt32.ofNat p.1.length + UInt32.ofNat p.2.length).toNat =
          p.1.length + p.2.length := by
        rw [UInt32.toNat_add, hm, hn]
        omega
      rw [List.map_cons, List.flatten_cons, nameValue, List.append_assoc, List.append_assoc,
        List.append_assoc, parseAllParams_some (readLen_lengthText hname _)
          (readLen_lengthText hvalue _)
          (by rw [hsum, List.length_append, List.length_append]; omega), hm, hn, List.drop_left,
        List.take_left, List.take_left, List.drop_left,
        ih fun q hq => hlt q (List.mem_cons_of_mem p hq)]
      rfl

/-! ### The records of a request -/

/-- What comes with a record. -/
def onPart (c : FastCgiCodec) (p : UInt8 × Bytes) : FastCgiCodec := c.onRecord p.1 p.2

section

variable {c : FastCgiCodec}

theorem foldl_params {pieces : List Bytes} (hne : ∀ piece ∈ pieces, piece ≠ []) :
    (pieces.map (kFcgiParams, ·)).foldl onPart c =
      { c with paramsStream := c.paramsStream ++ pieces.flatten } := by
  induction pieces generalizing c with
  | nil =>
      rw [List.flatten_nil, List.append_nil]
      rfl
  | cons piece pieces ih =>
      have hpiece : onPart c (kFcgiParams, piece) =
          { c with paramsStream := c.paramsStream ++ piece } :=
        if_pos (List.length_pos_iff.mpr (hne piece List.mem_cons_self))
      rw [List.map_cons, List.foldl_cons, hpiece,
        ih fun q hq => hne q (List.mem_cons_of_mem piece hq), List.flatten_cons,
        List.append_assoc]

theorem foldl_stdin {pieces : List Bytes} (hne : ∀ piece ∈ pieces, piece ≠ []) :
    (pieces.map (kFcgiStdin, ·)).foldl onPart c =
      { c with stdin := c.stdin ++ pieces.flatten } := by
  induction pieces generalizing c with
  | nil =>
      rw [List.flatten_nil, List.append_nil]
      rfl
  | cons piece pieces ih =>
      have hpiece : onPart c (kFcgiStdin, piece) = { c with stdin := c.stdin ++ piece } :=
        if_pos (List.length_pos_iff.mpr (hne piece List.mem_cons_self))
      rw [List.map_cons, List.foldl_cons, hpiece,
        ih fun q hq => hne q (List.mem_cons_of_mem piece hq), List.flatten_cons,
        List.append_assoc]

/-- Only an empty record of the body completes a request. -/
theorem gotRequest_onPart {p : UInt8 × Bytes} (hp : p ≠ (kFcgiStdin, [])) :
    (onPart c p).gotRequest = c.gotRequest := by
  obtain ⟨type, content⟩ := p
  unfold onPart onRecord
  dsimp only
  split
  · unfold onBeginRequest
    split
    · split <;> rfl
    · rfl
  · split
    · unfold onParams
      split <;> rfl
    · split
      · rename_i hstdin
        have hpos : 0 < content.length := by
          refine List.length_pos_iff.mpr fun hnil => hp ?_
          rw [hstdin, hnil]
        rw [onStdin, if_pos hpos]
      · rfl

theorem gotRequest_foldl {parts : List (UInt8 × Bytes)}
    (hparts : ∀ p ∈ parts, p ≠ (kFcgiStdin, [])) :
    (parts.foldl onPart c).gotRequest = c.gotRequest := by
  induction parts generalizing c with
  | nil => rfl
  | cons p parts ih =>
      rw [List.foldl_cons, ih fun q hq => hparts q (List.mem_cons_of_mem p hq)]
      exact gotRequest_onPart (hparts p List.mem_cons_self)

end

namespace Request

variable {r : Request} {params stdin : List Bytes}

theorem not_last (h : r.Sent params stdin) : ∀ p ∈ r.parts params stdin, p ≠ (kFcgiStdin, []) := by
  rintro p hp rfl
  rw [parts, List.mem_append, List.mem_cons, List.mem_cons, List.mem_map, List.mem_map] at hp
  rcases hp with (hp | ⟨q, -, hq⟩) | (hp | ⟨q, hq, hq'⟩)
  · exact absurd (congrArg Prod.fst hp) (show ¬kFcgiStdin = kFcgiBeginRequest by decide)
  · exact absurd (congrArg Prod.fst hq) (show ¬kFcgiParams = kFcgiStdin by decide)
  · exact absurd (congrArg Prod.fst hp) (show ¬kFcgiStdin = kFcgiParams by decide)
  · exact h.stdin_ne q hq (congrArg Prod.snd hq')

/-- What the records of a request leave in a codec that has none. -/
theorem foldl_parts (h : r.Sent params stdin) (keepConn : Bool) :
    (r.parts params stdin ++ [(kFcgiStdin, [])]).foldl onPart
        { keepConn } =
      { gotRequest := true, keepConn := r.keepConn, stdin := r.stdin, params := r.paramMap } := by
  have hbegin : onPart { keepConn } (kFcgiBeginRequest, r.beginContent) =
      { keepConn := r.keepConn } := by
    unfold beginContent
    cases r.keepConn <;> rfl
  have hend : ∀ c : FastCgiCodec, c.paramsStream = (r.params.map nameValue).flatten →
      c.params = [] → onPart c (kFcgiParams, []) =
        { c with params := r.paramMap, paramsStream := [] } := by
    intro c hstream hparams
    show ({ c with
      params := (parseAllParams c.params c.paramsStream).2.1
      paramsStream := (parseAllParams c.params c.paramsStream).2.2 } : FastCgiCodec) = _
    rw [hstream, hparams, parseAllParams_nameValues r.params_lt]
    rfl
  rw [parts, List.cons_append, List.cons_append, List.foldl_cons, hbegin, List.append_assoc,
    List.foldl_append, foldl_params h.params_ne, List.nil_append, List.cons_append,
    List.foldl_cons, hend _ h.params_eq rfl, List.foldl_append, foldl_stdin h.stdin_ne,
    List.nil_append, h.stdin_eq]
  rfl

end Request

/-! ### The deliveries of a request -/

theorem parseRequest_arrived {rs : List Record} {tail : Bytes} (htail : records.Incomplete tail)
    (c : FastCgiCodec) :
    c.parseRequest ((rs.map Record.text).flatten ++ tail) =
      ((rs.map Record.part).foldl onPart c, tail) := by
  have hframes : ∀ f ∈ rs.map Record.text, records.IsFrame f := by
    intro f hf
    obtain ⟨r, -, rfl⟩ := List.mem_map.mp hf
    exact r.isFrame_text
  rw [parseRequest, Framing.drain_frames _ _ hframes htail]
  have hfold : (rs.map Record.text).foldl handle c =
      (rs.map Record.part).foldl onPart c := by
    rw [List.foldl_map, List.foldl_map]
    exact congrArg (fun f => List.foldl f c rs) (funext fun c => funext fun r => r.handle_text c)
  have hpure : (rs.map Record.text).foldlM (fun c record => (pure (handle c record) : Id _)) c =
      pure ((rs.map Record.text).foldl handle c) := List.foldlM_pure
  rw [hpure, hfold]
  rfl

theorem onMessage_of_parse {conn : Connection} {bytes buf : Bytes} {codec : FastCgiCodec}
    (h : conn.codec.parseRequest (conn.inputBuffer ++ bytes) = (codec, buf)) :
    conn.onMessage bytes =
      if codec.gotRequest then
        { codec := { keepConn := codec.keepConn }
          inputBuffer := buf
          requests := conn.requests ++ [(codec.params, codec.stdin)]
          shutdown := conn.shutdown || !codec.keepConn }
      else { conn with codec, inputBuffer := buf } := by
  rw [Connection.onMessage, h]

/-- Between two requests. -/
def AtRest (conn : Connection) : Prop :=
  conn.inputBuffer = [] ∧ ∃ keepConn, conn.codec = { keepConn }

theorem receive_nothing {conn : Connection} (h : AtRest conn) {pieces : List Bytes}
    (hpieces : pieces.flatten = []) : conn.receive pieces = conn := by
  induction pieces with
  | nil => rfl
  | cons piece pieces ih =>
      rw [List.flatten_cons, List.append_eq_nil_iff] at hpieces
      obtain ⟨rfl, hrest⟩ := hpieces
      have hparse : ∀ c : FastCgiCodec, c.parseRequest [] = (c, []) := fun c =>
        @parseRequest_arrived [] [] Framing.incomplete_nil c
      have hnothing : conn.onMessage [] = conn := by
        obtain ⟨hbuffer, keepConn, hcodec⟩ := h
        obtain ⟨codec, inputBuffer, requests, shutdown⟩ := conn
        obtain rfl : inputBuffer = [] := hbuffer
        obtain rfl : codec = { keepConn } := hcodec
        rw [Connection.onMessage]
        dsimp only
        rw [List.append_nil, hparse]
        rfl
      show Connection.receive (conn.onMessage []) pieces = conn
      rw [hnothing]
      exact ih hrest

/-- A request of which some records are still to come. -/
structure Arriving (r : Request) (params stdin : List Bytes) (rest : List Record)
    (codec : FastCgiCodec) : Prop where
  sent : r.Sent params stdin
  rest_ne : rest ≠ []
  before : ∃ keepConn done, done ++ rest.map Record.part =
      r.parts params stdin ++ [(kFcgiStdin, [])] ∧
    codec = done.foldl onPart { keepConn }

theorem receive_arriving {r : Request} {params stdin : List Bytes} {pieces : List Bytes} :
    ∀ {rest : List Record} {conn : Connection}, Arriving r params stdin rest conn.codec →
      records.Incomplete conn.inputBuffer →
      conn.inputBuffer ++ pieces.flatten = (rest.map Record.text).flatten →
      AtRest (conn.receive pieces) ∧
        (conn.receive pieces).requests = conn.requests ++ [(r.paramMap, r.stdin)] ∧
        (conn.receive pieces).shutdown = (conn.shutdown || !r.keepConn) := by
  induction pieces with
  | nil =>
      intro rest conn h hincomplete hbytes
      obtain ⟨x, rest, rfl⟩ := List.exists_cons_of_ne_nil h.rest_ne
      rw [List.flatten_nil, List.append_nil, List.map_cons, List.flatten_cons] at hbytes
      rw [hbytes, Framing.Incomplete, Framing.next?_of_isFrame x.isFrame_text] at hincomplete
      cases hincomplete
  | cons piece pieces ih =>
      intro rest conn h hincomplete hbytes
      obtain ⟨hsent, hne, keepConn, before, hparts, hcodec⟩ := h
      rw [List.flatten_cons, ← List.append_assoc] at hbytes
      have hframes : ∀ f ∈ rest.map Record.text, records.IsFrame f := by
        intro f hf
        obtain ⟨x, -, rfl⟩ := List.mem_map.mp hf
        exact x.isFrame_text
      obtain ⟨done', rest', tail, hsplit, harrived, hlater, htail⟩ :=
        Framing.exists_arrived hframes hbytes
      obtain ⟨done, rest, rfl, rfl, rfl⟩ := List.map_eq_append_iff.mp hsplit
      have hparse := @parseRequest_arrived done tail htail conn.codec
      have hgo : (done.map Record.part).foldl onPart conn.codec =
          (before ++ done.map Record.part).foldl onPart { keepConn } := by
        rw [hcodec, List.foldl_append]
      rw [← harrived, hgo] at hparse
      rw [List.map_append, ← List.append_assoc] at hparts
      have hmessage := onMessage_of_parse hparse
      show AtRest (Connection.receive (conn.onMessage piece) pieces) ∧
        (Connection.receive (conn.onMessage piece) pieces).requests = _ ∧
          (Connection.receive (conn.onMessage piece) pieces).shutdown = _
      rcases List.eq_nil_or_concat rest with rfl | ⟨most, last, rfl⟩
      · -- The request is complete, and nothing is left.
        obtain ⟨rfl, hnothing⟩ := List.append_eq_nil_iff.mp hlater
        rw [List.map_nil, List.append_nil] at hparts
        rw [hparts, Request.foldl_parts hsent, if_pos rfl] at hmessage
        have hrest : AtRest (conn.onMessage piece) := by
          rw [hmessage]
          exact ⟨rfl, r.keepConn, rfl⟩
        rw [receive_nothing hrest hnothing, hmessage]
        exact ⟨⟨rfl, r.keepConn, rfl⟩, rfl, rfl⟩
      · -- The record that completes it has not arrived.
        have hprefix : before ++ done.map Record.part ++ most.map Record.part =
            r.parts params stdin := by
          rw [List.concat_eq_append, List.map_append, ← List.append_assoc] at hparts
          exact (List.append_inj' hparts rfl).1
        have hgot : ((before ++ done.map Record.part).foldl onPart
            ({ keepConn } : FastCgiCodec)).gotRequest = false := by
          refine gotRequest_foldl fun p hp => Request.not_last hsent p ?_
          rw [← hprefix]
          exact List.mem_append_left _ hp
        rw [hgot, if_neg Bool.false_ne_true] at hmessage
        rw [hmessage]
        have hmost : most.concat last ≠ [] := by
          rw [List.concat_eq_append]
          exact List.append_ne_nil_of_right_ne_nil _ (List.cons_ne_nil _ _)
        have harriving : Arriving r params stdin (most.concat last)
            ((before ++ done.map Record.part).foldl onPart { keepConn }) :=
          ⟨hsent, hmost, keepConn, _, hparts, rfl⟩
        exact ih harriving htail hlater

/-- **Requests.**  However the streams of the requests are cut into records and the records into
deliveries, if no delivery brings bytes of two requests, the codec calls back once for each request,
with all of its parameters and its body, and the connection is shut down exactly if some request
does not keep it. -/
theorem calls_back_once {session : List (Request × List Bytes)}
    (hsession : ∀ p ∈ session, p.1.Delivered p.2) {conn : Connection} (hrest : AtRest conn) :
    AtRest (conn.receive (session.flatMap Prod.snd)) ∧
      (conn.receive (session.flatMap Prod.snd)).requests =
        conn.requests ++ session.map (fun p => (p.1.paramMap, p.1.stdin)) ∧
      (conn.receive (session.flatMap Prod.snd)).shutdown =
        (conn.shutdown || session.any fun p => !p.1.keepConn) := by
  induction session generalizing conn with
  | nil => exact ⟨hrest, (List.append_nil _).symm, (Bool.or_false _).symm⟩
  | cons p session ih =>
      obtain ⟨params, stdin, rs, hsent, hparts, hpieces⟩ := hsession p List.mem_cons_self
      obtain ⟨hbuffer, keepConn, hcodec⟩ := hrest
      have hne : rs ≠ [] := by
        rintro rfl
        exact List.append_ne_nil_of_right_ne_nil _ (List.cons_ne_nil _ _) hparts.symm
      have harriving : Arriving p.1 params stdin rs conn.codec :=
        ⟨hsent, hne, keepConn, [], hparts, hcodec⟩
      obtain ⟨hrest', hrequests, hshutdown⟩ := receive_arriving harriving
        (by rw [hbuffer]; exact Framing.incomplete_nil) (by rw [hbuffer]; exact hpieces)
      obtain ⟨hend, hmore, hdown⟩ := ih (fun q hq => hsession q (List.mem_cons_of_mem p hq)) hrest'
      have hsplit : conn.receive ((p :: session).flatMap Prod.snd) =
          (conn.receive p.2).receive (session.flatMap Prod.snd) := by
        rw [List.flatMap_cons]
        exact List.foldl_append
      rw [hsplit]
      refine ⟨hend, ?_, ?_⟩
      · rw [hmore, hrequests, List.append_assoc]
        rfl
      · rw [hdown, hshutdown, Bool.or_assoc]
        rfl

def smallRequest : Request where
  keepConn := false
  params := [([97], [98])]
  stdin := [104, 105]
  params_lt := by decide

/-- The parameter is cut, and one record is padded. -/
def smallRecords : List Record :=
  [⟨1, 1, smallRequest.beginContent, [], by decide, by decide⟩,
    ⟨4, 1, [1], [0, 0], by decide, by decide⟩, ⟨4, 1, [1, 97, 98], [], by decide, by decide⟩,
    ⟨4, 1, [], [], by decide, by decide⟩, ⟨5, 1, [104, 105], [], by decide, by decide⟩,
    ⟨5, 1, [], [], by decide, by decide⟩]

def smallBytes : Bytes := (smallRecords.map Record.text).flatten

theorem calls_back_once_small :
    (({} : Connection).receive [smallBytes.take 21, smallBytes.drop 21]).requests =
      [([([97], [98])], [104, 105])] := by
  have hsent : smallRequest.Sent [[1], [1, 97, 98]] [[104, 105]] :=
    ⟨by decide, by decide, by decide, by decide⟩
  have hdelivered : smallRequest.Delivered [smallBytes.take 21, smallBytes.drop 21] := by
    refine ⟨_, _, smallRecords, hsent, rfl, ?_⟩
    rw [List.flatten_cons, List.flatten_singleton, List.take_append_drop]
    rfl
  have hsession : ∀ p ∈ [(smallRequest, [smallBytes.take 21, smallBytes.drop 21])],
      p.1.Delivered p.2 := by
    intro p hp
    rw [List.mem_singleton.mp hp]
    exact hdelivered
  exact (@calls_back_once _ hsession {} ⟨rfl, false, rfl⟩).2.1

end FastCgi
