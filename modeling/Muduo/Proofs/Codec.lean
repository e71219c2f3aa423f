/-
Any sequence of fields, written and read back.

A program writes values one behind the other, leaves places of two bytes, and fills them in
at any time later, in any order and as often as it likes.  What it has written is a list of
pieces of bytes, one for each value or place; filling a place in changes its piece and no
other.

A read takes one piece off the stream.  What it makes of a string is as much of it as its
length modulo 65536 says, and so everything is read back as it was written as long as
strings are shorter.
-/
import Muduo.Bank.Stream

namespace Bank

open Lib

/-! ### Values -/

/-- The types the streams have operators for, and raw blocks. -/
inductive Value where
  | uint8 (x : UInt8)
  | uint16 (x : UInt16)
  | uint32 (x : UInt32)
  | int8 (x : Int8)
  | int16 (x : Int16)
  | int32 (x : Int32)
  | string (s : Bytes)
  | block (data : Bytes)
deriving DecidableEq

/-- A type, with the length of a raw block. -/
inductive Kind where
  | uint8
  | uint16
  | uint32
  | int8
  | int16
  | int32
  | string
  | block (len : Nat)
deriving DecidableEq

namespace Value

def kind : Value → Kind
  | uint8 _ => .uint8
  | uint16 _ => .uint16
  | uint32 _ => .uint32
  | int8 _ => .int8
  | int16 _ => .int16
  | int32 _ => .int32
  | string _ => .string
  | block data => .block data.length

/-- `operator<<` or `WriteBytes`. -/
def put (jos : JOutStream) : Value → JOutStream
  | uint8 x => jos.putU8 x
  | uint16 x => jos.putU16 x
  | uint32 x => jos.putU32 x
  | int8 x => jos.putI8 x
  | int16 x => jos.putI16 x
  | int32 x => jos.putI32 x
  | string s => jos.putString s
  | block data => jos.writeBytes data

/-- The bytes of a value. -/
def bytes : Value → Bytes
  | uint8 x => [x]
  | uint16 x => beU16 x
  | uint32 x => beU32 x
  | int8 x => [x.toUInt8]
  | int16 x => beU16 x.toUInt16
  | int32 x => beU32 x.toUInt32
  | string s => JOutStream.stringField s
  | block data => data

/-- What is read back. -/
def kept : Value → Value
  | string s => string (s.take (s.length % 65536))
  | v => v

theorem appends_put (v : Value) : JOutStream.Appends (fun jos => v.put jos) v.bytes := by
  cases v with
  | uint8 x => exact JOutStream.appends_putU8 x
  | uint16 x => exact JOutStream.appends_putU16 x
  | uint32 x => exact JOutStream.appends_putU32 x
  | int8 x => exact JOutStream.appends_putI8 x
  | int16 x => exact JOutStream.appends_putI16 x
  | int32 x => exact JOutStream.appends_putI32 x
  | string s => exact JOutStream.appends_putString s
  | block data => exact JOutStream.appends_writeBytes data

/-- A value comes back as it was if and only if it is not a long string. -/
theorem kept_eq_iff (v : Value) : v.kept = v ↔ ∀ s, v = string s → s.length < 65536 := by
  cases v with
  | string s =>
      constructor
      · intro h s' hs'
        cases hs'
        have hlen := congrArg List.length (Value.string.inj h)
        rw [List.length_take] at hlen
        have hmod := Nat.mod_lt s.length (show 0 < 65536 by omega)
        omega
      · intro h
        show string (s.take (s.length % 65536)) = _
        rw [Nat.mod_eq_of_lt (h s rfl), List.take_length]
  | _ => exact ⟨fun _ => nofun, fun _ => rfl⟩

end Value

/-! ### Writing -/

/-- What a program does with its output stream. -/
inductive Writing where
  | put (v : Value)
  /-- `pos = Length(); Skip(2)` -/
  | leave
  /-- `tail = Length(); Reposition(pos); << x; Reposition(tail)`, for what was left by the writing
  with this number. -/
  | fill (i : Nat) (x : UInt16)

/-- A stream, and what `Length()` was in front of each value and place. -/
abbrev Writer := JOutStream × List Nat

namespace Writer

def init : Writer := (.init, [])

def step (w : Writer) : Writing → Writer
  | .put v => (v.put w.1, w.2 ++ [w.1.length])
  | .leave => (w.1.skip 2, w.2 ++ [w.1.length])
  | .fill i x => ((((w.1.reposition (w.2.getD i 0)).putU16 x).reposition w.1.length), w.2)

def run (ws : List Writing) : Writer := ws.foldl step init

end Writer

/-- A value, or a place with what it was last filled with. -/
inductive Content where
  | value (v : Value)
  | place (x : Option UInt16)
deriving DecidableEq

namespace Content

/-- What the writings come to: none if one fills something else than a place. -/
def step (cs : List Content) : Writing → Option (List Content)
  | .put v => some (cs ++ [value v])
  | .leave => some (cs ++ [place none])
  | .fill i x =>
      match cs[i]? with
      | some (place _) => some (cs.set i (place (some x)))
      | _ => none

def run (ws : List Writing) : Option (List Content) := ws.foldlM step []

/-- What the reader gets: none if a place is still empty. -/
def value? : Content → Option Value
  | value v => some v
  | place x => x.map Value.uint16

/-- The bytes that stand for a value or a place. -/
def Piece : Content → Bytes → Prop
  | value v, b => b = v.bytes
  | place (some x), b => b = beU16 x
  | place none, b => b.length = 2

end Content

/-- The values of a program that fills places only, and all of them. -/
def contents (ws : List Writing) : Option (List Value) :=
  (Content.run ws).bind fun cs => cs.mapM Content.value?

/-- A value or a place, with its piece of the stream. -/
abbrev Chunk := Content × Bytes

/-- The length of the first `i` of some chunks. -/
def startOf (chunks : List Chunk) (i : Nat) : Nat := ((chunks.map fun c => c.2.length).take i).sum

theorem length_flatten_take (chunks : List Chunk) (i : Nat) :
    ((chunks.take i).map Prod.snd).flatten.length = startOf chunks i := by
  rw [List.length_flatten, List.map_map, startOf, ← List.map_take]
  rfl

/-- What has been written is a piece for each value and place. -/
structure Laid (w : Writer) (chunks : List Chunk) : Prop where
  inside : w.1.Inside
  data : w.1.data = (chunks.map Prod.snd).flatten
  pieces : ∀ c ∈ chunks, c.1.Piece c.2
  starts : ∀ i, i < chunks.length → w.2[i]? = some (startOf chunks i)
  count : w.2.length = chunks.length

namespace Laid

variable {w : Writer} {chunks : List Chunk}

theorem init : Laid .init [] :=
  ⟨JOutStream.inside_init, rfl, nofun, fun i hi => absurd hi (Nat.not_lt_zero i), rfl⟩

/-- One more piece. -/
theorem add (h : Laid w chunks) {jos : JOutStream} {c : Chunk} (hin : jos.Inside)
    (hdata : jos.data = w.1.data ++ c.2) (hpiece : c.1.Piece c.2) :
    Laid (jos, w.2 ++ [w.1.length]) (chunks ++ [c]) := by
  refine ⟨hin, ?_, ?_, ?_, ?_⟩
  · rw [hdata, h.data, List.map_append, List.flatten_append]
    simp
  · intro c' hc'
    rcases List.mem_append.mp hc' with hc' | hc'
    · exact h.pieces c' hc'
    · rw [List.mem_singleton.mp hc']
      exact hpiece
  · intro i hi
    rw [List.length_append, List.length_singleton] at hi
    have hstart : startOf (chunks ++ [c]) i = startOf chunks i := by
      rw [startOf, List.map_append, List.take_append_of_le_length (by rw [List.length_map]; omega)]
      rfl
    show (w.2 ++ [w.1.length])[i]? = _
    rw [hstart]
    by_cases hlast : i = w.2.length
    · have hall : startOf chunks i = w.1.length := by
        rw [hlast, h.count, ← length_flatten_take, List.take_length, ← h.data,
          JOutStream.length_data h.inside]
        rfl
      rw [hall, hlast, List.getElem?_concat_length]
    · have hlt : i < w.2.length := by
        rw [h.count] at hlast ⊢
        omega
      rw [List.getElem?_append_left hlt, h.starts i (by rw [← h.count]; exact hlt)]
  · show (w.2 ++ [w.1.length]).length = _
    rw [List.length_append, List.length_append, h.count]
    rfl

/-- A place is filled, and the pieces around it stay. -/
theorem fill (h : Laid w chunks) {i : Nat} {o : Option UInt16} {gap : Bytes}
    (hi : chunks[i]? = some (.place o, gap)) (x : UInt16) :
    Laid (w.step (.fill i x)) (chunks.set i (.place (some x), beU16 x)) := by
  obtain ⟨hlt, hget⟩ := List.getElem?_eq_some_iff.mp hi
  have htwo : gap.length = (beU16 x).length := by
    have hpiece := h.pieces _ (List.mem_of_getElem? hi)
    cases o with
    | none => exact hpiece
    | some y =>
        obtain rfl : gap = beU16 y := hpiece
        rfl
  have hsplit : chunks = chunks.take i ++ (.place o, gap) :: chunks.drop (i + 1) := by
    rw [← hget, List.getElem_cons_drop, List.take_append_drop]
  have hset : chunks.set i (.place (some x), beU16 x)
      = chunks.take i ++ (.place (some x), beU16 x) :: chunks.drop (i + 1) := by
    rw [List.set_eq_take_append_cons_drop, if_pos hlt]
  have hdata : w.1.data = ((chunks.take i).map Prod.snd).flatten ++ gap
      ++ ((chunks.drop (i + 1)).map Prod.snd).flatten := by
    conv => lhs; rw [h.data, hsplit]
    simp only [List.map_append, List.map_cons, List.flatten_append, List.flatten_cons,
      List.append_assoc]
  have hstart : w.2.getD i 0 = ((chunks.take i).map Prod.snd).flatten.length := by
    rw [List.getD_eq_getElem?_getD, h.starts i hlt, length_flatten_take]
    rfl
  obtain ⟨hin, hpatched⟩ := JOutStream.data_patch h.inside hdata htwo
  rw [← hstart] at hin hpatched
  refine ⟨hin, ?_, ?_, ?_, ?_⟩
  · refine hpatched.trans ?_
    rw [hset]
    simp only [List.map_append, List.map_cons, List.flatten_append, List.flatten_cons,
      List.append_assoc]
  · intro c hc
    rcases List.mem_or_eq_of_mem_set hc with hc | rfl
    · exact h.pieces c hc
    · rfl
  · -- the piece is as long as the one it replaces
    intro j hj
    have hsame : startOf (chunks.set i (.place (some x), beU16 x)) j = startOf chunks j := by
      have hlt' : i < (chunks.map fun c => c.2.length).length := by
        rw [List.length_map]
        exact hlt
      have hlen : (chunks.map fun c => c.2.length)[i] = (beU16 x).length := by
        rw [List.getElem_map, hget]
        exact htwo
      rw [startOf, List.map_set, ← hlen, List.set_getElem_self]
      rfl
    rw [List.length_set] at hj
    rw [hsame]
    exact h.starts j hj
  · rw [List.length_set]
    exact h.count

/-- One writing, and what it comes to. -/
theorem step (h : Laid w chunks) {a : Writing} {cs : List Content}
    (hcs : Content.step (chunks.map Prod.fst) a = some cs) :
    ∃ chunks', Laid (w.step a) chunks' ∧ chunks'.map Prod.fst = cs := by
  cases a with
  | put v =>
      obtain ⟨hin, hdata⟩ := v.appends_put w.1 h.inside
      refine ⟨chunks ++ [(Content.value v, v.bytes)], h.add hin hdata rfl, ?_⟩
      rw [List.map_append]
      exact Option.some.inj hcs
  | leave =>
      obtain ⟨hin, gap, hgap, hdata⟩ := JOutStream.data_skip h.inside 2
      refine ⟨chunks ++ [(Content.place none, gap)], h.add hin hdata hgap, ?_⟩
      rw [List.map_append]
      exact Option.some.inj hcs
  | fill i x =>
      simp only [Content.step, List.getElem?_map] at hcs
      cases hi : chunks[i]? with
      | none => simp [hi] at hcs
      | some c =>
          obtain ⟨content, gap⟩ := c
          cases content with
          | value v => simp [hi] at hcs
          | place o =>
              refine ⟨_, h.fill hi x, ?_⟩
              rw [List.map_set]
              simpa [hi] using hcs

/-- A whole program. -/
theorem run {ws : List Writing} : ∀ {w : Writer} {chunks : List Chunk} {cs : List Content},
    Laid w chunks → ws.foldlM Content.step (chunks.map Prod.fst) = some cs →
      ∃ chunks', Laid (ws.foldl Writer.step w) chunks' ∧ chunks'.map Prod.fst = cs := by
  induction ws with
  | nil =>
      intro w chunks cs h hcs
      exact ⟨chunks, h, Option.some.inj hcs⟩
  | cons a ws ih =>
      intro w chunks cs h hcs
      rw [List.foldlM_cons] at hcs
      obtain ⟨mid, hmid, hrest⟩ := Option.bind_eq_some_iff.mp hcs
      obtain ⟨chunks', h', rfl⟩ := h.step hmid
      exact ih h' hrest

end Laid

/-- The stream in the end holds the bytes of the values, one behind the other. -/
theorem data_of_contents {ws : List Writing} {vs : List Value} (h : contents ws = some vs) :
    (Writer.run ws).1.Inside ∧ (Writer.run ws).1.data = vs.flatMap Value.bytes := by
  obtain ⟨cs, hcs, hvs⟩ := Option.bind_eq_some_iff.mp h
  have hrun : List.foldlM Content.step (([] : List Chunk).map Prod.fst) ws = some cs := hcs
  obtain ⟨chunks, hlaid, rfl⟩ := Laid.init.run hrun
  clear hrun
  refine ⟨hlaid.inside, hlaid.data.trans ?_⟩
  have hpieces := hlaid.pieces
  clear hcs hlaid h
  induction chunks generalizing vs with
  | nil =>
      obtain rfl := Option.some.inj hvs
      rfl
  | cons c chunks ih =>
      rw [List.map_cons, List.mapM_cons] at hvs
      obtain ⟨v, hv, hrest⟩ := Option.bind_eq_some_iff.mp hvs
      obtain ⟨vs', hvs', hcons⟩ := Option.bind_eq_some_iff.mp hrest
      obtain rfl := Option.some.inj hcons
      have hfirst : c.2 = v.bytes := by
        have hpiece := hpieces c List.mem_cons_self
        obtain ⟨content, b⟩ := c
        cases content with
        | value v' =>
            obtain rfl := Option.some.inj hv
            exact hpiece
        | place o =>
            cases o with
            | none => cases hv
            | some x =>
                obtain rfl := Option.some.inj hv
                exact hpiece
      rw [List.map_cons, List.flatten_cons, List.flatMap_cons, hfirst,
        ih hvs' fun c' hc' => hpieces c' (List.mem_cons_of_mem _ hc')]

/-! ### Reading -/

namespace JInStream

/-- `operator>>` or `ReadBytes`. -/
def get : Kind → Read Value
  | .uint8 => do return .uint8 (← getU8)
  | .uint16 => do return .uint16 (← getU16)
  | .uint32 => do return .uint32 (← getU32)
  | .int8 => do return .int8 (← getI8)
  | .int16 => do return .int16 (← getI16)
  | .int32 => do return .int32 (← getI32)
  | .string => do return .string (← getString)
  | .block len => do return .block (← readBytes len)

/-- Values of these types, one after the other. -/
def getAll : List Kind → Read (List Value)
  | [] => return []
  | k :: ks => do
      let v ← get k
      let vs ← getAll ks
      return v :: vs

/-- A value is read from its bytes, whatever follows them. -/
theorem get_bytes (v : Value) (rest : JInStream) :
    get v.kind (v.bytes ++ rest) = some (v.kept, rest) := by
  cases v with
  | uint8 x => rfl
  | uint16 x => exact bind_of_some (getU16_append x rest)
  | uint32 x => exact bind_of_some (getU32_append x rest)
  | int8 x => rfl
  | int16 x => exact bind_of_some (getI16_append x rest)
  | int32 x => exact bind_of_some (getI32_append x rest)
  | string s => exact bind_of_some (getString_stringField s rest)
  | block data => exact bind_of_some (readBytes_append rest rfl)

theorem getAll_bytes (vs : List Value) :
    getAll (vs.map Value.kind) (vs.flatMap Value.bytes) = some (vs.map Value.kept, []) := by
  induction vs with
  | nil => rfl
  | cons v vs ih =>
      rw [List.map_cons, List.flatMap_cons, getAll, bind_of_some (get_bytes v _), bind_of_some ih]
      rfl

end JInStream

/-- What a reader gets of a program's stream: all of it is read, no assertion fails. -/
theorem getAll_contents {ws : List Writing} {vs : List Value} (h : contents ws = some vs) :
    JInStream.getAll (vs.map Value.kind) (Writer.run ws).1.data = some (vs.map Value.kept, []) := by
  rw [(data_of_contents h).2]
  exact JInStream.getAll_bytes vs

/-- **Values are read back as they were written**, and all bytes are consumed, if and only if
every string is shorter than 65536 bytes. -/
theorem codec_round_trip_iff (ws : List Writing) (vs : List Value) (h : contents ws = some vs) :
    (JInStream.getAll (vs.map Value.kind) (Writer.run ws).1.data = some (vs, []) ∧
      (Writer.run ws).1.data.length = (Writer.run ws).1.length) ↔
    ∀ s, .string s ∈ vs → s.length < 65536 := by
  have hlen : (Writer.run ws).1.data.length = (Writer.run ws).1.length :=
    JOutStream.length_data (data_of_contents h).1
  rw [getAll_contents h, and_iff_left hlen]
  constructor
  · intro hsame s hs
    have hmap : vs.map Value.kept = vs := (Prod.mk.inj (Option.some.inj hsame)).1
    have hself : (Value.string s).kept = .string s := by
      have hall := List.map_inj_left.mp (hmap.trans vs.map_id.symm)
      exact hall _ hs
    exact (Value.kept_eq_iff _).mp hself s rfl
  · intro hshort
    have hmap : vs.map Value.kept = vs := by
      refine (List.map_inj_left.mpr ?_).trans vs.map_id
      intro v hv
      exact (Value.kept_eq_iff v).mpr fun s hs => hshort s (hs ▸ hv)
    rw [hmap]

/-- A length that is filled in behind the string it stands in front of. -/
theorem codec_round_trip_filled :
    let ws := [.leave, .put (.string [7, 8]), .put (.int8 (-3)), .fill 0 5]
    let vs := [.uint16 5, .string [7, 8], .int8 (-3)]
    (JInStream.getAll (vs.map Value.kind) (Writer.run ws).1.data = some (vs, []) ∧
      (Writer.run ws).1.data.length = (Writer.run ws).1.length) ↔
    ∀ s, .string s ∈ vs → s.length < 65536 :=
  codec_round_trip_iff _ _ rfl

/-- A string of 65536 bytes is read back as the empty string. -/
theorem long_string_lost :
    let s : Bytes := List.replicate 65536 0
    JInStream.getAll [.string] (Writer.run [.put (.string s)]).1.data ≠ some ([.string s], []) := by
  intro s h
  rw [show [Kind.string] = [Value.string s].map Value.kind from rfl,
    getAll_contents (show contents [.put (.string s)] = some [.string s] from rfl)] at h
  have hkept : (Value.string s).kept = .string s := by
    simpa using h
  have hlt := (Value.kept_eq_iff _).mp hkept s rfl
  rw [List.length_replicate] at hlt
  omega

end Bank
