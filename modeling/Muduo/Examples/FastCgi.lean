/-
The codec of a FastCGI application.

A request comes in records: one that begins it, some with pieces of the stream of its
parameters, an empty one behind them, some with pieces of its body, and an empty one again.
Behind each delivery the codec calls back if the request is complete, and forgets it.

Its buffers stand here for their readable bytes.
-/
import Muduo.Lib.Assoc
import Muduo.Lib.Framing

namespace FastCgi

open Lib

def kRecordHeader : Nat := 8

def kFcgiBeginRequest : UInt8 := 1

def kFcgiParams : UInt8 := 4

def kFcgiStdin : UInt8 := 5

def kFcgiResponder : UInt16 := 1

def kFcgiKeepConn : UInt8 := 1

/-! ### Records -/

/-- `header.length` -/
def lengthOf (b : Bytes) : Nat := (toU16 (b.getD 4 0) (b.getD 5 0)).toNat

/-- `header.padding` -/
def paddingOf (b : Bytes) : Nat := (b.getD 6 0).toNat

theorem getD_append {b : Bytes} {i : Nat} (hi : i < b.length) (c : Bytes) :
    (b ++ c).getD i 0 = b.getD i 0 := by
  rw [List.getD_eq_getElem?_getD, List.getD_eq_getElem?_getD, List.getElem?_append_left hi]

/-- What the loop takes off the buffer. -/
def records : Framing where
  size? b := if kRecordHeader ≤ b.length then some (kRecordHeader + lengthOf b + paddingOf b)
    else none
  pos := by
    intro b n h
    split at h
    · cases h
      exact Nat.add_pos_left (Nat.add_pos_left (by decide) _) _
    · cases h
  mono := by
    intro b n c h
    split at h
    · rename_i hle
      have hle' : 8 ≤ b.length := hle
      rw [if_pos (by rw [List.length_append]; omega), ← h]
      unfold lengthOf paddingOf
      rw [getD_append (by omega), getD_append (by omega), getD_append (by omega)]
    · cases h

/-! ### Parameters -/

abbrev ParamMap := List (Bytes × Bytes)

/-- `readLen`, and what it leaves in `paramsStream_`: -1 is none. -/
def readLen (paramsStream : Bytes) : Option UInt32 × Bytes :=
  match paramsStream with
  | [] => (none, [])
  | byte :: rest =>
      if byte &&& 0x80 ≠ 0 then
        if 4 ≤ paramsStream.length then
          (some (toU32 (paramsStream.getD 0 0) (paramsStream.getD 1 0) (paramsStream.getD 2 0)
            (paramsStream.getD 3 0) &&& 0x7fffffff), paramsStream.drop 4)
        else (none, paramsStream)
      else (some byte.toUInt32, rest)

theorem readLen_lt {b c : Bytes} {n : UInt32} (h : readLen b = (some n, c)) :
    c.length < b.length := by
  unfold readLen at h
  split at h
  · cases h
  · rename_i byte rest
    split at h
    · split at h
      · cases h
        rw [List.length_drop]
        omega
      · cases h
    · cases h
      exact Nat.lt_succ_self _

/-- `parseAllParams`: its result, and what it leaves in `params_` and `paramsStream_`. -/
def parseAllParams (params : ParamMap) (paramsStream : Bytes) : Bool × ParamMap × Bytes :=
  if 0 < paramsStream.length then
    match _hname : readLen paramsStream with
    | (none, b) => (false, params, b)
    | (some nameLen, b) =>
        match _hvalue : readLen b with
        | (none, b) => (false, params, b)
        | (some valueLen, b) =>
            if (nameLen + valueLen).toNat ≤ b.length then
              parseAllParams
                (assign (b.take nameLen.toNat) ((b.drop nameLen.toNat).take valueLen.toNat) params)
                ((b.drop nameLen.toNat).drop valueLen.toNat)
            else (false, params, b)
  else (true, params, paramsStream)
termination_by paramsStream.length
decreasing_by
  have hlt := readLen_lt _hname
  have hlt' := readLen_lt _hvalue
  rw [List.length_drop, List.length_drop]
  omega

/-! ### The codec -/

structure FastCgiCodec where
  gotRequest : Bool := false
  keepConn : Bool := false
  stdin : Bytes := []
  paramsStream : Bytes := []
  params : ParamMap := []
deriving DecidableEq

namespace FastCgiCodec

def onBeginRequest (c : FastCgiCodec) (content : Bytes) : FastCgiCodec :=
  if kRecordHeader ≤ content.length then
    if toU16 (content.getD 0 0) (content.getD 1 0) = kFcgiResponder then
      { c with keepConn := content.getD 2 0 = kFcgiKeepConn }
    else c
  else c

/-- `onParams`: nobody asks whether the parameters could be read. -/
def onParams (c : FastCgiCodec) (content : Bytes) : FastCgiCodec :=
  if 0 < content.length then { c with paramsStream := c.paramsStream ++ content }
  else
    let (_, params, paramsStream) := parseAllParams c.params c.paramsStream
    { c with params, paramsStream }

def onStdin (c : FastCgiCodec) (content : Bytes) : FastCgiCodec :=
  if 0 < content.length then { c with stdin := c.stdin ++ content }
  else { c with gotRequest := true }

/-- The `switch` over the type of a record. -/
def onRecord (c : FastCgiCodec) (type : UInt8) (content : Bytes) : FastCgiCodec :=
  if type = kFcgiBeginRequest then c.onBeginRequest content
  else if type = kFcgiParams then c.onParams content
  else if type = kFcgiStdin then c.onStdin content
  else c

/-- One turn of the loop. -/
def handle (c : FastCgiCodec) (record : Bytes) : FastCgiCodec :=
  c.onRecord (record.getD 1 0) ((record.drop kRecordHeader).take (lengthOf record))

/-- `parseRequest`, and what it leaves in the buffer. -/
def parseRequest (c : FastCgiCodec) (buf : Bytes) : FastCgiCodec × Bytes :=
  Id.run (Framing.drain records (fun c record => pure (c.handle record)) c buf)

end FastCgiCodec

/-! ### A connection -/

structure Connection where
  codec : FastCgiCodec := {}
  inputBuffer : Bytes := []
  /-- What `cb_` has been called with. -/
  requests : List (ParamMap × Bytes) := []
  shutdown : Bool := false
deriving DecidableEq

namespace Connection

/-- `onMessage`, with what has arrived. -/
def onMessage (conn : Connection) (bytes : Bytes) : Connection :=
  let (codec, inputBuffer) := conn.codec.parseRequest (conn.inputBuffer ++ bytes)
  if codec.gotRequest then
    { codec := { keepConn := codec.keepConn }
      inputBuffer
      requests := conn.requests ++ [(codec.params, codec.stdin)]
      shutdown := conn.shutdown || !codec.keepConn }
  else { conn with codec, inputBuffer }

/-- One delivery after the other. -/
def receive (conn : Connection) (pieces : List Bytes) : Connection :=
  pieces.foldl onMessage conn

end Connection

end FastCgi
