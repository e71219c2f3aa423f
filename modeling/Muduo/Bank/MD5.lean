/-
`MD5Init`, `MD5Update`, `MD5Final` and `MD5Transform`.

The machine keeps words with their low byte first, so `byteReverse` does nothing, and the bytes
of `in` are the words `MD5Transform` is given.  A call of `MD5Update` is given `len` bytes at
`buf`.  To write behind `in` is a fault.
-/
import Muduo.Lib.Bytes

namespace Bank.MD5

open Lib

/-! ### `MD5Transform` -/

/-- `z ^ (x & (y ^ z))`, which is the first function of the definition, "optimized somewhat". -/
def F1 (x y z : UInt32) : UInt32 := z ^^^ (x &&& (y ^^^ z))

def F2 (x y z : UInt32) : UInt32 := F1 z x y

def F3 (x y z : UInt32) : UInt32 := x ^^^ y ^^^ z

def F4 (x y z : UInt32) : UInt32 := y ^^^ (x ||| ~~~z)

/-- The four words of the hash, and the registers. -/
structure Hash where
  a : UInt32
  b : UInt32
  c : UInt32
  d : UInt32
deriving DecidableEq

/-- A word of `in`. -/
def word (bytes : Bytes) (i : Nat) : UInt32 :=
  toU32 (bytes.getD (4 * i + 3) 0) (bytes.getD (4 * i + 2) 0) (bytes.getD (4 * i + 1) 0)
    (bytes.getD (4 * i) 0)

/-- The bytes of a word. -/
def wordBytes (x : UInt32) : Bytes := (beU32 x).reverse

/-- `MD5STEP`.  The register it changes is the last one that the next step reads, and the
registers are named in turn, so they are turned here. -/
def step (f : UInt32 → UInt32 → UInt32 → UInt32) (r : Hash) (data s : UInt32) : Hash :=
  let w := r.a + (f r.b r.c r.d + data)
  let w := w <<< s ||| w >>> (32 - s)
  ⟨r.d, w + r.b, r.b, r.c⟩

/-- The words, constants and shifts of the steps with `F1`. -/
def steps1 : List (Nat × UInt32 × UInt32) :=
  [(0, 0xD76AA478, 7), (1, 0xE8C7B756, 12), (2, 0x242070DB, 17), (3, 0xC1BDCEEE, 22),
    (4, 0xF57C0FAF, 7), (5, 0x4787C62A, 12), (6, 0xA8304613, 17), (7, 0xFD469501, 22),
    (8, 0x698098D8, 7), (9, 0x8B44F7AF, 12), (10, 0xFFFF5BB1, 17), (11, 0x895CD7BE, 22),
    (12, 0x6B901122, 7), (13, 0xFD987193, 12), (14, 0xA679438E, 17), (15, 0x49B40821, 22)]

/-- The words, constants and shifts of the steps with `F2`. -/
def steps2 : List (Nat × UInt32 × UInt32) :=
  [(1, 0xF61E2562, 5), (6, 0xC040B340, 9), (11, 0x265E5A51, 14), (0, 0xE9B6C7AA, 20),
    (5, 0xD62F105D, 5), (10, 0x02441453, 9), (15, 0xD8A1E681, 14), (4, 0xE7D3FBC8, 20),
    (9, 0x21E1CDE6, 5), (14, 0xC33707D6, 9), (3, 0xF4D50D87, 14), (8, 0x455A14ED, 20),
    (13, 0xA9E3E905, 5), (2, 0xFCEFA3F8, 9), (7, 0x676F02D9, 14), (12, 0x8D2A4C8A, 20)]

/-- The words, constants and shifts of the steps with `F3`. -/
def steps3 : List (Nat × UInt32 × UInt32) :=
  [(5, 0xFFFA3942, 4), (8, 0x8771F681, 11), (11, 0x6D9D6122, 16), (14, 0xFDE5380C, 23),
    (1, 0xA4BEEA44, 4), (4, 0x4BDECFA9, 11), (7, 0xF6BB4B60, 16), (10, 0xBEBFBC70, 23),
    (13, 0x289B7EC6, 4), (0, 0xEAA127FA, 11), (3, 0xD4EF3085, 16), (6, 0x04881D05, 23),
    (9, 0xD9D4D039, 4), (12, 0xE6DB99E5, 11), (15, 0x1FA27CF8, 16), (2, 0xC4AC5665, 23)]

/-- The words, constants and shifts of the steps with `F4`. -/
def steps4 : List (Nat × UInt32 × UInt32) :=
  [(0, 0xF4292244, 6), (7, 0x432AFF97, 10), (14, 0xAB9423A7, 15), (5, 0xFC93A039, 21),
    (12, 0x655B59C3, 6), (3, 0x8F0CCC92, 10), (10, 0xFFEFF47D, 15), (1, 0x85845DD1, 21),
    (8, 0x6FA87E4F, 6), (15, 0xFE2CE6E0, 10), (6, 0xA3014314, 15), (13, 0x4E0811A1, 21),
    (4, 0xF7537E82, 6), (11, 0xBD3AF235, 10), (2, 0x2AD7D2BB, 15), (9, 0xEB86D391, 21)]

/-- Sixteen steps. -/
def round (f : UInt32 → UInt32 → UInt32 → UInt32) (steps : List (Nat × UInt32 × UInt32))
    (bytes : Bytes) (r : Hash) : Hash :=
  steps.foldl (fun r t => step f r (word bytes t.1 + t.2.1) t.2.2) r

/-- The four rounds, and the sums behind them. -/
def rounds (f1 f2 f3 f4 : UInt32 → UInt32 → UInt32 → UInt32) (buf : Hash) (bytes : Bytes) : Hash :=
  let r := round f4 steps4 bytes (round f3 steps3 bytes
    (round f2 steps2 bytes (round f1 steps1 bytes buf)))
  ⟨buf.a + r.a, buf.b + r.b, buf.c + r.c, buf.d + r.d⟩

/-- `MD5Transform` -/
def transform : Hash → Bytes → Hash := rounds F1 F2 F3 F4

/-! ### The context -/

/-- The 64 bytes of `in`. -/
abbrev Block := { data : Bytes // data.length = 64 }

structure MD5Context where
  buf : Hash
  /-- `bits[0]` -/
  low : UInt32
  /-- `bits[1]` -/
  high : UInt32
  /-- `in` -/
  data : Block

def initial : Hash := ⟨0x67452301, 0xEFCDAB89, 0x98BADCFE, 0x10325476⟩

/-- `MD5Init` -/
def init (ctx : MD5Context) : MD5Context := { ctx with buf := initial, low := 0, high := 0 }

/-- `memmove` or `memset` in `in`. -/
def store (data : Block) (i : Nat) (d : Bytes) : Option Block :=
  if h : i + d.length ≤ data.1.length then some ⟨splice data.1 i d, (length_splice h).trans data.2⟩
  else none

/-- The loop over whole blocks, and what follows it. -/
def updateLoop (ctx : MD5Context) (buf : Bytes) : Option MD5Context :=
  if 64 ≤ buf.length then
    (store ctx.data 0 (buf.take 64)).bind fun data =>
      updateLoop { ctx with data, buf := transform ctx.buf data.1 } (buf.drop 64)
  else
    (store ctx.data 0 buf).map fun data => { ctx with data }
termination_by buf.length

/-- `MD5Update` -/
def update (ctx : MD5Context) (buf : Bytes) : Option MD5Context :=
  let len := UInt32.ofNat buf.length
  let t := ctx.low
  let low := t + (len <<< 3)
  let high := if low < t then ctx.high + 1 else ctx.high
  let ctx := { ctx with low, high := high + (len >>> 29) }
  let t := ((t >>> 3) &&& 0x3F).toNat
  if t ≠ 0 then
    if buf.length < 64 - t then
      (store ctx.data t buf).map fun data => { ctx with data }
    else
      (store ctx.data t (buf.take (64 - t))).bind fun data =>
        updateLoop { ctx with data, buf := transform ctx.buf data.1 } (buf.drop (64 - t))
  else updateLoop ctx buf

/-- The digest in `buf`. -/
def digest (h : Hash) : Bytes := wordBytes h.a ++ wordBytes h.b ++ wordBytes h.c ++ wordBytes h.d

/-- The padding with zeros, in front of the length. -/
def pad (ctx : MD5Context) (p count : Nat) : Option MD5Context :=
  if count < 8 then
    (store ctx.data p (List.replicate count 0)).bind fun data =>
      (store data 0 (List.replicate 56 0)).map fun data' =>
        { ctx with buf := transform ctx.buf data.1, data := data' }
  else
    (store ctx.data p (List.replicate (count - 8) 0)).map fun data => { ctx with data }

/-- `MD5Final`: the digest. -/
def final (ctx : MD5Context) : Option Bytes :=
  let count := ((ctx.low >>> 3) &&& 0x3F).toNat
  (store ctx.data count [0x80]).bind fun data =>
    (pad { ctx with data } (count + 1) (64 - 1 - count)).bind fun ctx =>
      (store ctx.data 56 (wordBytes ctx.low ++ wordBytes ctx.high)).map fun data =>
        digest (transform ctx.buf data.1)

/-- `MD5Make`, with what is on the stack. -/
def make (ctx : MD5Context) (buf : Bytes) : Option Bytes :=
  (update (init ctx) buf).bind final

example : make ⟨initial, 0, 0, ⟨List.replicate 64 1, rfl⟩⟩ [] =
    some [0xD4, 0x1D, 0x8C, 0xD9, 0x8F, 0x00, 0xB2, 0x04, 0xE9, 0x80, 0x09, 0x98, 0xEC, 0xF8, 0x42,
      0x7E] := by
  show (updateLoop _ []).bind final = _
  rw [updateLoop, if_neg (by decide)]
  decide +kernel

end Bank.MD5
