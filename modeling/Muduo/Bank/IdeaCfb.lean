/-
`IdeaCfbInit`, `IdeaCfbSync`, `IdeaCfbEncrypt` and `IdeaCfbDecrypt`, with the context they share.

The context is kept between calls: `bufleft` bytes of the last block of the cipher are still to
be used, and `iv` holds them behind the bytes of that block that have been fed back.  The two
directions differ in one statement, the turn of their loops.  To read or write behind `iv` is a
fault.  A call is given `count` bytes at `src`.
-/
import Muduo.Bank.IdeaCipher

namespace Bank.Idea

open Lib

structure IdeaCfbContext where
  oldcipher : Vector UInt8 8
  iv : Vector UInt8 8
  key : List UInt16
  bufleft : Nat

namespace IdeaCfbContext

/-- `IdeaCfbReinit` -/
def reinit (ctx : IdeaCfbContext) (iv : Option (Vector UInt8 8)) : IdeaCfbContext :=
  { ctx with iv := iv.getD (Vector.replicate 8 0), bufleft := 0 }

/-- `IdeaCfbInit` -/
def init (ctx : IdeaCfbContext) (key : Vector UInt8 16) : IdeaCfbContext :=
  { ctx with key := expandKey key }.reinit none

/-- `IdeaCfbSync`: the last eight bytes that were fed back. -/
def sync (ctx : IdeaCfbContext) : IdeaCfbContext :=
  if ctx.bufleft ≠ 0 then
    let iv := ctx.oldcipher.toList.drop (8 - ctx.bufleft) ++ ctx.iv.toList.take (8 - ctx.bufleft)
    { ctx with iv := Vector.ofFn fun i : Fin 8 => iv.getD i 0, bufleft := 0 }
  else ctx

/-- The byte of `iv` and the byte of `src` become the one that is fed back and the one that is
written to `dest`. -/
abbrev Turn := UInt8 → UInt8 → UInt8 × UInt8

/-- `*dest++ = (*bufptr++ ^= *src++)` -/
def encryptTurn : Turn := fun b x => (b ^^^ x, b ^^^ x)

/-- `t = *bufptr; *dest++ = t ^ (*bufptr++ = *src++)` -/
def decryptTurn : Turn := fun b x => (x, b ^^^ x)

/-- A loop that takes a turn for each byte of `src`: what is in `iv` then, and in `dest`. -/
def turns (turn : Turn) (iv : Vector UInt8 8) (bufptr : Nat) :
    Bytes → Option (Vector UInt8 8 × Bytes)
  | [] => some (iv, [])
  | x :: src =>
      if h : bufptr < 8 then
        let b := iv[bufptr]
        (turns turn (iv.set bufptr (turn b x).1 h) (bufptr + 1) src).map fun r =>
          (r.1, (turn b x).2 :: r.2)
      else none

/-- The statements in front of the loop over a block. -/
def crank (ctx : IdeaCfbContext) : IdeaCfbContext :=
  { ctx with oldcipher := ctx.iv, iv := cipherBlock ctx.key ctx.iv }

/-- The loop over whole blocks, and the last one to eight bytes behind it. -/
def blocks (turn : Turn) (ctx : IdeaCfbContext) (src : Bytes) : Option (IdeaCfbContext × Bytes) :=
  if 8 < src.length then
    (turns turn ctx.crank.iv 0 (src.take 8)).bind fun r =>
      (blocks turn { ctx.crank with iv := r.1 } (src.drop 8)).map fun q => (q.1, r.2 ++ q.2)
  else
    (turns turn ctx.crank.iv 0 src).map fun r =>
      ({ ctx.crank with iv := r.1, bufleft := 8 - src.length }, r.2)
termination_by src.length

/-- What `IdeaCfbEncrypt` and `IdeaCfbDecrypt` have in common. -/
def crypt (turn : Turn) (ctx : IdeaCfbContext) (src : Bytes) : Option (IdeaCfbContext × Bytes) :=
  if src.length ≤ ctx.bufleft then
    (turns turn ctx.iv (8 - ctx.bufleft) src).map fun r =>
      ({ ctx with iv := r.1, bufleft := ctx.bufleft - src.length }, r.2)
  else
    (turns turn ctx.iv (8 - ctx.bufleft) (src.take ctx.bufleft)).bind fun r =>
      (blocks turn { ctx with iv := r.1 } (src.drop ctx.bufleft)).map fun q => (q.1, r.2 ++ q.2)

/-- `IdeaCfbEncrypt` -/
def encrypt (ctx : IdeaCfbContext) (src : Bytes) : Option (IdeaCfbContext × Bytes) :=
  ctx.crypt encryptTurn src

/-- `IdeaCfbDecrypt` -/
def decrypt (ctx : IdeaCfbContext) (src : Bytes) : Option (IdeaCfbContext × Bytes) :=
  ctx.crypt decryptTurn src

end IdeaCfbContext

/-- `Idea::Crypt`, with what `cfb` holds. -/
def crypt (cfb : IdeaCfbContext) (key : Vector UInt8 16) (src : Bytes) (encrypt : Bool) :
    Option (IdeaCfbContext × Bytes) :=
  let cfb := (cfb.init key).sync
  if encrypt then cfb.encrypt src else cfb.decrypt src

end Bank.Idea
