/-
`Idea::Crypt` of 16 bytes, to decrypt, in the threads of the server.

Every session has an `Idea` of its own, and with it a context; the locals of `IdeaCfbDecrypt`
are its thread's.  Its `bufptr` is `static`, so there is one for all threads: it points into
the `iv` of some context, to one of its eight bytes or behind them.  Whatever is done through
it is done to the context it points into.

A thread takes a step for each initialisation of the pointer, each statement that reads or
writes through it and each turn of a loop.  To read or write outside of an `iv` is a fault.
-/
import Mathlib.Logic.Function.Basic
import Muduo.Bank.Idea

namespace Windows

open Lib

/-! ### One call -/

/-- What of an `IdeaCfbContext` there is; `key` is the user key that is expanded into it. -/
structure IdeaCfbContext where
  oldcipher : Vector UInt8 8
  iv : Vector UInt8 8
  key : Vector UInt8 16
  bufleft : Nat

/-- What a call of `IdeaCfbDecrypt` is about to do; `last` tells the statements behind the loop
over whole blocks from those in it. -/
inductive DecryptAt where
  /-- The first initialisation, and the test behind it. -/
  | entry
  /-- A turn of `while (count--)`. -/
  | short
  /-- A turn of `while (bufleft--)`. -/
  | front
  /-- `bufptr = ctx->iv` -/
  | init (last : Bool)
  /-- `memcpy` -/
  | copy (last : Bool)
  /-- `IdeaCipher` -/
  | cipher (last : Bool)
  /-- A turn of `do .. while`. -/
  | bytes (last : Bool)
  | returned
deriving DecidableEq

/-- A call, with what it was given, where it is and its locals: what is left of `src`, and what
has been written to `dest`. -/
structure DecryptCall where
  given : Vector UInt8 16
  pc : DecryptAt
  src : Bytes
  dest : Bytes
  count : Nat
  bufleft : Nat

/-- A pointer that is null, or does not point to as many bytes as are used. -/
inductive PointerFault where
  | null
  | outside
deriving DecidableEq

namespace DecryptCall

/-- `while (count > 8)` -/
def test (c : DecryptCall) : DecryptCall := { c with pc := .init (decide (c.count ≤ 8)) }

/-- A statement that sets the pointer: the call, its context, and where in `ctx->iv` the pointer
points. -/
def setPointer (c : DecryptCall) (ctx : IdeaCfbContext) :
    Option (DecryptCall × IdeaCfbContext × Nat) :=
  match c.pc with
  | .entry =>
      let bufptr := 8 - c.bufleft
      if c.count ≤ c.bufleft then
        some ({ c with pc := if c.count = 0 then .returned else .short },
          { ctx with bufleft := c.bufleft - c.count }, bufptr)
      else
        let c := { c with count := c.count - c.bufleft }
        some (if c.bufleft = 0 then c.test else { c with pc := .front }, ctx, bufptr)
  | .init last => some ({ c with pc := .copy last }, ctx, 0)
  | _ => none

/-- The tests behind a turn of a loop. -/
def countDown (c : DecryptCall) : DecryptCall :=
  match c.pc with
  | .short | .bytes true =>
      let c := { c with count := c.count - 1 }
      if c.count = 0 then { c with pc := .returned } else c
  | .front | .bytes false =>
      let c := { c with bufleft := c.bufleft - 1 }
      if c.bufleft = 0 then c.test else c
  | _ => c

/-- `t = *bufptr; *dest++ = t ^ (*bufptr++ = *src++);` -/
def turn (c : DecryptCall) (iv : Vector UInt8 8) (bufptr : Nat) :
    Except PointerFault (DecryptCall × Vector UInt8 8 × Nat) :=
  match c.src with
  | [] => .error .outside
  | x :: src =>
      if h : bufptr < 8 then
        let c := { c with src := src, dest := c.dest ++ [iv[bufptr] ^^^ x] }
        .ok (c.countDown, iv.set bufptr x h, bufptr + 1)
      else .error .outside

/-- A statement that goes through the pointer, with the `iv` it points into: the call and its
context, that `iv`, and where in it the pointer points then. -/
def usePointer (cipher : Vector UInt8 16 → Vector UInt8 8 → Vector UInt8 8) (c : DecryptCall)
    (ctx : IdeaCfbContext) (iv : Vector UInt8 8) (bufptr : Nat) :
    Except PointerFault (DecryptCall × IdeaCfbContext × Vector UInt8 8 × Nat) :=
  match c.pc with
  | .copy last =>
      if bufptr = 0 then
        .ok ({ c with pc := .cipher last }, { ctx with oldcipher := iv }, iv, bufptr)
      else .error .outside
  | .cipher last =>
      if bufptr = 0 then
        let iv := cipher ctx.key iv
        if last then
          .ok ({ c with pc := .bytes last }, { ctx with bufleft := 8 - c.count }, iv, bufptr)
        else
          .ok ({ c with pc := .bytes last, bufleft := 8, count := c.count - 8 }, ctx, iv, bufptr)
      else .error .outside
  | .short | .front | .bytes _ =>
      (c.turn iv bufptr).map fun r => (r.1, ctx, r.2.1, r.2.2)
  | .entry | .init _ | .returned => .ok (c, ctx, iv, bufptr)

end DecryptCall

/-! ### The threads -/

/-- A call of `Crypt` that has returned. -/
structure Decryption (τ : Type) where
  thread : τ
  key : Vector UInt8 16
  src : Vector UInt8 16
  dest : Bytes
deriving DecidableEq

structure IdeaThreads (τ : Type) where
  /-- `cfb` of the `Idea` of each session. -/
  cfb : τ → IdeaCfbContext
  call : τ → Option DecryptCall
  /-- Whose `iv` it points into, and where. -/
  bufptr : Option (τ × Nat)
  done : List (Decryption τ)

inductive IdeaAction (τ : Type) where
  /-- A session calls `Crypt(key, src, dest, 16, false)`, unless it is in a call. -/
  | crypt (t : τ) (key : Vector UInt8 16) (src : Vector UInt8 16)
  /-- A session in a call goes on. -/
  | goOn (t : τ)

namespace IdeaThreads

variable {τ : Type} [DecidableEq τ]

/-- Contexts that nobody has set yet, and a pointer that is null. -/
def init (cfb : τ → IdeaCfbContext) : IdeaThreads τ := ⟨cfb, fun _ => none, none, []⟩

def setCfb (s : IdeaThreads τ) (t : τ) (ctx : IdeaCfbContext) : IdeaThreads τ :=
  { s with cfb := Function.update s.cfb t ctx }

def setIv (s : IdeaThreads τ) (t : τ) (iv : Vector UInt8 8) : IdeaThreads τ :=
  s.setCfb t { s.cfb t with iv := iv }

/-- Where the call goes on, or that it returns. -/
def setCall (s : IdeaThreads τ) (t : τ) (c : DecryptCall) : IdeaThreads τ :=
  if c.pc = .returned then
    { s with
      call := Function.update s.call t none
      done := s.done ++ [⟨t, (s.cfb t).key, c.given, c.dest⟩] }
  else { s with call := Function.update s.call t (some c) }

/-- `IdeaCfbInit` and `IdeaCfbSync`, which has nothing to do then, and the call of
`IdeaCfbDecrypt` with a count of 16. -/
def crypt (s : IdeaThreads τ) (t : τ) (key src : Vector UInt8 16) : IdeaThreads τ :=
  let ctx := { s.cfb t with key := key, iv := Bank.Idea.zeroBlock, bufleft := 0 }
  (s.setCfb t ctx).setCall t ⟨src, .entry, src.toList, [], 16, ctx.bufleft⟩

def goOn (cipher : Vector UInt8 16 → Vector UInt8 8 → Vector UInt8 8) (s : IdeaThreads τ) (t : τ)
    (c : DecryptCall) : Except PointerFault (IdeaThreads τ) :=
  match c.setPointer (s.cfb t) with
  | some (c, ctx, k) => .ok ({ s.setCfb t ctx with bufptr := some (t, k) }.setCall t c)
  | none =>
      match s.bufptr with
      | none => .error .null
      | some (u, k) => do
          let (c, ctx, iv, k) ← c.usePointer cipher (s.cfb t) (s.cfb u).iv k
          return { (s.setCfb t ctx).setIv u iv with bufptr := some (u, k) }.setCall t c

def step (cipher : Vector UInt8 16 → Vector UInt8 8 → Vector UInt8 8) :
    IdeaAction τ → IdeaThreads τ → Except PointerFault (IdeaThreads τ)
  | .crypt t key src, s =>
      match s.call t with
      | some _ => .ok s
      | none => .ok (s.crypt t key src)
  | .goOn t, s =>
      match s.call t with
      | some c => s.goOn cipher t c
      | none => .ok s

end IdeaThreads

end Windows
