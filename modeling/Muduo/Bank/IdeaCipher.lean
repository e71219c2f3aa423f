/-
The cipher of one block, `IdeaExpandKey`, `IdeaCipher` and `IdeaInvertKey`.

Words have 16 bits and are read and written with their first byte as the high one, which is
what the swaps in the source come to.
-/
import Muduo.Lib.Bytes

namespace Bank.Idea

open Lib

/-! ### The key -/

/-- A word and the next one of the key's last eight words, each turned by 25 bits. -/
def nextKeyWord (ek : List UInt16) (base i : Nat) : UInt16 :=
  ek.getD (base + i % 8) 0 <<< 9 ||| ek.getD (base + (i + 1) % 8) 0 >>> 7

/-- The second loop, with how many words are still to come. -/
def expandLoop : Nat → List UInt16 → Nat → Nat → List UInt16
  | 0, ek, _, _ => ek
  | n + 1, ek, base, i =>
      let i := i + 1
      let ek := ek ++ [nextKeyWord ek base i]
      if i = 8 then expandLoop n ek (base + 8) 0 else expandLoop n ek base i

/-- `IdeaExpandKey`: 52 words. -/
def expandKey (userkey : Vector UInt8 16) : List UInt16 :=
  let first := (List.range 8).map fun j =>
    toU16 (userkey.toList.getD (2 * j) 0) (userkey.toList.getD (2 * j + 1) 0)
  expandLoop 44 first 0 0

/-! ### The cipher -/

/-- `MUL`, modulo 2¹⁶ + 1, where 0 stands for 2¹⁶. -/
def mul (x y : UInt16) : UInt16 :=
  if y = 0 then 1 - x
  else if x = 0 then 1 - y
  else
    let t32 := x.toUInt32 * y.toUInt32
    let x := t32.toUInt16
    let t16 := (t32 >>> 16).toUInt16
    (x - t16) + (if x < t16 then 1 else 0)

/-- The four words of a block. -/
structure Words where
  x1 : UInt16
  x2 : UInt16
  x3 : UInt16
  x4 : UInt16

/-- One turn of the loop, with its six words of the key. -/
def cipherRound (w : Words) (k : Nat → UInt16) : Words :=
  let x1 := mul w.x1 (k 0)
  let x2 := w.x2 + k 1
  let x3 := w.x3 + k 2
  let x4 := mul w.x4 (k 3)
  let s3 := x3
  let x3 := mul (x3 ^^^ x1) (k 4)
  let s2 := x2
  let x2 := mul ((x2 ^^^ x4) + x3) (k 5)
  let x3 := x3 + x2
  ⟨x1 ^^^ x2, x2 ^^^ s3, x3 ^^^ s2, x4 ^^^ x3⟩

/-- The loop over `r` rounds, and what follows it. -/
def cipherRounds : Nat → Words → List UInt16 → Words
  | 0, w, key =>
      ⟨mul w.x1 (key.getD 0 0), w.x2 + key.getD 2 0, w.x3 + key.getD 1 0, mul w.x4 (key.getD 3 0)⟩
  | r + 1, w, key => cipherRounds r (cipherRound w fun i => key.getD i 0) (key.drop 6)

/-- `IdeaCipher` -/
def cipherBlock (key : List UInt16) (block : Vector UInt8 8) : Vector UInt8 8 :=
  let word := fun j => toU16 (block.toList.getD (2 * j) 0) (block.toList.getD (2 * j + 1) 0)
  let w := cipherRounds 8 ⟨word 0, word 1, word 2, word 3⟩ key
  let out := beU16 w.x1 ++ beU16 w.x3 ++ beU16 w.x2 ++ beU16 w.x4
  Vector.ofFn fun i : Fin 8 => out.getD i 0

/-- `IdeaCipher` under the key that a user key expands to. -/
def ideaCipher (userkey : Vector UInt8 16) (block : Vector UInt8 8) : Vector UInt8 8 :=
  let word := fun j => toU16 (block.toList.getD (2 * j) 0) (block.toList.getD (2 * j + 1) 0)
  let w := cipherRounds 8 ⟨word 0, word 1, word 2, word 3⟩ (expandKey userkey)
  let out := beU16 w.x1 ++ beU16 w.x3 ++ beU16 w.x2 ++ beU16 w.x4
  Vector.ofFn fun i : Fin 8 => out.getD i 0

example : ideaCipher #v[0, 1, 0, 2, 0, 3, 0, 4, 0, 5, 0, 6, 0, 7, 0, 8] #v[0, 0, 0, 1, 0, 2, 0, 3]
    = #v[0x11, 0xFB, 0xED, 0x2B, 0x01, 0x98, 0x6D, 0xE5] := by
  decide +kernel

/-! ### The key to decrypt with -/

/-- `t += q * u`, with the product and the sum taken as `int`. -/
def mulAdd (t q u : UInt16) : Option UInt16 :=
  if t.toNat + q.toNat * u.toNat < 2 ^ 31 then some (t + q * u) else none

/-- The loop of `MulInv`.  To divide by zero is a fault. -/
def mulInvLoop (x y t0 t1 : UInt16) : Option UInt16 :=
  if y = 0 then none
  else
    (mulAdd t0 (x / y) t1).bind fun t0 =>
      if x % y = 1 then some t0
      else if x % y = 0 then none
      else
        (mulAdd t1 (y / (x % y)) t0).bind fun t1 =>
          if y % (x % y) = 1 then some (1 - t1) else mulInvLoop (x % y) (y % (x % y)) t0 t1
termination_by y.toNat
decreasing_by
  have hy : 0 < y.toNat := Nat.pos_of_ne_zero fun h => ‹¬y = 0› (UInt16.toNat_inj.mp h)
  have hx : 0 < (x % y).toNat :=
    Nat.pos_of_ne_zero fun h => ‹¬x % y = 0› (UInt16.toNat_inj.mp h)
  rw [UInt16.toNat_mod]
  refine (Nat.mod_lt _ hx).trans ?_
  rw [UInt16.toNat_mod]
  exact Nat.mod_lt _ hy

/-- `MulInv` -/
def mulInv (x : UInt16) : Option UInt16 :=
  if x ≤ 1 then some x
  else
    let t1 := UInt16.ofNat (0x10001 / x.toNat)
    let y := UInt16.ofNat (0x10001 % x.toNat)
    if y = 1 then some (1 - t1) else mulInvLoop x y 1 t1

/-- The four words of a round that are mixed with the block, inverted; they are stored from the
end, and `swapped` tells the order of the two in the middle. -/
def invertMix (swapped : Bool) (k1 k2 k3 k4 : UInt16) (temp : List UInt16) :
    Option (List UInt16) := do
  let t1 ← mulInv k1
  let t4 ← mulInv k4
  return if swapped then t1 :: -k3 :: -k2 :: t4 :: temp else t1 :: -k2 :: -k3 :: t4 :: temp

/-- The rounds of `IdeaInvertKey` behind the first four words, of which `r` are still to come. -/
def invertRounds : Nat → List UInt16 → List UInt16 → Option (List UInt16)
  | r + 1, k5 :: k6 :: k1 :: k2 :: k3 :: k4 :: ek, temp =>
      (invertMix (r ≠ 0) k1 k2 k3 k4 (k5 :: k6 :: temp)).bind (invertRounds r ek)
  | _, _, temp => some temp

/-- `IdeaInvertKey` -/
def invertKey : List UInt16 → Option (List UInt16)
  | k1 :: k2 :: k3 :: k4 :: ek => (invertMix false k1 k2 k3 k4 []).bind (invertRounds 8 ek)
  | _ => some []

end Bank.Idea
