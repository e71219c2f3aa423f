/-
IDEA in cipher feedback mode, `Idea::Crypt` of both programs.

The cipher of one block under a user key is a function nothing is assumed about; what is
written out is the mode.  `Crypt` starts from a zero block, so the context it sets up for
every call holds no bytes of an earlier one.  The loop over whole blocks and the last one to
eight bytes behind it do the same: the feedback is put through the cipher and added to the
text, and the next feedback is what has been sent.

The cipher text is the feedback in both directions, which is why a text is recovered.
-/
import Muduo.Bank.Packet

namespace Bank

open Lib

/-! ### The mode -/

/-- Byte by byte. -/
def xorBytes (a b : Bytes) : Bytes := List.zipWith (· ^^^ ·) a b

/-- `IdeaCfbEncrypt`, with what is in `ctx->iv`. -/
def cfbEncrypt (cipher : Vector UInt8 8 → Vector UInt8 8) (iv : Vector UInt8 8) (src : Bytes) :
    Bytes :=
  if src = [] then []
  else
    let block := xorBytes (cipher iv).toList (src.take 8)
    let iv := Vector.ofFn fun i : Fin 8 => block.getD i 0
    block ++ cfbEncrypt cipher iv (src.drop 8)
termination_by src.length
decreasing_by
  have hpos : 0 < src.length := List.length_pos_iff.mpr ‹_›
  rw [List.length_drop]
  omega

/-- `IdeaCfbDecrypt` -/
def cfbDecrypt (cipher : Vector UInt8 8 → Vector UInt8 8) (iv : Vector UInt8 8) (src : Bytes) :
    Bytes :=
  if src = [] then []
  else
    let block := xorBytes (cipher iv).toList (src.take 8)
    let iv := Vector.ofFn fun i : Fin 8 => src.getD i 0
    block ++ cfbDecrypt cipher iv (src.drop 8)
termination_by src.length
decreasing_by
  have hpos : 0 < src.length := List.length_pos_iff.mpr ‹_›
  rw [List.length_drop]
  omega

theorem length_xorBytes_take (a : Vector UInt8 8) (b : Bytes) :
    (xorBytes a.toList (b.take 8)).length = min 8 b.length := by
  simp only [xorBytes, List.length_zipWith, List.length_take, Vector.length_toList]
  omega

/-- Adding twice takes away. -/
theorem xorBytes_xorBytes {a b : Bytes} (h : b.length ≤ a.length) :
    xorBytes a (xorBytes a b) = b := by
  induction a generalizing b with
  | nil =>
      have : b = [] := List.length_eq_zero_iff.mp (Nat.le_zero.mp h)
      subst this
      rfl
  | cons x a ih =>
      cases b with
      | nil => rfl
      | cons y b =>
          have hrest := ih (b := b) (by simpa using h)
          simp only [xorBytes, List.zipWith_cons_cons, ← UInt8.xor_assoc, UInt8.xor_self,
            UInt8.zero_xor] at hrest ⊢
          rw [hrest]

theorem length_cfbEncrypt (cipher : Vector UInt8 8 → Vector UInt8 8) (iv : Vector UInt8 8)
    (src : Bytes) : (cfbEncrypt cipher iv src).length = src.length := by
  induction iv, src using cfbEncrypt.induct cipher with
  | case1 iv => rw [cfbEncrypt, if_pos rfl]
  | case2 iv src hne block iv' ih =>
      rw [cfbEncrypt, if_neg hne]
      simp only [List.length_append]
      rw [ih, length_xorBytes_take, List.length_drop]
      omega

/-- What was encrypted is recovered, whatever the cipher does to a block. -/
theorem cfbDecrypt_cfbEncrypt (cipher : Vector UInt8 8 → Vector UInt8 8) (iv : Vector UInt8 8)
    (src : Bytes) : cfbDecrypt cipher iv (cfbEncrypt cipher iv src) = src := by
  induction iv, src using cfbEncrypt.induct cipher with
  | case1 iv => rw [cfbEncrypt, if_pos rfl, cfbDecrypt, if_pos rfl]
  | case2 iv src hne block iv' ih =>
      have hpos : 0 < src.length := List.length_pos_iff.mpr hne
      have hlen : block.length = min 8 src.length := length_xorBytes_take _ _
      have henc : cfbEncrypt cipher iv src = block ++ cfbEncrypt cipher iv' (src.drop 8) := by
        rw [cfbEncrypt, if_neg hne]
      have hnil : block ++ cfbEncrypt cipher iv' (src.drop 8) ≠ [] := by
        intro h
        rw [(List.append_eq_nil_iff.mp h).1, List.length_nil] at hlen
        omega
      rw [henc, cfbDecrypt, if_neg hnil]
      simp only
      by_cases hlast : src.length ≤ 8
      · -- the last block
        have hdrop : src.drop 8 = [] := List.drop_eq_nil_of_le hlast
        have hrest : cfbEncrypt cipher iv' [] = [] := by rw [cfbEncrypt, if_pos rfl]
        rw [hdrop, hrest, List.append_nil, List.take_of_length_le (by omega),
          List.drop_eq_nil_of_le (by omega)]
        have hnone : ∀ iv : Vector UInt8 8, cfbDecrypt cipher iv [] = [] := by
          intro iv
          rw [cfbDecrypt, if_pos rfl]
        rw [hnone, List.append_nil]
        show xorBytes _ (xorBytes _ (src.take 8)) = src
        rw [List.take_of_length_le hlast, xorBytes_xorBytes (by simpa using hlast)]
      · have h8 : block.length = 8 := by omega
        have hiv : (Vector.ofFn fun i : Fin 8 =>
            (block ++ cfbEncrypt cipher iv' (src.drop 8)).getD i 0) = iv' := by
          apply Vector.ext
          intro i hi
          simp only [iv', Vector.getElem_ofFn]
          rw [List.getD_eq_getElem?_getD, List.getElem?_append_left (by omega),
            ← List.getD_eq_getElem?_getD]
        rw [hiv, List.take_left' h8, List.drop_left' h8, ih]
        show xorBytes _ (xorBytes _ (src.take 8)) ++ src.drop 8 = src
        rw [xorBytes_xorBytes (by simp), List.take_append_drop]

/-! ### The digest and the cipher of both programs -/

/-- MD5, and the cipher of one block under a user key. -/
structure Idea where
  md5 : Bytes → Vector UInt8 16
  cipher : Vector UInt8 16 → Vector UInt8 8 → Vector UInt8 8

namespace Idea

/-- `IdeaCfbReinit` with no `iv`. -/
def zeroBlock : Vector UInt8 8 := Vector.replicate 8 0

/-- `Crypt` of 16 bytes, to encrypt. -/
def encrypt (idea : Idea) (key : Vector UInt8 16) (src : Bytes) : Bytes :=
  cfbEncrypt (idea.cipher key) zeroBlock (src.take 16)

/-- `Crypt` of 16 bytes, to decrypt. -/
def decrypt (idea : Idea) (key : Vector UInt8 16) (src : Bytes) : Vector UInt8 16 :=
  let dest := cfbDecrypt (idea.cipher key) zeroBlock (src.take 16)
  Vector.ofFn fun i : Fin 16 => dest.getD i 0

/-- What the server takes of it. -/
def crypto (idea : Idea) : Crypto := ⟨idea.md5, idea.decrypt⟩

theorem length_encrypt (idea : Idea) (key : Vector UInt8 16) {src : Bytes} (h : src.length = 16) :
    (idea.encrypt key src).length = 16 := by
  rw [encrypt, length_cfbEncrypt, List.length_take, h, Nat.min_self]

/-- Sixteen bytes are recovered under the same key. -/
theorem decrypt_encrypt (idea : Idea) (key : Vector UInt8 16) {src : Bytes}
    (h : src.length = 16) : (idea.decrypt key (idea.encrypt key src)).toList = src := by
  have hall : (idea.encrypt key src).take 16 = idea.encrypt key src :=
    List.take_of_length_le (idea.length_encrypt key h).le
  have hdest : cfbDecrypt (idea.cipher key) zeroBlock ((idea.encrypt key src).take 16) = src := by
    rw [hall, encrypt, cfbDecrypt_cfbEncrypt, List.take_of_length_le h.le]
  apply List.ext_getElem
  · rw [Vector.length_toList, h]
  · intro i hi hi'
    simp only [decrypt, Vector.getElem_toList, Vector.getElem_ofFn]
    rw [hdest, List.getD_eq_getElem?_getD, List.getElem?_eq_getElem hi', Option.getD_some]

end Idea

end Bank
