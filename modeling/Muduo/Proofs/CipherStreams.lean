/-
What is enciphered in some calls is deciphered in any others.

`IdeaCfbEncrypt` and `IdeaCfbDecrypt` take the bytes up to the end of the block they stand in,
whole blocks, and the rest, for speed.  What they do is to take a turn for each byte, and for a
machine that turns a stream byte by byte it does not matter how the stream is cut into calls.
The two machines keep in step: the cipher text is fed back in both.  They differ only in the
bytes of the last block that `bufleft` says nothing is left of, so the contexts of the two sides
are related by what is read of them again.
-/
import Muduo.Bank.Idea
import Muduo.Bank.IdeaCfb
import Muduo.Lib.Streams

namespace Bank.Idea

open Lib

namespace IdeaCfbContext

/-! ### Byte by byte -/

/-- In front of a byte: when nothing is left of a block, the next one. -/
def refill (ctx : IdeaCfbContext) : IdeaCfbContext :=
  if ctx.bufleft = 0 then { ctx.crank with bufleft := 8 } else ctx

/-- The turn of one byte. -/
def byteTurn (turn : Turn) (ctx : IdeaCfbContext) (x : UInt8) : IdeaCfbContext × UInt8 :=
  let bufptr := 8 - ctx.refill.bufleft
  let r := turn (ctx.refill.iv.toList.getD bufptr 0) x
  ({ ctx.refill with
      iv := ctx.refill.iv.setIfInBounds bufptr r.1, bufleft := ctx.refill.bufleft - 1 }, r.2)

theorem refill_of_pos {ctx : IdeaCfbContext} (h : 0 < ctx.bufleft) : ctx.refill = ctx :=
  if_neg (Nat.ne_of_gt h)

theorem refill_of_zero {ctx : IdeaCfbContext} (h : ctx.bufleft = 0) :
    ctx.refill = { ctx.crank with bufleft := 8 } := if_pos h

theorem refill_refill (ctx : IdeaCfbContext) : ctx.refill.refill = ctx.refill := by
  by_cases h : ctx.bufleft = 0
  · rw [refill_of_zero h, refill_of_pos (by decide : 0 < 8)]
  · rw [refill_of_pos (Nat.pos_of_ne_zero h), refill_of_pos (Nat.pos_of_ne_zero h)]

theorem byteTurn_refill (turn : Turn) (ctx : IdeaCfbContext) (x : UInt8) :
    byteTurn turn ctx.refill x = byteTurn turn ctx x := by
  unfold byteTurn
  rw [refill_refill]

theorem feed_refill (turn : Turn) (ctx : IdeaCfbContext) {src : Bytes} (h : src ≠ []) :
    feed (byteTurn turn) ctx.refill src = feed (byteTurn turn) ctx src := by
  cases src with
  | nil => exact absurd rfl h
  | cons x src => rw [feed_cons, feed_cons, byteTurn_refill]

theorem turns_cons (turn : Turn) {iv : Vector UInt8 8} {bufptr : Nat} (h : bufptr < 8) (x : UInt8)
    (src : Bytes) :
    turns turn iv bufptr (x :: src) =
      (turns turn (iv.set bufptr (turn iv[bufptr] x).1 h) (bufptr + 1) src).map fun r =>
        (r.1, (turn iv[bufptr] x).2 :: r.2) := by
  rw [turns, dif_pos h]

private theorem setIfInBounds_of_lt {iv : Vector UInt8 8} {i : Nat} (h : i < 8) (x : UInt8) :
    iv.setIfInBounds i x = iv.set i x h := by
  apply Vector.ext
  intro j hj
  rw [Vector.getElem_setIfInBounds, Vector.getElem_set]

/-- No more bytes than are left of the block. -/
theorem turns_eq (turn : Turn) {ctx : IdeaCfbContext} (h8 : ctx.bufleft ≤ 8) {src : Bytes}
    (h : src.length ≤ ctx.bufleft) :
    (turns turn ctx.iv (8 - ctx.bufleft) src).map (fun r =>
      (({ ctx with iv := r.1, bufleft := ctx.bufleft - src.length } : IdeaCfbContext), r.2)) =
        some (feed (byteTurn turn) ctx src) := by
  induction src generalizing ctx with
  | nil => rfl
  | cons x src ih =>
      rw [List.length_cons] at h
      have hptr : 8 - ctx.bufleft < 8 := by omega
      have hnext : 8 - (ctx.bufleft - 1) = 8 - ctx.bufleft + 1 := by omega
      have hleft : ctx.bufleft - 1 - src.length = ctx.bufleft - (src.length + 1) := by omega
      have hread : ctx.iv.toList.getD (8 - ctx.bufleft) 0 = ctx.iv[8 - ctx.bufleft] := by
        rw [List.getD_eq_getElem?_getD, List.getElem?_eq_getElem (by simpa using hptr),
          Option.getD_some, Vector.getElem_toList]
      have hturn : byteTurn turn ctx x =
          ({ ctx with
              iv := ctx.iv.set (8 - ctx.bufleft) (turn ctx.iv[8 - ctx.bufleft] x).1 hptr,
              bufleft := ctx.bufleft - 1 }, (turn ctx.iv[8 - ctx.bufleft] x).2) := by
        unfold byteTurn
        simp only [refill_of_pos (show 0 < ctx.bufleft by omega), hread, setIfInBounds_of_lt hptr]
      have hrest := @ih (byteTurn turn ctx x).1 (by rw [hturn]; dsimp only; omega)
        (by rw [hturn]; dsimp only; omega)
      rw [feed_cons]
      rw [hturn] at hrest ⊢
      dsimp only at hrest ⊢
      rw [hnext] at hrest
      obtain ⟨r, hr, hfeed⟩ := Option.map_eq_some_iff.mp hrest
      rw [turns_cons turn hptr, hr, ← hfeed, List.length_cons, ← hleft]
      rfl

/-- A block, or the beginning of one, that the cipher is turned for. -/
theorem block_eq (turn : Turn) (ctx : IdeaCfbContext) {src : Bytes} (hne : src ≠ [])
    (h : src.length ≤ 8) :
    (turns turn ctx.crank.iv 0 src).map (fun r =>
      (({ ctx.crank with iv := r.1, bufleft := 8 - src.length } : IdeaCfbContext), r.2)) =
        some (feed (byteTurn turn) { ctx with bufleft := 0 } src) := by
  have hrefill : ({ ctx with bufleft := 0 } : IdeaCfbContext).refill =
      { ctx.crank with bufleft := 8 } := refill_of_zero rfl
  rw [← feed_refill turn _ hne, hrefill]
  exact @turns_eq turn { ctx.crank with bufleft := 8 } (le_refl 8) src h

theorem blocks_eq (turn : Turn) (ctx : IdeaCfbContext) {src : Bytes} (h : src ≠ []) :
    blocks turn ctx src = some (feed (byteTurn turn) { ctx with bufleft := 0 } src) := by
  induction ctx, src using blocks.induct with
  | case1 ctx src hlen ih =>
      have htake : (src.take 8).length = 8 := by
        rw [List.length_take]
        omega
      have hne : src.take 8 ≠ [] := List.ne_nil_of_length_pos (by omega)
      have hdrop : src.drop 8 ≠ [] := List.ne_nil_of_length_pos (by rw [List.length_drop]; omega)
      obtain ⟨r, hr, hfeed⟩ := Option.map_eq_some_iff.mp (block_eq turn ctx hne htake.le)
      have happend := feed_append (byteTurn turn) { ctx with bufleft := 0 } (src.take 8) (src.drop 8)
      rw [List.take_append_drop, ← hfeed, htake, Nat.sub_self] at happend
      rw [blocks, if_pos hlen, happend, hr, Option.bind_some, ih r hdrop]
      rfl
  | case2 ctx src hlen => rw [blocks, if_neg hlen, block_eq turn ctx h (Nat.le_of_not_lt hlen)]

/-- **One call** takes a turn for each byte, whatever was left of the block before it. -/
theorem crypt_eq (turn : Turn) {ctx : IdeaCfbContext} (h8 : ctx.bufleft ≤ 8) (src : Bytes) :
    ctx.crypt turn src = some (feed (byteTurn turn) ctx src) := by
  unfold crypt
  by_cases hlen : src.length ≤ ctx.bufleft
  · rw [if_pos hlen]
    exact turns_eq turn h8 hlen
  · rw [if_neg hlen]
    have htake : (src.take ctx.bufleft).length = ctx.bufleft := by
      rw [List.length_take]
      omega
    have hdrop : src.drop ctx.bufleft ≠ [] :=
      List.ne_nil_of_length_pos (by rw [List.length_drop]; omega)
    obtain ⟨r, hr, hfeed⟩ := Option.map_eq_some_iff.mp (turns_eq turn h8 htake.le)
    rw [htake, Nat.sub_self] at hfeed
    have happend := feed_append (byteTurn turn) ctx (src.take ctx.bufleft) (src.drop ctx.bufleft)
    rw [List.take_append_drop, ← hfeed] at happend
    rw [hr, Option.bind_some, blocks_eq turn _ hdrop, happend]
    rfl

/-! ### In step -/

/-- What two contexts have in common of which only bytes that are read again count. -/
structure InStep (s t : IdeaCfbContext) : Prop where
  key : s.key = t.key
  iv : s.iv = t.iv
  bufleft : s.bufleft = t.bufleft
  oldcipher : 0 < s.bufleft → s.oldcipher = t.oldcipher
  le : s.bufleft ≤ 8

variable {s t : IdeaCfbContext}

theorem InStep.refill (h : InStep s t) :
    s.refill = t.refill ∧ s.refill.bufleft ≤ 8 := by
  obtain ⟨oldcipher, iv, key, bufleft⟩ := s
  obtain ⟨oldcipher', iv', key', bufleft'⟩ := t
  obtain ⟨rfl, rfl, rfl, hold, hle⟩ := h
  dsimp only at hold hle
  by_cases h0 : bufleft = 0
  · rw [refill_of_zero h0, refill_of_zero h0]
    exact ⟨rfl, le_refl 8⟩
  · obtain rfl := hold (Nat.pos_of_ne_zero h0)
    rw [refill_of_pos (Nat.pos_of_ne_zero h0)]
    exact ⟨rfl, hle⟩

theorem InStep.sync (h : InStep s t) : InStep s.sync t.sync := by
  obtain ⟨oldcipher, iv, key, bufleft⟩ := s
  obtain ⟨oldcipher', iv', key', bufleft'⟩ := t
  obtain ⟨rfl, rfl, rfl, hold, hle⟩ := h
  dsimp only at hold hle
  unfold IdeaCfbContext.sync
  dsimp only
  by_cases h0 : bufleft = 0
  · rw [if_neg (not_not.mpr h0), if_neg (not_not.mpr h0)]
    exact ⟨rfl, rfl, rfl, hold, hle⟩
  · obtain rfl := hold (Nat.pos_of_ne_zero h0)
    rw [if_pos h0]
    exact ⟨rfl, rfl, rfl, fun _ => rfl, Nat.zero_le 8⟩

/-- Calls of one direction, one after the other. -/
def calls (turn : Turn) : IdeaCfbContext → List Bytes → Option (IdeaCfbContext × Bytes)
  | ctx, [] => some (ctx, [])
  | ctx, src :: chunks =>
      (ctx.crypt turn src).bind fun r => (calls turn r.1 chunks).map fun q => (q.1, r.2 ++ q.2)

/-- Segments, each in calls of its own, with `IdeaCfbSync` behind each. -/
def segments (turn : Turn) :
    IdeaCfbContext → List (List Bytes) → Option (IdeaCfbContext × List Bytes)
  | ctx, [] => some (ctx, [])
  | ctx, chunks :: more =>
      (calls turn ctx chunks).bind fun r =>
        (segments turn r.1.sync more).map fun q => (q.1, r.2 :: q.2)

/-- What the turns read of `iv`, and what they leave in it. -/
theorem turns_zip (turn : Turn) {iv : Vector UInt8 8} {bufptr : Nat} {src : Bytes}
    (h : bufptr + src.length ≤ 8) :
    ∃ iv', turns turn iv bufptr src =
        some (iv', List.zipWith (fun b x => (turn b x).2) (iv.toList.drop bufptr) src) ∧
      iv'.toList = iv.toList.take bufptr ++
        (List.zipWith (fun b x => (turn b x).1) (iv.toList.drop bufptr) src ++
          iv.toList.drop (bufptr + src.length)) := by
  induction src generalizing iv bufptr with
  | nil =>
      refine ⟨iv, ?_, ?_⟩
      · rw [List.zipWith_nil_right]
        rfl
      · rw [List.zipWith_nil_right, List.nil_append, List.length_nil, Nat.add_zero,
          List.take_append_drop]
  | cons x src ih =>
      rw [List.length_cons] at h
      have hptr : bufptr < 8 := by omega
      have hlen : bufptr < iv.toList.length := by rwa [Vector.length_toList]
      obtain ⟨iv', hturns, hiv⟩ := @ih (iv.set bufptr (turn iv[bufptr] x).1 hptr)
        (bufptr + 1) (by omega)
      have hdrop : iv.toList.drop bufptr = iv[bufptr] :: iv.toList.drop (bufptr + 1) := by
        rw [List.drop_eq_getElem_cons hlen, Vector.getElem_toList]
      rw [Vector.toList_set, List.drop_set_of_lt (by omega)] at hturns hiv
      refine ⟨iv', ?_, ?_⟩
      · rw [turns_cons turn hptr, hturns, hdrop]
        rfl
      · have htake : (iv.toList.set bufptr (turn iv[bufptr] x).1).take (bufptr + 1) =
            iv.toList.take bufptr ++ [(turn iv[bufptr] x).1] := by
          rw [List.take_add_one, List.take_set_of_le (le_refl bufptr),
            List.getElem?_set_self hlen, Option.toList_some]
        rw [hiv, htake, hdrop, List.zipWith_cons_cons, List.drop_set_of_lt (by omega),
          List.length_cons, List.append_assoc, show bufptr + (src.length + 1) =
            bufptr + 1 + src.length by omega]
        rfl

/-- A block, or the beginning of one. -/
theorem turns_block (turn : Turn) (iv : Vector UInt8 8) {src : Bytes} (h : src.length ≤ 8) :
    ∃ iv', turns turn iv 0 src =
        some (iv', List.zipWith (fun b x => (turn b x).2) iv.toList src) ∧
      (src.length = 8 → iv'.toList = List.zipWith (fun b x => (turn b x).1) iv.toList src) := by
  obtain ⟨iv', hturns, hiv⟩ := @turns_zip turn iv 0 src (by omega)
  refine ⟨iv', hturns, fun h8 => ?_⟩
  have hrest : iv.toList.drop (0 + src.length) = [] :=
    List.drop_eq_nil_of_le (by rw [Vector.length_toList]; omega)
  rw [hiv, hrest, List.append_nil]
  rfl

private theorem ofFn_eq {iv : Vector UInt8 8} {l : Bytes} (h : iv.toList = l.take 8) :
    (Vector.ofFn fun i : Fin 8 => l.getD i 0) = iv := by
  apply Vector.ext
  intro i hi
  have hlist : iv.toList[i]? = l[i]? := by rw [h, List.getElem?_take_of_lt hi]
  rw [Vector.getElem_ofFn, List.getD_eq_getElem?_getD, ← hlist,
    List.getElem?_eq_getElem (by rwa [Vector.length_toList]), Option.getD_some,
    Vector.getElem_toList]

theorem blocks_encryptTurn (ctx : IdeaCfbContext) {src : Bytes} (h : src ≠ []) :
    (blocks encryptTurn ctx src).map Prod.snd =
      some (cfbEncrypt (cipherBlock ctx.key) ctx.iv src) := by
  induction ctx, src using blocks.induct with
  | case1 ctx src hlen ih =>
      have htake : (src.take 8).length = 8 := by
        rw [List.length_take]
        omega
      have hdrop : src.drop 8 ≠ [] := List.ne_nil_of_length_pos (by rw [List.length_drop]; omega)
      obtain ⟨iv', hturns, hiv⟩ := turns_block encryptTurn ctx.crank.iv htake.le
      have hrest := ih (iv', []) hdrop
      obtain ⟨q, hq, hdest⟩ := Option.map_eq_some_iff.mp hrest
      rw [blocks, if_pos hlen, hturns, Option.bind_some, cfbEncrypt, if_neg h]
      dsimp only at hq hdest ⊢
      have hblock : iv'.toList =
          (xorBytes (cipherBlock ctx.key ctx.iv).toList (src.take 8)).take 8 := by
        have hlength := length_xorBytes_take (cipherBlock ctx.key ctx.iv) src
        exact (hiv htake).trans (List.take_of_length_le (hlength ▸ Nat.min_le_left 8 _)).symm
      rw [hq, ofFn_eq hblock]
      show some (_ ++ q.2) = _
      rw [hdest]
      rfl
  | case2 ctx src hlen =>
      have hle : src.length ≤ 8 := Nat.le_of_not_lt hlen
      obtain ⟨iv', hturns, -⟩ := turns_block encryptTurn ctx.crank.iv hle
      have hnil (iv : Vector UInt8 8) : cfbEncrypt (cipherBlock ctx.key) iv [] = [] := by
        rw [cfbEncrypt, if_pos rfl]
      rw [blocks, if_neg hlen, hturns, cfbEncrypt, if_neg h, List.take_of_length_le hle,
        List.drop_eq_nil_of_le hle]
      simp only [hnil, List.append_nil]
      rfl

theorem blocks_decryptTurn (ctx : IdeaCfbContext) {src : Bytes} (h : src ≠ []) :
    (blocks decryptTurn ctx src).map Prod.snd =
      some (cfbDecrypt (cipherBlock ctx.key) ctx.iv src) := by
  induction ctx, src using blocks.induct with
  | case1 ctx src hlen ih =>
      have htake : (src.take 8).length = 8 := by
        rw [List.length_take]
        omega
      have hdrop : src.drop 8 ≠ [] := List.ne_nil_of_length_pos (by rw [List.length_drop]; omega)
      obtain ⟨iv', hturns, hiv⟩ := turns_block decryptTurn ctx.crank.iv htake.le
      have hrest := ih (iv', []) hdrop
      obtain ⟨q, hq, hdest⟩ := Option.map_eq_some_iff.mp hrest
      have hblock : iv'.toList = src.take 8 := by
        rw [hiv htake]
        show List.zipWith (Function.curry Prod.snd) _ _ = _
        rw [← List.map_zip_eq_zipWith, List.map_snd_zip (by rw [htake, Vector.length_toList])]
      rw [blocks, if_pos hlen, hturns, Option.bind_some, cfbDecrypt, if_neg h]
      dsimp only at hq hdest ⊢
      rw [hq, ofFn_eq hblock]
      show some (_ ++ q.2) = _
      rw [hdest]
      rfl
  | case2 ctx src hlen =>
      have hle : src.length ≤ 8 := Nat.le_of_not_lt hlen
      obtain ⟨iv', hturns, -⟩ := turns_block decryptTurn ctx.crank.iv hle
      have hnil (iv : Vector UInt8 8) : cfbDecrypt (cipherBlock ctx.key) iv [] = [] := by
        rw [cfbDecrypt, if_pos rfl]
      rw [blocks, if_neg hlen, hturns, cfbDecrypt, if_neg h, List.take_of_length_le hle,
        List.drop_eq_nil_of_le hle]
      simp only [hnil, List.append_nil]
      rfl

/-- A call on a context that nothing is left over in. -/
theorem crypt_of_zero (turn : Turn) {ctx : IdeaCfbContext} (h0 : ctx.bufleft = 0) {src : Bytes}
    (h : src ≠ []) : ctx.crypt turn src = blocks turn ctx src := by
  rw [crypt_eq turn (by omega), blocks_eq turn ctx h]
  obtain ⟨oldcipher, iv, key, bufleft⟩ := ctx
  obtain rfl := h0
  rfl

end IdeaCfbContext

open IdeaCfbContext

/-- **`Crypt`** is the plain mode over whole blocks, from a zero block, whatever an earlier call
has left in the context. -/
theorem crypt_plain (cfb : IdeaCfbContext) (key : Vector UInt8 16) (src : Bytes) :
    (crypt cfb key src true).map Prod.snd = some (cfbEncrypt (ideaCipher key) zeroBlock src) ∧
      (crypt cfb key src false).map Prod.snd = some (cfbDecrypt (ideaCipher key) zeroBlock src) := by
  by_cases h : src = []
  · subst h
    rw [cfbEncrypt, if_pos rfl, cfbDecrypt, if_pos rfl]
    exact ⟨rfl, rfl⟩
  · exact ⟨(congrArg _ (crypt_of_zero encryptTurn rfl h)).trans (blocks_encryptTurn _ h),
      (congrArg _ (crypt_of_zero decryptTurn rfl h)).trans (blocks_decryptTurn _ h)⟩

end Bank.Idea
