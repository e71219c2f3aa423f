/-
Decryptions side by side.

All calls of `IdeaCfbDecrypt` go through one `bufptr`.  As long as each of them finds it in its
own context wherever it goes through it, a call does what it does alone: it has set the pointer
itself then, nobody else has moved it since, and nobody else has touched its context.  So the
call is followed step by step by one that is alone, which takes 23 steps and is the decryption
of the whole text.

Otherwise it need not be: a call that finds the pointer in the context of another session
takes its eight bytes from there.
-/
import Muduo.Lib.Runs
import Muduo.Bank.IdeaCipher
import Muduo.Windows.IdeaThreads

namespace Windows

open Lib Bank

/-! ### A call that is alone -/

namespace IdeaThreads

variable {cipher : Vector UInt8 16 → Vector UInt8 8 → Vector UInt8 8}

/-- The actions of a session that calls `Crypt` once. -/
def aloneActions (key src : Vector UInt8 16) (n : Nat) : List (IdeaAction Unit) :=
  .crypt () key src :: List.replicate n (.goOn ())

/-- The server with one session, which calls `Crypt` once; its `Idea` has any context. -/
def alone (cipher : Vector UInt8 16 → Vector UInt8 8 → Vector UInt8 8) (ctx : IdeaCfbContext)
    (key src : Vector UInt8 16) (n : Nat) : Except PointerFault (IdeaThreads Unit) :=
  run (step cipher) (aloneActions key src n) (init fun _ => ctx)

/-- In a call, with the pointer in the context. -/
def calling (ctx : IdeaCfbContext) (c : DecryptCall) (k : Nat) : IdeaThreads Unit :=
  ⟨fun _ => ctx, fun _ => some c, some ((), k), []⟩

theorem update_unit {α : Type} (f : Unit → α) (x : α) : Function.update f () x = fun _ => x := by
  funext u
  exact Function.update_self ..

theorem step_init (ctx : IdeaCfbContext) (c : DecryptCall) (k : Nat) (last : Bool) :
    step cipher (.goOn ()) (calling ctx { c with pc := .init last } k)
      = .ok (calling ctx { c with pc := .copy last } 0) := by
  simp [step, goOn, calling, DecryptCall.setPointer, setCfb, setCall, update_unit]

/-- A statement that goes through the pointer, where it points into the call's own context. -/
theorem step_use {ctx ctx' : IdeaCfbContext} {c c' : DecryptCall} {k k' : Nat}
    {iv : Vector UInt8 8} (hset : c.setPointer ctx = none)
    (huse : c.usePointer cipher ctx ctx.iv k = .ok (c', ctx', iv, k')) :
    step cipher (.goOn ()) (calling ctx c k)
      = .ok (IdeaThreads.setCall ⟨fun _ => { ctx' with iv := iv }, fun _ => some c,
          some ((), k'), []⟩ () c') := by
  simp only [step, calling, goOn, hset, huse]
  simp [setCfb, setIv, update_unit, bind, Except.bind, pure, Except.pure]

theorem setCall_calling {ctx : IdeaCfbContext} {c c' : DecryptCall} {k : Nat}
    (h : c'.pc ≠ .returned) :
    IdeaThreads.setCall ⟨fun _ => ctx, fun _ => some c, some ((), k), []⟩ () c'
      = calling ctx c' k := by
  rw [IdeaThreads.setCall, if_neg h, update_unit]
  rfl

theorem step_copy (ctx : IdeaCfbContext) (c : DecryptCall) (last : Bool) :
    step cipher (.goOn ()) (calling ctx { c with pc := .copy last } 0)
      = .ok (calling { ctx with oldcipher := ctx.iv } { c with pc := .cipher last } 0) := by
  have huse : { c with pc := .copy last }.usePointer cipher ctx ctx.iv 0
      = .ok ({ c with pc := .cipher last }, { ctx with oldcipher := ctx.iv }, ctx.iv, 0) := rfl
  rw [step_use rfl huse, setCall_calling (by simp)]

theorem step_cipher (ctx : IdeaCfbContext) (c : DecryptCall) :
    step cipher (.goOn ()) (calling ctx { c with pc := .cipher false } 0)
      = .ok (calling { ctx with iv := cipher ctx.key ctx.iv }
          { c with pc := .bytes false, bufleft := 8, count := c.count - 8 } 0) := by
  have huse : { c with pc := .cipher false }.usePointer cipher ctx ctx.iv 0
      = .ok ({ c with pc := .bytes false, bufleft := 8, count := c.count - 8 }, ctx,
          cipher ctx.key ctx.iv, 0) := rfl
  rw [step_use rfl huse, setCall_calling (by simp)]

theorem step_cipher_last (ctx : IdeaCfbContext) (c : DecryptCall) :
    step cipher (.goOn ()) (calling ctx { c with pc := .cipher true } 0)
      = .ok (calling { ctx with iv := cipher ctx.key ctx.iv, bufleft := 8 - c.count }
          { c with pc := .bytes true } 0) := by
  have huse : { c with pc := .cipher true }.usePointer cipher ctx ctx.iv 0
      = .ok ({ c with pc := .bytes true }, { ctx with bufleft := 8 - c.count },
          cipher ctx.key ctx.iv, 0) := rfl
  rw [step_use rfl huse, setCall_calling (by simp)]

/-- The turns of a loop over a block: the counter and what it has come to. -/
def inBlock (c : DecryptCall) (last : Bool) (left : Nat) (src dest : Bytes) : DecryptCall :=
  if last then { c with pc := .bytes true, count := left, src := src, dest := dest }
  else { c with pc := .bytes false, bufleft := left, src := src, dest := dest }

theorem step_bytes (ctx : IdeaCfbContext) (c : DecryptCall) (last : Bool) (left : Nat) (x : UInt8)
    (src dest : Bytes) {k : Nat} (hk : k < 8) :
    step cipher (.goOn ()) (calling ctx (inBlock c last (left + 2) (x :: src) dest) k)
      = .ok (calling { ctx with iv := ctx.iv.set k x }
          (inBlock c last (left + 1) src (dest ++ [ctx.iv[k] ^^^ x])) (k + 1)) := by
  have huse : (inBlock c last (left + 2) (x :: src) dest).usePointer cipher ctx ctx.iv k
      = .ok (inBlock c last (left + 1) src (dest ++ [ctx.iv[k] ^^^ x]), ctx,
          ctx.iv.set k x, k + 1) := by
    cases last
    all_goals
      simp [inBlock, DecryptCall.usePointer, DecryptCall.turn, DecryptCall.countDown, hk, Except.map]
  have hset : (inBlock c last (left + 2) (x :: src) dest).setPointer ctx = none := by
    cases last <;> rfl
  have hpc : (inBlock c last (left + 1) src (dest ++ [ctx.iv[k] ^^^ x])).pc ≠ .returned := by
    cases last <;> exact nofun
  rw [step_use hset huse, setCall_calling hpc]

/-- All but the last turn of a block. -/
theorem run_bytes (c : DecryptCall) (last : Bool) (y : UInt8) (rest : Bytes) (xs : Bytes) :
    ∀ (ctx : IdeaCfbContext) (dest : Bytes) (k : Nat), k + xs.length < 8 →
      ∃ iv : Vector UInt8 8, iv.toList = ctx.iv.toList.take k ++ xs ++
          ctx.iv.toList.drop (k + xs.length) ∧
        run (step cipher) (List.replicate xs.length (.goOn ()))
          (calling ctx (inBlock c last (xs.length + 1) (xs ++ y :: rest) dest) k)
        = .ok (calling { ctx with iv := iv } (inBlock c last 1 (y :: rest)
            (dest ++ xorBytes (ctx.iv.toList.drop k) xs)) (k + xs.length)) := by
  induction xs with
  | nil =>
      intro ctx dest k _
      refine ⟨ctx.iv, by simp, ?_⟩
      simp [run, xorBytes]
  | cons x xs ih =>
      intro ctx dest k hk
      rw [List.length_cons] at hk
      have hk8 : k < 8 := by omega
      obtain ⟨iv, hiv, hrun⟩ := ih { ctx with iv := ctx.iv.set k x } (dest ++ [ctx.iv[k] ^^^ x])
        (k + 1) (by omega)
      refine ⟨iv, ?_, ?_⟩
      · have hset : (ctx.iv.set k x).toList = ctx.iv.toList.set k x := Vector.toList_set ..
        have htake : (ctx.iv.toList.set k x).take (k + 1) = ctx.iv.toList.take k ++ [x] := by
          rw [List.take_set, List.take_succ_eq_append_getElem (by simpa using hk8),
            List.set_append_right _ _ (by simp)]
          simp [hk8.le]
        rw [hiv, hset, htake, List.drop_set_of_lt (by omega), List.length_cons]
        simp [Nat.add_right_comm, Nat.add_assoc]
      · have hdrop : ctx.iv.toList.drop k = ctx.iv[k] :: ctx.iv.toList.drop (k + 1) := by
          rw [List.drop_eq_getElem_cons (by simpa using hk8), Vector.getElem_toList]
        have hset : (ctx.iv.set k x).toList.drop (k + 1) = ctx.iv.toList.drop (k + 1) := by
          rw [Vector.toList_set, List.drop_set_of_lt (by omega)]
        rw [List.length_cons, List.replicate_succ, run, List.cons_append,
          step_bytes ctx c last xs.length x _ dest hk8]
        show run _ _ _ = _
        rw [hrun, hset, hdrop]
        simp [xorBytes, Nat.add_right_comm, Nat.add_assoc]

/-- The last turn in the loop over whole blocks. -/
theorem step_bytes_test (ctx : IdeaCfbContext) (c : DecryptCall) (x : UInt8) (src dest : Bytes)
    {k : Nat} (hk : k < 8) :
    step cipher (.goOn ()) (calling ctx (inBlock c false 1 (x :: src) dest) k)
      = .ok (calling { ctx with iv := ctx.iv.set k x }
          { c with bufleft := 0, src := src, dest := dest ++ [ctx.iv[k] ^^^ x] }.test (k + 1)) := by
  have huse : (inBlock c false 1 (x :: src) dest).usePointer cipher ctx ctx.iv k
      = .ok ({ c with bufleft := 0, src := src, dest := dest ++ [ctx.iv[k] ^^^ x] }.test, ctx,
          ctx.iv.set k x, k + 1) := by
    simp [inBlock, DecryptCall.usePointer, DecryptCall.turn, DecryptCall.countDown,
      DecryptCall.test, hk, Except.map]
  rw [step_use rfl huse, setCall_calling (by simp [DecryptCall.test])]

/-- The last turn of all. -/
theorem step_bytes_return (ctx : IdeaCfbContext) (c : DecryptCall) (x : UInt8) (src dest : Bytes)
    {k : Nat} (hk : k < 8) :
    step cipher (.goOn ()) (calling ctx (inBlock c true 1 (x :: src) dest) k)
      = .ok ⟨fun _ => { ctx with iv := ctx.iv.set k x }, fun _ => none, some ((), k + 1),
          [⟨(), ctx.key, c.given, dest ++ [ctx.iv[k] ^^^ x]⟩]⟩ := by
  have huse : (inBlock c true 1 (x :: src) dest).usePointer cipher ctx ctx.iv k
      = .ok ({ c with pc := .returned, count := 0, src := src, dest := dest ++ [ctx.iv[k] ^^^ x] },
          ctx, ctx.iv.set k x, k + 1) := by
    simp [inBlock, DecryptCall.usePointer, DecryptCall.turn, DecryptCall.countDown, hk, Except.map]
  rw [step_use rfl huse, IdeaThreads.setCall, if_pos rfl, update_unit]
  rfl

theorem exists_append_singleton {a : Bytes} {n : Nat} (ha : a.length = n + 1) :
    ∃ xs y, a = xs ++ [y] ∧ xs.length = n := by
  have hne : a ≠ [] := fun h => by simp [h] at ha
  refine ⟨a.dropLast, a.getLast hne, (List.dropLast_append_getLast hne).symm, ?_⟩
  rw [List.length_dropLast, ha, Nat.add_sub_cancel]

variable (cipher) in
/-- The turns of a block up to the last one, which finds the last byte. -/
theorem run_seven (ctx : IdeaCfbContext) (c : DecryptCall) (last : Bool) (xs : Bytes) (y : UInt8)
    (rest dest : Bytes) (hxs : xs.length = 7) :
    ∃ iv : Vector UInt8 8, (iv.set 7 y).toList = xs ++ [y] ∧
      dest ++ xorBytes ctx.iv.toList xs ++ [iv[7] ^^^ y]
        = dest ++ xorBytes ctx.iv.toList (xs ++ [y]) ∧
      run (step cipher) (List.replicate 7 (.goOn ()))
        (calling ctx (inBlock c last 8 (xs ++ y :: rest) dest) 0)
      = .ok (calling { ctx with iv := iv } (inBlock c last 1 (y :: rest)
          (dest ++ xorBytes ctx.iv.toList xs)) 7) := by
  obtain ⟨iv, hiv, hrun⟩ := run_bytes c last y rest xs ctx dest 0 (by omega)
  have hlen : ctx.iv.toList.length = 8 := Vector.length_toList
  obtain ⟨ks, z, hks, hk7⟩ := exists_append_singleton hlen
  rw [hks, hxs, List.take_zero, List.nil_append, Nat.zero_add, List.drop_left' hk7] at hiv
  rw [hxs, List.drop_zero, Nat.zero_add] at hrun
  have hz : iv[7] = z := by
    have : iv.toList[7]? = some z := by
      rw [hiv, List.getElem?_append_right (by omega), hxs]
      rfl
    simpa using this
  refine ⟨iv, ?_, ?_, hrun⟩
  · rw [Vector.toList_set, hiv, List.set_append_right _ _ (by omega), hxs]
    rfl
  · have hcut : xorBytes (ks ++ [z]) xs = xorBytes ks xs := by
      have happ : xorBytes (ks ++ [z]) (xs ++ []) = xorBytes ks xs ++ xorBytes [z] [] :=
        List.zipWith_append (by omega)
      rwa [List.append_nil, xorBytes, xorBytes, xorBytes, List.zipWith_nil_right,
        List.append_nil] at happ
    rw [hks, hz, hcut, List.append_assoc, xorBytes, xorBytes, List.zipWith_append (by omega)]
    rfl

/-- A session that is alone goes on. -/
theorem run_replicate_add {m : Nat} {s t : IdeaThreads Unit}
    (h : run (step cipher) (List.replicate m (.goOn ())) s = .ok t) (n : Nat) :
    run (step cipher) (List.replicate (m + n) (.goOn ())) s
      = run (step cipher) (List.replicate n (.goOn ())) t := by
  rw [List.replicate_add, run_append_of_ok h]

variable (cipher) in
/-- A block of the loop: eleven steps. -/
theorem run_block (ctx : IdeaCfbContext) (c : DecryptCall) (k : Nat) (a rest dest : Bytes)
    (ha : a.length = 8) (hc : c.count = 16) :
    ∃ ctx' : IdeaCfbContext, ctx'.key = ctx.key ∧ ctx'.iv.toList = a ∧
      run (step cipher) (List.replicate 11 (.goOn ()))
        (calling ctx { c with pc := .init false, src := a ++ rest, dest := dest } k)
      = .ok (calling ctx' { c with
          pc := .init true, count := 8, bufleft := 0, src := rest
          dest := dest ++ xorBytes (cipher ctx.key ctx.iv).toList a } 8) := by
  obtain ⟨xs, y, rfl, hxs⟩ := exists_append_singleton ha
  let c0 := { c with src := xs ++ [y] ++ rest, dest := dest }
  let ctx1 := { ctx with oldcipher := ctx.iv, iv := cipher ctx.key ctx.iv }
  let c1 := { c0 with count := 8 }
  obtain ⟨iv, hiv, hdest, hrun⟩ := run_seven cipher ctx1 c1 false xs y rest dest hxs
  have hfront : run (step cipher) (List.replicate 3 (.goOn ()))
      (calling ctx { c0 with pc := .init false } k)
      = .ok (calling ctx1 (inBlock c1 false 8 (xs ++ y :: rest) dest) 0) := by
    have hin : inBlock c1 false 8 (xs ++ y :: rest) dest
        = { c0 with pc := .bytes false, bufleft := 8, count := c0.count - 8 } := by
      simp [inBlock, c1, c0, hc]
    rw [hin, List.replicate_succ, run_cons_of_ok (step_init ..), List.replicate_succ,
      run_cons_of_ok (step_copy ..), List.replicate_one, run_singleton, step_cipher]
  refine ⟨{ ctx1 with iv := iv.set 7 y }, rfl, hiv, ?_⟩
  rw [show 11 = 3 + (7 + 1) from rfl, run_replicate_add hfront, run_replicate_add hrun,
    List.replicate_one, run_singleton, step_bytes_test _ _ _ _ _ (by omega), hdest]
  rfl

variable (cipher) in
/-- The last block. -/
theorem run_last_block (ctx : IdeaCfbContext) (c : DecryptCall) (k : Nat) (a dest : Bytes)
    (ha : a.length = 8) (hc : c.count = 8) :
    ∃ ctx' : IdeaCfbContext, run (step cipher) (List.replicate 11 (.goOn ()))
        (calling ctx { c with pc := .init true, src := a, dest := dest } k)
      = .ok ⟨fun _ => ctx', fun _ => none, some ((), 8),
          [⟨(), ctx.key, c.given, dest ++ xorBytes (cipher ctx.key ctx.iv).toList a⟩]⟩ := by
  obtain ⟨xs, y, rfl, hxs⟩ := exists_append_singleton ha
  let c0 := { c with src := xs ++ [y], dest := dest }
  let ctx1 := { ctx with
    oldcipher := ctx.iv, iv := cipher ctx.key ctx.iv, bufleft := 8 - c0.count }
  obtain ⟨iv, -, hdest, hrun⟩ := run_seven cipher ctx1 c0 true xs y [] dest hxs
  have hfront : run (step cipher) (List.replicate 3 (.goOn ()))
      (calling ctx { c0 with pc := .init true } k)
      = .ok (calling ctx1 (inBlock c0 true 8 (xs ++ [y]) dest) 0) := by
    have hin : inBlock c0 true 8 (xs ++ [y]) dest = { c0 with pc := .bytes true } := by
      simp [inBlock, c0, hc]
    rw [hin, List.replicate_succ, run_cons_of_ok (step_init ..), List.replicate_succ,
      run_cons_of_ok (step_copy ..), List.replicate_one, run_singleton, step_cipher_last]
  refine ⟨{ ctx1 with iv := iv.set 7 y }, ?_⟩
  rw [show 11 = 3 + (7 + 1) from rfl, run_replicate_add hfront, run_replicate_add hrun,
    List.replicate_one, run_singleton, step_bytes_return _ _ _ _ _ (by omega), hdest]

/-- What `Crypt` makes of the text. -/
def decrypted (cipher : Vector UInt8 16 → Vector UInt8 8 → Vector UInt8 8)
    (key src : Vector UInt8 16) : Bytes :=
  cfbDecrypt (cipher key) Idea.zeroBlock src.toList

/-- The mode, on two blocks. -/
theorem cfbDecrypt_two (f : Vector UInt8 8 → Vector UInt8 8) (iv : Vector UInt8 8) {a b : Bytes}
    (ha : a.length = 8) (hb : b.length = 8) {iv' : Vector UInt8 8} (hiv : iv'.toList = a) :
    cfbDecrypt f iv (a ++ b) = xorBytes (f iv).toList a ++ xorBytes (f iv').toList b := by
  have hab : a ++ b ≠ [] := fun h => by simp [List.append_eq_nil_iff.mp h] at ha
  have hbne : b ≠ [] := fun h => by simp [h] at hb
  have hnext : (Vector.ofFn fun i : Fin 8 => (a ++ b).getD i 0) = iv' := by
    apply Vector.ext
    intro i hi
    have hia : i < a.length := by omega
    rw [Vector.getElem_ofFn, List.getD_eq_getElem?_getD, List.getElem?_append_left hia, ← hiv]
    simp [hi]
  rw [cfbDecrypt, if_neg hab]
  simp only
  rw [hnext, List.take_left' ha, List.drop_left' ha, cfbDecrypt, if_neg hbne]
  simp only
  rw [List.take_of_length_le hb.le, List.drop_eq_nil_of_le hb.le, cfbDecrypt, if_pos rfl,
    List.append_nil]

variable (cipher) in
/-- **A call that is alone** returns after 23 steps, with the whole text decrypted. -/
theorem alone_returns (ctx : IdeaCfbContext) (key src : Vector UInt8 16) :
    ∃ s, alone cipher ctx key src 23 = .ok s ∧ s.call () = none ∧
      s.done = [⟨(), key, src, decrypted cipher key src⟩] := by
  let ctx0 := { ctx with key := key, iv := Idea.zeroBlock, bufleft := 0 }
  let c0 : DecryptCall := ⟨src, .entry, src.toList, [], 16, 0⟩
  have hlen : src.toList.length = 16 := Vector.length_toList
  have ha : (src.toList.take 8).length = 8 := by rw [List.length_take, hlen]; rfl
  have hb : (src.toList.drop 8).length = 8 := by rw [List.length_drop, hlen]
  have hsplit := List.take_append_drop 8 src.toList
  have hcrypt : step cipher (.crypt () key src) (init fun _ => ctx)
      = .ok ⟨fun _ => ctx0, fun _ => some c0, none, []⟩ := by
    simp [step, init, crypt, setCfb, setCall, update_unit, c0, ctx0]
  have hentry : step cipher (.goOn ()) ⟨fun _ => ctx0, fun _ => some c0, none, []⟩
      = .ok (calling ctx0 { c0 with
          pc := .init false, src := src.toList.take 8 ++ src.toList.drop 8, dest := [] } 8) := by
    rw [hsplit]
    simp [step, goOn, calling, DecryptCall.setPointer, DecryptCall.test, setCfb, setCall,
      update_unit, c0]
  obtain ⟨ctx1, hkey, hiv, hfirst⟩ := run_block cipher ctx0 c0 8 (src.toList.take 8)
    (src.toList.drop 8) [] ha rfl
  obtain ⟨ctx2, hlast⟩ := run_last_block cipher ctx1
    { c0 with count := 8, bufleft := 0 } 8 (src.toList.drop 8)
    ([] ++ xorBytes (cipher ctx0.key ctx0.iv).toList (src.toList.take 8)) hb rfl
  have hdest : decrypted cipher key src = [] ++ xorBytes (cipher ctx0.key ctx0.iv).toList
      (src.toList.take 8) ++ xorBytes (cipher ctx1.key ctx1.iv).toList (src.toList.drop 8) := by
    rw [decrypted, ← hsplit, cfbDecrypt_two (cipher key) _ ha hb hiv, hkey, hsplit]
    rfl
  refine ⟨⟨fun _ => ctx2, fun _ => none, some ((), 8), [⟨(), key, src, decrypted cipher key src⟩]⟩,
    ?_, rfl, rfl⟩
  rw [alone, aloneActions, run_cons_of_ok hcrypt, show 23 = 22 + 1 from rfl, List.replicate_succ,
    run_cons_of_ok hentry, show 22 = 11 + 11 from rfl, run_replicate_add hfirst, hlast, hdest, hkey]

theorem aloneActions_add (key src : Vector UInt8 16) (n m : Nat) :
    aloneActions key src (n + m) = aloneActions key src n ++ List.replicate m (.goOn ()) := by
  rw [aloneActions, aloneActions, List.replicate_add, List.cons_append]

theorem alone_add {ctx : IdeaCfbContext} {key src : Vector UInt8 16} {n : Nat}
    {s : IdeaThreads Unit} (h : alone cipher ctx key src n = .ok s) (m : Nat) :
    alone cipher ctx key src (n + m) = run (step cipher) (List.replicate m (.goOn ())) s := by
  rw [alone, aloneActions_add, run_append_of_ok h]

theorem alone_succ {ctx : IdeaCfbContext} {key src : Vector UInt8 16} {n : Nat}
    {s : IdeaThreads Unit} (h : alone cipher ctx key src n = .ok s) :
    alone cipher ctx key src (n + 1) = step cipher (.goOn ()) s := by
  rw [alone_add h, List.replicate_one, run_singleton]

/-- Behind its return the session does nothing. -/
theorem alone_idle {ctx : IdeaCfbContext} {key src : Vector UInt8 16} {n : Nat}
    {s : IdeaThreads Unit} (h : alone cipher ctx key src n = .ok s) (hidle : s.call () = none)
    (m : Nat) : alone cipher ctx key src (n + m) = .ok s := by
  induction m with
  | zero => exact h
  | succ m ih =>
      rw [← Nat.add_assoc, alone_succ ih, step, hidle]

variable (cipher) in
/-- It never goes wrong. -/
theorem alone_ok (ctx : IdeaCfbContext) (key src : Vector UInt8 16) (n : Nat) :
    ∃ s, alone cipher ctx key src n = .ok s := by
  obtain ⟨s, hs, hidle, -⟩ := alone_returns cipher ctx key src
  rcases Nat.le_total n 23 with hn | hn
  · obtain ⟨m, hm⟩ := Nat.exists_eq_add_of_le hn
    rw [hm, alone, aloneActions_add, run_append] at hs
    obtain ⟨t, ht, -⟩ := bind_ok hs
    exact ⟨t, ht⟩
  · obtain ⟨m, rfl⟩ := Nat.exists_eq_add_of_le hn
    exact ⟨s, alone_idle hs hidle m⟩

end IdeaThreads

/-! ### A call among others -/

namespace DecryptCall

/-- What the call does next sets the pointer. -/
def setsPointer (c : DecryptCall) : Bool :=
  match c.pc with
  | .entry | .init _ => true
  | _ => false

theorem setPointer_isSome (c : DecryptCall) (ctx : IdeaCfbContext) :
    (c.setPointer ctx).isSome = c.setsPointer := by
  unfold setPointer setsPointer
  cases c.pc with
  | entry =>
      simp only
      split <;> rfl
  | _ => rfl

end DecryptCall

namespace IdeaThreads

variable {τ : Type} [DecidableEq τ] {cipher : Vector UInt8 16 → Vector UInt8 8 → Vector UInt8 8}

/-- A call goes through the pointer only while it points into the call's own context. -/
def OwnPointer : IdeaAction τ → IdeaThreads τ → Prop
  | .crypt .., _ => True
  | .goOn t, s =>
      match s.call t with
      | some c => c.setsPointer = true ∨ s.bufptr.map Prod.fst = some t
      | none => True

/-- The server with one session does what `t` does. -/
structure Follows (t : τ) (s : IdeaThreads τ) (a : IdeaThreads Unit) : Prop where
  cfb : a.cfb () = s.cfb t
  call : a.call () = s.call t
  pointer : ∀ c, s.call t = some c → c.setsPointer = false →
    ∀ k, s.bufptr = some (t, k) → a.bufptr = some ((), k)

/-- What a call that has returned leaves. -/
def returned (t : τ) (key : Vector UInt8 16) (c : DecryptCall) : List (Decryption τ) :=
  if c.pc = .returned then [⟨t, key, c.given, c.dest⟩] else []

theorem setCall_eq (s : IdeaThreads τ) (t : τ) (c : DecryptCall) :
    s.setCall t c = { s with
      call := Function.update s.call t (if c.pc = .returned then none else some c)
      done := s.done ++ returned t (s.cfb t).key c } := by
  unfold setCall returned
  split
  · rfl
  · rw [List.append_nil]

/-- Both go on alike. -/
theorem follows_setCall {t : τ} {s : IdeaThreads τ} {a : IdeaThreads Unit} {k : Nat}
    (hcfb : a.cfb () = s.cfb t) (hs : s.bufptr = some (t, k)) (ha : a.bufptr = some ((), k))
    (c : DecryptCall) : Follows t (s.setCall t c) (a.setCall () c) ∧
      ∀ r ∈ (s.setCall t c).done, r ∈ s.done ∨
        ⟨(), r.key, r.src, r.dest⟩ ∈ (a.setCall () c).done := by
  rw [setCall_eq, setCall_eq, hcfb]
  refine ⟨⟨hcfb, ?_, ?_⟩, ?_⟩
  · simp only [Function.update_self]
  · intro _ _ _ k' hk'
    rw [hs] at hk'
    cases hk'
    exact ha
  · intro r hr
    rcases List.mem_append.mp hr with hr | hr
    · exact Or.inl hr
    · refine Or.inr (List.mem_append_right _ ?_)
      unfold returned at hr ⊢
      split at hr
      · rw [List.mem_singleton.mp hr]
        simp [*]
      · cases hr

/-- **A step of a call** that finds the pointer in its own context is one of a call alone. -/
theorem goOn_follows {t : τ} {s : IdeaThreads τ} {a a' : IdeaThreads Unit} {c : DecryptCall}
    (h : Follows t s a) (hown : OwnPointer (.goOn t) s) (hc : s.call t = some c)
    (ha : step cipher (.goOn ()) a = .ok a') :
    ∃ s', step cipher (.goOn t) s = .ok s' ∧ Follows t s' a' ∧
      ∀ r ∈ s'.done, r ∈ s.done ∨ ⟨(), r.key, r.src, r.dest⟩ ∈ a'.done := by
  have hac : a.call () = some c := h.call.trans hc
  have hsome := c.setPointer_isSome (s.cfb t)
  simp only [OwnPointer, hc] at hown
  simp only [step, hac, goOn, h.cfb] at ha
  simp only [step, hc, goOn]
  cases hset : c.setPointer (s.cfb t) with
  | some r =>
      obtain ⟨c', ctx, k⟩ := r
      rw [hset] at ha
      rw [← Except.ok.inj ha]
      refine ⟨_, rfl, follows_setCall ?_ rfl rfl c'⟩
      simp [setCfb]
  | none =>
      rw [hset] at hsome ha
      have huses : c.setsPointer = false := hsome.symm
      have howner : s.bufptr.map Prod.fst = some t := by simpa [huses] using hown
      obtain ⟨⟨u, k⟩, hptr, hu⟩ := Option.map_eq_some_iff.mp howner
      obtain rfl : u = t := hu
      rw [h.pointer c hc huses k hptr] at ha
      rw [hptr]
      simp only at ha ⊢
      cases huse : c.usePointer cipher (s.cfb u) (s.cfb u).iv k with
      | error e =>
          rw [huse] at ha
          cases ha
      | ok r =>
          obtain ⟨c', ctx, iv, k'⟩ := r
          rw [huse] at ha
          have hval := Except.ok.inj ha
          rw [← hval]
          refine ⟨_, rfl, follows_setCall ?_ rfl rfl c'⟩
          simp [setCfb, setIv]

/-- What a step of another session leaves of `t`. -/
structure Leaves (t : τ) (s s' : IdeaThreads τ) : Prop where
  cfb : s'.cfb t = s.cfb t
  call : s'.call t = s.call t
  pointer : ∀ k, s'.bufptr = some (t, k) → s.bufptr = some (t, k)

omit [DecidableEq τ] in
/-- Nothing the call of `t` goes on with has changed. -/
theorem Follows.other {t : τ} {s s' : IdeaThreads τ} {a : IdeaThreads Unit} (h : Follows t s a)
    (hleaves : Leaves t s s') : Follows t s' a :=
  ⟨h.cfb.trans hleaves.cfb.symm, h.call.trans hleaves.call.symm,
    fun c hc huses k hk => h.pointer c (hleaves.call ▸ hc) huses k (hleaves.pointer k hk)⟩

theorem crypt_leaves {t u : τ} (htu : t ≠ u) (s : IdeaThreads τ) (key src : Vector UInt8 16) :
    Leaves t s (s.crypt u key src) := by
  rw [crypt, setCall_eq]
  refine ⟨?_, ?_, fun k hk => hk⟩
  · simp [setCfb, htu]
  · simp [setCfb, htu]

theorem goOn_leaves {t u : τ} (htu : t ≠ u) {s s' : IdeaThreads τ} {c : DecryptCall}
    (hown : OwnPointer (.goOn u) s) (hc : s.call u = some c)
    (h : step cipher (.goOn u) s = .ok s') : Leaves t s s' := by
  have hsome := c.setPointer_isSome (s.cfb u)
  simp only [OwnPointer, hc] at hown
  simp only [step, hc, goOn] at h
  cases hset : c.setPointer (s.cfb u) with
  | some r =>
      obtain ⟨c', ctx, k⟩ := r
      rw [hset] at h
      rw [← Except.ok.inj h, setCall_eq]
      refine ⟨by simp [setCfb, htu], by simp [setCfb, htu], fun k' hk' => ?_⟩
      simp only [Option.some.injEq, Prod.mk.injEq] at hk'
      exact absurd hk'.1.symm htu
  | none =>
      rw [hset] at hsome h
      have huses : c.setsPointer = false := hsome.symm
      have howner : s.bufptr.map Prod.fst = some u := by simpa [huses] using hown
      obtain ⟨⟨v, k⟩, hptr, hv⟩ := Option.map_eq_some_iff.mp howner
      obtain rfl : v = u := hv
      rw [hptr] at h
      simp only at h
      cases huse : c.usePointer cipher (s.cfb v) (s.cfb v).iv k with
      | error e =>
          rw [huse] at h
          cases h
      | ok r =>
          obtain ⟨c', ctx, iv, k'⟩ := r
          rw [huse] at h
          have hval := Except.ok.inj h
          rw [← hval, setCall_eq]
          refine ⟨by simp [setCfb, setIv, htu], by simp [setCfb, setIv, htu], fun k'' hk' => ?_⟩
          simp only [Option.some.injEq, Prod.mk.injEq] at hk'
          exact absurd hk'.1.symm htu

/-- Every call is followed by one that is alone, and what has been returned is the text. -/
structure Sound (cipher : Vector UInt8 16 → Vector UInt8 8 → Vector UInt8 8)
    (s : IdeaThreads τ) : Prop where
  calls : ∀ t c, s.call t = some c → ∃ ctx key src n a,
    alone cipher ctx key src n = .ok a ∧ Follows t s a
  done : ∀ r ∈ s.done, r.dest = decrypted cipher r.key r.src

/-- What has returned stays. -/
theorem mem_done_step {r : Decryption τ} {act : IdeaAction τ} {s s' : IdeaThreads τ}
    (hr : r ∈ s.done) (h : IdeaThreads.step cipher act s = .ok s') : r ∈ s'.done := by
  have hset (s1 : IdeaThreads τ) (t : τ) (c : DecryptCall) (hs1 : s1.done = s.done) :
      r ∈ (s1.setCall t c).done := by
    rw [setCall_eq]
    exact List.mem_append_left _ (hs1 ▸ hr)
  cases act with
  | crypt t key src =>
      rw [IdeaThreads.step] at h
      split at h
      · rwa [← Except.ok.inj h]
      · rw [← Except.ok.inj h]
        exact hset _ t _ rfl
  | goOn t =>
      rw [IdeaThreads.step] at h
      split at h
      · rw [goOn] at h
        split at h
        · rw [← Except.ok.inj h]
          exact hset _ t _ rfl
        · split at h
          · cases h
          · obtain ⟨x, -, hx⟩ := bind_ok h
            rw [← Except.ok.inj hx]
            exact hset _ t _ rfl
      · rwa [← Except.ok.inj h]

theorem alone_done {ctx : IdeaCfbContext} {key src : Vector UInt8 16} {n : Nat}
    {s : IdeaThreads Unit} (h : alone cipher ctx key src n = .ok s) :
    ∀ r ∈ s.done, r.dest = decrypted cipher r.key r.src := by
  intro r hr
  obtain ⟨t, ht, hidle, hdone⟩ := alone_returns cipher ctx key src
  have hmem : r ∈ t.done := by
    rcases Nat.le_total n 23 with hn | hn
    · obtain ⟨m, hm⟩ := Nat.exists_eq_add_of_le hn
      have hrun : run (IdeaThreads.step cipher) (List.replicate m (.goOn ())) s = .ok t := by
        rw [← ht, hm, alone_add h]
      exact run_inv (fun act x x' hx hstep => mem_done_step hx hstep) hr hrun
    · obtain ⟨m, rfl⟩ := Nat.exists_eq_add_of_le hn
      rw [alone_idle ht hidle m] at h
      rwa [Except.ok.inj h]
  rw [hdone, List.mem_singleton] at hmem
  rw [hmem]

theorem crypt_follows (t : τ) (s : IdeaThreads τ) (key src : Vector UInt8 16) :
    Follows t (s.crypt t key src) ((init fun _ => s.cfb t).crypt () key src) := by
  rw [crypt, crypt, setCall_eq, setCall_eq]
  refine ⟨?_, ?_, fun c hc huses => ?_⟩
  · simp [setCfb, init]
  · simp [setCfb]
  · simp only [Function.update_self, reduceCtorEq, if_false, Option.some.injEq] at hc
    rw [← hc] at huses
    cases huses

theorem Sound.step {act : IdeaAction τ} {s : IdeaThreads τ} (h : Sound cipher s)
    (hown : OwnPointer act s) :
    ∃ s', IdeaThreads.step cipher act s = .ok s' ∧ Sound cipher s' := by
  cases act with
  | crypt u key src =>
      cases hcall : s.call u with
      | some c => exact ⟨s, by rw [IdeaThreads.step, hcall], h⟩
      | none =>
          refine ⟨s.crypt u key src, by rw [IdeaThreads.step, hcall], ?_, ?_⟩
          · intro t c hc
            by_cases htu : t = u
            · subst htu
              exact ⟨s.cfb t, key, src, 0, _, rfl, crypt_follows t s key src⟩
            · have hleaves := crypt_leaves htu s key src
              obtain ⟨ctx, key', src', n, a, ha, hfollows⟩ := h.calls t c (hleaves.call ▸ hc)
              exact ⟨ctx, key', src', n, a, ha,
                hfollows.other hleaves⟩
          · rw [crypt, setCall_eq]
            simpa [returned, setCfb] using h.done
  | goOn u =>
      cases hcall : s.call u with
      | none => exact ⟨s, by rw [IdeaThreads.step, hcall], h⟩
      | some c =>
          obtain ⟨ctx, key, src, n, a, ha, hfollows⟩ := h.calls u c hcall
          obtain ⟨a', ha'⟩ := alone_ok cipher ctx key src (n + 1)
          have hnext := ha'
          rw [alone_succ ha] at hnext
          obtain ⟨s', hs', hfollows', hdone⟩ := goOn_follows hfollows hown hcall hnext
          refine ⟨s', hs', ?_, ?_⟩
          · intro t d hd
            by_cases htu : t = u
            · subst htu
              exact ⟨ctx, key, src, n + 1, a', ha', hfollows'⟩
            · have hleaves := goOn_leaves htu hown hcall hs'
              obtain ⟨ctx, key', src', n, a, ha, hfollows⟩ := h.calls t d (hleaves.call ▸ hd)
              exact ⟨ctx, key', src', n, a, ha,
                hfollows.other hleaves⟩
          · intro r hr
            rcases hdone r hr with hr | hr
            · exact h.done r hr
            · exact alone_done ha' _ hr

/-- **Main result.** In every run in which each call goes through `bufptr` only while it points
into the call's own context nothing goes wrong, and every call that has returned has written
what the same call writes alone. -/
theorem decryptions_alone (cipher : Vector UInt8 16 → Vector UInt8 8 → Vector UInt8 8)
    (cfb : τ → IdeaCfbContext) (as : List (IdeaAction τ))
    (hown : Along (IdeaThreads.step cipher) OwnPointer as (init cfb)) :
    ∃ s, run (IdeaThreads.step cipher) as (init cfb) = .ok s ∧
      ∀ r ∈ s.done, ∀ ctx, ∃ a, alone cipher ctx r.key r.src 23 = .ok a ∧
        a.done = [⟨(), r.key, r.src, r.dest⟩] := by
  have hinit : Sound cipher (init cfb) := ⟨nofun, nofun⟩
  obtain ⟨s, hrun, hs⟩ := run_ok (fun act s hs hmay => Sound.step hs hmay) hinit hown
  refine ⟨s, hrun, fun r hr ctx => ?_⟩
  obtain ⟨a, ha, -, hdone⟩ := alone_returns cipher ctx r.key r.src
  exact ⟨a, ha, by rw [hdone, hs.done r hr]⟩

instance (act : IdeaAction τ) (s : IdeaThreads τ) : Decidable (OwnPointer act s) :=
  match act with
  | .crypt .. => isTrue trivial
  | .goOn t =>
      match h : s.call t with
      | some c => decidable_of_iff (c.setsPointer = true ∨ s.bufptr.map Prod.fst = some t)
          (by simp only [OwnPointer, h])
      | none => isTrue (by simp only [OwnPointer, h])

/-- Nothing but zeros. -/
def zeros : Vector UInt8 16 := Vector.replicate 16 0

def blank (_ : Bool) : IdeaCfbContext := ⟨Idea.zeroBlock, Idea.zeroBlock, zeros, 0⟩

/-- One session behind the other. -/
def inTurn : List (IdeaAction Bool) :=
  .crypt false zeros zeros :: List.replicate 23 (.goOn false) ++
    .crypt true zeros zeros :: List.replicate 23 (.goOn true)

theorem decryptions_alone_inTurn : ∃ s,
    run (IdeaThreads.step Idea.ideaCipher) inTurn (init blank) = .ok s ∧
      ∀ r ∈ s.done, ∀ ctx, ∃ a, alone Idea.ideaCipher ctx r.key r.src 23 = .ok a ∧
        a.done = [⟨(), r.key, r.src, r.dest⟩] :=
  decryptions_alone Idea.ideaCipher blank inTurn (by decide +kernel)

/-- The second session sets the pointer when the first one has enciphered its block. -/
def inBetween : List (IdeaAction Bool) :=
  .crypt false zeros zeros :: List.replicate 4 (.goOn false) ++
    (.crypt true zeros zeros :: List.replicate 2 (.goOn true) ++ List.replicate 19 (.goOn false))

theorem done_inBetween :
    (run (IdeaThreads.step Idea.ideaCipher) inBetween (init blank)).map IdeaThreads.done
      = .ok [⟨false, zeros, zeros, List.replicate 16 0⟩] := by
  decide +kernel

theorem done_alone :
    (alone Idea.ideaCipher (blank false) zeros zeros 23).map IdeaThreads.done
      = .ok [⟨(), zeros, zeros, [0, 1, 0, 1, 0, 0, 0, 0, 0, 1, 0, 1, 0, 0, 0, 0]⟩] := by
  decide +kernel

/-- The first session takes its first eight bytes from the context of the second one. -/
theorem decryption_disturbed :
    ∃ s r, run (IdeaThreads.step Idea.ideaCipher) inBetween (init blank) = .ok s ∧ r ∈ s.done ∧
      ¬∃ a, alone Idea.ideaCipher (blank r.thread) r.key r.src 23 = .ok a ∧
        a.done = [⟨(), r.key, r.src, r.dest⟩] := by
  obtain ⟨s, hrun, hdone⟩ := map_ok done_inBetween
  refine ⟨s, ⟨false, zeros, zeros, List.replicate 16 0⟩, hrun, by rw [hdone]; simp, ?_⟩
  rintro ⟨a, ha, hlist⟩
  obtain ⟨b, hb, hbdone⟩ := map_ok done_alone
  rw [ha] at hb
  rw [Except.ok.inj hb, hbdone] at hlist
  simp at hlist

end IdeaThreads

end Windows
