/-
What the members of `MysqlDB` do, whatever is promised of the client library.

Proofs about the operations of the bank differ in the contract that the library has in them.
What a member of `MysqlDB` does with an answer is the same under all of them.
-/
import Muduo.Bank.MysqlDB

namespace Bank

namespace MysqlDB

open Lib

variable {σ : Type} {K : Prog.Contract Call Reply σ} {E : Signal → Locals → σ → Prop}
  {l : Locals} {s : σ}

/-- A statement is sent if the handle is open. -/
theorem mysqlQuery_spec (hm : l.mysql = true) {sql : Sql}
    {Q : Except Bytes Recordset → Locals → σ → Prop} :
    Proc.wp K (mysqlQuery sql) Q E l s
      ↔ K.allow s (.query sql) ∧ ∀ r s', K.next s (.query sql) r s' → Q r l s' := by
  obtain ⟨mysql, account, interest, result⟩ := l
  obtain rfl : mysql = true := hm
  exact Proc.wp_call K E _ s (Call.query sql) Q

/-- A value is read out of its row, unless the row or the column is missing. -/
theorem getItem_spec {rs : Recordset} {i : Nat} {column : Field} {Q : Cell → Locals → σ → Prop}
    (hmissing : E (.crash .outOfBounds) l s)
    (hfound : ∀ row, rs[i]? = some row → ∀ cell, (column, cell) ∈ row → Q cell l s) :
    Proc.wp K (getItem rs i column) Q E l s := by
  unfold getItem
  cases hrow : rs[i]? with
  | none => exact hmissing
  | some row =>
      cases hfind : row.find? fun p => p.1 = column with
      | none =>
          simp only [hfind]
          exact hmissing
      | some p =>
          have hcolumn : p.1 = column := by simpa using List.find?_some hfind
          simp only [hfind]
          exact hfound row hrow p.2 (hcolumn ▸ List.mem_of_find?_eq_some hfind)

/-- A handle that is open is closed. -/
theorem close_spec {Q : Unit → Locals → σ → Prop} (hallow : K.allow s .close)
    (hopen : ∀ r s', K.next s .close r s' → Q () { l with mysql := false } s')
    (hnull : l.mysql = false → Q () l s) : Proc.wp K close Q E l s := by
  obtain ⟨mysql, account, interest, result⟩ := l
  unfold close
  rw [Proc.wp_bind, Proc.wp_get]
  cases mysql with
  | false => exact hnull rfl
  | true =>
      show Proc.wp _ (mysqlClose >>= _) Q E _ s
      rw [Proc.wp_bind]
      exact (Proc.wp_call K E _ s Call.close _).mpr ⟨hallow, hopen⟩

/-- The calls of `Open` may be made in `s`; the first of them leads to `s'`, and the others
leave it at that. -/
structure Opens (K : Prog.Contract Call Reply σ) (s s' : σ) : Prop where
  init : K.allow s .init ∧ ∀ r t, K.next s .init r t → t = s'
  optionReconnect : K.allow s' .optionReconnect ∧ ∀ r t, K.next s' .optionReconnect r t → t = s'
  optionCharset : K.allow s' .optionCharset ∧ ∀ r t, K.next s' .optionCharset r t → t = s'
  connect : K.allow s' .connect ∧ ∀ r t, K.next s' .connect r t → t = s'
  close : K.allow s' .close

/-- `Open` opens the handle or throws. -/
theorem connect_spec {s' : σ} (h : Opens K s s') {Q : Unit → Locals → σ → Prop}
    (hok : Q () { l with mysql := true } s') (hE : ∀ e l s, E (.exception e) l s) :
    Proc.wp K connect Q E l s := by
  unfold connect
  rw [Proc.wp_bind]
  refine ⟨h.init.1, fun r t ht => ?_⟩
  obtain rfl := h.init.2 r t ht
  cases r with
  | error e => exact hE _ _ _
  | ok _ =>
      show Proc.wp K _ Q E l t
      simp only [Proc.wp_bind, Proc.wp_modify]
      refine ⟨h.optionReconnect.1, fun r t' ht => ?_⟩
      obtain rfl := h.optionReconnect.2 r t' ht
      refine ⟨h.optionCharset.1, fun r t' ht => ?_⟩
      obtain rfl := h.optionCharset.2 r t' ht
      refine ⟨h.connect.1, fun r t' ht => ?_⟩
      obtain rfl := h.connect.2 r t' ht
      cases r with
      | ok _ => exact hok
      | error e =>
          show Proc.wp K (close >>= fun _ => Proc.raise (dbError e)) Q E _ _
          rw [Proc.wp_bind]
          exact close_spec h.close (fun _ _ _ => hE _ _ _) fun _ => hE _ _ _

/-- A member of `BankService`: its `try` block, the `catch` behind it, and the destructor of its
`MysqlDB`, which comes last whichever way out is taken. -/
theorem block_spec {α : Type} {p handler : Service α} {P Q : α → Locals → σ → Prop}
    {F : Signal → Locals → σ → Prop} (hp : Proc.wp K p P F l s)
    (hreturn : ∀ a l s, P a l s → Proc.wp K close (fun _ l s => Q a l s) E l s)
    (hcatch : ∀ what l s, F (.exception what) l s →
      Proc.wp K handler (fun a l s => Proc.wp K close (fun _ l s => Q a l s) E l s)
        (fun e l s => Proc.wp K close (fun _ l s => E e l s) E l s) l s)
    (hcrash : ∀ c l s, F (.crash c) l s →
      Proc.wp K close (fun _ l s => E (.crash c) l s) E l s) :
    Proc.wp K (withDb (catchException p handler)) Q E l s := by
  unfold withDb catchException
  rw [Proc.wp_finally_, Proc.wp_tryCatch]
  refine Proc.wp_mono hreturn (fun e l s h => ?_) hp
  cases e with
  | exception what => exact hcatch what l s h
  | crash c => exact hcrash c l s h

end MysqlDB

end Bank
