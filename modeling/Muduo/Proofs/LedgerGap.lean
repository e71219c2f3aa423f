/-
What no row accounts for.

A balance is changed by an amount, and a row of `trans` has the amount that was put on its
account or taken off it.  So what a list of changes does to the difference between the balance
of an account and the sum of the rows about it is a sum over the list: it does not depend on
what else has been committed, as long as the changes find the accounts they are about and the
numbers of their rows are new.
-/
import Muduo.Proofs.Session

namespace Bank

open Lib

/-- What was put on an account: `abstract` has 3 for a withdrawal and 5 for the side that pays. -/
def bookedAs (abstractId : Nat) (money : Int) : Int :=
  if abstractId = 3 ∨ abstractId = 5 then -money else money

def Trans.booked (t : Trans) : Int := bookedAs t.abstractId t.money

/-- An amount on one account, and nothing on the others. -/
def amountOn (accountId x : Int) : Int → Int := fun i => if i = accountId then x else 0

theorem amountOn_self (i x : Int) : amountOn i x i = x := if_pos rfl

theorem amountOn_of_ne {i j : Int} (h : j ≠ i) (x : Int) : amountOn i x j = 0 := if_neg h

/-- What is put on a balance and written down in `trans`. -/
theorem add_amountOn_neg (i x : Int) : (0 + amountOn i x + -amountOn i x : Int → Int) = 0 := by
  rw [zero_add]
  exact add_neg_cancel _

/-- What a change does to the balances, less what it does to the sums of the rows. -/
def Write.effect : Write → Int → Int
  | .insertAccount r => amountOn r.accountId r.balance
  | .insertTrans t => -amountOn t.accountId t.booked
  | .addBalance i cents => amountOn i cents
  | _ => 0

/-- The number of the account, or of the row of `trans`, that a change adds. -/
def Write.accountId? : Write → Option Int
  | .insertAccount r => some r.accountId
  | _ => none

def Write.transId? : Write → Option Int
  | .insertTrans t => some t.transId
  | _ => none

abbrev accountIds (ws : List Write) : List Int := ws.filterMap Write.accountId?

abbrev transIds (ws : List Write) : List Int := ws.filterMap Write.transId?

abbrev effectOf (ws : List Write) : Int → Int := (ws.map Write.effect).sum

namespace Database

/-- What the rows about an account say is on it. -/
def recorded (db : Database) (i : Int) : Int := ((db.history i).map Trans.booked).sum

/-- What of its balance they do not account for. -/
def gap (db : Database) (i : Int) : Int := db.balance i - db.recorded i

variable {db : Database}

theorem gap_insertAccount {r : BankAccount} (h : r.accountId ∉ db.bankAccount.keys) :
    (db.write (.insertAccount r)).gap = db.gap + (Write.insertAccount r).effect := by
  have hnone : db.account? r.accountId = none := Table.find?_eq_none_of_notMem h
  funext j
  show (db.write (.insertAccount r)).balance j - db.recorded j =
    db.gap j + amountOn r.accountId r.balance j
  have hbalance : (db.write (.insertAccount r)).balance j =
      db.balance j + amountOn r.accountId r.balance j := by
    unfold balance
    rw [account?_insertAccount hnone]
    by_cases hj : r.accountId = j
    · subst hj
      rw [if_pos rfl, hnone, amountOn_self]
      exact (Int.zero_add _).symm
    · rw [if_neg hj, amountOn_of_ne (Ne.symm hj), Int.add_zero]
  rw [hbalance, gap]
  omega

theorem gap_addBalance {i : Int} (cents : Int) (h : i ∈ db.bankAccount.keys) :
    (db.write (.addBalance i cents)).gap = db.gap + (Write.addBalance i cents).effect := by
  obtain ⟨r, hr⟩ : ∃ r, db.account? i = some r := by
    refine Option.ne_none_iff_exists'.mp fun hnone => ?_
    obtain ⟨r, hr, hkey⟩ := List.mem_map.mp h
    exact Table.find?_eq_none_iff.mp hnone r hr hkey
  funext j
  show (db.write (.addBalance i cents)).balance j - db.recorded j = db.gap j + amountOn i cents j
  have hbalance : (db.write (.addBalance i cents)).balance j =
      db.balance j + amountOn i cents j := by
    unfold balance
    rw [account?_addBalance]
    by_cases hj : j = i
    · subst hj
      rw [if_pos rfl, hr, amountOn_self]
      rfl
    · rw [if_neg hj, amountOn_of_ne hj, Int.add_zero]
  rw [hbalance, gap]
  omega

theorem gap_insertTrans {t : Trans} (h : t.transId ∉ db.trans.keys) :
    (db.write (.insertTrans t)).gap = db.gap + (Write.insertTrans t).effect := by
  have hrows : (db.write (.insertTrans t)).trans.rows = db.trans.rows ++ [t] :=
    Table.rows_insert (Table.find?_eq_none_of_notMem h)
  funext j
  show db.balance j - (db.write (.insertTrans t)).recorded j =
    db.gap j + -amountOn t.accountId t.booked j
  have hrecorded : (db.write (.insertTrans t)).recorded j =
      db.recorded j + amountOn t.accountId t.booked j := by
    unfold recorded history
    rw [hrows, List.filter_append, List.map_append, List.sum_append]
    by_cases hj : t.accountId = j
    · subst hj
      rw [amountOn_self, List.filter_singleton]
      simp
    · rw [amountOn_of_ne (Ne.symm hj), List.filter_singleton]
      simp [hj]
  rw [hrecorded, gap]
  omega

/-- A change of an account that is not about money. -/
theorem balance_modify (db : Database) (i : Int) (f : BankAccount → BankAccount)
    (hf : ∀ r, (f r).accountId = r.accountId) (hbalance : ∀ r, (f r).balance = r.balance) :
    Database.balance { db with bankAccount := db.bankAccount.modify i f hf } = db.balance := by
  funext j
  show (Option.map _ ((db.bankAccount.modify i f hf).find? j)).getD 0 = _
  rw [Table.find?_modify]
  by_cases hj : j = i
  · subst hj
    rw [if_pos rfl, Option.map_map, funext (f := BankAccount.balance ∘ f) hbalance]
    rfl
  · rw [if_neg hj]
    rfl

/-- The keys are those there were and those of the rows that are added. -/
theorem mem_keys_write {w : Write} {i : Int} :
    (i ∈ (db.write w).bankAccount.keys ↔ i ∈ db.bankAccount.keys ∨ w.accountId? = some i) ∧
      (i ∈ (db.write w).trans.keys ↔ i ∈ db.trans.keys ∨ w.transId? = some i) := by
  cases w <;> simp [Database.write, Write.accountId?, Write.transId?, eq_comm]

theorem mem_keys_replay {ws : List Write} : ∀ {db : Database} {i : Int},
    (i ∈ (db.replay ws).bankAccount.keys ↔ i ∈ db.bankAccount.keys ∨ i ∈ accountIds ws) ∧
      (i ∈ (db.replay ws).trans.keys ↔ i ∈ db.trans.keys ∨ i ∈ transIds ws) := by
  induction ws with
  | nil => simp
  | cons w ws ih =>
      intro db i
      rw [replay_cons, ih.1, ih.2, mem_keys_write.1, mem_keys_write.2]
      constructor
      · cases hid : w.accountId? with
        | none => simp [hid]
        | some a => simp [hid, eq_comm, or_assoc]
      · cases hid : w.transId? with
        | none => simp [hid]
        | some a => simp [hid, eq_comm, or_assoc]

/-- Changes that find what they are about, and add what is not there. -/
structure Awaits (db : Database) (ws : List Write) : Prop where
  nodup : (accountIds ws).Nodup ∧ (transIds ws).Nodup
  accounts : ∀ i ∈ accountIds ws, i ∉ db.bankAccount.keys
  trans : ∀ i ∈ transIds ws, i ∉ db.trans.keys
  found : ∀ i cents, .addBalance i cents ∈ ws → i ∈ db.bankAccount.keys

theorem Awaits.write {w : Write} {ws : List Write} (h : db.Awaits (w :: ws)) :
    (db.write w).Awaits ws := by
  obtain ⟨⟨haccounts, htrans⟩, hnewA, hnewT, hfound⟩ := h
  refine ⟨⟨?_, ?_⟩, fun i hi => ?_, fun i hi => ?_, fun i cents hi => ?_⟩
  · exact haccounts.sublist ((List.sublist_cons_self w ws).filterMap _)
  · exact htrans.sublist ((List.sublist_cons_self w ws).filterMap _)
  · rw [mem_keys_write.1]
    rintro (hmem | hw)
    · exact hnewA i (List.mem_filterMap.mpr (by
        obtain ⟨v, hv, hvi⟩ := List.mem_filterMap.mp hi
        exact ⟨v, List.mem_cons_of_mem w hv, hvi⟩)) hmem
    · rw [accountIds, List.filterMap_cons, hw] at haccounts
      exact (List.nodup_cons.mp haccounts).1 hi
  · rw [mem_keys_write.2]
    rintro (hmem | hw)
    · exact hnewT i (List.mem_filterMap.mpr (by
        obtain ⟨v, hv, hvi⟩ := List.mem_filterMap.mp hi
        exact ⟨v, List.mem_cons_of_mem w hv, hvi⟩)) hmem
    · rw [transIds, List.filterMap_cons, hw] at htrans
      exact (List.nodup_cons.mp htrans).1 hi
  · exact mem_keys_write.1.mpr (Or.inl (hfound i cents (List.mem_cons_of_mem w hi)))

theorem Awaits.gap_write {w : Write} {ws : List Write} (h : db.Awaits (w :: ws)) :
    (db.write w).gap = db.gap + w.effect := by
  cases w with
  | insertAccount r => exact gap_insertAccount (h.accounts r.accountId List.mem_cons_self)
  | insertTrans t => exact gap_insertTrans (h.trans t.transId List.mem_cons_self)
  | addBalance i cents => exact gap_addBalance cents (h.found i cents List.mem_cons_self)
  | setPass i pass =>
      have hbalance := balance_modify db i (fun r => { r with pass := pass }) (fun _ => rfl) fun _ => rfl
      funext j
      exact (congrArg (fun f : Int → Int => f j - db.recorded j) hbalance).trans (Int.add_zero _).symm
  | setFlag i =>
      have hbalance := balance_modify db i (fun r => { r with flag := 1 }) (fun _ => rfl) fun _ => rfl
      funext j
      exact (congrArg (fun f : Int → Int => f j - db.recorded j) hbalance).trans (Int.add_zero _).symm

theorem Awaits.gap_replay {ws : List Write} : ∀ {db : Database}, db.Awaits ws →
    (db.replay ws).gap = db.gap + effectOf ws := by
  induction ws with
  | nil => exact fun _ => (add_zero _).symm
  | cons w ws ih =>
      intro db h
      rw [replay_cons, ih h.write, h.gap_write, effectOf, effectOf, List.map_cons, List.sum_cons,
        add_assoc]

/-- Changes of others add rows of their own. -/
theorem Awaits.other {ws vs : List Write} (h : db.Awaits ws)
    (haccounts : ∀ i ∈ accountIds vs, i ∉ accountIds ws)
    (htrans : ∀ i ∈ transIds vs, i ∉ transIds ws) : (db.replay vs).Awaits ws where
  nodup := h.nodup
  accounts := fun i hi hmem => (mem_keys_replay.1.mp hmem).elim (h.accounts i hi) fun hv =>
    haccounts i hv hi
  trans := fun i hi hmem => (mem_keys_replay.2.mp hmem).elim (h.trans i hi) fun hv => htrans i hv hi
  found := fun i cents hi => mem_keys_replay.1.mpr (Or.inl (h.found i cents hi))

end Database

end Bank
