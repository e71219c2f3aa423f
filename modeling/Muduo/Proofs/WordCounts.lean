/-
Every word is counted once.

A line of a sender is read as the count it was made from, however the bytes of the senders are
cut and however they take turns.  So what a receiver has counted of a word, together with what
is still on its way, is what the senders have counted of it, and when the last sender has gone
nothing is on its way any more.
-/
import Mathlib.Algebra.BigOperators.Group.Finset.Basic
import Mathlib.Tactic.Tauto
import Muduo.Examples.WordCount

namespace WordCount

open Lib

/-! ### Counts in a map -/

/-- What is counted of a word. -/
def amount (w : Bytes) (m : List (Bytes × Int)) : Int :=
  (m.map fun p => if p.1 = w then p.2 else 0).sum

theorem amount_cons (w : Bytes) (p : Bytes × Int) (m : List (Bytes × Int)) :
    amount w (p :: m) = (if p.1 = w then p.2 else 0) + amount w m := by
  rw [amount, List.map_cons, List.sum_cons, amount]

theorem amount_append (w : Bytes) (m m' : List (Bytes × Int)) :
    amount w (m ++ m') = amount w m + amount w m' := by
  rw [amount, List.map_append, List.sum_append, amount, amount]

theorem amount_perm (w : Bytes) {m m' : List (Bytes × Int)} (h : m.Perm m') :
    amount w m = amount w m' :=
  (h.map _).sum_eq

theorem amount_add (w word : Bytes) (n : Int) (m : WordCountMap) :
    amount w (add word n m) = amount w m + if word = w then n else 0 := by
  induction m with
  | nil =>
      rw [add, amount_cons]
      exact Int.add_comm _ _
  | cons p m ih =>
      obtain ⟨v, c⟩ := p
      rw [add]
      split
      · rename_i hword
        subst hword
        rw [amount_cons, amount_cons]
        dsimp only
        split <;> omega
      · rw [amount_cons, amount_cons, ih]
        omega

theorem amount_foldl (w : Bytes) (ps : List (Bytes × Int)) (m : WordCountMap) :
    amount w (ps.foldl (fun m p => add p.1 p.2 m) m) = amount w m + amount w ps := by
  induction ps generalizing m with
  | nil => exact (Int.add_zero _).symm
  | cons p ps ih =>
      rw [List.foldl_cons, ih, amount_add, amount_cons]
      omega

theorem mem_keys_add {word v : Bytes} {n : Int} {m : WordCountMap} :
    v ∈ (add word n m).map Prod.fst ↔ v = word ∨ v ∈ m.map Prod.fst := by
  induction m with
  | nil => simp [add]
  | cons p m ih =>
      obtain ⟨w, c⟩ := p
      rw [add]
      split
      · rename_i hword
        subst hword
        simp
      · rw [List.map_cons, List.mem_cons, ih, List.map_cons, List.mem_cons]
        tauto

theorem nodup_add {word : Bytes} {n : Int} {m : WordCountMap} (h : (m.map Prod.fst).Nodup) :
    ((add word n m).map Prod.fst).Nodup := by
  induction m with
  | nil => exact List.nodup_singleton _
  | cons p m ih =>
      obtain ⟨w, c⟩ := p
      rw [List.map_cons, List.nodup_cons] at h
      rw [add]
      split
      · exact List.nodup_cons.mpr h
      · rename_i hword
        refine List.nodup_cons.mpr ⟨fun hmem => ?_, ih h.2⟩
        exact (mem_keys_add.mp hmem).elim (fun hw => hword hw.symm) h.1

/-- No space in it, so that a line can be told from its word. -/
def IsWord (w : Bytes) : Prop := ∀ b ∈ w, isSpace b = false

/-! ### Lines -/

theorem digit_ne {b : UInt8} (hb : isDigit b = true) : b ≠ 10 ∧ b ≠ 13 := by
  constructor
  · rintro rfl
    exact absurd hb (by decide)
  · rintro rfl
    exact absurd hb (by decide)

theorem crlf?_countLine {p : Bytes × Int} (hp : IsWord p.1) : crlf? (line p) = none := by
  refine crlf?_of_no_lf fun hmem => ?_
  rw [line, List.mem_append, List.mem_cons, List.mem_append] at hmem
  rcases hmem with hmem | hmem | hmem | hmem
  · exact absurd (hp 10 hmem) (by decide)
  · cases hmem
  · split at hmem
    · cases List.mem_singleton.mp hmem
    · cases hmem
  · exact (digit_ne (isDigit_of_mem_natText hmem)).1 rfl

theorem cutAt_countLine {p : Bytes × Int} (hp : IsWord p.1) :
    cutAt 9 (line p) = some (p.1, (if p.2 < 0 then [45] else []) ++ natText p.2.natAbs) :=
  cutAt_append (fun hmem => absurd (hp 9 hmem) (by decide)) _

/-- The number behind the tab is read back. -/
theorem atoll_tab (n : Int) (rest : Bytes) :
    atoll (9 :: ((if n < 0 then [45] else []) ++ natText n.natAbs) ++ (crlf ++ rest)) = n := by
  have hdigits : takeDigits (natText n.natAbs ++ (crlf ++ rest)) =
      (natText n.natAbs, crlf ++ rest) := by
    refine takeDigits_append (fun b hb => isDigit_of_mem_natText hb) fun b hb => ?_
    cases hb
    decide
  have hspace : isSpace 9 = true := by decide
  rw [atoll, List.cons_append, List.dropWhile_cons_of_pos hspace]
  by_cases hn : n < 0
  · have hminus : isSpace 45 = false := by decide
    rw [if_pos hn, List.append_assoc, List.singleton_append,
      List.dropWhile_cons_of_neg (by rw [hminus]; exact Bool.false_ne_true)]
    have hsign : takeSign (45 :: (natText n.natAbs ++ (crlf ++ rest))) =
        (true, natText n.natAbs ++ (crlf ++ rest)) := rfl
    rw [hsign]
    dsimp only
    rw [hdigits, digitsValue_natText]
    show -((n.natAbs : Nat) : Int) = n
    omega
  · rw [if_neg hn, List.nil_append]
    obtain ⟨d, ds, hds⟩ := List.exists_cons_of_ne_nil (natText_ne_nil n.natAbs)
    have hd : isDigit d = true := isDigit_of_mem_natText (by rw [hds]; exact List.mem_cons_self)
    have hnotspace := not_isSpace_of_isDigit hd
    rw [hds, List.cons_append, List.dropWhile_cons_of_neg (by rw [hnotspace]; exact Bool.false_ne_true),
      takeSign_of_isDigit hd, ← List.cons_append, ← hds]
    dsimp only
    rw [hdigits, digitsValue_natText]
    show ((n.natAbs : Nat) : Int) = n
    omega

theorem messageLoop_line {p : Bytes × Int} (hp : IsWord p.1) (m : WordCountMap) (wrong : Bool)
    (rest : Bytes) :
    messageLoop m wrong (line p ++ crlf ++ rest) = messageLoop (add p.1 p.2 m) wrong rest := by
  have hcrlf := crlf?_line (crlf?_countLine hp) rest
  have htake : (line p ++ crlf ++ rest).take (line p).length = line p := by
    rw [List.append_assoc, List.take_left]
  have hdrop : (line p ++ crlf ++ rest).drop ((line p).length + 2) = rest :=
    List.drop_left' (by rw [List.length_append]; rfl)
  have hcount : atoll ((line p ++ crlf ++ rest).drop p.1.length) = p.2 := by
    rw [line, List.append_assoc, List.append_assoc, List.drop_left]
    exact atoll_tab p.2 rest
  conv_lhs => rw [messageLoop]
  split
  · rename_i hnone
    rw [hcrlf] at hnone
    cases hnone
  · rename_i n hn
    rw [hcrlf] at hn
    cases hn
    rw [htake, cutAt_countLine hp, hdrop]
    dsimp only
    rw [hcount]

theorem messageLoop_none {b : Bytes} (h : crlf? b = none) (m : WordCountMap) (wrong : Bool) :
    messageLoop m wrong b = (m, wrong, b) := by
  rw [messageLoop]
  split
  · rfl
  · rename_i hsome
    rw [h] at hsome
    cases hsome

/-- What has arrived of some lines is counted, up to a line that has not arrived to its end. -/
theorem messageLoop_arrived {ps : List (Bytes × Int)} (hps : ∀ p ∈ ps, IsWord p.1)
    {b later : Bytes} (h : b ++ later = unlines (ps.map line)) (m : WordCountMap) (wrong : Bool) :
    ∃ done rest tail, ps = done ++ rest ∧
      messageLoop m wrong b = (done.foldl (fun m p => add p.1 p.2 m) m, wrong, tail) ∧
      tail ++ later = unlines (rest.map line) ∧ crlf? tail = none := by
  induction ps generalizing b m with
  | nil =>
      obtain ⟨rfl, rfl⟩ := List.append_eq_nil_iff.mp h
      exact ⟨[], [], [], rfl, messageLoop_none rfl m wrong, rfl, rfl⟩
  | cons p ps ih =>
      have hp := hps p List.mem_cons_self
      rw [List.map_cons, unlines_cons] at h
      rcases arrived h (crlf?_countLine hp) with hnone | ⟨b', rfl, hb'⟩
      · refine ⟨[], p :: ps, b, rfl, messageLoop_none hnone m wrong, ?_, hnone⟩
        rw [List.map_cons, unlines_cons, h]
      · obtain ⟨done, rest, tail, rfl, hloop, hlater, htail⟩ :=
          ih (fun q hq => hps q (List.mem_cons_of_mem p hq)) hb' (add p.1 p.2 m)
        refine ⟨p :: done, rest, tail, rfl, ?_, hlater, htail⟩
        rw [messageLoop_line hp, hloop]
        rfl

/-! ### A receiver -/

def Action.bytesTo (conn : Conn) : Action → Bytes
  | .message c bytes => if c = conn then bytes else []
  | .down _ => []

def Action.isDown : Action → Bool
  | .message _ _ => false
  | .down _ => true

/-- What arrives on a connection. -/
def bytesOf (conn : Conn) (acts : List Action) : Bytes := acts.flatMap (Action.bytesTo conn)

theorem nodup_foldl {ps : List (Bytes × Int)} {m : WordCountMap} (h : (m.map Prod.fst).Nodup) :
    ((ps.foldl (fun m p => add p.1 p.2 m) m).map Prod.fst).Nodup := by
  induction ps generalizing m with
  | nil => exact h
  | cons p ps ih => exact ih (nodup_add h)

/-- The receiver, when `total` is what it will have counted of each word. -/
structure Reads (senders : Nat) (total : Bytes → Int) (later : List Action)
    (s : WordCountReceiver) : Prop where
  nodup : (s.wordcounts.map Prod.fst).Nodup
  right : ∀ i, s.shutdown i = false
  waits : ∀ i, crlf? (s.inputBuffer i) = none
  arriving : ∃ rest : Conn → List (Bytes × Int), (∀ i, ∀ p ∈ rest i, IsWord p.1) ∧
    (∀ i, s.inputBuffer i ++ bytesOf i later = unlines ((rest i).map line)) ∧
    (∀ i, senders ≤ i → rest i = []) ∧
    ∀ w, amount w s.wordcounts + ∑ i ∈ Finset.range senders, amount w (rest i) = total w

namespace Reads

variable {senders : Nat} {total : Bytes → Int} {later : List Action} {s : WordCountReceiver}

theorem message {conn : Conn} {bytes : Bytes}
    (h : Reads senders total (.message conn bytes :: later) s) :
    Reads senders total later (s.onMessage conn bytes) := by
  obtain ⟨hnodup, hright, hwaits, rest, hwords, hbytes, hnone, htotal⟩ := h
  have hconn : (s.inputBuffer conn ++ bytes) ++ bytesOf conn later =
      unlines ((rest conn).map line) := by
    have hmine : bytesOf conn (.message conn bytes :: later) = bytes ++ bytesOf conn later := by
      rw [bytesOf, List.flatMap_cons, Action.bytesTo, if_pos rfl, bytesOf]
    rw [← hbytes conn, hmine, List.append_assoc]
  have hother : ∀ i, i ≠ conn →
      bytesOf i (.message conn bytes :: later) = bytesOf i later := by
    intro i hi
    rw [bytesOf, List.flatMap_cons, Action.bytesTo, if_neg (Ne.symm hi), List.nil_append, bytesOf]
  obtain ⟨done, rest', tail, hsplit, hloop, hlater, htail⟩ :=
    messageLoop_arrived (hwords conn) hconn s.wordcounts false
  have hmessage : s.onMessage conn bytes = { s with
      wordcounts := done.foldl (fun m p => add p.1 p.2 m) s.wordcounts
      inputBuffer := Function.update s.inputBuffer conn tail
      shutdown := Function.update s.shutdown conn (s.shutdown conn || false) } := by
    rw [WordCountReceiver.onMessage, hloop]
  rw [hmessage]
  refine ⟨nodup_foldl hnodup, fun i => ?_, fun i => ?_, Function.update rest conn rest',
    fun i p hp => ?_, fun i => ?_, fun i hi => ?_, fun w => ?_⟩
  · show Function.update s.shutdown conn (s.shutdown conn || false) i = false
    rw [hright conn, Function.update_apply]
    split
    · rfl
    · exact hright i
  · show crlf? (Function.update s.inputBuffer conn tail i) = none
    rw [Function.update_apply]
    split
    · exact htail
    · exact hwaits i
  · rw [Function.update_apply] at hp
    split at hp
    · exact hwords conn p (hsplit ▸ List.mem_append_right done hp)
    · exact hwords i p hp
  · show Function.update s.inputBuffer conn tail i ++ _ = _
    rw [Function.update_apply, Function.update_apply]
    split
    · rename_i hi
      rw [hi]
      exact hlater
    · rename_i hi
      rw [← hother i hi]
      exact hbytes i
  · rw [Function.update_apply]
    split
    · rename_i hic
      have hnil := hnone conn (hic ▸ hi)
      rw [hsplit, List.append_eq_nil_iff] at hnil
      exact hnil.2
    · exact hnone i hi
  · -- What is counted now is not on its way any more.
    show amount w (done.foldl _ s.wordcounts) + _ = _
    rw [amount_foldl, ← htotal w]
    by_cases hlt : conn < senders
    · have hmem := Finset.mem_range.mpr hlt
      have hsame : ∑ i ∈ (Finset.range senders).erase conn,
          amount w (Function.update rest conn rest' i) =
            ∑ i ∈ (Finset.range senders).erase conn, amount w (rest i) := by
        refine Finset.sum_congr rfl fun i hi => ?_
        rw [Function.update_of_ne (Finset.ne_of_mem_erase hi)]
      rw [← Finset.add_sum_erase _ _ hmem, ← Finset.add_sum_erase _ _ hmem, hsame,
        Function.update_self, hsplit, amount_append]
      omega
    · have hnil := hnone conn (not_lt.mp hlt)
      rw [hsplit, List.append_eq_nil_iff] at hnil
      have hsame : ∀ i, amount w (Function.update rest conn rest' i) = amount w (rest i) := by
        intro i
        rw [Function.update_apply]
        split
        · rename_i hi
          rw [hi, hsplit, hnil.1, hnil.2]
          rfl
        · rfl
      rw [Finset.sum_congr rfl fun i _ => hsame i, hnil.1]
      show _ + 0 + _ = _
      rw [Int.add_zero]

theorem down {conn : Conn} (h : Reads senders total (.down conn :: later) s) :
    Reads senders total later s.onDisconnection := by
  have hsame : ∀ i, bytesOf i (.down conn :: later) = bytesOf i later := fun i => rfl
  obtain ⟨hnodup, hright, hwaits, rest, hwords, hbytes, hnone, htotal⟩ := h
  have hreads : Reads senders total later s :=
    ⟨hnodup, hright, hwaits, rest, hwords, fun i => hsame i ▸ hbytes i, hnone, htotal⟩
  unfold WordCountReceiver.onDisconnection
  dsimp only
  split
  · exact ⟨hreads.nodup, hreads.right, hreads.waits, hreads.arriving⟩
  · exact ⟨hreads.nodup, hreads.right, hreads.waits, hreads.arriving⟩

theorem run {acts : List Action} (h : Reads senders total (acts ++ later) s) :
    Reads senders total later (acts.foldl step s) := by
  induction acts generalizing s with
  | nil => exact h
  | cons a acts ih =>
      refine ih ?_
      cases a with
      | message conn bytes => exact h.message
      | down conn => exact h.down

/-- When nothing is to come, everything is counted. -/
theorem counted (h : Reads senders total [] s) (w : Bytes) : amount w s.wordcounts = total w := by
  obtain ⟨rest, hwords, hbytes, -, htotal⟩ := h.arriving
  have hnil : ∀ i, rest i = [] := by
    intro i
    cases hrest : rest i with
    | nil => rfl
    | cons p ps =>
        have hfirst := hbytes i
        rw [hrest, List.map_cons, unlines_cons] at hfirst
        have hcrlf := crlf?_line
          (crlf?_countLine (hwords i p (by rw [hrest]; exact List.mem_cons_self)))
          (unlines (ps.map line))
        rw [← hfirst, show bytesOf i [] = [] from rfl, List.append_nil, h.waits i] at hcrlf
        cases hcrlf
  rw [← htotal w, Finset.sum_congr rfl fun i _ => by rw [hnil i]]
  simp [amount]

end Reads

theorem senders_foldl (acts : List Action) (s : WordCountReceiver) :
    (acts.foldl step s).senders = s.senders - acts.countP Action.isDown := by
  induction acts generalizing s with
  | nil => exact (Int.sub_zero _).symm
  | cons a acts ih =>
      rw [List.foldl_cons, ih]
      cases a with
      | message conn bytes => rfl
      | down conn =>
          have hone : (step s (.down conn)).senders = s.senders - 1 := by
            show (s.onDisconnection).senders = _
            unfold WordCountReceiver.onDisconnection
            dsimp only
            split <;> rfl
          rw [hone, List.countP_cons_of_pos (by rfl)]
          push_cast
          omega

/-! ### A sender -/

section

variable {setup : Setup}

/-- How often a word is among some words. -/
def occurrences (w : Bytes) (words : List Word) : Int := ((words.map Subtype.val).count w : Nat)

theorem occurrences_cons (w : Bytes) (word : Word) (words : List Word) :
    occurrences w (word :: words) = (if word.1 = w then 1 else 0) + occurrences w words := by
  rw [occurrences, List.map_cons, List.count_cons, occurrences]
  by_cases h : word.1 = w
  · simp [h, Int.add_comm]
  · simp [h]

theorem amount_countWords (w : Bytes) (m : WordCountMap) (words : List Word) :
    amount w (countWords setup m words).1 + occurrences w (countWords setup m words).2 =
      amount w m + occurrences w words := by
  induction words generalizing m with
  | nil => rfl
  | cons word words ih =>
      rw [countWords, occurrences_cons]
      split
      · dsimp only
        rw [amount_add]
        omega
      · rw [ih, amount_add]
        omega

theorem isWord_countWords {m : WordCountMap} (hm : ∀ v ∈ m.map Prod.fst, IsWord v)
    (words : List Word) : ∀ v ∈ (countWords setup m words).1.map Prod.fst, IsWord v := by
  induction words generalizing m with
  | nil => exact hm
  | cons word words ih =>
      have hadd : ∀ v ∈ (add word.1 1 m).map Prod.fst, IsWord v := by
        intro v hv
        rcases mem_keys_add.mp hv with rfl | hv
        · exact word.2
        · exact hm v hv
      rw [countWords]
      split
      · exact hadd
      · exact ih hadd

theorem processFile_spec (words : List Word) :
    (∀ p ∈ processFile setup words, IsWord p.1) ∧
      ∀ w, amount w (processFile setup words) = occurrences w words := by
  induction hn : words.length using Nat.strong_induction_on generalizing words with
  | _ n ih =>
      subst hn
      rw [processFile]
      split
      · rename_i hnil
        subst hnil
        exact ⟨fun p hp => absurd hp List.not_mem_nil, fun w => rfl⟩
      · rename_i hne
        obtain ⟨hwords, hamount⟩ := ih _ (length_countWords_lt setup [] hne) _ rfl
        constructor
        · intro p hp
          rcases List.mem_append.mp hp with hp | hp
          · have hkey := (setup.order_perm _).mem_iff.mp hp
            exact isWord_countWords (fun v hv => absurd hv List.not_mem_nil) words p.1
              (List.mem_map_of_mem hkey)
          · exact hwords p hp
        · intro w
          rw [amount_append, amount_perm w (setup.order_perm _), hamount, amount_countWords]
          exact Int.zero_add _

/-- The receiver of a word. -/
def bucketOf (setup : Setup) (w : Bytes) : Nat := setup.hash w % setup.buckets

theorem send_spec (t : SendThrottler) (p : Bytes × Int) :
    (t.send setup.g_batchSize p).sent.flatten ++ (t.send setup.g_batchSize p).buffer =
      t.sent.flatten ++ t.buffer ++ (line p ++ crlf) := by
  unfold SendThrottler.send
  dsimp only
  split
  · simp
  · simp

theorem foldl_sendTo (ps : List (Bytes × Int)) (s : WordCountSender) (j : Nat) :
    (ps.foldl (sendTo setup) s j).sent.flatten ++ (ps.foldl (sendTo setup) s j).buffer =
      (s j).sent.flatten ++ (s j).buffer ++
        unlines ((ps.filter fun p => bucketOf setup p.1 = j).map line) := by
  induction ps generalizing s with
  | nil => exact (List.append_nil _).symm
  | cons p ps ih =>
      rw [List.foldl_cons, ih]
      by_cases hj : bucketOf setup p.1 = j
      · have hsend : sendTo setup s p j = (s j).send setup.g_batchSize p := by
          rw [← hj]
          exact Function.update_self ..
        rw [hsend, send_spec, List.filter_cons_of_pos (by simpa using hj), List.map_cons,
          unlines_cons, List.append_assoc, List.append_assoc]
      · have hsend : sendTo setup s p j = s j := Function.update_of_ne (Ne.symm hj) ..
        rw [hsend, List.filter_cons_of_neg (by simpa using hj)]

/-- What a sender sends to a receiver. -/
theorem sent_sender (files : List (List Word)) (j : Nat) :
    (sender setup files j).sent.flatten =
      unlines (((files.flatMap (processFile setup)).filter fun p => bucketOf setup p.1 = j).map
        line) := by
  have hdisconnect : ∀ t : SendThrottler, t.disconnect.sent.flatten = t.sent.flatten ++ t.buffer := by
    intro t
    unfold SendThrottler.disconnect
    split
    · simp
    · rename_i hempty
      rw [List.eq_nil_of_length_eq_zero (Nat.eq_zero_of_not_pos hempty), List.append_nil]
  rw [sender]
  dsimp only
  rw [hdisconnect, foldl_sendTo]
  rfl

theorem amount_filter (w : Bytes) (j : Nat) (ps : List (Bytes × Int)) :
    amount w (ps.filter fun p => bucketOf setup p.1 = j) =
      if bucketOf setup w = j then amount w ps else 0 := by
  induction ps with
  | nil => exact (ite_self _).symm
  | cons p ps ih =>
      rw [amount_cons]
      by_cases hp : bucketOf setup p.1 = j
      · rw [List.filter_cons_of_pos (by simpa using hp), amount_cons, ih]
        by_cases hpw : p.1 = w
        · rw [← hpw, if_pos rfl, if_pos hp, if_pos hp]
        · rw [if_neg hpw, Int.zero_add, Int.zero_add]
      · rw [List.filter_cons_of_neg (by simpa using hp), ih]
        by_cases hpw : p.1 = w
        · rw [← hpw, if_neg hp, if_neg hp]
        · rw [if_neg hpw, Int.zero_add]

theorem amount_files (w : Bytes) (files : List (List Word)) :
    amount w (files.flatMap (processFile setup)) = occurrences w files.flatten := by
  induction files with
  | nil => rfl
  | cons words files ih =>
      have happend : occurrences w (words ++ files.flatten) =
          occurrences w words + occurrences w files.flatten := by
        rw [occurrences, List.map_append, List.count_append]
        exact Int.natCast_add _ _
      rw [List.flatMap_cons, amount_append, (processFile_spec words).2, ih, List.flatten_cons,
        happend]

end

/-! ### All senders -/

section

variable (setup : Setup)

/-- What the sender with a number sends to a receiver, and nothing if there is none. -/
def stream (senders : List (List (List Word))) (j i : Nat) : Bytes :=
  ((senders[i]?.map fun files => sender setup files j).getD {}).sent.flatten

/-- The counts in it. -/
def entries (senders : List (List (List Word))) (j i : Nat) : List (Bytes × Int) :=
  ((senders[i]?.getD []).flatMap (processFile setup)).filter fun p => bucketOf setup p.1 = j

variable {setup}

theorem stream_eq (senders : List (List (List Word))) (j i : Nat) :
    stream setup senders j i = unlines ((entries setup senders j i).map line) := by
  unfold stream entries
  cases senders[i]? with
  | none => rfl
  | some files => exact sent_sender files j

theorem isWord_entries (senders : List (List (List Word))) (j i : Nat) :
    ∀ p ∈ entries setup senders j i, IsWord p.1 := by
  intro p hp
  obtain ⟨words, -, hp⟩ := List.mem_flatMap.mp (List.mem_of_mem_filter hp)
  exact (processFile_spec words).1 p hp

theorem amount_entries (w : Bytes) (senders : List (List (List Word))) (j : Nat) :
    ∑ i ∈ Finset.range senders.length, amount w (entries setup senders j i) =
      if bucketOf setup w = j then occurrences w senders.flatten.flatten else 0 := by
  have hone : ∀ i, amount w (entries setup senders j i) =
      if bucketOf setup w = j then occurrences w (senders[i]?.getD []).flatten else 0 := by
    intro i
    rw [entries, amount_filter, amount_files]
  rw [Finset.sum_congr rfl fun i _ => hone i]
  by_cases hj : bucketOf setup w = j
  · simp only [if_pos hj]
    induction senders with
    | nil => rfl
    | cons files senders ih =>
        have happend : occurrences w (files.flatten ++ senders.flatten.flatten) =
            occurrences w files.flatten + occurrences w senders.flatten.flatten := by
          rw [occurrences, List.map_append, List.count_append]
          exact Int.natCast_add _ _
        rw [List.length_cons, Finset.sum_range_succ', List.flatten_cons, List.flatten_append,
          happend, Int.add_comm]
        exact congrArg (occurrences w files.flatten + ·) (ih fun i => by
          rw [entries, amount_filter, amount_files])
  · simp only [if_neg hj, Finset.sum_const_zero]

end

/-- **Words.**  Whatever the order in which the maps are gone through, the size of the batches, the
way in which the bytes are cut and the order in which the senders come by, the shard that a
receiver writes when the last sender has gone counts each word that the hash gives to it as often
as it is in all files together, in one entry, and no other word, and no line was wrong. -/
theorem words_counted (setup : Setup) (senders : List (List (List Word))) (j : Nat)
    {acts : List Action} {last : Conn} (hbytes : ∀ i, bytesOf i acts = stream setup senders j i)
    (hdowns : acts.countP Action.isDown + 1 = senders.length) :
    ∃ shard, ((acts ++ [Action.down last]).foldl step (.start senders.length)).shard =
        some shard ∧
      (shard.map Prod.fst).Nodup ∧
      (∀ w, amount w shard =
        if bucketOf setup w = j then occurrences w senders.flatten.flatten else 0) ∧
      ∀ i, ((acts ++ [Action.down last]).foldl step (.start senders.length)).shutdown i =
        false := by
  have hinit : Reads senders.length (fun w => if bucketOf setup w = j then
      occurrences w senders.flatten.flatten else 0) (acts ++ []) (.start senders.length) := by
    refine ⟨List.nodup_nil, fun i => rfl, fun i => rfl, entries setup senders j,
      isWord_entries senders j, fun i => ?_, fun i hi => ?_, fun w => ?_⟩
    · rw [List.append_nil, hbytes, stream_eq]
      rfl
    · rw [entries, List.getElem?_eq_none hi]
      rfl
    · rw [amount_entries]
      exact Int.zero_add _
  have hreads := hinit.run
  have hsenders := senders_foldl acts (.start senders.length)
  rw [List.foldl_append]
  generalize acts.foldl step (.start senders.length) = s at hreads hsenders ⊢
  have hlast : s.senders - 1 = 0 := by
    have hstart : (WordCountReceiver.start senders.length).senders = senders.length := rfl
    rw [hsenders, hstart, ← hdowns]
    push_cast
    omega
  have hdown : s.onDisconnection = { s with senders := s.senders - 1, shard := some s.wordcounts } := by
    unfold WordCountReceiver.onDisconnection
    exact if_pos hlast
  rw [List.foldl_cons, List.foldl_nil, show step s (.down last) = s.onDisconnection from rfl, hdown]
  exact ⟨s.wordcounts, rfl, hreads.nodup, hreads.counted, hreads.right⟩

/-- Two receivers, and maps of one word, which are full with the second. -/
def smallSetup : Setup where
  kMaxHashSize := 1
  g_batchSize := 8
  buckets := 2
  buckets_pos := by decide
  hash := List.length
  order := id
  order_perm := List.Perm.refl

/-- A word of one letter. -/
def letter (b : UInt8) (hb : isSpace b = false) : Word :=
  ⟨[b], fun _ hc => List.mem_singleton.mp hc ▸ hb⟩

/-- The files "a b a" and "a". -/
def smallSenders : List (List (List Word)) :=
  [[[letter 97 rfl, letter 98 rfl, letter 97 rfl]], [[letter 97 rfl]]]

/-- The second sender comes in between. -/
def smallActions : List Action :=
  [.message 0 ((stream smallSetup smallSenders 1 0).take 2),
    .message 1 (stream smallSetup smallSenders 1 1), .down 1,
    .message 0 ((stream smallSetup smallSenders 1 0).drop 2)]

theorem words_counted_small : ∃ shard,
    ((smallActions ++ [Action.down 0]).foldl step (.start 2)).shard = some shard ∧
      amount [97] shard = 3 ∧ amount [98] shard = 1 := by
  have hbytes : ∀ i, bytesOf i smallActions = stream smallSetup smallSenders 1 i := by
    intro i
    rcases i with _ | _ | i
    · show List.take 2 _ ++ (List.drop 2 _ ++ []) = _
      rw [List.append_nil, List.take_append_drop]
    · exact List.append_nil _
    · rfl
  obtain ⟨shard, hshard, -, hcounts, -⟩ :=
    @words_counted smallSetup smallSenders 1 smallActions 0 hbytes (by decide)
  refine ⟨shard, hshard, ?_, ?_⟩
  · rw [hcounts]
    decide
  · rw [hcounts]
    decide

end WordCount
