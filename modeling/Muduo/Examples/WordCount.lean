/-
Counting words on several machines.

A sender counts the words of its files in a map of bounded size, and whenever the map is full
sends each of its counts to the receiver that the hash of the word chooses, as a line.  A
receiver adds up the lines of all senders, and writes its counts down when the last of them
has gone.

Which order a map is gone through in is not said, and the hash is a parameter.  Counts are
numbers of words, which do not reach the end of an `int64_t`.
-/
import Mathlib.Logic.Function.Basic
import Muduo.Lib.Lines
import Muduo.Lib.Numeral

namespace WordCount

open Lib

/-! ### Maps -/

abbrev WordCountMap := List (Bytes × Int)

/-- `wordcounts[word] += n` -/
def add (word : Bytes) (n : Int) : WordCountMap → WordCountMap
  | [] => [(word, n)]
  | (w, c) :: m => if word = w then (w, c + n) :: m else (w, c) :: add word n m

/-! ### The sender -/

/-- What `in >> word` reads. -/
abbrev Word := { w : Bytes // ∀ b ∈ w, isSpace b = false }

/-- `"\t%" PRId64 "\r\n"`, behind the word. -/
def line (p : Bytes × Int) : Bytes :=
  p.1 ++ 9 :: ((if p.2 < 0 then [45] else []) ++ natText p.2.natAbs)

structure SendThrottler where
  buffer : Bytes := []
  /-- What `conn_` has been given. -/
  sent : List Bytes := []

namespace SendThrottler

def send (g_batchSize : Nat) (t : SendThrottler) (p : Bytes × Int) : SendThrottler :=
  let buffer := t.buffer ++ (line p ++ crlf)
  if g_batchSize ≤ buffer.length then ⟨[], t.sent ++ [buffer]⟩ else ⟨buffer, t.sent⟩

def disconnect (t : SendThrottler) : SendThrottler :=
  if 0 < t.buffer.length then ⟨[], t.sent ++ [t.buffer]⟩ else t

end SendThrottler

/-- The constants and what is not in the repository. -/
structure Setup where
  kMaxHashSize : Nat
  g_batchSize : Nat
  /-- How many receivers there are. -/
  buckets : Nat
  buckets_pos : 0 < buckets
  hash : Bytes → Nat
  /-- The order from `begin()` to `end()`. -/
  order : WordCountMap → WordCountMap
  order_perm : ∀ m, (order m).Perm m

variable (setup : Setup)

/-- The inner loop of `processFile`: the counts, and the words that are not read yet. -/
def countWords : WordCountMap → List Word → WordCountMap × List Word
  | m, [] => (m, [])
  | m, word :: words =>
      if setup.kMaxHashSize < (add word.1 1 m).length then (add word.1 1 m, words)
      else countWords (add word.1 1 m) words

theorem length_countWords (m : WordCountMap) (words : List Word) :
    (countWords setup m words).2.length ≤ words.length := by
  induction words generalizing m with
  | nil => exact Nat.le_refl _
  | cons word words ih =>
      rw [countWords]
      split
      · exact Nat.le_succ _
      · exact (ih _).trans (Nat.le_succ _)

theorem length_countWords_lt (m : WordCountMap) {words : List Word} (h : words ≠ []) :
    (countWords setup m words).2.length < words.length := by
  cases words with
  | nil => exact absurd rfl h
  | cons word words =>
      rw [countWords]
      split
      · exact Nat.lt_succ_self _
      · exact Nat.lt_succ_of_le (length_countWords setup _ _)

/-- The counts that `processFile` sends, one after the other. -/
def processFile (words : List Word) : List (Bytes × Int) :=
  if _h : words = [] then []
  else setup.order (countWords setup [] words).1 ++ processFile (countWords setup [] words).2
termination_by words.length
decreasing_by exact length_countWords_lt setup [] _h

abbrev WordCountSender := Nat → SendThrottler

/-- `buckets_[idx].send(it->first, it->second)` -/
def sendTo (s : WordCountSender) (p : Bytes × Int) : WordCountSender :=
  let idx := setup.hash p.1 % setup.buckets
  Function.update s idx ((s idx).send setup.g_batchSize p)

/-- `main` of the sender, with the words of its files. -/
def sender (files : List (List Word)) : WordCountSender :=
  let s := (files.flatMap (processFile setup)).foldl (sendTo setup) fun _ => {}
  fun idx => (s idx).disconnect

/-! ### The receiver -/

/-- `atoll` -/
def atoll (s : Bytes) : Int :=
  let (neg, s) := takeSign (s.dropWhile isSpace)
  signed neg (digitsValue (takeDigits s).1)

abbrev Conn := Nat

structure WordCountReceiver where
  senders : Int
  wordcounts : WordCountMap := []
  inputBuffer : Conn → Bytes := fun _ => []
  /-- The connections that have been shut down for a wrong format. -/
  shutdown : Conn → Bool := fun _ => false
  /-- What `output` has written. -/
  shard : Option WordCountMap := none

/-- The loop of `onMessage`: the counts, whether a line was wrong, and the rest of the buffer. -/
def messageLoop (wordcounts : WordCountMap) (wrong : Bool) (buf : Bytes) :
    WordCountMap × Bool × Bytes :=
  match _h : crlf? buf with
  | none => (wordcounts, wrong, buf)
  | some n =>
      match cutAt 9 (buf.take n) with
      | some (word, _) =>
          messageLoop (add word (atoll (buf.drop word.length)) wordcounts) wrong (buf.drop (n + 2))
      | none => messageLoop wordcounts true (buf.drop (n + 2))
termination_by buf.length
decreasing_by
  all_goals
    obtain ⟨line, rest, rfl, -, hlen⟩ := crlf?_eq_some _h
    simp only [crlf, List.length_drop, List.length_append, List.length_cons, List.length_nil]
    omega

namespace WordCountReceiver

def start (senders : Int) : WordCountReceiver := { senders }

def onMessage (s : WordCountReceiver) (conn : Conn) (bytes : Bytes) : WordCountReceiver :=
  let (wordcounts, wrong, buf) := messageLoop s.wordcounts false (s.inputBuffer conn ++ bytes)
  { s with
    wordcounts
    inputBuffer := Function.update s.inputBuffer conn buf
    shutdown := Function.update s.shutdown conn (s.shutdown conn || wrong) }

/-- `onConnection`, of a connection that is down. -/
def onDisconnection (s : WordCountReceiver) : WordCountReceiver :=
  let senders := s.senders - 1
  if senders = 0 then { s with senders, shard := some s.wordcounts } else { s with senders }

end WordCountReceiver

inductive Action where
  | message (conn : Conn) (bytes : Bytes)
  | down (conn : Conn)
deriving DecidableEq

/-- One callback. -/
def step (s : WordCountReceiver) : Action → WordCountReceiver
  | .message conn bytes => s.onMessage conn bytes
  | .down _ => s.onDisconnection

end WordCount
