/-
Objects whose operations take effect at one moment.

An object says what a call returns and what it leaves, and in which states it cannot return
yet.  A thread calls it, the call takes effect at some moment, and then the thread gets the
result.  The calls and returns that have been seen make the history of the object.
-/
import Mathlib.Logic.Function.Basic
import Mathlib.Logic.Relation

namespace Lib

/-- An object in its own terms: a call in a state has a result and leaves a state, or waits. -/
structure AtomicObject (σ κ ρ : Type*) where
  init : σ
  apply : κ → σ → Option (ρ × σ)

/-- What is seen of an object from outside. -/
inductive ObjectEvent (τ κ ρ : Type*) where
  | call (t : τ) (c : κ)
  | ret (t : τ) (c : κ) (r : ρ)

/-- Where a thread is with its call. -/
inductive CallStage (κ ρ : Type*) where
  | outside
  | called (c : κ)
  | done (c : κ) (r : ρ)

namespace AtomicObject

variable {σ κ ρ τ : Type*}

/-- The object, its threads, and what has been seen. -/
structure State (σ κ ρ τ : Type*) where
  object : σ
  stage : τ → CallStage κ ρ
  history : List (ObjectEvent τ κ ρ)

def start (O : AtomicObject σ κ ρ) : State σ κ ρ τ := ⟨O.init, fun _ => .outside, []⟩

/-- A thread calls, its call takes effect, or it returns. -/
inductive Step [DecidableEq τ] (O : AtomicObject σ κ ρ) : State σ κ ρ τ → State σ κ ρ τ → Prop
  | call {q : σ} {stage : τ → CallStage κ ρ} {history : List (ObjectEvent τ κ ρ)} {t : τ} (c : κ)
      (hstage : stage t = .outside) :
      Step O ⟨q, stage, history⟩ ⟨q, Function.update stage t (.called c), history ++ [.call t c]⟩
  | commit {q q' : σ} {stage : τ → CallStage κ ρ} {history : List (ObjectEvent τ κ ρ)} {t : τ}
      {c : κ} {r : ρ} (hstage : stage t = .called c) (happly : O.apply c q = some (r, q')) :
      Step O ⟨q, stage, history⟩ ⟨q', Function.update stage t (.done c r), history⟩
  | ret {q : σ} {stage : τ → CallStage κ ρ} {history : List (ObjectEvent τ κ ρ)} {t : τ} {c : κ}
      {r : ρ} (hstage : stage t = .done c r) :
      Step O ⟨q, stage, history⟩ ⟨q, Function.update stage t .outside, history ++ [.ret t c r]⟩

def Reachable [DecidableEq τ] (O : AtomicObject σ κ ρ) (s : State σ κ ρ τ) : Prop :=
  Relation.ReflTransGen (Step O) O.start s

end AtomicObject

end Lib
