/-
Cutting a byte stream into frames, and why the cuts of the network do not matter.

A framing says how long the first frame of a stream is, as soon as enough of the
stream has arrived to tell.  A reader keeps what has not been consumed, and on
every delivery takes complete frames off the front until none is left.  The two
laws a framing carries — a frame is not empty, and more bytes do not change what
the first ones say — are all that is needed for the reader to see the same frames
in the same order however the stream was split.

The frames are handled in a monad, so that handling one may fail, stop the reader,
or talk to the outside; the equations hold of the whole computation and not only
of the state it returns.
-/
import Muduo.Lib.Bytes

namespace Lib

/-- How a stream of bytes falls into frames. -/
structure Framing where
  /-- The length of the first frame, once its head is there. -/
  size? : Bytes → Option Nat
  pos : ∀ {b n}, size? b = some n → 0 < n
  mono : ∀ {b n} (c : Bytes), size? b = some n → size? (b ++ c) = some n

namespace Framing

variable (F : Framing)

/-- The first frame, if all of it has arrived, and what follows it. -/
def next? (b : Bytes) : Option (Bytes × Bytes) :=
  match F.size? b with
  | none => none
  | some n => if n ≤ b.length then some (b.take n, b.drop n) else none

/-- Exactly one frame. -/
def IsFrame (f : Bytes) : Prop := F.size? f = some f.length

/-- No complete frame yet. -/
def Incomplete (b : Bytes) : Prop := F.next? b = none

variable {F}

theorem next?_eq_some {b f rest : Bytes} (h : F.next? b = some (f, rest)) :
    b = f ++ rest ∧ F.size? b = some f.length ∧ 0 < f.length := by
  unfold next? at h
  split at h
  · exact absurd h (by simp)
  · rename_i n hn
    by_cases hle : n ≤ b.length
    · rw [if_pos hle] at h
      simp only [Option.some.injEq, Prod.mk.injEq] at h
      obtain ⟨rfl, rfl⟩ := h
      have hlen : (b.take n).length = n := by simp [hle]
      exact ⟨(List.take_append_drop n b).symm, by rw [hlen]; exact hn, by rw [hlen]; exact F.pos hn⟩
    · rw [if_neg hle] at h
      exact absurd h (by simp)

theorem next?_rest_lt {b f rest : Bytes} (h : F.next? b = some (f, rest)) :
    rest.length < b.length := by
  obtain ⟨hb, -, hpos⟩ := next?_eq_some h
  rw [hb, List.length_append]
  omega

/-- A frame that has arrived stays the first one when more arrives. -/
theorem next?_append {b f rest : Bytes} (h : F.next? b = some (f, rest)) (c : Bytes) :
    F.next? (b ++ c) = some (f, rest ++ c) := by
  obtain ⟨hb, hsize, -⟩ := next?_eq_some h
  unfold next?
  rw [F.mono c hsize, hb]
  simp

theorem next?_of_isFrame {f : Bytes} (h : F.IsFrame f) (rest : Bytes) :
    F.next? (f ++ rest) = some (f, rest) := by
  unfold next?
  rw [F.mono rest h]
  simp

theorem incomplete_nil : F.Incomplete [] := by
  unfold Incomplete next?
  split
  · rfl
  · rename_i n hn
    have := F.pos hn
    exact if_neg (by simp only [List.length_nil]; omega)

/-- A frame that has not arrived to its end has not arrived. -/
theorem incomplete_of_prefix {f b : Bytes} (hf : F.IsFrame f) (hb : b <+: f) (hne : b ≠ f) :
    F.Incomplete b := by
  obtain ⟨c, rfl⟩ := hb
  unfold Incomplete
  cases hnext : F.next? b with
  | none => rfl
  | some fr =>
      obtain ⟨g, rest⟩ := fr
      obtain ⟨hg, hsize, -⟩ := next?_eq_some hnext
      have hlen : g.length = (b ++ c).length := by
        have := F.mono c hsize
        rw [IsFrame, this] at hf
        exact Option.some.inj hf
      rw [hg, List.length_append, List.length_append] at hlen
      have hc : c = [] := List.eq_nil_of_length_eq_zero (by omega)
      exact absurd (by rw [hc, List.append_nil]) hne

/-- What has arrived of a stream of whole frames: some of them, and an unfinished one. -/
theorem exists_arrived {frames : List Bytes} (hf : ∀ f ∈ frames, F.IsFrame f) {b later : Bytes}
    (h : b ++ later = frames.flatten) : ∃ done rest tail, frames = done ++ rest ∧
      b = done.flatten ++ tail ∧ tail ++ later = rest.flatten ∧ F.Incomplete tail := by
  induction frames generalizing b with
  | nil =>
      obtain ⟨rfl, rfl⟩ := List.append_eq_nil_iff.mp h
      exact ⟨[], [], [], rfl, rfl, rfl, incomplete_nil⟩
  | cons f frames ih =>
      have hframe := hf f List.mem_cons_self
      rw [List.flatten_cons] at h
      by_cases hall : f <+: b
      · obtain ⟨b', rfl⟩ := hall
        rw [List.append_assoc] at h
        obtain ⟨done, rest, tail, hframes, hb', hrest, htail⟩ :=
          ih (fun g hg => hf g (List.mem_cons_of_mem f hg)) (List.append_cancel_left h)
        refine ⟨f :: done, rest, tail, ?_, ?_, hrest, htail⟩
        · rw [hframes, List.cons_append]
        · rw [List.flatten_cons, List.append_assoc, hb']
      · have hpre : b <+: f := by
          have hb : b <+: f ++ frames.flatten := ⟨later, h⟩
          exact (List.prefix_or_prefix_of_prefix hb (List.prefix_append f _)).resolve_right hall
        refine ⟨[], f :: frames, b, rfl, rfl, h, incomplete_of_prefix hframe hpre fun hbf => ?_⟩
        exact hall (hbf ▸ List.prefix_refl f)

/-! ### The reader -/

variable {m : Type → Type} [Monad m] {σ : Type}

/-- Take complete frames off the front until none is left. -/
def drain (F : Framing) (handle : σ → Bytes → m σ) (s : σ) (b : Bytes) : m (σ × Bytes) :=
  match _h : F.next? b with
  | none => pure (s, b)
  | some (f, rest) => do
      let s ← handle s f
      drain F handle s rest
termination_by b.length
decreasing_by exact next?_rest_lt _h

variable {handle : σ → Bytes → m σ}

theorem drain_none {b : Bytes} (h : F.Incomplete b) (s : σ) :
    drain F handle s b = pure (s, b) := by
  rw [drain]
  split
  · rfl
  · rename_i f rest hsome
    rw [Incomplete] at h
    rw [h] at hsome
    exact absurd hsome (by simp)

theorem drain_some {b f rest : Bytes} (h : F.next? b = some (f, rest)) (s : σ) :
    drain F handle s b = (handle s f >>= fun s => drain F handle s rest) := by
  rw [drain]
  split
  · rename_i hnone
    rw [h] at hnone
    exact absurd hnone (by simp)
  · rename_i f' rest' hsome
    rw [h] at hsome
    simp only [Option.some.injEq, Prod.mk.injEq] at hsome
    obtain ⟨rfl, rfl⟩ := hsome
    rfl

variable [LawfulMonad m]

/-- Draining a longer stream is draining its beginning and going on from there. -/
theorem drain_append (b c : Bytes) : ∀ s : σ,
    drain F handle s (b ++ c)
      = (drain F handle s b >>= fun st => drain F handle st.1 (st.2 ++ c)) := by
  induction hn : b.length using Nat.strong_induction_on generalizing b with
  | _ n ih =>
      subst hn
      intro s
      cases hnext : F.next? b with
      | none => rw [drain_none hnext, pure_bind]
      | some fr =>
          obtain ⟨f, rest⟩ := fr
          rw [drain_some hnext, drain_some (next?_append hnext c), bind_assoc]
          exact bind_congr fun s' => ih rest.length (next?_rest_lt hnext) rest rfl s'

/-- One delivery: what was left over and what has just arrived. -/
def feed (F : Framing) (handle : σ → Bytes → m σ) (st : σ × Bytes) (chunk : Bytes) :
    m (σ × Bytes) :=
  drain F handle st.1 (st.2 ++ chunk)

/-- **The splitting of the stream does not matter.**  Feeding it piece by piece is
draining it at once. -/
theorem feedAll_eq_drain (chunks : List Bytes) : ∀ (s : σ) (b : Bytes), F.Incomplete b →
    chunks.foldlM (feed F handle) (s, b) = drain F handle s (b ++ chunks.flatten) := by
  suffices h : ∀ (s : σ) (b : Bytes),
      (drain F handle s b >>= chunks.foldlM (feed F handle))
        = drain F handle s (b ++ chunks.flatten) by
    intro s b hb
    have := h s b
    rwa [drain_none hb, pure_bind] at this
  induction chunks with
  | nil => intro s b; simp [List.foldlM]
  | cons chunk rest ih =>
      intro s b
      rw [List.flatten_cons, ← List.append_assoc, ← ih s (b ++ chunk), drain_append b chunk,
        bind_assoc]
      exact bind_congr fun st => by rw [List.foldlM_cons]; rfl

/-- A stream of whole frames and an unfinished one: the frames are handled in
order and the unfinished one is left. -/
theorem drain_frames (frames : List Bytes) (tail : Bytes) (hf : ∀ f ∈ frames, F.IsFrame f)
    (ht : F.Incomplete tail) : ∀ s : σ,
    drain F handle s (frames.flatten ++ tail)
      = (frames.foldlM handle s >>= fun s => pure (s, tail)) := by
  induction frames with
  | nil => intro s; simp [drain_none ht]
  | cons f rest ih =>
      intro s
      have hnext : F.next? (f ++ (rest.flatten ++ tail)) = some (f, rest.flatten ++ tail) :=
        next?_of_isFrame (hf f (by simp)) _
      rw [List.flatten_cons, List.append_assoc, drain_some hnext, List.foldlM_cons, bind_assoc]
      exact bind_congr fun s' => ih (fun g hg => hf g (by simp [hg])) s'

/-- What handling a frame preserves, draining preserves. -/
theorem drain_inv {F : Framing} {σ : Type} {handle : σ → Bytes → σ} {Inv : σ → Prop}
    (h : ∀ s f, Inv s → Inv (handle s f)) (b : Bytes) {s : σ} (hs : Inv s) :
    Inv (Id.run (drain F (fun s f => pure (handle s f)) s b)).1 := by
  induction hn : b.length using Nat.strong_induction_on generalizing b s with
  | _ n ih =>
      subst hn
      cases hnext : F.next? b with
      | none => rwa [drain_none hnext]
      | some fr =>
          obtain ⟨f, rest⟩ := fr
          rw [drain_some hnext]
          exact ih rest.length (next?_rest_lt hnext) rest (h s f hs) rfl

end Framing

end Lib
