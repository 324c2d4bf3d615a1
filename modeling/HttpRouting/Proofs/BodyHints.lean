import HttpRouting.Message.Body
import Mathlib

/-!
# What a body promises of its frames

At every place of its reading a body tells bounds for the data bytes to come, and whether it has
ended, and both are so; once a read has met the end, all later ones do.  Where the body comes from
a stream of another kind, this rests on that stream alone: it may have no end, but it must promise
nothing and stay at its end.  A body seen as a stream is read as the body itself.
-/

namespace HttpRouting

def Poll.size : Poll → Nat
  | .ready (some (.data bytes)) => bytes.length
  | _ => 0

namespace FrameSource

variable {σ τ : Type} [FrameSource σ] [FrameSource τ]

def after : Nat → σ → σ
  | 0, s => s
  | n + 1, s => after n (poll s).2

def dataWithin : Nat → σ → Nat
  | 0, _ => 0
  | n + 1, s => (poll s).1.size + dataWithin n (poll s).2

/-- All data bytes to come, be they ever so many. -/
noncomputable def dataToCome (s : σ) : ℕ∞ := ⨆ n, (dataWithin n s : ℕ∞)

/-- What a source tells beforehand is so, and its end is final. -/
structure Truthful (s : σ) : Prop where
  lower : ((hint s).lower : ℕ∞) ≤ dataToCome s
  upper : ∀ bound ∈ (hint s).upper, dataToCome s ≤ bound
  ended : (hint s).ended = true → ∀ n, (poll (after n s)).1 = .ready none
  final : (poll s).1 = .ready none → ∀ n, (poll (after n s)).1 = .ready none

/-- A source that tells nothing at any place, and whose end is final. -/
structure Unpromising (s : σ) : Prop where
  hint : ∀ n, hint (after n s) = ⟨0, none, false⟩
  final : ∀ n, (poll (after n s)).1 = .ready none → (poll (after (n + 1) s)).1 = .ready none

theorem after_add (m n : Nat) (s : σ) : after (m + n) s = after n (after m s) := by
  induction m generalizing s with
  | zero => rw [Nat.zero_add]; rfl
  | succ m ih => rw [Nat.succ_add]; exact ih (poll s).2

theorem Unpromising.after {s : σ} (h : Unpromising s) (n : Nat) :
    Unpromising (FrameSource.after n s) := by
  constructor
  · intro m
    rw [← after_add]
    exact h.hint (n + m)
  · intro m hend
    rw [← after_add] at hend ⊢
    exact h.final (n + m) hend

theorem Unpromising.truthful {s : σ} (h : Unpromising s) : Truthful s := by
  have hhint : FrameSource.hint s = ⟨0, none, false⟩ := h.hint 0
  constructor
  · simp [hhint]
  · simp [hhint]
  · simp [hhint]
  · intro hend n
    induction n with
    | zero => exact hend
    | succ n ih => exact h.final n ih

theorem unpromising_frames (frames : List Frame) : Unpromising frames := by
  constructor
  · intro n
    rfl
  · intro n hend
    rw [after_add]
    cases hleft : FrameSource.after n frames with
    | nil => rfl
    | cons frame rest =>
        rw [hleft] at hend
        simp [poll] at hend

/-! ## Sources that are read as others -/

structure Transparent (f : σ → τ) : Prop where
  poll_eq : ∀ s, poll (f s) = ((poll s).1, f (poll s).2)
  hint_eq : ∀ s, hint (f s) = hint s

namespace Transparent

variable {f : σ → τ}

theorem after_eq (hf : Transparent f) (n : Nat) (s : σ) : after n (f s) = f (after n s) := by
  induction n generalizing s with
  | zero => rfl
  | succ n ih => rw [after, after, hf.poll_eq, ih]

theorem poll_after (hf : Transparent f) (n : Nat) (s : σ) :
    (poll (after n (f s))).1 = (poll (after n s)).1 := by
  rw [hf.after_eq, hf.poll_eq]

theorem hint_after (hf : Transparent f) (n : Nat) (s : σ) :
    hint (after n (f s)) = hint (after n s) := by
  rw [hf.after_eq, hf.hint_eq]

theorem dataToCome_eq (hf : Transparent f) (s : σ) : dataToCome (f s) = dataToCome s := by
  have hwithin : ∀ n s, dataWithin n (f s) = dataWithin n s := by
    intro n
    induction n with
    | zero => intro s; rfl
    | succ n ih => intro s; rw [dataWithin, dataWithin, hf.poll_eq, ih]
  simp only [dataToCome, hwithin]

theorem truthful (hf : Transparent f) {s : σ} (h : Truthful s) : Truthful (f s) := by
  have hpoll : (poll (f s)).1 = (poll s).1 := hf.poll_after 0 s
  constructor
  · rw [hf.hint_eq, hf.dataToCome_eq]
    exact h.lower
  · rw [hf.hint_eq, hf.dataToCome_eq]
    exact h.upper
  · intro hended n
    rw [hf.hint_eq] at hended
    rw [hf.poll_after]
    exact h.ended hended n
  · intro hend n
    rw [hpoll] at hend
    rw [hf.poll_after]
    exact h.final hend n

theorem iterate {f : σ → σ} (hf : Transparent f) (depth : Nat) : Transparent f^[depth] := by
  induction depth with
  | zero => exact ⟨fun _ => rfl, fun _ => rfl⟩
  | succ depth ih =>
      constructor
      · intro s
        rw [Function.iterate_succ_apply, ih.poll_eq, hf.poll_eq, Function.iterate_succ_apply]
      · intro s
        rw [Function.iterate_succ_apply, ih.hint_eq, hf.hint_eq]

end Transparent

end FrameSource

namespace BodyOver

open FrameSource

variable {σ : Type} [FrameSource σ]

theorem transparent_stream : Transparent (stream : σ → BodyOver σ) :=
  ⟨fun _ => rfl, fun _ => rfl⟩

theorem transparent_wrapped : Transparent (wrapped : BodyOver σ → BodyOver σ) :=
  ⟨fun _ => rfl, fun _ => rfl⟩

def source? : BodyOver σ → Option σ
  | .once _ => none
  | .stream source => some source
  | .wrapped inner => inner.source?

theorem source?_poll (b : BodyOver σ) :
    (FrameSource.poll b).2.source? = b.source?.map fun s => (FrameSource.poll s).2 := by
  induction b with
  | once bytes => cases bytes <;> rfl
  | stream source => rfl
  | wrapped inner ih => exact ih

theorem source?_after (n : Nat) (b : BodyOver σ) :
    (after n b).source? = b.source?.map (after n) := by
  induction n generalizing b with
  | zero => simp [after]
  | succ n ih => rw [after, ih, source?_poll, Option.map_map]; rfl

/-! ## Bodies that hold their bytes -/

theorem after_once_none (n : Nat) : after n (.once none : BodyOver σ) = .once none := by
  induction n with
  | zero => rfl
  | succ n ih => exact ih

theorem dataWithin_once_none (n : Nat) : dataWithin n (.once none : BodyOver σ) = 0 := by
  induction n with
  | zero => rfl
  | succ n ih =>
      rw [dataWithin]
      exact (Nat.zero_add _).trans ih

theorem dataWithin_once_some (bytes : Text.Utf8.Bytes) (n : Nat) :
    dataWithin (n + 1) (.once (some bytes) : BodyOver σ) = bytes.length :=
  congrArg (bytes.length + ·) (dataWithin_once_none n)

theorem truthful_once_none : Truthful (.once none : BodyOver σ) := by
  have hpoll : ∀ n, (FrameSource.poll (after n (.once none : BodyOver σ))).1 = .ready none := by
    intro n
    rw [after_once_none]
    rfl
  constructor
  · exact zero_le
  · rintro _ ⟨⟩
    simp [dataToCome, dataWithin_once_none]
  · exact fun _ => hpoll
  · exact fun _ => hpoll

theorem truthful_once_some (bytes : Text.Utf8.Bytes) :
    Truthful (.once (some bytes) : BodyOver σ) := by
  constructor
  · refine le_iSup_of_le 1 ?_
    rw [dataWithin_once_some]
    exact le_rfl
  · rintro _ ⟨⟩
    refine iSup_le fun n => ?_
    cases n with
    | zero => exact zero_le
    | succ n => rw [dataWithin_once_some]
  · nofun
  · nofun

/-! ## All bodies -/

theorem truthful (b : BodyOver σ) (hsource : ∀ s ∈ b.source?, Unpromising s) : Truthful b := by
  induction b with
  | once bytes =>
      cases bytes with
      | none => exact truthful_once_none
      | some bytes => exact truthful_once_some bytes
  | stream source => exact transparent_stream.truthful (hsource source rfl).truthful
  | wrapped inner ih => exact transparent_wrapped.truthful (ih hsource)

theorem upper_eq_lower {b : BodyOver σ} (h : b.source? = none) :
    (FrameSource.hint b).upper = some (FrameSource.hint b).lower := by
  induction b with
  | once bytes => cases bytes <;> rfl
  | stream source => contradiction
  | wrapped inner ih => exact ih h

/-- At every place of its reading, what a body tells of the rest is so, to the byte if the body
does not come from a stream of another kind, and its end is final.  Seen as a stream of its own, any
number of times, it is read as before. -/
theorem truthful_throughout (b : BodyOver σ) (hsource : ∀ s ∈ b.source?, Unpromising s) (n : Nat) :
    Truthful (after n b) ∧
      (b.source? = none →
        (FrameSource.hint (after n b)).upper = some (FrameSource.hint (after n b)).lower) ∧
      ∀ depth,
        (FrameSource.poll (after n (wrapped^[depth] b))).1 = (FrameSource.poll (after n b)).1 ∧
          FrameSource.hint (after n (wrapped^[depth] b)) = FrameSource.hint (after n b) := by
  refine ⟨?_, ?_, fun depth => ?_⟩
  · apply truthful
    intro s hs
    rw [source?_after] at hs
    obtain ⟨source, hsource', rfl⟩ := Option.map_eq_some_iff.mp hs
    exact (hsource source hsource').after n
  · intro hheld
    apply upper_eq_lower
    rw [source?_after, hheld]
    rfl
  · have hwrapped : Transparent (wrapped : BodyOver σ → BodyOver σ)^[depth] :=
      transparent_wrapped.iterate depth
    exact ⟨hwrapped.poll_after n b, hwrapped.hint_after n b⟩

def interrupted : Body := .wrapped (.stream [.data [104, 105], .failure "lost", .data [33]])

theorem truthful_throughout_interrupted :
    (Truthful (after 2 interrupted) ∧
        (FrameSource.poll (after 2 (wrapped^[3] interrupted))).1 = .ready (some (.data [33])) ∧
        FrameSource.hint (after 2 (wrapped^[3] interrupted)) = ⟨0, none, false⟩) ∧
      Truthful (after 0 (wrapped (Body.ofBytes []))) ∧
      (FrameSource.hint (after 0 (wrapped (Body.ofBytes [])))).upper = some 0 := by
  have hsource : ∀ s ∈ interrupted.source?, Unpromising s :=
    fun s _ => unpromising_frames s
  have hheld : ∀ s ∈ (wrapped (Body.ofBytes [])).source?, Unpromising s :=
    fun s _ => unpromising_frames s
  obtain ⟨htruthful, -, hwrapped⟩ := truthful_throughout interrupted hsource 2
  obtain ⟨htruthful', hexact, -⟩ := truthful_throughout (wrapped (Body.ofBytes [])) hheld 0
  exact ⟨⟨htruthful, (hwrapped 3).1, (hwrapped 3).2⟩, htruthful', hexact rfl⟩

end BodyOver

end HttpRouting
