import Seftp.ExceptState
import Mathlib.Data.List.Basic

/-!
# Reading from a source that yields pieces

A source holds a finite stream and yields, at each call, some number of items from
its front: at most what was asked for, and at least one while there are any. How
many is decided by the source's own state. Collecting until `n` items are there
gives the first `n` items of the stream, or fails where the stream is shorter.
-/
namespace Seftp.PartialReads
open ExceptState

/-- A source over the state `τ`, with what is still to come. -/
structure Source (α τ : Type) where
  read : τ → ℕ → List α × τ
  rest : τ → List α
  front : ∀ t n, rest t = (read t n).1 ++ rest (read t n).2
  bounded : ∀ t n, (read t n).1.length ≤ n
  progress : ∀ t n, 0 < n → rest t ≠ [] → (read t n).1 ≠ []

section
variable {α τ ε : Type}

/-- Call the source until `n` items have come; a call that yields none is the end. -/
def collect (src : Source α τ) (eof : ε) (n : ℕ) : Prog τ ε (List α) := fun t =>
  if n = 0 then (.ok [], t)
  else if (src.read t n).1 = [] then (.error eof, (src.read t n).2)
  else
    match collect src eof (n - (src.read t n).1.length) (src.read t n).2 with
    | (.ok later, u) => (.ok ((src.read t n).1 ++ later), u)
    | (.error e, u) => (.error e, u)
termination_by n
decreasing_by
  have := List.length_pos_iff.mpr ‹_›
  omega

variable {src : Source α τ} {eof : ε}

/-- Enough is there. -/
theorem collect_ok {n : ℕ} {t : τ} (h : n ≤ (src.rest t).length) :
    ∃ u, collect src eof n t = (.ok ((src.rest t).take n), u) ∧
      src.rest u = (src.rest t).drop n := by
  induction n using Nat.strongRecOn generalizing t with
  | ind n ih =>
      rw [collect]
      by_cases hn : n = 0
      · rw [if_pos hn, hn]
        exact ⟨t, rfl, rfl⟩
      have hne : src.rest t ≠ [] := by
        intro he
        rw [he] at h
        exact hn (Nat.le_zero.mp h)
      have hpos := List.length_pos_iff.mpr (src.progress t n (by omega) hne)
      have hle := src.bounded t n
      have hfront := src.front t n
      rw [if_neg hn, if_neg (src.progress t n (by omega) hne)]
      generalize (src.read t n).1 = piece at *
      generalize (src.read t n).2 = t' at *
      rw [hfront, List.length_append] at h
      obtain ⟨u, hu, hrest⟩ := ih (n - piece.length) (by omega) (t := t') (by omega)
      refine ⟨u, ?_, ?_⟩
      · rw [hu, hfront, List.take_append, List.take_of_length_le hle]
      · rw [hrest, hfront, List.drop_append, List.drop_of_length_le hle, List.nil_append]

/-- The stream ends before. -/
theorem collect_short {n : ℕ} {t : τ} (h : (src.rest t).length < n) :
    ∃ u, collect src eof n t = (.error eof, u) ∧ src.rest u = [] := by
  induction n using Nat.strongRecOn generalizing t with
  | ind n ih =>
      have hle := src.bounded t n
      have hfront := src.front t n
      have hprogress := src.progress t n (by omega)
      rw [collect, if_neg (by omega)]
      generalize (src.read t n).1 = piece at *
      generalize (src.read t n).2 = t' at *
      by_cases hp : piece = []
      · have hempty : src.rest t = [] := by
          by_contra hne
          exact hprogress hne hp
        rw [if_pos hp]
        rw [hempty, hp] at hfront
        exact ⟨t', rfl, hfront.symm⟩
      · have hpos := List.length_pos_iff.mpr hp
        rw [hfront, List.length_append] at h
        obtain ⟨u, hu, hrest⟩ := ih (n - piece.length) (by omega) (t := t') (by omega)
        rw [if_neg hp, hu]
        exact ⟨u, rfl, hrest⟩
end

/-! ### A source that is told how much to yield -/

/-- Items still to come and the number of calls made. -/
structure Cursor (α : Type) where
  rest : List α
  calls : ℕ

/-- Yield what `sizes` says for the call, but at least one item and at most what is
asked for. -/
def sized {α : Type} (sizes : ℕ → ℕ) : Source α (Cursor α) where
  read t n := (t.rest.take (min n (max 1 (sizes t.calls))),
    { rest := t.rest.drop (min n (max 1 (sizes t.calls))), calls := t.calls + 1 })
  rest := Cursor.rest
  front t n := (List.take_append_drop _ t.rest).symm
  bounded t n := by
    rw [List.length_take]
    omega
  progress t n hn hr := by
    rw [ne_eq, List.take_eq_nil_iff, not_or]
    exact ⟨by omega, hr⟩

end Seftp.PartialReads
