import Seftp.EventRuns

/-!
# A server behind a queue

Messages wait in a queue and are handled in their order, at a pace that is decided
elsewhere. What the server has done once nothing waits does not depend on the pace:
every move of the queue keeps the settled state, and a new message is one more step of
it.
-/
namespace Seftp.Pipeline
open EventRuns

/-- A server and the messages that are on their way to it. -/
structure Pipe (S M : Type) where
  state : S
  underway : List M

namespace Pipe

section
variable {S M : Type} (handle : S → M → S)

/-- The state once everything underway has been handled. -/
def settled (p : Pipe S M) : S := run handle p.state p.underway

def push (m : M) (p : Pipe S M) : Pipe S M := { p with underway := p.underway ++ [m] }

/-- Handle so many messages, or all if there are fewer. -/
def advance (n : ℕ) (p : Pipe S M) : Pipe S M :=
  { state := run handle p.state (p.underway.take n), underway := p.underway.drop n }

/-- Handle messages until the state is the wanted one or nothing is underway. -/
def advanceUntil (wanted : S → Bool) : S → List M → Pipe S M
  | s, [] => { state := s, underway := [] }
  | s, m :: ms =>
      if wanted s then { state := s, underway := m :: ms } else advanceUntil wanted (handle s m) ms

variable {handle} {p : Pipe S M} {wanted : S → Bool} {s : S} {ms : List M}

theorem settled_push (m : M) : (p.push m).settled handle = handle (p.settled handle) m :=
  run_append handle p.state p.underway [m]

theorem settled_advance (n : ℕ) : (p.advance handle n).settled handle = p.settled handle := by
  rw [settled, settled, advance, ← run_append, List.take_append_drop]

theorem settled_advanceUntil :
    (advanceUntil handle wanted s ms).settled handle = run handle s ms := by
  induction ms generalizing s with
  | nil => rfl
  | cons m ms ih =>
      rw [advanceUntil]
      split_ifs
      · rfl
      · exact ih

/-- The wait ends with the wanted state or with an empty queue. -/
theorem advanceUntil_ends (handle : S → M → S) (wanted : S → Bool) (s : S) (ms : List M) :
    wanted (advanceUntil handle wanted s ms).state = true ∨
    (advanceUntil handle wanted s ms).underway = [] := by
  induction ms generalizing s with
  | nil => exact .inr rfl
  | cons m ms ih =>
      rw [advanceUntil]
      split_ifs with h
      · exact .inl h
      · exact ih (handle s m)

/-- The state that the wait ends in is one of the run. -/
theorem advanceUntil_run (handle : S → M → S) (wanted : S → Bool) (s : S) (ms : List M) :
    ∃ n, (advanceUntil handle wanted s ms).state = run handle s (ms.take n) := by
  induction ms generalizing s with
  | nil => exact ⟨0, rfl⟩
  | cons m ms ih =>
      rw [advanceUntil]
      split_ifs
      · exact ⟨0, rfl⟩
      · obtain ⟨n, hn⟩ := ih (handle s m)
        exact ⟨n + 1, hn⟩

end

end Pipe

end Seftp.Pipeline
