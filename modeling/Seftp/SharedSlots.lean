import Mathlib.Data.Finset.Card

/-!
# A counter of slots and their holders

Parties share a counter with a limit. A party that holds no slot may take one while
the counter is below the limit; a party that holds one may give it back, which lowers
the counter but not below zero; a party that ends gives back what it holds and takes
nothing more. Beside the counter stand the set of holders, the set of parties that
have ended, how often each party has taken and given, and how often a slot was given
back to a counter at zero.

Whatever the order of actions, the counter is the number of holders, and the lower
bound is never met.
-/
namespace Seftp.SharedSlots

inductive SlotAction where
  | acquire | release | finish
  deriving DecidableEq, Repr

structure Slots (ι : Type) where
  limit : ℕ
  active : ℕ
  held : Finset ι
  ended : Finset ι
  taken : ι → ℕ
  given : ι → ℕ
  clamped : ℕ

section
variable {ι : Type} [DecidableEq ι]

namespace Slots

def acquire (s : Slots ι) (i : ι) : Slots ι :=
  if i ∈ s.held ∨ i ∈ s.ended ∨ s.limit ≤ s.active then s
  else { s with
    active := s.active + 1
    held := insert i s.held
    taken := Function.update s.taken i (s.taken i + 1) }

def release (s : Slots ι) (i : ι) : Slots ι :=
  if i ∈ s.held then { s with
    active := s.active - 1
    held := s.held.erase i
    given := Function.update s.given i (s.given i + 1)
    clamped := if s.active = 0 then s.clamped + 1 else s.clamped }
  else s

def finish (s : Slots ι) (i : ι) : Slots ι :=
  { s.release i with ended := insert i (s.release i).ended }

def act (s : Slots ι) : ι × SlotAction → Slots ι
  | (i, .acquire) => s.acquire i
  | (i, .release) => s.release i
  | (i, .finish) => s.finish i

def run (s : Slots ι) (as : List (ι × SlotAction)) : Slots ι := as.foldl act s

/-- Nobody holds anything. -/
def empty (limit : ℕ) : Slots ι :=
  { limit, active := 0, held := ∅, ended := ∅, taken := fun _ => 0, given := fun _ => 0,
    clamped := 0 }

theorem run_append (s : Slots ι) (as bs : List (ι × SlotAction)) :
    s.run (as ++ bs) = (s.run as).run bs := List.foldl_append ..

end Slots

/-- The counter and the books are right. -/
structure Exact (s : Slots ι) : Prop where
  active : s.active = s.held.card
  bounded : s.active ≤ s.limit
  ended : ∀ i ∈ s.ended, i ∉ s.held
  balance : ∀ i, s.taken i = s.given i + if i ∈ s.held then 1 else 0
  clamped : s.clamped = 0

theorem exact_empty (limit : ℕ) : Exact (Slots.empty limit : Slots ι) :=
  ⟨rfl, Nat.zero_le _, fun i h => absurd h (Finset.notMem_empty i), fun _ => rfl, rfl⟩

variable {s : Slots ι}

theorem Exact.acquire (h : Exact s) (i : ι) : Exact (s.acquire i) := by
  unfold Slots.acquire
  by_cases hno : i ∈ s.held ∨ i ∈ s.ended ∨ s.limit ≤ s.active
  · rw [if_pos hno]
    exact h
  rw [if_neg hno]
  rw [not_or, not_or, Nat.not_le] at hno
  refine ⟨?_, hno.2.2, ?_, ?_, h.clamped⟩
  · change s.active + 1 = (insert i s.held).card
    rw [Finset.card_insert_of_notMem hno.1, h.active]
  · intro j hj hin
    rcases Finset.mem_insert.mp hin with rfl | hin
    · exact hno.2.1 hj
    · exact h.ended j hj hin
  · intro j
    have hj := h.balance j
    by_cases hji : j = i
    · subst hji
      rw [if_neg hno.1] at hj
      simp [hj]
    · simp [hji, hj]

theorem Exact.release (h : Exact s) (i : ι) : Exact (s.release i) := by
  unfold Slots.release
  by_cases hin : i ∈ s.held
  · rw [if_pos hin]
    have hcard := Finset.card_erase_add_one hin
    have hbound := h.bounded
    have hactive := h.active
    refine ⟨?_, ?_, ?_, ?_, ?_⟩
    · change s.active - 1 = (s.held.erase i).card
      omega
    · change s.active - 1 ≤ s.limit
      omega
    · intro j hj hmem
      exact h.ended j hj (Finset.mem_of_mem_erase hmem)
    · intro j
      have hj := h.balance j
      by_cases hji : j = i
      · subst hji
        rw [if_pos hin] at hj
        simp [hj]
      · simp [hji, hj]
    · change (if s.active = 0 then s.clamped + 1 else s.clamped) = 0
      rw [if_neg (by omega), h.clamped]
  · rw [if_neg hin]
    exact h

theorem not_held_release (s : Slots ι) (i : ι) : i ∉ (s.release i).held := by
  unfold Slots.release
  by_cases hin : i ∈ s.held
  · rw [if_pos hin]
    exact Finset.notMem_erase i s.held
  · rw [if_neg hin]
    exact hin

theorem Exact.finish (h : Exact s) (i : ι) : Exact (s.finish i) := by
  have hr := h.release i
  refine ⟨hr.active, hr.bounded, ?_, hr.balance, hr.clamped⟩
  intro j hj
  rcases Finset.mem_insert.mp hj with rfl | hj
  · exact not_held_release s j
  · exact hr.ended j hj

theorem limit_act (s : Slots ι) (a : ι × SlotAction) : (s.act a).limit = s.limit := by
  obtain ⟨i, a⟩ := a
  have hrelease : (s.release i).limit = s.limit := by
    unfold Slots.release
    split <;> rfl
  cases a with
  | acquire =>
      change (s.acquire i).limit = s.limit
      unfold Slots.acquire
      split <;> rfl
  | release => exact hrelease
  | finish => exact hrelease

theorem limit_run (s : Slots ι) (as : List (ι × SlotAction)) : (s.run as).limit = s.limit := by
  induction as generalizing s with
  | nil => rfl
  | cons a as ih => exact (ih (s.act a)).trans (limit_act s a)

theorem Exact.act (h : Exact s) (a : ι × SlotAction) : Exact (s.act a) := by
  obtain ⟨i, a⟩ := a
  cases a with
  | acquire => exact h.acquire i
  | release => exact h.release i
  | finish => exact h.finish i

theorem Exact.run (h : Exact s) (as : List (ι × SlotAction)) : Exact (s.run as) := by
  induction as generalizing s with
  | nil => exact h
  | cons a as ih => exact ih (h.act a)
end

end Seftp.SharedSlots
