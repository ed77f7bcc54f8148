import Mathlib.Algebra.Order.Group.Defs
import Mathlib.Algebra.Order.Group.Unbundled.Basic
import Mathlib.Data.List.Induction
import Mathlib.Data.List.TakeWhile

/-!
# A sliding window over a queue of times

A limiter keeps the times of the requests it has let in, oldest first. A request drops
the times that have left the window and is let in when fewer than `limit` are left. The
queue forgets, so the specification is over the whole list of the requests let in: the
invariant is that what the queue has forgotten had left the window of the latest
request, and so has left that of every later one.

Times are elements of any linearly ordered group.
-/
namespace Seftp.SlidingWindow

section
variable {α : Type} [LinearOrder α]

/-- In order of time the old entries stand in front. -/
theorem dropWhile_eq_filter {ts : List α} (h : ts.Pairwise (· ≤ ·)) (start : α) :
    ts.dropWhile (· < start) = ts.filter (start ≤ ·) := by
  induction ts with
  | nil => rfl
  | cons a ts ih =>
      obtain ⟨hfirst, hrest⟩ := List.pairwise_cons.mp h
      rcases lt_or_ge a start with ha | ha
      · rw [List.dropWhile_cons_of_pos (by simpa using ha), ih hrest,
          List.filter_cons_of_neg (by simpa using ha)]
      · rw [List.dropWhile_cons_of_neg (by simpa using ha), List.filter_eq_self.mpr]
        intro s hs
        rcases List.mem_cons.mp hs with rfl | hs
        · simpa using ha
        · simpa using ha.trans (hfirst s hs)

end

section
variable {α : Type} [AddCommGroup α] [LinearOrder α]

/-- Whether the request is let in, and the queue after it. -/
def allows (limit : ℕ) (width now : α) (queue : List α) : Bool × List α :=
  let kept := queue.dropWhile (· < now - width)
  if limit ≤ kept.length then (false, kept) else (true, kept ++ [now])

/-- The times in a closed interval. -/
def inside (a b : α) (ts : List α) : List α := ts.filter fun s => a ≤ s ∧ s ≤ b

/-- The requests let in so far, in order, and the queue. -/
structure Log (α : Type) where
  accepted : List α := []
  queue : List α := []

def Log.ask (limit : ℕ) (width : α) (g : Log α) (now : α) : Log α :=
  { accepted := if (allows limit width now g.queue).1 then g.accepted ++ [now] else g.accepted
    queue := (allows limit width now g.queue).2 }

/-- The requests at the given times, from an empty queue. -/
def Log.run (limit : ℕ) (width : α) (ts : List α) : Log α := ts.foldl (Log.ask limit width) {}

variable {limit : ℕ} {width now : α} {ts : List α} {g : Log α}

theorem run_snoc (ts : List α) (now : α) :
    Log.run limit width (ts ++ [now]) = (Log.run limit width ts).ask limit width now :=
  List.foldl_append

/-- The requests let in are requests of the run. -/
theorem accepted_sublist (ts : List α) : (Log.run limit width ts).accepted.Sublist ts := by
  induction ts using List.reverseRecOn with
  | nil => exact List.Sublist.refl _
  | append_singleton ts t ih =>
      rw [run_snoc, Log.ask]
      dsimp only
      split_ifs
      · exact ih.append (List.Sublist.refl _)
      · exact ih.trans (List.sublist_append_left ts [t])

/-- The queue after requests none of which is later than `now`. -/
structure Tracks (limit : ℕ) (width now : α) (g : Log α) : Prop where
  sorted : g.accepted.Pairwise (· ≤ ·)
  past : ∀ s ∈ g.accepted, s ≤ now
  /-- What the queue has forgotten is out of the window. -/
  forgotten : ∃ old, g.accepted = old ++ g.queue ∧ ∀ s ∈ old, s < now - width
  bounded : g.queue.length ≤ limit
  sparse : ∀ a, (inside a (a + width) g.accepted).length ≤ limit

theorem tracks_nil : Tracks limit width now ({} : Log α) :=
  ⟨.nil, fun _ hs => absurd hs List.not_mem_nil,
    ⟨[], rfl, fun _ hs => absurd hs List.not_mem_nil⟩, Nat.zero_le _, fun _ => Nat.zero_le _⟩

/-- What is left of the queue are the requests let in during the window. -/
theorem Tracks.kept_eq (h : Tracks limit width now g) :
    g.queue.dropWhile (· < now - width) = inside (now - width) now g.accepted := by
  obtain ⟨old, hold, hout⟩ := h.forgotten
  have hsorted := h.sorted
  have hpast := h.past
  rw [hold] at hsorted hpast ⊢
  have hold : inside (now - width) now old = [] := by
    apply List.filter_eq_nil_iff.mpr
    intro s hs hin
    exact absurd (decide_eq_true_eq.mp hin).1 (not_le_of_gt (hout s hs))
  rw [dropWhile_eq_filter (List.pairwise_append.mp hsorted).2.1]
  rw [inside, List.filter_append]
  change _ = inside (now - width) now old ++ _
  rw [hold, List.nil_append]
  apply List.filter_congr
  intro s hs
  have hle := hpast s (List.mem_append_right _ hs)
  simp [hle]

/-- A request is let in when the window has room. -/
theorem Tracks.allows_iff (h : Tracks limit width now g) :
    (allows limit width now g.queue).1 = true ↔
      (inside (now - width) now g.accepted).length < limit := by
  rw [allows, h.kept_eq]
  split_ifs with hfull
  · simpa using hfull
  · simpa using hfull

variable [IsOrderedAddMonoid α]

theorem Tracks.mono {later : α} (h : Tracks limit width now g) (hle : now ≤ later) :
    Tracks limit width later g := by
  obtain ⟨old, hold, hout⟩ := h.forgotten
  refine ⟨h.sorted, fun s hs => (h.past s hs).trans hle, ⟨old, hold, fun s hs => ?_⟩, h.bounded,
    h.sparse⟩
  exact (hout s hs).trans_le (sub_le_sub_right hle width)

/-- A request that is let in is in an interval with earlier ones of its window only. -/
theorem inside_snoc_le (h : Tracks limit width now g)
    (hroom : (inside (now - width) now g.accepted).length < limit) (a : α) :
    (inside a (a + width) (g.accepted ++ [now])).length ≤ limit := by
  rw [inside, List.filter_append, List.length_append]
  by_cases hin : a ≤ now ∧ now ≤ a + width
  · have hsub : (inside a (a + width) g.accepted).length ≤
        (inside (now - width) now g.accepted).length := by
      rw [inside, inside, ← List.countP_eq_length_filter, ← List.countP_eq_length_filter]
      apply List.countP_mono_left
      intro s hs hinside
      have hge := (decide_eq_true_eq.mp hinside).1
      exact decide_eq_true_eq.mpr ⟨(sub_le_iff_le_add.mpr hin.2).trans hge, h.past s hs⟩
    rw [List.filter_cons_of_pos (by simpa using hin)]
    exact Nat.add_le_of_le_sub (Nat.one_le_of_lt hroom)
      (Nat.le_sub_one_of_lt (Nat.lt_of_le_of_lt hsub hroom))
  · rw [List.filter_cons_of_neg (by simpa using hin)]
    exact h.sparse a

theorem Tracks.ask (h : Tracks limit width now g) :
    Tracks limit width now (g.ask limit width now) := by
  obtain ⟨old, hold, hout⟩ := h.forgotten
  have hsplit : g.queue.takeWhile (· < now - width) ++ g.queue.dropWhile (· < now - width) =
      g.queue := List.takeWhile_append_dropWhile
  -- what is dropped now joins what has been forgotten
  have hforgotten : ∃ old', g.accepted = old' ++ g.queue.dropWhile (· < now - width) ∧
      ∀ s ∈ old', s < now - width := by
    refine ⟨old ++ g.queue.takeWhile (· < now - width), ?_, fun s hs => ?_⟩
    · rw [List.append_assoc, hsplit, hold]
    · rcases List.mem_append.mp hs with hs | hs
      · exact hout s hs
      · simpa using List.mem_takeWhile_imp hs
  have hroom := h.allows_iff
  unfold Log.ask
  by_cases hfull : limit ≤ (g.queue.dropWhile (· < now - width)).length
  · have hallows : allows limit width now g.queue = (false, g.queue.dropWhile (· < now - width)) :=
      if_pos hfull
    rw [hallows]
    exact ⟨h.sorted, h.past, hforgotten, (List.dropWhile_sublist _).length_le.trans h.bounded,
      h.sparse⟩
  · have hallows : allows limit width now g.queue =
        (true, g.queue.dropWhile (· < now - width) ++ [now]) := if_neg hfull
    rw [hallows] at hroom ⊢
    refine ⟨?_, ?_, ?_, ?_, inside_snoc_le h (hroom.mp rfl)⟩
    · refine List.pairwise_append.mpr ⟨h.sorted, List.pairwise_singleton _ _, fun s hs t ht => ?_⟩
      rw [List.mem_singleton.mp ht]
      exact h.past s hs
    · intro s hs
      rcases List.mem_append.mp hs with hs | hs
      · exact h.past s hs
      · exact (List.mem_singleton.mp hs).le
    · obtain ⟨old', hold', hout'⟩ := hforgotten
      refine ⟨old', ?_, hout'⟩
      dsimp only
      rw [if_pos rfl, hold', List.append_assoc]
    · rw [List.length_append, List.length_singleton]
      omega

/-- Requests in order of time keep the invariant. -/
theorem tracks_run (h : (ts ++ [now]).Pairwise (· ≤ ·)) :
    Tracks limit width now (Log.run limit width ts) := by
  induction ts using List.reverseRecOn generalizing now with
  | nil => exact tracks_nil
  | append_singleton ts t ih =>
      have hle : t ≤ now := (List.pairwise_append.mp h).2.2 t (by simp) now (by simp)
      rw [run_snoc]
      exact (ih (List.pairwise_append.mp h).1).ask.mono hle

/-- Without the requests that were turned away the same ones are let in. -/
theorem run_accepted (h : ts.Pairwise (· ≤ ·)) :
    (Log.run limit width (Log.run limit width ts).accepted).accepted =
      (Log.run limit width ts).accepted := by
  induction ts using List.reverseRecOn with
  | nil => rfl
  | append_singleton ts t ih =>
      have hsame := ih (List.pairwise_append.mp h).1
      rw [run_snoc]
      generalize hg : Log.run limit width ts = g at hsame ⊢
      rw [Log.ask]
      dsimp only
      split_ifs with hin
      · have hsorted : (g.accepted ++ [t]).Pairwise (· ≤ ·) := by
          refine h.sublist ?_
          rw [← hg]
          exact (accepted_sublist ts).append (List.Sublist.refl _)
        have hroom := (tracks_run h).allows_iff.mp (hg ▸ hin)
        rw [hg] at hroom
        have hagain : (allows limit width t (Log.run limit width g.accepted).queue).1 = true := by
          rw [(tracks_run hsorted).allows_iff, hsame]
          exact hroom
        rw [run_snoc, Log.ask]
        dsimp only
        rw [if_pos hagain, hsame]
      · exact hsame

end

end Seftp.SlidingWindow
