import Mathlib.Data.List.Nodup
import Mathlib.Data.List.Basic

/-!
# Lists with a unique key

Rows in a list, each with a key that no other row has. A key is looked up by the
position of its row, and changing the row at that position is the same as changing
every row with the key.
-/
namespace Seftp.KeyedRows

section
variable {α β : Type} [DecidableEq β] {key : α → β} {l l' : List α}

/-- The position of the row with a key. -/
def position (key : α → β) (l : List α) (x : β) : Option ℕ := l.findIdx? fun a => key a = x

theorem position_nil (x : β) : position key [] x = none := rfl

theorem position_cons (a : α) (l : List α) (x : β) :
    position key (a :: l) x = if key a = x then some 0 else (position key l x).map (· + 1) := by
  simp only [position, List.findIdx?_cons, decide_eq_true_eq]

/-- Following a position leads to the row. -/
theorem position_bind (l : List α) (x : β) :
    (position key l x).bind (l[·]?) = l.find? fun a => key a = x := by
  induction l with
  | nil => rfl
  | cons a l ih =>
      rw [position_cons, List.find?_cons]
      by_cases h : key a = x
      · simp [h]
      · rw [if_neg h, decide_eq_false h, ← ih, Option.bind_map]
        rfl

theorem position_none {x : β} : position key l x = none ↔ x ∉ l.map key := by
  simp [position, List.findIdx?_eq_none_iff]

/-- Only the keys matter. -/
theorem position_congr (h : l'.map key = l.map key) (x : β) :
    position key l' x = position key l x := by
  have heq (l : List α) : position key l x = (l.map key).findIdx? (· = x) := by
    rw [position, List.findIdx?_map]
    rfl
  rw [heq, heq, h]

theorem position_append (a : α) (x : β) :
    position key (l ++ [a]) x =
      match position key l x with
      | some i => some i
      | none => if key a = x then some l.length else none := by
  induction l with
  | nil =>
      rw [List.nil_append, position_cons, position_nil]
      rfl
  | cons b l ih =>
      rw [List.cons_append, position_cons, position_cons, ih]
      by_cases h : key b = x
      · simp [h]
      · rcases position key l x with _ | i
        · by_cases ha : key a = x <;> simp [h, ha]
        · simp [h]

/-- A row stands at the position of its key. -/
theorem position_key (hkeys : (l.map key).Nodup) {i : ℕ} {a : α} (h : l[i]? = some a) :
    position key l (key a) = some i := by
  induction l generalizing i with
  | nil => simp at h
  | cons b l ih =>
      rw [List.map_cons, List.nodup_cons] at hkeys
      rw [position_cons]
      cases i with
      | zero =>
          rw [List.getElem?_cons_zero, Option.some.injEq] at h
          rw [if_pos (by rw [h])]
      | succ i =>
          rw [List.getElem?_cons_succ] at h
          have hmem : key a ∈ l.map key := List.mem_map_of_mem (List.mem_of_getElem? h)
          have hne : key b ≠ key a := fun he => hkeys.1 (he ▸ hmem)
          rw [if_neg hne, ih hkeys.2 h]
          rfl

/-- A lookup by key finds the row with the key and no other. -/
theorem find_key (hkeys : (l.map key).Nodup) {x : β} {a : α} :
    (l.find? fun b => key b = x) = some a ↔ a ∈ l ∧ key a = x := by
  constructor
  · intro h
    exact ⟨List.mem_of_find?_eq_some h, by simpa using List.find?_some h⟩
  · rintro ⟨hmem, rfl⟩
    obtain ⟨i, hi⟩ := List.getElem?_of_mem hmem
    rw [← position_bind, position_key hkeys hi]
    exact hi

/-- Rows without the key stay as they are. -/
theorem map_of_absent (f : α → α) {x : β} (h : x ∉ l.map key) :
    (l.map fun a => if key a = x then f a else a) = l := by
  conv_rhs => rw [← List.map_id l]
  apply List.map_congr_left
  intro a ha
  have hne : key a ≠ x := fun he => h (he ▸ List.mem_map_of_mem ha)
  rw [if_neg hne]
  rfl

theorem modify_position (f : α → α) (hkeys : (l.map key).Nodup) {x : β} {i : ℕ}
    (h : position key l x = some i) :
    l.modify i f = l.map fun a => if key a = x then f a else a := by
  induction l generalizing i with
  | nil => cases h
  | cons b l ih =>
      rw [List.map_cons, List.nodup_cons] at hkeys
      rw [position_cons] at h
      by_cases hb : key b = x
      · rw [if_pos hb, Option.some.injEq] at h
        subst h
        rw [List.map_cons, if_pos hb, map_of_absent f (hb ▸ hkeys.1)]
        rfl
      · rw [if_neg hb, Option.map_eq_some_iff] at h
        obtain ⟨j, hj, rfl⟩ := h
        rw [List.map_cons, if_neg hb, ← ih hkeys.2 hj]
        rfl
end

end Seftp.KeyedRows
