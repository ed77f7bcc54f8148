import Mathlib.Data.List.Basic

/-!
# Cutting a stream that arrives in pieces

A decoder looks at its buffer and says that it needs more, that a unit of some
length stands at the front, or that the front can never become a unit. A verdict
other than `more` is final: bytes that arrive later do not change it. From that
alone the units found do not depend on how the stream was cut into pieces.
-/
namespace Seftp.StreamCutting

/-- What a decoder can say about the front of its buffer. -/
inductive Verdict where
  | more
  | unit (length : ℕ)
  | bad
  deriving DecidableEq, Repr

/-- What one pass over the buffer leaves. -/
structure Drained (α : Type) where
  units : List (List α)
  rest : List α
  bad : Bool

section
variable {α : Type}

/-- Take units off the front until the decoder asks for more. After a bad front
the buffer is dropped. The fuel bounds the number of units taken. -/
def drain (cut : List α → Verdict) : ℕ → List α → Drained α
  | 0, buf => ⟨[], buf, false⟩
  | fuel + 1, buf =>
      match cut buf with
      | .more => ⟨[], buf, false⟩
      | .bad => ⟨[], [], true⟩
      | .unit n =>
          let r := drain cut fuel (buf.drop n)
          ⟨buf.take n :: r.units, r.rest, r.bad⟩

/-- A unit is not empty and lies inside the buffer, and no verdict but `more`
changes when bytes arrive. -/
structure Prompt (cut : List α → Verdict) : Prop where
  unit_pos : ∀ {buf n}, cut buf = .unit n → 0 < n
  unit_le : ∀ {buf n}, cut buf = .unit n → n ≤ buf.length
  unit_append : ∀ {buf n} (later : List α), cut buf = .unit n → cut (buf ++ later) = .unit n
  bad_append : ∀ {buf} (later : List α), cut buf = .bad → cut (buf ++ later) = .bad

variable {cut : List α → Verdict}

theorem drain_more {buf : List α} (fuel : ℕ) (h : cut buf = .more) :
    drain cut fuel buf = ⟨[], buf, false⟩ := by
  cases fuel with
  | zero => rfl
  | succ fuel => simp only [drain, h]

/-- Every unit takes at least one byte, so the length of the buffer is fuel
enough and more fuel changes nothing. -/
theorem drain_fuel (hc : Prompt cut) {fuel fuel' : ℕ} {buf : List α}
    (h : buf.length < fuel) (h' : buf.length < fuel') :
    drain cut fuel buf = drain cut fuel' buf := by
  induction fuel generalizing fuel' buf with
  | zero => omega
  | succ fuel ih =>
      obtain _ | fuel' := fuel'
      · omega
      simp only [drain]
      cases hv : cut buf with
      | more => rfl
      | bad => rfl
      | unit n =>
          have hn := hc.unit_pos hv
          have hl := hc.unit_le hv
          have hd : (buf.drop n).length = buf.length - n := List.length_drop
          have he : drain cut fuel (buf.drop n) = drain cut fuel' (buf.drop n) :=
            ih (by omega) (by omega)
          simp only [he]

/-- The pass over the whole buffer. -/
def drainAll (cut : List α → Verdict) (buf : List α) : Drained α :=
  drain cut (buf.length + 1) buf

theorem drainAll_more {buf : List α} (h : cut buf = .more) :
    drainAll cut buf = ⟨[], buf, false⟩ := drain_more _ h

theorem drainAll_bad {buf : List α} (h : cut buf = .bad) :
    drainAll cut buf = ⟨[], [], true⟩ := by
  simp only [drainAll, drain, h]

theorem drainAll_unit (hc : Prompt cut) {buf : List α} {n : ℕ} (h : cut buf = .unit n) :
    drainAll cut buf =
      ⟨buf.take n :: (drainAll cut (buf.drop n)).units,
        (drainAll cut (buf.drop n)).rest, (drainAll cut (buf.drop n)).bad⟩ := by
  have hn := hc.unit_pos h
  have hl := hc.unit_le h
  have hd : (buf.drop n).length = buf.length - n := List.length_drop
  have hf : drain cut buf.length (buf.drop n) = drainAll cut (buf.drop n) :=
    drain_fuel hc (by omega) (by omega)
  simp only [drainAll, drain, h] at hf ⊢
  rw [hf]

/-- Induction along the units at the front of a buffer. -/
theorem cut_induction (hc : Prompt cut) {P : List α → Prop}
    (more : ∀ buf, cut buf = .more → P buf)
    (bad : ∀ buf, cut buf = .bad → P buf)
    (unit : ∀ buf n, cut buf = .unit n → P (buf.drop n) → P buf) (buf : List α) : P buf := by
  induction hk : buf.length using Nat.strongRecOn generalizing buf with
  | ind k ih =>
      cases hv : cut buf with
      | more => exact more buf hv
      | bad => exact bad buf hv
      | unit n =>
          have hn := hc.unit_pos hv
          have hl := hc.unit_le hv
          have hd : (buf.drop n).length = buf.length - n := List.length_drop
          exact unit buf n hv (ih _ (by omega) _ rfl)

/-- Nothing is lost while the fronts are good. -/
theorem drainAll_flatten (hc : Prompt cut) (buf : List α) (h : (drainAll cut buf).bad = false) :
    (drainAll cut buf).units.flatten ++ (drainAll cut buf).rest = buf := by
  induction buf using cut_induction hc with
  | more buf hv => simp [drainAll_more hv]
  | bad buf hv => simp [drainAll_bad hv] at h
  | unit buf n hv ih =>
      rw [drainAll_unit hc hv] at h ⊢
      simp only [List.flatten_cons, List.append_assoc, ih h, List.take_append_drop]

/-- What is left asks for more. -/
theorem drainAll_rest (hc : Prompt cut) (buf : List α) (h : (drainAll cut buf).bad = false) :
    cut (drainAll cut buf).rest = .more := by
  induction buf using cut_induction hc with
  | more buf hv => simpa [drainAll_more hv] using hv
  | bad buf hv => simp [drainAll_bad hv] at h
  | unit buf n hv ih =>
      rw [drainAll_unit hc hv] at h ⊢
      exact ih h

/-- A pass over a longer buffer first finds the units of the shorter one and
goes on from what that left. -/
theorem drainAll_append (hc : Prompt cut) (buf later : List α)
    (h : (drainAll cut buf).bad = false) :
    drainAll cut (buf ++ later) =
      ⟨(drainAll cut buf).units ++ (drainAll cut ((drainAll cut buf).rest ++ later)).units,
        (drainAll cut ((drainAll cut buf).rest ++ later)).rest,
        (drainAll cut ((drainAll cut buf).rest ++ later)).bad⟩ := by
  induction buf using cut_induction hc with
  | more buf hv => simp [drainAll_more hv]
  | bad buf hv => simp [drainAll_bad hv] at h
  | unit buf n hv ih =>
      have hl := hc.unit_le hv
      rw [drainAll_unit hc hv] at h ⊢
      rw [drainAll_unit hc (hc.unit_append later hv), List.take_append_of_le_length hl,
        List.drop_append_of_le_length hl, ih h]
      rfl

/-- A bad front stays bad, whatever follows it. -/
theorem drainAll_bad_append (hc : Prompt cut) (buf later : List α)
    (h : (drainAll cut buf).bad = true) : (drainAll cut (buf ++ later)).bad = true := by
  induction buf using cut_induction hc with
  | more buf hv => simp [drainAll_more hv] at h
  | bad buf hv => simp [drainAll_bad (hc.bad_append later hv)]
  | unit buf n hv ih =>
      rw [drainAll_unit hc hv] at h
      rw [drainAll_unit hc (hc.unit_append later hv),
        List.drop_append_of_le_length (hc.unit_le hv)]
      exact ih h

/-- A run of units with nothing after them is found as it is. -/
theorem drainAll_units (hc : Prompt cut) (us : List (List α)) (hnil : cut [] = .more)
    (hu : ∀ u ∈ us, cut u = .unit u.length) : drainAll cut us.flatten = ⟨us, [], false⟩ := by
  induction us with
  | nil => exact drainAll_more hnil
  | cons u us ih =>
      have hv := hc.unit_append us.flatten (hu u (by simp))
      rw [List.flatten_cons, drainAll_unit hc hv, List.take_left, List.drop_left,
        ih (fun v hv => hu v (by simp [hv]))]

end

end Seftp.StreamCutting
