import Mathlib.Order.Defs.Unbundled

/-!
# Programs that change a state and may raise

A program runs from a state to a result and a state. A raise keeps the state
reached so far, as an exception of an imperative language does; there is no
rollback. Nothing here depends on what the state or the exceptions are.

`wp` is the weakest precondition with one postcondition for a normal return and
one for a raise. `Keeps R` says that every run, returning or raising, moves the
state along the relation `R`; for a preorder it composes along the program text.
-/
namespace Seftp.ExceptState

/-- A state transformer whose result may be an exception. -/
def Prog (σ ε α : Type) := σ → Except ε α × σ

section
variable {σ ε α β : Type}

instance : Monad (Prog σ ε) where
  pure a := fun s => (.ok a, s)
  bind x f := fun s =>
    match x s with
    | (.ok a, t) => f a t
    | (.error e, t) => (.error e, t)

/-- The whole current state. -/
def fetch : Prog σ ε σ := fun s => (.ok s, s)

/-- Replace the state by its image. -/
def update (f : σ → σ) : Prog σ ε Unit := fun s => (.ok (), f s)

/-- Leave by an exception. -/
def raise (e : ε) : Prog σ ε α := fun s => (.error e, s)

/-- Run `x`; on an exception run the handler from the state of the raise. -/
def attempt (x : Prog σ ε α) (h : ε → Prog σ ε α) : Prog σ ε α := fun s =>
  match x s with
  | (.ok a, t) => (.ok a, t)
  | (.error e, t) => h e t

/-- Read one part of the state. -/
def look (f : σ → α) : Prog σ ε α := fun s => (.ok (f s), s)

/-- A computation that may raise and has no effect. -/
def ofExcept (x : Except ε α) : Prog σ ε α := fun s => (x, s)

theorem pure_apply (a : α) (s : σ) : (pure a : Prog σ ε α) s = (.ok a, s) := rfl

theorem bind_apply (x : Prog σ ε α) (f : α → Prog σ ε β) (s : σ) :
    (x >>= f) s =
      match x s with
      | (.ok a, t) => f a t
      | (.error e, t) => (.error e, t) := rfl

theorem bind_ok {x : Prog σ ε α} {f : α → Prog σ ε β} {s t : σ} {a : α}
    (h : x s = (.ok a, t)) : (x >>= f) s = f a t := by
  rw [bind_apply, h]

theorem bind_error {x : Prog σ ε α} {f : α → Prog σ ε β} {s t : σ} {e : ε}
    (h : x s = (.error e, t)) : (x >>= f) s = (.error e, t) := by
  rw [bind_apply, h]

/-- A sequence returns when both parts do. -/
theorem bind_eq_ok {x : Prog σ ε α} {f : α → Prog σ ε β} {s t : σ} {b : β} :
    (x >>= f) s = (.ok b, t) ↔ ∃ a u, x s = (.ok a, u) ∧ f a u = (.ok b, t) := by
  rw [bind_apply]
  rcases x s with ⟨e | a, u⟩
  · constructor
    · intro h
      cases h
    · rintro ⟨a, u', hx, -⟩
      cases hx
  · constructor
    · exact fun h => ⟨a, u, rfl, h⟩
    · rintro ⟨a', u', hx, hf⟩
      cases hx
      exact hf

theorem attempt_eq_ok {x : Prog σ ε α} {h : ε → Prog σ ε α} {s t : σ} {a : α} :
    attempt x h s = (.ok a, t) ↔
      x s = (.ok a, t) ∨ ∃ e u, x s = (.error e, u) ∧ h e u = (.ok a, t) := by
  unfold attempt
  rcases x s with ⟨e | b, u⟩
  · constructor
    · exact fun hh => .inr ⟨e, u, rfl, hh⟩
    · rintro (hx | ⟨e', u', hx, hh⟩)
      · cases hx
      · cases hx
        exact hh
  · constructor
    · exact fun hx => .inl hx
    · rintro (hx | ⟨e', u', hx, -⟩)
      · exact hx
      · cases hx

theorem pure_eq_ok {a b : α} {s t : σ} : (pure a : Prog σ ε α) s = (.ok b, t) ↔ a = b ∧ s = t := by
  rw [pure_apply, Prod.mk.injEq, Except.ok.injEq]

theorem look_eq_ok {f : σ → α} {b : α} {s t : σ} :
    (look f : Prog σ ε α) s = (.ok b, t) ↔ f s = b ∧ s = t := pure_eq_ok

instance : LawfulMonad (Prog σ ε) :=
  LawfulMonad.mk' (Prog σ ε)
    (fun x => by
      funext s
      change (x >>= fun a => pure a) s = x s
      rw [bind_apply]
      rcases x s with ⟨_ | _, _⟩ <;> rfl)
    (fun _ _ => rfl)
    (fun x _ _ => by
      funext s
      simp only [bind_apply]
      rcases x s with ⟨_ | _, _⟩ <;> rfl)

/-- What must hold before `x` for `Q` after a return and `E` after a raise. -/
def wp (x : Prog σ ε α) (Q : α → σ → Prop) (E : ε → σ → Prop) (s : σ) : Prop :=
  match x s with
  | (.ok a, t) => Q a t
  | (.error e, t) => E e t

variable {Q Q' : α → σ → Prop} {E E' : ε → σ → Prop} {s : σ}

@[simp] theorem wp_pure (a : α) : wp (pure a : Prog σ ε α) Q E s ↔ Q a s := Iff.rfl

@[simp] theorem wp_raise (e : ε) : wp (raise e : Prog σ ε α) Q E s ↔ E e s := Iff.rfl

@[simp] theorem wp_fetch {Q : σ → σ → Prop} :
    wp (fetch : Prog σ ε σ) Q E s ↔ Q s s := Iff.rfl

@[simp] theorem wp_look {f : σ → α} : wp (look f : Prog σ ε α) Q E s ↔ Q (f s) s := Iff.rfl

@[simp] theorem wp_ofExcept_ok (a : α) : wp (ofExcept (.ok a) : Prog σ ε α) Q E s ↔ Q a s := Iff.rfl

@[simp] theorem wp_ofExcept_error (e : ε) :
    wp (ofExcept (.error e) : Prog σ ε α) Q E s ↔ E e s := Iff.rfl

@[simp] theorem wp_update {f : σ → σ} {Q : Unit → σ → Prop} :
    wp (update f : Prog σ ε Unit) Q E s ↔ Q () (f s) := Iff.rfl

@[simp] theorem wp_bind {x : Prog σ ε α} {f : α → Prog σ ε β} {Q : β → σ → Prop} :
    wp (x >>= f) Q E s ↔ wp x (fun a t => wp (f a) Q E t) E s := by
  simp only [wp, bind_apply]
  rcases x s with ⟨_ | _, _⟩ <;> rfl

@[simp] theorem wp_map {x : Prog σ ε α} {f : α → β} {Q : β → σ → Prop} :
    wp (f <$> x) Q E s ↔ wp x (fun a t => Q (f a) t) E s := wp_bind

@[simp] theorem wp_attempt {x : Prog σ ε α} {h : ε → Prog σ ε α} :
    wp (attempt x h) Q E s ↔ wp x Q (fun e t => wp (h e) Q E t) s := by
  simp only [wp, attempt]
  rcases x s with ⟨_ | _, _⟩ <;> rfl

theorem wp_ite {c : Prop} [Decidable c] {x y : Prog σ ε α} :
    wp (if c then x else y) Q E s ↔ if c then wp x Q E s else wp y Q E s := by
  split <;> rfl

/-- The rule of consequence. A caller cites the specification of a callee and
never unfolds it. -/
theorem wp_mono {x : Prog σ ε α} (h : wp x Q E s) (hq : ∀ a t, Q a t → Q' a t)
    (he : ∀ e t, E e t → E' e t) : wp x Q' E' s := by
  unfold wp at *
  rcases hx : x s with ⟨_ | _, _⟩
  · rw [hx] at h
    exact he _ _ h
  · rw [hx] at h
    exact hq _ _ h

/-- The rule of sequence: a specification of the first part, and the second part
from what it leaves. -/
theorem wp_seq {x : Prog σ ε α} {f : α → Prog σ ε β} {Q'' : β → σ → Prop} (h : wp x Q' E' s)
    (hq : ∀ a t, Q' a t → wp (f a) Q'' E t) (he : ∀ e t, E' e t → E e t) : wp (x >>= f) Q'' E s :=
  wp_bind.mpr (wp_mono h hq he)

theorem wp_branch {c : Prop} [Decidable c] {x y : Prog σ ε α} (hx : c → wp x Q E s)
    (hy : ¬ c → wp y Q E s) : wp (if c then x else y) Q E s := by
  by_cases h : c
  · rw [if_pos h]
    exact hx h
  · rw [if_neg h]
    exact hy h

/-- The rule of sequence for a first part that does not raise. -/
theorem wp_then {x : Prog σ ε α} {f : α → Prog σ ε β} {Q'' : β → σ → Prop}
    (h : wp x Q' (fun _ _ => False) s) (hq : ∀ a t, Q' a t → wp (f a) Q'' E t) :
    wp (x >>= f) Q'' E s := wp_seq h hq fun _ _ h => h.elim

/-- The rule of sequence for a first part without effect. -/
theorem wp_ofExcept_bind {x : Except ε α} {f : α → Prog σ ε β} {Q'' : β → σ → Prop}
    (hok : ∀ a, x = .ok a → wp (f a) Q'' E s) (herr : ∀ e, x = .error e → E e s) :
    wp (ofExcept x >>= f) Q'' E s := by
  rw [wp_bind]
  rcases x with e | a
  · exact wp_ofExcept_error e |>.mpr (herr e rfl)
  · exact wp_ofExcept_ok a |>.mpr (hok a rfl)

/-- Two specifications of one run hold together. -/
theorem wp_and {x : Prog σ ε α} (h : wp x Q E s) (h' : wp x Q' E' s) :
    wp x (fun a t => Q a t ∧ Q' a t) (fun e t => E e t ∧ E' e t) s := by
  unfold wp at *
  rcases hx : x s with ⟨_ | _, _⟩ <;> rw [hx] at h h' <;> exact ⟨h, h'⟩

/-- A run that returns whenever `P` holds raises only when it does not. -/
theorem wp_blame {x : Prog σ ε α} {P : Prop} (h : wp x Q E s)
    (hr : P → wp x (fun _ _ => True) (fun _ _ => False) s) :
    wp x Q (fun e t => E e t ∧ ¬ P) s := by
  by_cases hp : P
  · exact wp_mono (wp_and h (hr hp)) (fun _ _ h => h.1) (fun _ _ h => h.2.elim)
  · exact wp_mono h (fun _ _ h => h) (fun _ _ h => ⟨h, hp⟩)

/-- A specification with one postcondition for both ways of ending, read off
the final state. -/
theorem wp_state {x : Prog σ ε α} {P : σ → Prop} :
    wp x (fun _ t => P t) (fun _ t => P t) s ↔ P (x s).2 := by
  unfold wp
  rcases x s with ⟨_ | _, _⟩ <;> rfl

/-- A specification of the result and the final state together. -/
theorem wp_result {x : Prog σ ε α} {P : Except ε α → σ → Prop} :
    wp x (fun a t => P (.ok a) t) (fun e t => P (.error e) t) s ↔ P (x s).1 (x s).2 := by
  unfold wp
  rcases x s with ⟨_ | _, _⟩ <;> rfl

theorem wp_of_eq_ok {x : Prog σ ε α} {a : α} {t : σ} (h : x s = (.ok a, t)) :
    wp x Q E s ↔ Q a t := by
  simp only [wp, h]

theorem wp_of_eq_error {x : Prog σ ε α} {e : ε} {t : σ} (h : x s = (.error e, t)) :
    wp x Q E s ↔ E e t := by
  simp only [wp, h]

/-! ### A program on one part of the state -/

/-- Run `x` on the part that `get` reads and `put` writes back. -/
def zoom {τ : Type} (get : σ → τ) (put : τ → σ → σ) (x : Prog τ ε α) : Prog σ ε α := fun s =>
  ((x (get s)).1, put (x (get s)).2 s)

@[simp] theorem wp_zoom {τ : Type} {get : σ → τ} {put : τ → σ → σ} {x : Prog τ ε α} :
    wp (zoom get put x) Q E s ↔
      wp x (fun a t => Q a (put t s)) (fun e t => E e (put t s)) (get s) := by
  unfold wp zoom
  rcases x (get s) with ⟨_ | _, _⟩ <;> rfl

/-! ### Relations kept by every run -/

variable {R : σ → σ → Prop}

/-- Every run of `x`, returning or raising, moves the state along `R`. -/
def Keeps (R : σ → σ → Prop) (x : Prog σ ε α) : Prop := ∀ s, R s (x s).2

theorem Keeps.wp {x : Prog σ ε α} (h : Keeps R x) (s : σ) :
    wp x (fun _ t => R s t) (fun _ t => R s t) s := wp_state.mpr (h s)

theorem keeps_of_wp {x : Prog σ ε α}
    (h : ∀ s, ExceptState.wp x (fun _ t => R s t) (fun _ t => R s t) s) : Keeps R x :=
  fun s => wp_state.mp (h s)

section
variable [Std.Refl R]

theorem keeps_pure (a : α) : Keeps R (pure a : Prog σ ε α) := fun s => refl_of R s

theorem keeps_raise (e : ε) : Keeps R (raise e : Prog σ ε α) := fun s => refl_of R s

theorem keeps_fetch : Keeps R (fetch : Prog σ ε σ) := fun s => refl_of R s

theorem keeps_look {f : σ → α} : Keeps R (look f : Prog σ ε α) := fun s => refl_of R s

theorem keeps_ofExcept (x : Except ε α) : Keeps R (ofExcept x : Prog σ ε α) := fun s => refl_of R s

end

theorem keeps_update {f : σ → σ} (h : ∀ s, R s (f s)) : Keeps R (update f : Prog σ ε Unit) := h

theorem keeps_bind [IsTrans σ R] {x : Prog σ ε α} {f : α → Prog σ ε β}
    (hx : Keeps R x) (hf : ∀ a, Keeps R (f a)) : Keeps R (x >>= f) := by
  intro s
  have h := hx s
  rw [bind_apply]
  rcases hs : x s with ⟨e | a, t⟩
  · rw [hs] at h
    exact h
  · rw [hs] at h
    exact trans_of R h (hf a t)

theorem keeps_ofExcept_bind [Std.Refl R] {x : Except ε α} {f : α → Prog σ ε β}
    (hf : ∀ a, x = .ok a → Keeps R (f a)) : Keeps R (ofExcept x >>= f) := by
  intro s
  rcases x with e | a
  · exact refl_of R s
  · exact hf a rfl s

theorem keeps_look_bind {γ : Type} {f : σ → γ} {g : γ → Prog σ ε β} (h : ∀ c, Keeps R (g c)) :
    Keeps R (look f >>= g) := fun s => h (f s) s

/-- What follows may use the state that was fetched. -/
theorem keeps_fetch_bind {g : σ → Prog σ ε β} (h : ∀ s, R s (g s s).2) : Keeps R (fetch >>= g) := h

/-- The first two of three programs keep the relation together. -/
theorem keeps_pair [IsTrans σ R] {γ : Type} {x : Prog σ ε α} {y : α → Prog σ ε β}
    {g : β → Prog σ ε γ} (h : Keeps R (x >>= y)) (hg : ∀ b, Keeps R (g b)) :
    Keeps R (x >>= fun a => y a >>= g) := by
  rw [← bind_assoc]
  exact keeps_bind h hg

theorem keeps_attempt [IsTrans σ R] {x : Prog σ ε α} {h : ε → Prog σ ε α}
    (hx : Keeps R x) (hh : ∀ e, Keeps R (h e)) : Keeps R (attempt x h) := by
  intro s
  have hk := hx s
  unfold attempt
  rcases hs : x s with ⟨e | a, t⟩
  · rw [hs] at hk
    exact trans_of R hk (hh e t)
  · rw [hs] at hk
    exact hk

theorem keeps_ite {c : Prop} [Decidable c] {x y : Prog σ ε α}
    (hx : Keeps R x) (hy : Keeps R y) : Keeps R (if c then x else y) := by
  split
  · exact hx
  · exact hy

theorem keeps_zoom {τ : Type} {get : σ → τ} {put : τ → σ → σ} {S : τ → τ → Prop}
    {x : Prog τ ε α} (hx : Keeps S x) (h : ∀ s t, S (get s) t → R s (put t s)) :
    Keeps R (zoom get put x) := fun s => h s _ (hx (get s))

/-- A finer relation is kept along with any coarser one. -/
theorem Keeps.mono {R' : σ → σ → Prop} {x : Prog σ ε α} (h : Keeps R x)
    (hr : ∀ s t, R s t → R' s t) : Keeps R' x := fun s => hr _ _ (h s)

/-- What `f` reads is the same in both states. -/
def Same {τ : Type} (f : σ → τ) (s t : σ) : Prop := f t = f s

instance {τ : Type} (f : σ → τ) : Std.Refl (Same f) := ⟨fun _ => rfl⟩

instance {τ : Type} (f : σ → τ) : IsTrans σ (Same f) := ⟨fun _ _ _ h h' => h'.trans h⟩

-- from here on `wp` is met only through its rules; unfolding it runs the program
attribute [irreducible] wp

end

end Seftp.ExceptState
