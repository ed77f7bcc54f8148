import Seftp.EventRuns
import Seftp.KeyFreshness
import Seftp.SuccessReports

/-!
# Trust in the server over many connections

`validate_server_trust` call after call, while somebody may put `server.pin` there or
take it away. The policy is that a pin decides alone, that without one the first
fingerprint is kept, and that it is never replaced.

A trust file that is there and does not open counts as absent, so that the policy holds
in the runs where the file that decides opens. A fingerprint is stored as it is and read
as its trimmed first line; `normalized_fingerprint` is computed and not used.
-/
namespace Seftp.ServerTrust
open LittleEndian ExceptState EventRuns Text Protocol ClientProgram ClientDialogue ClientFrames
open KeyFreshness

/-- A connection presents a fingerprint, or the user edits the pin. -/
inductive TrustEvent where
  | call (fingerprint : Bytes)
  | pin (content : Option Bytes)
  deriving DecidableEq, Repr

section
variable {σ : Type}

def step (env : ClientEnv σ) (w : ClientWorld σ) : TrustEvent → ClientWorld σ
  | .call fingerprint => (validateServerTrust env fingerprint w).2
  | .pin content => { w with files := Function.update w.files kServerPin content }

def Accepts (env : ClientEnv σ) (fingerprint : Bytes) (w : ClientWorld σ) : Prop :=
  (validateServerTrust env fingerprint w).1 = .ok true

/-- What a trust file says. -/
def trustedLine (text : Bytes) : Bytes := trimCopy (firstLine text)

/-- The policy along a run: `pre` is what has happened before a call. -/
structure FailsClosed (env : ClientEnv σ) (w : ClientWorld σ) (es : List TrustEvent) : Prop where
  pinned : ∀ (pre : List TrustEvent) (fingerprint : Bytes) (post : List TrustEvent) (pin : Bytes),
    es = pre ++ .call fingerprint :: post →
    (run (step env) w pre).files kServerPin = some pin →
    Accepts env fingerprint (run (step env) w pre) → fingerprint = trustedLine pin
  firstUse : ∀ (pre : List TrustEvent) (fingerprint : Bytes) (mid : List TrustEvent)
    (other : Bytes) (post : List TrustEvent),
    es = pre ++ .call fingerprint :: (mid ++ .call other :: post) →
    (run (step env) w pre).files kServerPin = none →
    Accepts env fingerprint (run (step env) w pre) →
    (run (step env) w (pre ++ .call fingerprint :: mid)).files kServerPin = none →
    Accepts env other (run (step env) w (pre ++ .call fingerprint :: mid)) → other = fingerprint
  kept : ∀ (pre : List TrustEvent) (e : TrustEvent) (post : List TrustEvent) (text : Bytes),
    es = pre ++ e :: post →
    (run (step env) w pre).files kFingerprint = some text →
    (run (step env) w (pre ++ [e])).files kFingerprint = some text

/-- The file that decides opens, and a fingerprint that will be stored is its own
trimmed line. -/
def Sure (env : ClientEnv σ) (w : ClientWorld σ) : TrustEvent → Prop
  | .pin _ => True
  | .call fingerprint =>
      match w.files kServerPin, w.files kFingerprint with
      | some _, _ => env.fileFails w.calls = false
      | none, some _ => env.fileFails (w.calls + 1) = false
      | none, none => trustedLine (fingerprint ++ [10]) = fingerprint

/-! ### One call -/

section
variable {env : ClientEnv σ} {w : ClientWorld σ} {fingerprint text : Bytes}

/-- The comparison with a line of a trust file. -/
theorem compare_line (line : Bytes) (failure : String) (u : ClientWorld σ) :
    let compared : Client σ Bool :=
      if trimCopy line ≠ fingerprint then failWith failure else pure true
    ((compared u).1 = .ok true ↔ fingerprint = trimCopy line) ∧ (compared u).2.files = u.files := by
  dsimp only
  split_ifs with hne
  · refine ⟨iff_of_false (fun h => ?_) (fun h => hne h.symm), rfl⟩
    cases h
  · exact ⟨iff_of_true rfl (not_not.mp hne).symm, rfl⟩

/-- A pin that opens is compared. -/
theorem trust_pinned (h : w.files kServerPin = some text) (ho : env.fileFails w.calls = false) :
    (Accepts env fingerprint w ↔ fingerprint = trustedLine text) ∧
      (validateServerTrust env fingerprint w).2.files = w.files := by
  have hread : readServerPin env w = (.ok (some (firstLine text)), ticked w) := by
    rw [readServerPin, readLine_eq, ho, h]
    rfl
  rw [Accepts, validateServerTrust, bind_ok hread]
  exact compare_line _ _ (ticked w)

/-- Without a pin the file is not found, whether or not it could be opened. -/
theorem readServerPin_absent (h : w.files kServerPin = none) :
    readServerPin env w = (.ok none, ticked w) := by
  rw [readServerPin, readLine_eq, h, ite_self]
  rfl

/-- Without a pin the fingerprint is what the second file says, if it opens. -/
theorem readFingerprint_next : readFingerprint env (ticked w) =
    (.ok ((if env.fileFails (w.calls + 1) then none else w.files kFingerprint).map firstLine),
      ticked (ticked w)) := readLine_eq env kFingerprint (ticked w)

/-- Without a pin, a fingerprint that opens is compared. -/
theorem trust_stored (h : w.files kServerPin = none) (hs : w.files kFingerprint = some text)
    (ho : env.fileFails (w.calls + 1) = false) :
    (Accepts env fingerprint w ↔ fingerprint = trustedLine text) ∧
      (validateServerTrust env fingerprint w).2.files = w.files := by
  have hread : readFingerprint env (ticked w) =
      (.ok (some (firstLine text)), ticked (ticked w)) := by
    rw [readFingerprint_next, ho, hs]
    rfl
  have hrun : validateServerTrust env fingerprint w =
      (if trimCopy (firstLine text) ≠ fingerprint then failWith "server fingerprint mismatch"
        else pure true : Client σ Bool) (ticked (ticked w)) := by
    rw [validateServerTrust, bind_ok (readServerPin_absent h)]
    exact bind_ok hread
  rw [Accepts, hrun]
  exact compare_line _ _ (ticked (ticked w))

/-- Without either file, a fingerprint that is accepted is stored. -/
theorem trust_first (h : w.files kServerPin = none) (hs : w.files kFingerprint = none)
    (ha : Accepts env fingerprint w) :
    (validateServerTrust env fingerprint w).2.files kFingerprint = some (fingerprint ++ [10]) := by
  have hread : readFingerprint env (ticked w) = (.ok none, ticked (ticked w)) := by
    rw [readFingerprint_next, hs, ite_self]
    rfl
  have hrun : validateServerTrust env fingerprint w = (do
      let saved ← writeFingerprint env fingerprint
      if saved then pure true else failWith "failed to save server fingerprint" : Client σ Bool)
        (ticked (ticked w)) := by
    rw [validateServerTrust, bind_ok (readServerPin_absent h)]
    exact bind_ok hread
  rw [Accepts, hrun] at ha
  rw [hrun]
  have hwrite := wp_atomicWrite env kFingerprint (fingerprint ++ [10]) true (ticked (ticked w))
  obtain ⟨saved, u, hsaved, hrest⟩ := bind_eq_ok.mp (Prod.ext ha rfl)
  have hfile := (wp_of_eq_ok hsaved).mp hwrite
  cases saved with
  | false => cases hrest
  | true =>
      rw [bind_ok hsaved]
      exact hfile

/-! ### Calls in a row -/

/-- A stored fingerprint stays. -/
theorem step_kept {e : TrustEvent} (h : Sure env w e) (hs : w.files kFingerprint = some text) :
    (step env w e).files kFingerprint = some text := by
  cases e with
  | pin content =>
      have hne : kFingerprint ≠ kServerPin := by decide +kernel
      exact (Function.update_of_ne hne content w.files).trans hs
  | call fingerprint =>
      rw [Sure] at h
      rcases hpin : w.files kServerPin with _ | pin
      · rw [hpin, hs] at h
        exact (congrFun (trust_stored hpin hs h).2 kFingerprint).trans hs
      · rw [hpin] at h
        exact (congrFun (trust_pinned hpin h).2 kFingerprint).trans hs

/-- What is accepted without a pin is what the file says afterwards. -/
theorem accepted_stored (h : Sure env w (.call fingerprint)) (hpin : w.files kServerPin = none)
    (ha : Accepts env fingerprint w) : ∃ text,
      (step env w (.call fingerprint)).files kFingerprint = some text ∧
        fingerprint = trustedLine text := by
  rw [Sure, hpin] at h
  rcases hs : w.files kFingerprint with _ | text
  · rw [hs] at h
    exact ⟨_, trust_first hpin hs ha, h.symm⟩
  · rw [hs] at h
    have htrust : (Accepts env fingerprint w ↔ fingerprint = trustedLine text) ∧
        (validateServerTrust env fingerprint w).2.files = w.files := trust_stored hpin hs h
    exact ⟨text, (congrFun htrust.2 kFingerprint).trans hs, htrust.1.mp ha⟩

theorem run_kept {es : List TrustEvent} (h : Along (step env) (Sure env) w es)
    (hs : w.files kFingerprint = some text) :
    (run (step env) w es).files kFingerprint = some text :=
  invariant_along (I := fun u => u.files kFingerprint = some text) hs
    (fun _ _ hu hsure => step_kept hsure hu) h

end

/-- In every run whose calls can open the file that decides and store only trimmed
lines, trust fails closed. -/
theorem trust_fails_closed (env : ClientEnv σ) (w : ClientWorld σ) (es : List TrustEvent)
    (h : Along (step env) (Sure env) w es) : FailsClosed env w es := by
  constructor
  · intro pre fingerprint post pin hes hpin ha
    rw [hes, along_append] at h
    have hsure : Sure env (run (step env) w pre) (.call fingerprint) := h.2.1
    rw [Sure, hpin] at hsure
    exact (trust_pinned hpin hsure).1.mp ha
  · intro pre fingerprint mid other post hes hpin ha hpin' ha'
    rw [hes, along_append] at h
    obtain ⟨-, hsure, hrest⟩ := h
    obtain ⟨text, hstored, htext⟩ := accepted_stored hsure hpin ha
    rw [along_append] at hrest
    have hkept := run_kept hrest.1 hstored
    have hsure' := hrest.2.1
    rw [run_append, run_cons] at hpin' ha'
    rw [Sure, hpin', hkept] at hsure'
    rw [htext]
    exact (trust_stored hpin' hkept hsure').1.mp ha'
  · intro pre e post text hes hs
    rw [hes, along_append] at h
    rw [run_append]
    exact step_kept h.2.1 hs

end

/-! ### A first use and a pin -/

/-- A client that knows no server. -/
def newcomer : ClientWorld Unit where
  cc := {}
  files _ := none
  incoming := []
  peer := ()
  trace := []
  calls := 0

/-- A first use and another server, then a pin for that one, and then none. -/
def pinnedForAWhile : List TrustEvent :=
  [.call (utf8Encode "aa"), .call (utf8Encode "bb"), .pin (some (utf8Encode " bb")),
    .call (utf8Encode "bb"), .call (utf8Encode "aa"), .pin none, .call (utf8Encode "aa")]

/-- The client after so many of these events. -/
def newcomerAfter (k : ℕ) : ClientWorld Unit :=
  run (step SuccessReports.scripted) newcomer (pinnedForAWhile.take k)

/-- The first fingerprint is kept and the other one refused, except while it is
pinned. -/
theorem trust_fails_closed_newcomer :
    FailsClosed SuccessReports.scripted newcomer pinnedForAWhile ∧
      Accepts SuccessReports.scripted (utf8Encode "aa") (newcomerAfter 0) ∧
      ¬ Accepts SuccessReports.scripted (utf8Encode "bb") (newcomerAfter 1) ∧
      Accepts SuccessReports.scripted (utf8Encode "bb") (newcomerAfter 3) ∧
      ¬ Accepts SuccessReports.scripted (utf8Encode "aa") (newcomerAfter 4) ∧
      Accepts SuccessReports.scripted (utf8Encode "aa") (newcomerAfter 6) := by
  have hsure {u : ClientWorld Unit} {fingerprint : Bytes}
      (hline : trustedLine (fingerprint ++ [10]) = fingerprint) :
      Sure SuccessReports.scripted u (.call fingerprint) := by
    rw [Sure]
    split
    · rfl
    · rfl
    · exact hline
  have haa : trustedLine (utf8Encode "aa" ++ [10]) = utf8Encode "aa" := by decide +kernel
  have hbb : trustedLine (utf8Encode "bb" ++ [10]) = utf8Encode "bb" := by decide +kernel
  refine ⟨trust_fails_closed _ _ _ ⟨hsure haa, hsure hbb, trivial, hsure hbb, hsure haa, trivial,
    hsure haa, trivial⟩, ?_⟩
  unfold Accepts
  decide +kernel

/-! ### A file that does not open -/

/-- A client that knows a server. -/
def acquainted : ClientWorld Unit where
  cc := {}
  files name := if name = kFingerprint then some (utf8Encode "aa" ++ [10]) else none
  incoming := []
  peer := ()
  trace := []
  calls := 0

/-- The file with the fingerprint is there and does not open: another fingerprint is
accepted and takes its place. -/
theorem trust_fails_open :
    ¬ FailsClosed { SuccessReports.scripted with fileFails := fun n => n = 1 } acquainted
      [.call (utf8Encode "bb")] := by
  intro h
  have hkept := h.kept [] (.call (utf8Encode "bb")) [] (utf8Encode "aa" ++ [10]) rfl
    (by decide +kernel)
  revert hkept
  decide +kernel

end Seftp.ServerTrust
