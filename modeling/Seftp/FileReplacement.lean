import Seftp.ClientProgram

/-!
# Replacing a file of the client

`atomic_write` operation by operation. The disk is journalled: every operation that
changes it leaves the state before it in the journal, so a crash at any point finds
either the last state or one of the journal's. Which operations fail is decided
beforehand.

The old file is removed before the new one is renamed into its place. Between the two
operations there is no file, and if the rename fails there is none afterwards.
-/
namespace Seftp.FileReplacement
open LittleEndian ExceptState Text ClientProgram

/-! ### The journalled disk -/

abbrev Disk := Bytes → Option Bytes

structure Journal where
  disk : Disk
  past : List Disk := []

/-- The states a crash can leave. -/
def Journal.visited (j : Journal) : List Disk := j.past ++ [j.disk]

abbrev FileOps := Prog Journal String

/-- One operation on the disk. -/
def change (f : Disk → Disk) : FileOps Unit :=
  update fun j => { disk := f j.disk, past := j.visited }

def put (name : Bytes) (content : Option Bytes) : FileOps Unit :=
  change fun d => Function.update d name content

/-- `std::filesystem::rename`, which replaces what stands at the target. -/
def move (source target : Bytes) : FileOps Unit :=
  change fun d => Function.update (Function.update d target (d source)) source none

/-- The operations of one call that fail. A write that fails has put some bytes into the
file. -/
structure Faults where
  openFails : Bool := false
  writeFails : Option ℕ := none
  closeFails : Bool := false
  permissionsFail : Bool := false
  removeFails : Bool := false
  renameFails : Bool := false
  /-- `std::filesystem::remove` of the temporary file. -/
  cleanupFails : Bool := false
  deriving DecidableEq, Repr

/-! ### The source's functions -/

/-- The temporary file is removed and `atomic_write` returns false. -/
def giveUp (f : Faults) (tmp : Bytes) : FileOps Bool :=
  if f.cleanupFails then raise "filesystem error: cannot remove"
  else do
    put tmp none
    pure false

def removeOld (f : Faults) (fileName : Bytes) : FileOps Unit :=
  if f.removeFails then pure () else put fileName none

/-- From the removal of the old file on. The two calls share one error code, and the
second one overwrites what the first has left in it. -/
def swap (f : Faults) (tmp fileName : Bytes) : FileOps Bool := do
  removeOld f fileName
  if f.renameFails then giveUp f tmp
  else do
    move tmp fileName
    pure true

def atomicWrite (f : Faults) (fileName content : Bytes) (ownerOnly : Bool) : FileOps Bool := do
  let tmp := fileName ++ utf8Encode ".tmp"
  if f.openFails then pure false
  else do
    put tmp (some [])
    put tmp (some (f.writeFails.elim content content.take))
    if f.writeFails.isSome ∨ f.closeFails then giveUp f tmp
    else if ownerOnly ∧ f.permissionsFail then giveUp f tmp
    else swap f tmp fileName

def writeMeIdentity (f : Faults) (username clientIdHex : Bytes) : FileOps Bool :=
  atomicWrite f kMeInfo (username ++ [10] ++ clientIdHex ++ [10]) false

/-- `read_me_info` may fail to open the file. -/
def writeMePublicKey (f : Faults) (unreadable : Bool) (publicKeyB64 : Bytes) : FileOps Bool := do
  let text ← look fun j => if unreadable then none else j.disk kMeInfo
  match text.bind parseMeInfo with
  | none => pure false
  | some me =>
      atomicWrite f kMeInfo (me.username ++ [10] ++ me.clientId ++ [10] ++ publicKeyB64 ++ [10])
        false

def writeAesKey (f : Faults) (aesKeyB64 : Bytes) : FileOps Bool :=
  atomicWrite f kAesKey (aesKeyB64 ++ [10]) true

def writeFingerprint (f : Faults) (fingerprint : Bytes) : FileOps Bool :=
  atomicWrite f kFingerprint (fingerprint ++ [10]) true

/-! ### The same function in the client -/

section
variable {σ : Type}

/-- The failures that the client's calls from number `n` on meet. -/
def faultsFrom (env : ClientEnv σ) (ownerOnly : Bool) (n : ℕ) : Faults :=
  let m := if ownerOnly then n + 3 else n + 2
  { openFails := env.fileFails n
    closeFails := env.fileFails (n + 1)
    permissionsFail := env.fileFails (n + 2)
    removeFails := env.fileFails m
    renameFails := env.fileFails (m + 1)
    cleanupFails :=
      if env.fileFails (n + 1) then env.fileFails (n + 2)
      else if ownerOnly && env.fileFails (n + 2) then env.fileFails (n + 3)
      else env.fileFails (m + 2) }

/-- The client's program and the journalled one end alike. -/
def Mirrors {α : Type} (x : Client σ α) (y : FileOps α) (w : ClientWorld σ) (j : Journal) : Prop :=
  wp x (fun a t => wp y (fun b k => a = b ∧ t.files = k.disk) (fun _ _ => False) j)
    (fun e t => wp y (fun _ _ => False) (fun e' k => e = e' ∧ t.files = k.disk) j) w

/-- An operation of the journalled program that comes first. -/
theorem mirrors_after {α β : Type} {x : Client σ α} {y : FileOps β} {g : β → FileOps α}
    {w : ClientWorld σ} {j k : Journal} {b : β} (hy : y j = (.ok b, k)) (h : Mirrors x (g b) w k) :
    Mirrors x (y >>= g) w j := by
  unfold Mirrors at *
  simpa only [wp_bind, wp_of_eq_ok hy] using h

theorem mirrors_giveUp (env : ClientEnv σ) (f : Faults) (tmp : Bytes) {w : ClientWorld σ}
    {j : Journal} (hfiles : w.files = j.disk) (hf : f.cleanupFails = env.fileFails w.calls) :
    Mirrors (do
      ClientProgram.removeTmp env tmp
      pure false) (giveUp f tmp) w j := by
  rw [Mirrors, ClientProgram.removeTmp, wp_bind, wp_bind, wp_fails, ← hf, giveUp]
  rcases f.cleanupFails with _ | _
  · rw [if_neg (by decide), if_neg (by decide)]
    refine wp_update.mpr ((wp_pure _).mpr ?_)
    rw [wp_bind]
    refine wp_update.mpr ((wp_pure _).mpr ⟨rfl, ?_⟩)
    exact congrArg (fun d => Function.update d tmp none) hfiles
  · rw [if_pos rfl, if_pos rfl, wp_raise, wp_raise]
    exact ⟨rfl, hfiles⟩

theorem mirrors_rename (env : ClientEnv σ) (f : Faults) {tmp fileName content : Bytes}
    {w : ClientWorld σ} {j : Journal} (hfiles : w.files = j.disk) (htmp : j.disk tmp = some content)
    (hrename : f.renameFails = env.fileFails w.calls)
    (hcleanup : f.cleanupFails = env.fileFails (w.calls + 1)) :
    Mirrors (do
      let unmoved ← fails env
      if unmoved then do
        ClientProgram.removeTmp env tmp
        pure false
      else do
        setFile fileName (some content)
        setFile tmp none
        pure true)
      (if f.renameFails then giveUp f tmp
      else do
        move tmp fileName
        pure true) w j := by
  rw [Mirrors, wp_bind, wp_fails, ← hrename]
  rcases f.renameFails with _ | _
  · rw [if_neg (by decide), if_neg (by decide), wp_bind]
    refine wp_update.mpr ?_
    rw [wp_bind]
    refine wp_update.mpr ((wp_pure _).mpr ?_)
    rw [wp_bind]
    refine wp_update.mpr ((wp_pure _).mpr ⟨rfl, ?_⟩)
    dsimp only [ticked]
    rw [hfiles, htmp]
  · rw [if_pos rfl, if_pos rfl]
    exact mirrors_giveUp env f tmp hfiles hcleanup

theorem mirrors_swap (env : ClientEnv σ) (f : Faults) {tmp fileName content : Bytes}
    {w : ClientWorld σ} {j : Journal} (hfiles : w.files = j.disk) (hne : fileName ≠ tmp)
    (htmp : j.disk tmp = some content) (hremove : f.removeFails = env.fileFails w.calls)
    (hrename : f.renameFails = env.fileFails (w.calls + 1))
    (hcleanup : f.cleanupFails = env.fileFails (w.calls + 2)) :
    Mirrors (do
      ClientProgram.removeOld env fileName
      let unmoved ← fails env
      if unmoved then do
        ClientProgram.removeTmp env tmp
        pure false
      else do
        setFile fileName (some content)
        setFile tmp none
        pure true) (swap f tmp fileName) w j := by
  rw [swap, removeOld]
  rcases hr : f.removeFails with _ | _
  · rw [if_neg (by decide)]
    refine mirrors_after rfl ?_
    rw [Mirrors, ClientProgram.removeOld, wp_bind, wp_bind, wp_fails, ← hremove, hr,
      if_neg (by decide)]
    refine wp_update.mpr (mirrors_rename env f ?_ ?_ hrename hcleanup)
    · exact congrArg (fun d => Function.update d fileName none) hfiles
    · exact (Function.update_of_ne hne.symm _ _).trans htmp
  · rw [if_pos rfl]
    refine mirrors_after (pure_apply () j) ?_
    rw [Mirrors, ClientProgram.removeOld, wp_bind, wp_bind, wp_fails, ← hremove, hr, if_pos rfl]
    exact (wp_pure _).mpr (mirrors_rename env f hfiles htmp hrename hcleanup)

/-- The client's `atomicWrite` does what the journalled one does under the failures that
it meets. -/
theorem mirrors_atomicWrite (env : ClientEnv σ) (fileName content : Bytes) (ownerOnly : Bool)
    (w : ClientWorld σ) (past : List Disk) :
    Mirrors (ClientProgram.atomicWrite env fileName content ownerOnly)
      (atomicWrite (faultsFrom env ownerOnly w.calls) fileName content ownerOnly) w
      ⟨w.files, past⟩ := by
  have hne := tmp_ne fileName
  obtain ⟨f, hf⟩ : ∃ f, f = faultsFrom env ownerOnly w.calls := ⟨_, rfl⟩
  have hopen : f.openFails = env.fileFails w.calls := by rw [hf, faultsFrom]
  have hwrite : f.writeFails = none := by rw [hf, faultsFrom]
  have hclose : f.closeFails = env.fileFails (w.calls + 1) := by rw [hf, faultsFrom]
  have hpermissions : f.permissionsFail = env.fileFails (w.calls + 2) := by rw [hf, faultsFrom]
  have hcleanup : f.cleanupFails =
      if f.closeFails then env.fileFails (w.calls + 2)
      else if ownerOnly && f.permissionsFail then env.fileFails (w.calls + 3)
      else env.fileFails ((if ownerOnly then w.calls + 3 else w.calls + 2) + 2) := by
    rw [hf]
    rfl
  rw [← hf, atomicWrite]
  rcases h₀ : f.openFails with _ | _
  · rw [if_neg (by decide)]
    refine mirrors_after rfl (mirrors_after rfl ?_)
    rw [Mirrors, ClientProgram.atomicWrite, wp_bind, wp_fails, ← hopen, h₀, if_neg (by decide),
      wp_bind]
    refine wp_update.mpr ?_
    rw [wp_bind, wp_fails]
    change Mirrors (if env.fileFails (w.calls + 1) = true then _ else _) _ _ _
    rw [hwrite, ← hclose]
    have hfiles : Function.update w.files (fileName ++ utf8Encode ".tmp") (some content) =
      Function.update (Function.update w.files (fileName ++ utf8Encode ".tmp") (some []))
        (fileName ++ utf8Encode ".tmp") (some content) := (Function.update_idem _ _ _).symm
    rcases h₁ : f.closeFails with _ | _
    · rw [if_neg (by decide), if_neg (by decide)]
      rcases ownerOnly with _ | _
      · rw [if_neg (by simp), Mirrors, wp_bind, permissionsRefused, if_neg (by decide), wp_pure,
          if_neg (by decide)]
        refine mirrors_swap env f hfiles hne (Function.update_self ..) ?_ ?_ ?_
        · rw [hf, faultsFrom]
          rfl
        · rw [hf, faultsFrom]
          rfl
        · rw [hcleanup, h₁]
          rfl
      · rw [Mirrors, wp_bind, permissionsRefused, if_pos rfl, wp_fails]
        change Mirrors (if env.fileFails (w.calls + 2) = true then _ else _) _ _ _
        rw [← hpermissions]
        rcases h₂ : f.permissionsFail with _ | _
        · rw [if_neg (by decide), if_neg (by simp)]
          refine mirrors_swap env f hfiles hne (Function.update_self ..) ?_ ?_ ?_
          · rw [hf, faultsFrom]
            rfl
          · rw [hf, faultsFrom]
            rfl
          · rw [hcleanup, h₁, h₂]
            rfl
        · rw [if_pos rfl, if_pos ⟨rfl, rfl⟩]
          refine mirrors_giveUp env f _ hfiles ?_
          rw [hcleanup, h₁, h₂]
          rfl
    · rw [if_pos rfl, if_pos (.inr rfl)]
      refine mirrors_giveUp env f _ hfiles ?_
      rw [hcleanup, h₁]
      rfl
  · rw [if_pos rfl, Mirrors, ClientProgram.atomicWrite, wp_bind, wp_fails, ← hopen, h₀, if_pos rfl,
      wp_pure, wp_pure]
    exact ⟨rfl, rfl⟩

end

/-! ### What a crash can find -/

/-- The new content is there when the call says so and the old one when it says not, and
every state on the way has the one or the other. -/
structure Atomic (x : FileOps Bool) (target new : Bytes) (d : Disk) : Prop where
  done : (x ⟨d, []⟩).1 = .ok true → (x ⟨d, []⟩).2.disk target = some new
  undone : (x ⟨d, []⟩).1 = .ok false → (x ⟨d, []⟩).2.disk target = d target
  throughout : ∀ e ∈ (x ⟨d, []⟩).2.visited, e target = d target ∨ e target = some new

/-- A file that was there is there in every state. -/
def NeverLost (x : FileOps Bool) (target : Bytes) (d : Disk) : Prop :=
  (d target).isSome → ∀ e ∈ (x ⟨d, []⟩).2.visited, (e target).isSome

/-- The old file is not removed: there is none, or something fails before, or the removal
itself does. -/
def Spared (f : Faults) (ownerOnly : Bool) (target : Bytes) (d : Disk) : Prop :=
  d target = none ∨ f.openFails ∨ f.writeFails.isSome ∨ f.closeFails ∨
    (ownerOnly ∧ f.permissionsFail) ∨ f.removeFails

instance (f : Faults) (ownerOnly : Bool) (target : Bytes) (d : Disk) :
    Decidable (Spared f ownerOnly target d) :=
  inferInstanceAs (Decidable (_ ∨ _ ∨ _ ∨ _ ∨ _ ∨ _))

section
variable {f : Faults} {target tmp new : Bytes} {j k : Journal}

/-- The target has been the same all the time. -/
structure Still (target : Bytes) (j k : Journal) : Prop where
  disk : k.disk target = j.disk target
  past : ∀ e ∈ k.past, e ∈ j.past ∨ e target = j.disk target

instance : Std.Refl (Still target) := ⟨fun _ => ⟨rfl, fun _ he => .inl he⟩⟩

instance : IsTrans Journal (Still target) where
  trans _ _ _ h h' := by
    refine ⟨h'.disk.trans h.disk, fun e he => ?_⟩
    rcases h'.past e he with he | he
    · exact h.past e he
    · exact .inr (he.trans h.disk)

/-- No state is forgotten. -/
def Grows (j k : Journal) : Prop := ∀ e ∈ j.visited, e ∈ k.visited

instance : Std.Refl Grows := ⟨fun _ _ he => he⟩

instance : IsTrans Journal Grows := ⟨fun _ _ _ h h' e he => h' e (h e he)⟩

theorem Still.visited (h : Still target j k) {e : Disk} (he : e ∈ k.visited) :
    e ∈ j.past ∨ e target = j.disk target := by
  rcases List.mem_append.mp he with he | he
  · exact h.past e he
  · rw [List.mem_singleton.mp he]
    exact .inr h.disk

theorem still_change {c : Disk → Disk} (h : c j.disk target = j.disk target) :
    Still target j ⟨c j.disk, j.visited⟩ := by
  refine ⟨h, fun e he => ?_⟩
  rcases List.mem_append.mp he with he | he
  · exact .inl he
  · rw [List.mem_singleton.mp he]
    exact .inr rfl

theorem still_put (hne : target ≠ tmp) (content : Option Bytes) :
    Keeps (Still target) (put tmp content) :=
  keeps_update fun _ => still_change (c := fun d => Function.update d tmp content)
    (Function.update_of_ne hne _ _)

theorem still_giveUp (hne : target ≠ tmp) : Keeps (Still target) (giveUp f tmp) :=
  keeps_ite (keeps_raise _) (keeps_bind (still_put hne none) fun _ => keeps_pure _)

theorem grows_change (c : Disk → Disk) : Keeps Grows (change c) :=
  keeps_update fun _ _ he => List.mem_append_left _ he

theorem grows_giveUp (f : Faults) (tmp : Bytes) : Keeps Grows (giveUp f tmp) :=
  keeps_ite (keeps_raise _) (keeps_bind (grows_change _) fun _ => keeps_pure _)

/-! ### Spared files -/

/-- The end of a call that began with `j`. -/
structure Ended (target new : Bytes) (j : Journal) (r : Except String Bool)
    (k : Journal) : Prop where
  done : r = .ok true → k.disk target = some new
  undone : r = .ok false → k.disk target = j.disk target
  throughout : ∀ e ∈ k.visited, e ∈ j.past ∨ e target = j.disk target ∨ e target = some new

theorem Still.ended (h : Still target j k) {r : Except String Bool} (hr : r ≠ .ok true) :
    Ended target new j r k :=
  ⟨fun heq => absurd heq hr, fun _ => h.disk, fun _ he => (h.visited he).imp_right .inl⟩

theorem ended_giveUp (hne : target ≠ tmp) (h : Still target j k) :
    wp (giveUp f tmp) (fun b t => Ended target new j (.ok b) t)
      (fun e t => Ended target new j (.error e) t) k := by
  have hstill := (still_giveUp (f := f) hne).wp k
  have hfalse : wp (giveUp f tmp) (fun b _ => b = false) (fun _ _ => True) k := by
    rw [giveUp]
    apply wp_branch
    · exact fun _ => (wp_raise _).mpr trivial
    · intro _
      rw [wp_bind]
      exact wp_update.mpr ((wp_pure _).mpr rfl)
  apply wp_mono (wp_and hstill hfalse)
  · rintro b t ⟨ht, rfl⟩
    exact (trans_of (Still target) h ht).ended (by simp)
  · rintro e t ⟨ht, -⟩
    exact (trans_of (Still target) h ht).ended (by simp)

theorem ended_swap (hne : target ≠ tmp) (h : Still target j k) (htmp : k.disk tmp = some new)
    (hspared : f.removeFails = true ∨ k.disk target = none) :
    wp (swap f tmp target) (fun b t => Ended target new j (.ok b) t)
      (fun e t => Ended target new j (.error e) t) k := by
  have hold : wp (removeOld f target)
      (fun _ t => Still target j t ∧ t.disk tmp = some new) (fun _ _ => False) k := by
    apply wp_branch
    · exact fun _ => (wp_pure _).mpr ⟨h, htmp⟩
    · intro hremove
      have hnone : k.disk target = none := hspared.resolve_left hremove
      refine wp_update.mpr ⟨trans_of (Still target) h
        (still_change (c := fun d => Function.update d target none) ?_), ?_⟩
      · exact (Function.update_self ..).trans hnone.symm
      · exact (Function.update_of_ne hne.symm _ _).trans htmp
  rw [swap]
  apply wp_then hold
  rintro _ x ⟨hx, hxtmp⟩
  apply wp_branch
  · exact fun _ => ended_giveUp hne hx
  · intro _
    rw [wp_bind]
    refine wp_update.mpr ((wp_pure _).mpr ?_)
    have hnew : Function.update (Function.update x.disk target (x.disk tmp)) tmp none target =
        some new := by
      rw [Function.update_of_ne hne, Function.update_self, hxtmp]
    refine ⟨fun _ => hnew, fun heq => absurd heq (by simp), fun e he => ?_⟩
    rcases List.mem_append.mp he with he | he
    · exact (hx.visited he).imp_right .inl
    · rw [List.mem_singleton.mp he]
      exact .inr (.inr hnew)

end

theorem atomic_of_spared {f : Faults} {fileName : Bytes} (content : Bytes) {ownerOnly : Bool}
    {d : Disk} (h : Spared f ownerOnly fileName d) :
    Atomic (atomicWrite f fileName content ownerOnly) fileName content d := by
  have hne := tmp_ne fileName
  have hended : wp (atomicWrite f fileName content ownerOnly)
      (fun b t => Ended fileName content ⟨d, []⟩ (.ok b) t)
      (fun e t => Ended fileName content ⟨d, []⟩ (.error e) t) ⟨d, []⟩ := by
    rw [atomicWrite]
    apply wp_branch
    · intro _
      exact (wp_pure _).mpr ((refl_of (Still fileName) _).ended (by simp))
    · intro hopen
      rw [wp_bind]
      refine wp_update.mpr ?_
      rw [wp_bind]
      refine wp_update.mpr ?_
      have hstill : Still fileName ⟨d, []⟩ _ := trans_of (Still fileName)
        (still_put hne (some []) ⟨d, []⟩)
        (still_put hne (some (f.writeFails.elim content content.take)) _)
      apply wp_branch
      · exact fun _ => ended_giveUp hne hstill
      · intro hwritten
        apply wp_branch
        · exact fun _ => ended_giveUp hne hstill
        · intro hpermitted
          rw [not_or] at hwritten
          have hwrite : f.writeFails = none := by simpa using hwritten.1
          refine ended_swap hne hstill ?_ ?_
          · rw [hwrite]
            exact Function.update_self ..
          · rcases h with h | h | h | h | h | h
            · exact .inr (hstill.disk.trans h)
            · exact absurd h hopen
            · exact absurd h hwritten.1
            · exact absurd h hwritten.2
            · exact absurd h hpermitted
            · exact .inl h
  have hrun := wp_result.mp hended
  exact ⟨hrun.done, hrun.undone, fun e he => (hrun.throughout e he).resolve_left List.not_mem_nil⟩

/-! ### Files that are removed -/

theorem put_bind {α : Type} (name : Bytes) (content : Option Bytes) (g : Unit → FileOps α)
    (j : Journal) : (put name content >>= g) j =
      g () ⟨Function.update j.disk name content, j.visited⟩ := rfl

/-- The removal leaves a state without the file. -/
theorem gone_swap {f : Faults} {tmp target : Bytes} {j : Journal} (h : f.removeFails = false) :
    ∃ e ∈ (swap f tmp target j).2.visited, e target = none := by
  have hremoved : removeOld f target j =
      (.ok (), ⟨Function.update j.disk target none, j.visited⟩) := by
    rw [removeOld, if_neg (by rw [h]; decide)]
    rfl
  have hgrows (k : Journal) : Grows k ((if f.renameFails = true then giveUp f tmp
      else do
        move tmp target
        pure true) k).2 :=
    keeps_ite (grows_giveUp f tmp) (keeps_bind (grows_change _) fun _ => keeps_pure _) k
  refine ⟨Function.update j.disk target none, ?_, Function.update_self ..⟩
  rw [swap, bind_ok hremoved]
  exact hgrows _ _ (List.mem_append_right _ List.mem_cons_self)

theorem gone_of_not_spared {f : Faults} {fileName : Bytes} (content : Bytes) {ownerOnly : Bool}
    {d : Disk} (h : ¬ Spared f ownerOnly fileName d) : (d fileName).isSome ∧
      ∃ e ∈ (atomicWrite f fileName content ownerOnly ⟨d, []⟩).2.visited, e fileName = none := by
  simp only [Spared, not_or] at h
  obtain ⟨hthere, hopen, hwrite, hclose, hpermissions, hremove⟩ := h
  refine ⟨Option.isSome_iff_ne_none.mpr hthere, ?_⟩
  rw [atomicWrite, if_neg hopen, put_bind, put_bind, if_neg (not_or.mpr ⟨hwrite, hclose⟩),
    if_neg hpermissions]
  exact gone_swap (by simpa using hremove)

theorem atomic_iff_spared (f : Faults) (fileName content : Bytes) (ownerOnly : Bool) (d : Disk) :
    Atomic (atomicWrite f fileName content ownerOnly) fileName content d ↔
      Spared f ownerOnly fileName d := by
  constructor
  · intro hatomic
    by_contra hspared
    obtain ⟨hthere, e, he, hgone⟩ := gone_of_not_spared content hspared
    rcases hatomic.throughout e he with hold | hnew
    · rw [← hold, hgone] at hthere
      cases hthere
    · rw [hgone] at hnew
      cases hnew
  · exact atomic_of_spared content

theorem neverLost_iff_spared (f : Faults) (fileName content : Bytes) (ownerOnly : Bool) (d : Disk) :
    NeverLost (atomicWrite f fileName content ownerOnly) fileName d ↔
      Spared f ownerOnly fileName d := by
  constructor
  · intro hkept
    by_contra hspared
    obtain ⟨hthere, e, he, hgone⟩ := gone_of_not_spared content hspared
    have hsome := hkept hthere e he
    rw [hgone] at hsome
    cases hsome
  · intro hspared hthere e he
    rcases (atomic_of_spared content hspared).throughout e he with hold | hnew
    · rwa [hold]
    · rw [hnew]
      rfl

/-- `write_me_public_key` writes only where it can read the identity. -/
theorem neverLost_mePublicKey (f : Faults) (unreadable : Bool) (publicKeyB64 : Bytes) (d : Disk) :
    NeverLost (writeMePublicKey f unreadable publicKeyB64) kMeInfo d ↔
      (unreadable = true ∨ (d kMeInfo).bind parseMeInfo = none ∨ Spared f false kMeInfo d) := by
  rcases hread : (if unreadable then none else d kMeInfo).bind parseMeInfo with _ | me
  · have hrun : writeMePublicKey f unreadable publicKeyB64 ⟨d, []⟩ = (.ok false, ⟨d, []⟩) := by
      rw [writeMePublicKey, bind_ok (look_eq_ok.mpr ⟨rfl, rfl⟩), hread]
      rfl
    refine iff_of_true (fun hthere e he => ?_) ?_
    · rw [hrun] at he
      rwa [List.mem_singleton.mp he]
    · rcases unreadable with _ | _
      · exact .inr (.inl hread)
      · exact .inl rfl
  · have hreadable : unreadable = false := by
      rcases unreadable with _ | _
      · rfl
      · cases hread
    rw [hreadable, if_neg (by decide)] at hread
    have hrun : writeMePublicKey f unreadable publicKeyB64 ⟨d, []⟩ =
        atomicWrite f kMeInfo (me.username ++ [10] ++ me.clientId ++ [10] ++ publicKeyB64 ++ [10])
          false ⟨d, []⟩ := by
      rw [writeMePublicKey, bind_ok (look_eq_ok.mpr ⟨rfl, rfl⟩), hreadable, if_neg (by decide),
        hread]
    have hspared := neverLost_iff_spared f kMeInfo
      (me.username ++ [10] ++ me.clientId ++ [10] ++ publicKeyB64 ++ [10]) false d
    rw [NeverLost, ← hrun] at hspared
    rw [NeverLost, hspared, hreadable, hread]
    simp

/-- A replacement is atomic, and the four writers never lose what is stored, exactly where
the old file is not removed. -/
theorem replacement_atomic_iff (f : Faults) (d : Disk) :
    (∀ fileName content ownerOnly, Atomic (atomicWrite f fileName content ownerOnly) fileName
      content d ↔
      Spared f ownerOnly fileName d) ∧
    (∀ username clientIdHex, NeverLost (writeMeIdentity f username clientIdHex) kMeInfo d ↔
      Spared f false kMeInfo d) ∧
    (∀ unreadable publicKeyB64, NeverLost (writeMePublicKey f unreadable publicKeyB64) kMeInfo d ↔
      (unreadable = true ∨ (d kMeInfo).bind parseMeInfo = none ∨ Spared f false kMeInfo d)) ∧
    (∀ aesKeyB64, NeverLost (writeAesKey f aesKeyB64) kAesKey d ↔ Spared f true kAesKey d) ∧
    ∀ fingerprint, NeverLost (writeFingerprint f fingerprint) kFingerprint d ↔
      Spared f true kFingerprint d :=
  ⟨fun fileName content ownerOnly => atomic_iff_spared f fileName content ownerOnly d,
    fun _ _ => neverLost_iff_spared f kMeInfo _ false d,
    fun unreadable b64 => neverLost_mePublicKey f unreadable b64 d,
    fun _ => neverLost_iff_spared f kAesKey _ true d,
    fun _ => neverLost_iff_spared f kFingerprint _ true d⟩

/-- A key is stored and a new one is to replace it; the rename fails and no key is left. -/
theorem failed_rename_loses_key : ¬ ∀ (f : Faults) (d : Disk) (fileName content : Bytes)
    (ownerOnly : Bool), Atomic (atomicWrite f fileName content ownerOnly) fileName content d := by
  intro h
  have hundone := (h { renameFails := true } (Function.update (fun _ => none) kAesKey (some [1]))
    kAesKey [2, 10] true).undone (by decide +kernel)
  revert hundone
  decide +kernel

end Seftp.FileReplacement
