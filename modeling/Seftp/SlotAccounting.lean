import Seftp.SharedSlots
import Seftp.ConnectionLoop
import Seftp.KeyBinding
import Mathlib.Data.Set.Card

/-!
# The slots of all connections

Connections share the upload limiter. What one event of a connection does to its slot
flag and the limiter is a list of two atomic actions, taking a slot and giving it back;
the locks are held over no suspension, so these actions never overlap. The counter is
therefore the number of connections with the flag, in every order of events and also of
the single actions, where a handler may be suspended or cancelled between any two.
-/
namespace Seftp.SlotAccounting
open LittleEndian ExceptState OutsideWorld Protocol ClientStore StoreFrames ServerSession Answers
open SessionFrames HandlerParts HandlerFrames AccountHandlers UploadHandlers UploadSteps Router
open ConnectionLoop KeyBinding SharedSlots

/-! ### The actions of one session -/

/-- A session's flag with the limiter. -/
def slotOf (w : World) : Bool × UploadLimiter := (w.session.hasUploadSlot, w.limiter)

def localAct (b : Bool × UploadLimiter) : SlotAction → Bool × UploadLimiter
  | .acquire => if b.1 then b else if b.2.tryAcquire.1 then (true, b.2.tryAcquire.2) else b
  | .release => if b.1 then (false, b.2.release) else b
  | .finish => b

/-- Slots are taken and given back, and nothing else happens to them. -/
def SlotRun (w w' : World) : Prop :=
  ∃ as : List SlotAction, .finish ∉ as ∧ slotOf w' = as.foldl localAct (slotOf w)

instance : Std.Refl SlotRun := ⟨fun _ => ⟨[], by simp, rfl⟩⟩

instance : IsTrans World SlotRun where
  trans a b c h h' := by
    obtain ⟨as, hno, h⟩ := h
    obtain ⟨bs, hno', h'⟩ := h'
    refine ⟨as ++ bs, ?_, by rw [h', h, List.foldl_append]⟩
    rw [List.mem_append]
    exact fun h => h.elim hno hno'

theorem slotRun_of_eq {w w' : World} (h : slotOf w' = slotOf w) : SlotRun w w' := ⟨[], by simp, h⟩

theorem slotOf_of_core {w w' : World} (h : SessionFrames.core w' = SessionFrames.core w) :
    slotOf w' = slotOf w := by
  rw [slotOf, slotOf, show w'.session.hasUploadSlot = _ from congrArg Core.hasUploadSlot h,
    show w'.limiter = _ from congrArg Core.limiter h]
  rfl

section
variable {ctx : Ctx} {version clientId : Bytes} {w : World}

theorem slotRun_of_tells {α : Type} {x : Server α} (hx : Keeps (Tells []) x) : Keeps SlotRun x :=
  fun w => slotRun_of_eq (slotOf_of_core (hx w).core_eq)

theorem slotRun_of_quiet {α : Type} {P : Bytes → Prop} {x : Server α} (hx : Keeps (Quiet P) x) :
    Keeps SlotRun x := fun w => by
  obtain ⟨ms, h, -⟩ := hx w
  exact slotRun_of_eq (slotOf_of_core h.core_eq)

theorem slotRun_of_account {α : Type} (env : Env) {x : Server α} (hx : Keeps (AccountOnly env) x) :
    Keeps SlotRun x :=
  fun w => slotRun_of_eq (Prod.ext (hx w).slot (hx w).limiter)

theorem slotRun_onSession {f : Session → Session} (h : ∀ s, (f s).hasUploadSlot = s.hasUploadSlot) :
    Keeps SlotRun (onSession f) :=
  fun w => slotRun_of_eq (Prod.ext (h w.session) rfl)

theorem slotRun_acquire : Keeps SlotRun acquireUploadSlot := by
  intro w
  refine ⟨[.acquire], by simp, ?_⟩
  simp only [acquireUploadSlot, bind_apply, fetch, List.foldl_cons, List.foldl_nil,
    localAct, slotOf]
  by_cases hslot : w.session.hasUploadSlot
  · simp only [hslot, if_true, pure_apply]
  by_cases htry : w.limiter.tryAcquire.1
  · simp only [hslot, htry, if_true, if_false, Bool.false_eq_true, bind_apply, update, pure_apply]
  · simp only [hslot, htry, if_false, Bool.false_eq_true, pure_apply]

theorem slotRun_release : Keeps SlotRun releaseUploadSlot := by
  intro w
  refine ⟨[.release], by simp, ?_⟩
  simp only [releaseUploadSlot, update, List.foldl_cons, List.foldl_nil, localAct, slotOf]
  by_cases hslot : w.session.hasUploadSlot
  · simp only [hslot, if_true]
  · simp only [hslot, if_false, Bool.false_eq_true]

theorem slotRun_parts : UploadParts ctx SlotRun where
  tells := slotRun_of_tells
  answers hx _ := slotRun_of_quiet hx
  onTransfer _ _ := slotRun_of_eq rfl
  onFiles _ _ := slotRun_of_eq rfl
  changeUploadRecord _ _ _ := slotRun_of_eq rfl
  createUploadRecord _ _ _ _ _ := slotRun_of_eq rfl
  log _ _ _ _ := slotRun_of_eq rfl
  acquire := slotRun_acquire
  release := slotRun_release

theorem slotRun_answer1607 (text : String) :
    Keeps SlotRun (answer1607 ctx clientId version text) := slotRun_of_quiet (quiet_answer1607 text)

theorem slotRun_reset : Keeps SlotRun (resetTransferState ctx) :=
  slotRun_parts.keeps_resetTransferState

theorem slotRun_request829 (payload : Bytes) :
    Keeps SlotRun (request829 ctx payload version clientId) := by
  refine keeps_look_bind fun h => keeps_ite (slotRun_answer1607 _) (keeps_ite (slotRun_answer1607 _)
    (keeps_ite (slotRun_answer1607 _) (keeps_ite (slotRun_answer1607 _)
      (keeps_ite (slotRun_answer1607 _) (keeps_ite (slotRun_answer1607 _) ?_)))))
  refine keeps_bind (slotRun_onSession fun _ => rfl) fun _ => keeps_look_bind fun n =>
    keeps_ofExcept_bind fun signature _ => keeps_bind (slotRun_onSession fun _ => rfl) fun _ => ?_
  exact slotRun_of_quiet (quiet_answer1608 _ _ _ _)

theorem slotRun_request830 (payload : Bytes) :
    Keeps SlotRun (request830 ctx payload version clientId) :=
  keeps_look_bind fun _ => keeps_ite (slotRun_answer1607 _) (keeps_ite (slotRun_answer1607 _)
    (keeps_ite (slotRun_answer1607 _) (slotRun_onSession fun _ => rfl)))

theorem slotRun_dispatch (r : Request) : Keeps SlotRun (dispatch handlers ctx r) := by
  refine keeps_look_bind fun verified => ?_
  unfold dispatchAs
  refine keeps_ite (slotRun_answer1607 _) (keeps_ite (slotRun_answer1607 _) ?_)
  refine keeps_ite (slotRun_of_account ctx.env (account_request825 _)) ?_
  refine keeps_ite (slotRun_of_account ctx.env (account_request827 _)) ?_
  refine keeps_ite (slotRun_of_account ctx.env (account_request826 _)) ?_
  refine keeps_ite (slotRun_parts.keeps_request828 _) ?_
  refine keeps_ite (slotRun_request829 _) (keeps_ite (slotRun_request830 _) ?_)
  refine keeps_ite (slotRun_parts.refusal.keeps_request900 _) ?_
  refine keeps_ite (slotRun_parts.refusal.keeps_request901 _) ?_
  refine keeps_ite (slotRun_parts.refusal.keeps_request902 _) ?_
  exact keeps_bind (slotRun_of_tells (tells_onFrameBad _)) fun _ =>
    keeps_bind (slotRun_answer1607 _)
    fun _ => keeps_look_bind fun active => keeps_ite slotRun_reset (keeps_pure _)

theorem slotRun_routeFrame (frame : Bytes) : Keeps SlotRun (routeFrame handlers ctx frame) := by
  have hmalformed (reason text : String) : Keeps SlotRun (do
      onFrameBad reason
      answer1607 ctx (parseFrame frame).clientId (parseFrame frame).version text
      resetTransferState ctx) :=
    keeps_bind (slotRun_of_tells (tells_onFrameBad _)) fun _ => keeps_bind (slotRun_answer1607 _)
      fun _ => slotRun_reset
  exact keeps_ite (hmalformed _ _) (keeps_ite (hmalformed _ _) (slotRun_dispatch _))

theorem slotRun_recover (r : Request) (e : PyError) : Keeps SlotRun (recover ctx r e) := by
  refine keeps_bind (slotRun_of_tells (tells_onFrameBad _)) fun _ => keeps_look_bind fun reason =>
    keeps_ite (keeps_raise _) (keeps_bind ?_ fun _ => keeps_look_bind fun active =>
      keeps_ite slotRun_reset (keeps_pure _))
  exact keeps_attempt (slotRun_answer1607 _) fun _ => keeps_pure _

theorem slotRun_handleFrame (frame : Bytes) : Keeps SlotRun (handleFrame ctx frame) := by
  refine keeps_ite (slotRun_of_tells (tells_onFrameBad _)) (keeps_bind ?_ fun _ => ?_)
  · exact keeps_update fun w => slotRun_of_eq rfl
  · exact keeps_attempt (slotRun_routeFrame frame) fun e => slotRun_recover _ e

theorem slotRun_readTimeout : Keeps SlotRun (readTimeout ctx) :=
  keeps_readTimeout (fun _ h => slotRun_onSession fun s => (h s).2.2)
    (fun _ _ text => slotRun_answer1607 text) slotRun_reset

theorem slotRun_disconnectCleanup : Keeps SlotRun (disconnectCleanup ctx) :=
  keeps_disconnectCleanup slotRun_reset slotRun_release

/-- The cleanup returns and leaves no slot with the session. -/
theorem cleanup_gives_back (ctx : Ctx) (w : World) :
    (disconnectCleanup ctx w).2.session.hasUploadSlot = false := by
  have hgive (u : World) : (releaseUploadSlot u).2.session.hasUploadSlot = false := by
    simp only [releaseUploadSlot, update]
    by_cases hslot : u.session.hasUploadSlot
    · rw [if_pos hslot]
    · rw [if_neg hslot]
      simpa using hslot
  simp only [disconnectCleanup, bind_apply, look]
  by_cases hactive : w.session.transfer.uploadActive
  · rw [if_pos hactive, bind_ok resetTransferState_eq]
    exact hgive _
  · rw [if_neg hactive]
    exact hgive w

/-- An event of an open connection takes and gives slots, and a connection that it
ends has none. -/
theorem slotRun_serveOpen (env : Env) (w : World) (e : SessionEvent) :
    SlotRun w (serveOpen env w e).world ∧
      ((serveOpen env w e).isOpen = false →
        (serveOpen env w e).world.session.hasUploadSlot = false) := by
  cases e with
  | received o => exact ⟨slotRun_of_tells tells_markActivity w, fun h => by cases h⟩
  | frame o bytes =>
      rw [serveOpen_frame]
      exact ⟨slotRun_handleFrame bytes w, fun h => by cases h⟩
  | timeout o =>
      refine ⟨keeps_timeout slotRun_readTimeout slotRun_disconnectCleanup, ?_⟩
      simp only [serveOpen]
      rcases readTimeout ⟨env, o⟩ w with ⟨e | leave, u⟩
      · exact fun _ => cleanup_gives_back _ u
      · cases leave with
        | false => exact fun h => by cases h
        | true => exact fun _ => cleanup_gives_back _ u
  | disconnect o => exact ⟨slotRun_disconnectCleanup w, fun _ => cleanup_gives_back _ w⟩

end

/-! ### All connections -/

/-- The shared state, the sessions, and which connections are still served. -/
structure Host where
  system : System
  isOpen : ℕ → Bool

namespace Host

def step (env : Env) (h : Host) (e : ℕ × SessionEvent) : Host :=
  let c := serve env { world := h.system.world e.1, isOpen := h.isOpen e.1 } e.2
  { system := h.system.put e.1 c.world, isOpen := Function.update h.isOpen e.1 c.isOpen }

def run (env : Env) (h : Host) (es : List (ℕ × SessionEvent)) : Host := es.foldl (step env) h

/-- A started server: no connection has had a frame, and no slot is taken. -/
def start (db : Database) (connectionIds : ℕ → String) (times : ℕ → ℚ) (files : FileSystem)
    (limiter : UploadLimiter) : Host :=
  { system := System.start db (fun i => Session.fresh (connectionIds i) (times i)) files
      { limiter with activeUploads := 0, bounded := Nat.zero_le _ }
    isOpen := fun _ => true }

/-- The connections that are served and have the flag. -/
def holders (h : Host) : Set ℕ :=
  { i | h.isOpen i = true ∧ (h.system.sessions i).hasUploadSlot = true }

end Host

/-! ### Actions on the shared counter -/

/-- The abstract slots agree with flags, limiter and open connections. -/
structure Sees (flags : ℕ → Bool) (l : UploadLimiter) (isOpen : ℕ → Bool) (s : Slots ℕ) : Prop where
  limit : s.limit = l.maxConcurrentUploads
  active : s.active = l.activeUploads
  held : ∀ i, i ∈ s.held ↔ flags i = true
  ended : ∀ i, i ∈ s.ended ↔ isOpen i = false

section
variable {flags : ℕ → Bool} {l : UploadLimiter} {isOpen : ℕ → Bool} {s : Slots ℕ} {i : ℕ}

theorem tryAcquire_true {l : UploadLimiter} (h : l.activeUploads < l.maxConcurrentUploads) :
    l.tryAcquire.1 = true ∧ l.tryAcquire.2.activeUploads = l.activeUploads + 1 ∧
      l.tryAcquire.2.maxConcurrentUploads = l.maxConcurrentUploads := by
  unfold UploadLimiter.tryAcquire
  rw [dif_neg (by omega)]
  exact ⟨rfl, rfl, rfl⟩

theorem tryAcquire_false {l : UploadLimiter} (h : l.maxConcurrentUploads ≤ l.activeUploads) :
    l.tryAcquire.1 = false := by
  unfold UploadLimiter.tryAcquire
  rw [dif_pos h]

theorem sees_acquire (h : Sees flags l isOpen s) (hopen : isOpen i = true) :
    Sees (Function.update flags i (localAct (flags i, l) .acquire).1)
      (localAct (flags i, l) .acquire).2 isOpen (s.acquire i) := by
  have hended : i ∉ s.ended := by
    rw [h.ended, hopen]
    exact nofun
  by_cases hflag : flags i = true
  · have hlocal : localAct (flags i, l) .acquire = (flags i, l) := if_pos hflag
    rw [hlocal, Function.update_eq_self, Slots.acquire, if_pos (.inl ((h.held i).mpr hflag))]
    exact h
  have hheld : i ∉ s.held := fun hin => hflag ((h.held i).mp hin)
  have hlimit := h.limit
  have hcount := h.active
  rcases Nat.lt_or_ge l.activeUploads l.maxConcurrentUploads with hroom | hfull
  · obtain ⟨htry, hactive, hmax⟩ := tryAcquire_true hroom
    have hlocal : localAct (flags i, l) .acquire = (true, l.tryAcquire.2) :=
      (if_neg hflag).trans (if_pos htry)
    rw [hlocal, Slots.acquire,
      if_neg (by rw [not_or, not_or]; exact ⟨hheld, hended, by omega⟩)]
    refine ⟨hlimit.trans hmax.symm, ?_, ?_, h.ended⟩
    · change s.active + 1 = l.tryAcquire.2.activeUploads
      rw [hactive, hcount]
    · intro j
      change j ∈ insert i s.held ↔ _
      by_cases hji : j = i
      · subst hji
        simp
      · rw [Finset.mem_insert, Function.update_of_ne hji, ← h.held j]
        simp [hji]
  · have hlocal : localAct (flags i, l) .acquire = (flags i, l) :=
      (if_neg hflag).trans (if_neg (by rw [tryAcquire_false hfull]; exact nofun))
    rw [hlocal, Function.update_eq_self, Slots.acquire, if_pos (.inr (.inr (by omega)))]
    exact h

theorem sees_release (h : Sees flags l isOpen s) :
    Sees (Function.update flags i (localAct (flags i, l) .release).1)
      (localAct (flags i, l) .release).2 isOpen (s.release i) := by
  by_cases hflag : flags i = true
  · have hlocal : localAct (flags i, l) .release = (false, l.release) := if_pos hflag
    rw [hlocal, Slots.release, if_pos ((h.held i).mpr hflag)]
    refine ⟨h.limit, ?_, ?_, h.ended⟩
    · change s.active - 1 = l.activeUploads - 1
      rw [h.active]
    · intro j
      change j ∈ s.held.erase i ↔ _
      by_cases hji : j = i
      · subst hji
        simp
      · rw [Finset.mem_erase, Function.update_of_ne hji, ← h.held j]
        simp [hji]
  · have hlocal : localAct (flags i, l) .release = (flags i, l) := if_neg hflag
    rw [hlocal, Function.update_eq_self, Slots.release, if_neg fun hin => hflag ((h.held i).mp hin)]
    exact h

/-- The actions of one session on its flag are its actions on the shared counter. -/
theorem sees_actions (h : Sees flags l isOpen s) (hopen : isOpen i = true) {as : List SlotAction}
    (hno : .finish ∉ as) :
    Sees (Function.update flags i (as.foldl localAct (flags i, l)).1)
      (as.foldl localAct (flags i, l)).2 isOpen (s.run (as.map (Prod.mk i))) := by
  induction as generalizing flags l s with
  | nil =>
      rw [List.foldl_nil, Function.update_eq_self]
      exact h
  | cons a as ih =>
      rw [List.mem_cons, not_or] at hno
      have hone : Sees (Function.update flags i (localAct (flags i, l) a).1)
          (localAct (flags i, l) a).2 isOpen (s.act (i, a)) := by
        cases a with
        | acquire => exact sees_acquire h hopen
        | release => exact sees_release h
        | finish => exact absurd rfl hno.1
      have hall := ih hone hno.2
      rw [Function.update_self, Function.update_idem] at hall
      exact hall

/-- The end of a connection that has given its slot back. -/
theorem sees_finish (h : Sees flags l isOpen s) (hflag : flags i = false) :
    Sees flags l (Function.update isOpen i false) (s.finish i) := by
  have hheld : i ∉ s.held := by
    rw [h.held, hflag]
    exact nofun
  have hrelease : s.release i = s := if_neg hheld
  rw [Slots.finish, hrelease]
  refine ⟨h.limit, h.active, h.held, ?_⟩
  intro j
  change j ∈ insert i s.ended ↔ _
  by_cases hji : j = i
  · subst hji
    simp
  · rw [Finset.mem_insert, Function.update_of_ne hji, ← h.ended j]
    simp [hji]

end

/-! ### Runs -/

/-- The host's flags, limiter and open connections. -/
def Host.Sees (h : Host) (s : Slots ℕ) : Prop :=
  SlotAccounting.Sees (fun i => (h.system.sessions i).hasUploadSlot) h.system.limiter h.isOpen s

/-- Writing back the world of a connection. -/
theorem flags_put (sys : System) (i : ℕ) (w : World) :
    (fun j => ((sys.put i w).sessions j).hasUploadSlot) =
      Function.update (fun j => (sys.sessions j).hasUploadSlot) i w.session.hasUploadSlot := by
  funext j
  by_cases hji : j = i
  · subst hji
    simp [System.put]
  · simp [System.put, hji]

theorem put_world (sys : System) (i : ℕ) : sys.put i (sys.world i) = sys := by
  simp [System.put, System.world]

/-- An event is a list of actions of its connection. -/
theorem sees_step (env : Env) {h : Host} {s : Slots ℕ} (hs : h.Sees s) (e : ℕ × SessionEvent) :
    ∃ as : List SlotAction, (h.step env e).Sees (s.run (as.map (Prod.mk e.1))) := by
  obtain ⟨i, e⟩ := e
  rcases hopen : h.isOpen i with _ | _
  · have hsame : h.step env (i, e) = h := by
      simp only [Host.step, serve, hopen, Bool.false_eq_true, if_false, put_world]
      rw [← hopen, Function.update_eq_self]
    rw [hsame]
    exact ⟨[], hs⟩
  have hstep : h.step env (i, e) =
      { system := h.system.put i (serveOpen env (h.system.world i) e).world
        isOpen := Function.update h.isOpen i (serveOpen env (h.system.world i) e).isOpen } := by
    simp only [Host.step, serve, hopen, if_true]
  obtain ⟨⟨as, hno, hrun⟩, hend⟩ := slotRun_serveOpen env (h.system.world i) e
  rw [hstep]
  generalize serveOpen env (h.system.world i) e = c at *
  have hacts : Sees (Function.update (fun j => (h.system.sessions j).hasUploadSlot) i
      c.world.session.hasUploadSlot) c.world.limiter h.isOpen (s.run (as.map (Prod.mk i))) := by
    have hacts := sees_actions hs hopen hno
    rw [show (as.foldl localAct ((h.system.sessions i).hasUploadSlot, h.system.limiter)) =
      slotOf c.world from hrun.symm] at hacts
    exact hacts
  rcases hc : c.isOpen with _ | _
  · refine ⟨as ++ [.finish], ?_⟩
    rw [List.map_append, Slots.run_append]
    unfold Host.Sees
    rw [flags_put]
    refine sees_finish hacts ?_
    rw [Function.update_self]
    exact hend hc
  · refine ⟨as, ?_⟩
    unfold Host.Sees
    rw [flags_put, ← hopen, Function.update_eq_self]
    exact hacts

/-- The actions of the events, each with its connection. -/
def tagged (es : List (ℕ × SessionEvent)) (bs : List (List SlotAction)) : List (ℕ × SlotAction) :=
  (List.zipWith (fun e as => as.map (Prod.mk e.1)) es bs).flatten

theorem tagged_snoc {es : List (ℕ × SessionEvent)} {bs : List (List SlotAction)}
    (h : bs.length = es.length) (e : ℕ × SessionEvent) (as : List SlotAction) :
    tagged (es ++ [e]) (bs ++ [as]) = tagged es bs ++ as.map (Prod.mk e.1) := by
  rw [tagged, List.zipWith_append h.symm, List.flatten_append]
  simp [tagged]

theorem run_snoc (env : Env) (h : Host) (es : List (ℕ × SessionEvent)) (e : ℕ × SessionEvent) :
    h.run env (es ++ [e]) = (h.run env es).step env e := List.foldl_concat ..

/-- A run is an interleaving of the actions of its events. -/
theorem sees_run (env : Env) {h : Host} {s : Slots ℕ} (hs : h.Sees s)
    (es : List (ℕ × SessionEvent)) :
    ∃ bs : List (List SlotAction), bs.length = es.length ∧
      ∀ n, (h.run env (es.take n)).Sees (s.run (tagged (es.take n) (bs.take n))) := by
  induction es using List.reverseRecOn with
  | nil =>
      refine ⟨[], rfl, fun n => ?_⟩
      rw [List.take_nil, List.take_nil]
      exact hs
  | append_singleton es e ih =>
      obtain ⟨bs, hlen, hall⟩ := ih
      have hlast := hall es.length
      rw [List.take_length, ← hlen, List.take_length] at hlast
      obtain ⟨as, has⟩ := sees_step env hlast e
      refine ⟨bs ++ [as], by simp [hlen], fun n => ?_⟩
      rcases Nat.lt_or_ge es.length n with hn | hn
      · rw [List.take_of_length_le (by simp; omega), List.take_of_length_le (by simp; omega),
          run_snoc, tagged_snoc hlen, Slots.run_append]
        exact has
      · rw [List.take_append_of_le_length hn, List.take_append_of_le_length (by omega)]
        exact hall n

theorem sees_start (db : Database) (connectionIds : ℕ → String) (times : ℕ → ℚ)
    (files : FileSystem) (limiter : UploadLimiter) :
    (Host.start db connectionIds times files limiter).Sees
      (Slots.empty limiter.maxConcurrentUploads) :=
  ⟨rfl, rfl, fun _ => ⟨nofun, nofun⟩, fun _ => ⟨nofun, nofun⟩⟩

/-- What the agreement with right books says about a host. -/
theorem holders_of_sees {h : Host} {s : Slots ℕ} (hs : h.Sees s) (hexact : Exact s) :
    h.holders = ↑s.held ∧ ∀ i, h.isOpen i = false →
      (h.system.sessions i).hasUploadSlot = false := by
  have hclosed (i : ℕ) (hi : h.isOpen i = false) : (h.system.sessions i).hasUploadSlot = false := by
    have hno := hexact.ended i ((hs.ended i).mpr hi)
    rw [hs.held] at hno
    simpa using hno
  refine ⟨?_, hclosed⟩
  ext i
  rw [Finset.mem_coe, hs.held]
  refine ⟨fun hi => hi.2, fun hflag => ⟨?_, hflag⟩⟩
  by_contra hopen
  rw [hclosed i (by simpa using hopen)] at hflag
  cases hflag

/-- In every state of every run the counter is the number of served connections with
the flag; a connection that has ended has none. Each event is a list of atomic actions
of its connection, and in any order of such actions every slot that was taken is given
back once, to a counter above zero. -/
theorem upload_slots_exact (env : Env) (db : Database) (connectionIds : ℕ → String) (times : ℕ → ℚ)
    (files : FileSystem) (limiter : UploadLimiter) (es : List (ℕ × SessionEvent)) :
    let start := Host.start db connectionIds times files limiter
    let slots : Slots ℕ := Slots.empty limiter.maxConcurrentUploads
    let h := start.run env es
    h.holders.Finite ∧ h.system.limiter.activeUploads = h.holders.ncard ∧
    h.system.limiter.activeUploads ≤ limiter.maxConcurrentUploads ∧
    (∀ i, h.isOpen i = false → (h.system.sessions i).hasUploadSlot = false) ∧
    (∃ bs : List (List SlotAction), bs.length = es.length ∧ ∀ n,
      (start.run env (es.take n)).Sees (slots.run (tagged (es.take n) (bs.take n)))) ∧
    ∀ as : List (ℕ × SlotAction), Exact (slots.run as) := by
  intro start slots h
  have hexact (as : List (ℕ × SlotAction)) : Exact (slots.run as) := (exact_empty _).run as
  obtain ⟨bs, hlen, hall⟩ := sees_run env (sees_start db connectionIds times files limiter) es
  have hlast := hall es.length
  rw [List.take_length, ← hlen, List.take_length] at hlast
  obtain ⟨hholders, hclosed⟩ := holders_of_sees hlast (hexact _)
  have hcount : h.system.limiter.activeUploads = (slots.run (tagged es bs)).held.card :=
    hlast.active.symm.trans (hexact _).active
  refine ⟨?_, ?_, ?_, hclosed, ⟨bs, hlen, hall⟩, hexact⟩
  · rw [hholders]
    exact Finset.finite_toSet _
  · rw [hholders, Set.ncard_coe_finset, hcount]
  · have hbound := (hexact (tagged es bs)).bounded
    rw [hlast.active, limit_run] at hbound
    exact hbound

end Seftp.SlotAccounting
