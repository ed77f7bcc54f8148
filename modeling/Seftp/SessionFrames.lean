import Seftp.Answers
import Seftp.StoreFrames

/-!
# What responses and bookkeeping change

`core` is the part of the world that the upload protocol is about: the transfer,
the slot, the handshake, the files, the limiter and the store without its
bookkeeping. Sending a response leaves it as it is. `Tells ms` says that a run did
nothing but hand over the messages `ms` and keep the books; `Quiet P` that it did
so with messages of kind `P`.
-/
namespace Seftp.SessionFrames
open LittleEndian ExceptState OutsideWorld Text Protocol ClientStore StoreFrames ServerSession
open Answers

/-- A file system without its count of operations. -/
def bare (fs : FileSystem) : FileSystem := { fs with calls := 0 }

/-- The world without clocks, counters, logs and messages. -/
structure Core where
  transfer : Transfer
  hasUploadSlot : Bool
  handshake : Handshake
  connectionId : String
  files : FileSystem
  limiter : UploadLimiter
  store : StoreFrames.Core

def core (w : World) : Core :=
  { transfer := w.session.transfer
    hasUploadSlot := w.session.hasUploadSlot
    handshake := w.session.handshake
    connectionId := w.session.connectionId
    files := bare w.files
    limiter := w.limiter
    store := StoreFrames.core w.store }

/-- Only messages, clocks and books. -/
structure Tells (ms : List Bytes) (w w' : World) : Prop where
  core_eq : core w' = core w
  sent : w'.session.sent = w.session.sent ++ ms
  store : SeenOnly w.store w'.store

/-- A run that told messages of one kind. -/
def Quiet (P : Bytes → Prop) (w w' : World) : Prop := ∃ ms, Tells ms w w' ∧ ∀ m ∈ ms, P m

section
variable {P : Bytes → Prop} {w w' w'' : World} {ms ns : List Bytes}

theorem Tells.refl (w : World) : Tells [] w w := ⟨rfl, by simp, refl_of SeenOnly _⟩

theorem Tells.handshake (h : Tells ms w w') : w'.session.handshake = w.session.handshake :=
  congrArg Core.handshake h.core_eq

theorem Tells.transfer (h : Tells ms w w') : w'.session.transfer = w.session.transfer :=
  congrArg Core.transfer h.core_eq

theorem Tells.trans (h : Tells ms w w') (h' : Tells ns w' w'') : Tells (ms ++ ns) w w'' :=
  ⟨h'.core_eq.trans h.core_eq, by rw [h'.sent, h.sent, List.append_assoc],
    trans_of SeenOnly h.store h'.store⟩

theorem Tells.quiet (h : Tells ms w w') (hp : ∀ m ∈ ms, P m) : Quiet P w w' := ⟨ms, h, hp⟩

theorem Tells.silent (h : Tells [] w w') : Quiet P w w' := ⟨[], h, by simp⟩

theorem Quiet.core_eq (h : Quiet P w w') : core w' = core w := h.choose_spec.1.core_eq

theorem Quiet.mono {P' : Bytes → Prop} (h : Quiet P w w') (hp : ∀ m, P m → P' m) :
    Quiet P' w w' := by
  obtain ⟨ms, ht, hm⟩ := h
  exact ⟨ms, ht, fun m h => hp m (hm m h)⟩

end

instance (P : Bytes → Prop) : Std.Refl (Quiet P) := ⟨fun w => (Tells.refl w).silent⟩

instance (P : Bytes → Prop) : IsTrans World (Quiet P) where
  trans a b c h h' := by
    obtain ⟨ms, hm, hp⟩ := h
    obtain ⟨ns, hn, hq⟩ := h'
    exact ⟨ms ++ ns, hm.trans hn, fun m h => (List.mem_append.mp h).elim (hp m) (hq m)⟩

/-! ### The primitives -/

section
variable {ctx : Ctx} {w : World}

/-- A change of the session outside the core and the messages. -/
theorem tells_setSession {s : Session} (ht : s.transfer = w.session.transfer)
    (hs : s.hasUploadSlot = w.session.hasUploadSlot) (hh : s.handshake = w.session.handshake)
    (hc : s.connectionId = w.session.connectionId) (hm : s.sent = w.session.sent) :
    Tells [] w (w.setSession s) := by
  refine ⟨?_, ?_, refl_of SeenOnly _⟩
  · simp only [core, World.setSession, ht, hs, hh, hc]
  · simp only [World.setSession, hm, List.append_nil]

theorem tells_onFrameBad (reason : String) : Keeps (Tells []) (onFrameBad reason) := fun _ =>
  tells_setSession rfl rfl rfl rfl rfl

theorem tells_logEvent (key : LogKey) (event : String) :
    Keeps (Tells []) (logEvent ctx key event) :=
  fun _ => ⟨rfl, by simp [logEvent, update, World.setStore], ⟨rfl, .inl (.refl _)⟩⟩

theorem wp_markActivity {Q : Unit → World → Prop} {E : PyError → World → Prop} :
    wp (markActivity ctx) Q E w ↔ Q () (w.setSession { w.session with
      ticks := w.session.ticks + 1, lastActivity := ctx.out.monotonic w.session.ticks }) := by
  simp only [markActivity, monotonic, onSession, wp_bind, wp_look, wp_update, wp_pure]
  rfl

theorem tells_markActivity : Keeps (Tells []) (markActivity ctx) := by
  apply keeps_of_wp
  intro w
  rw [wp_markActivity]
  exact tells_setSession rfl rfl rfl rfl rfl

theorem tells_touch (id : String) :
    Keeps (Tells []) (onStore (touchClientLastSeen ctx.out id)) := by
  refine keeps_zoom touch_seenOnly fun w st h => ⟨?_, ?_, h⟩
  · simp only [core, World.setStore, h.core_eq]
  · simp [World.setStore]

/-- Handing a message over, whether or not `drain` then raises. -/
theorem tells_send {data : Bytes} (hd : data ≠ []) : Keeps (Tells [data]) (send ctx data) := by
  apply keeps_of_wp
  intro w
  simp only [send, if_neg hd, wp_bind, wp_look, onSession, wp_update]
  have hput : Tells [data] w (w.setSession { w.session with sent := w.session.sent ++ [data] }) :=
    ⟨rfl, rfl, refl_of SeenOnly _⟩
  rcases ctx.out.sendRaises w.session.sent.length with _ | e
  · rw [wp_markActivity]
    exact hput.trans
      (tells_setSession rfl rfl rfl rfl rfl)
  · simp only [wp_ite, wp_bind, wp_update, wp_raise]
    split
    · exact hput.trans
        (tells_setSession rfl rfl rfl rfl rfl)
    · exact hput

theorem send_returns {data : Bytes} (ho : ctx.out.SendsWork) :
    wp (send ctx data) (fun _ _ => True) (fun _ _ => False) w := by
  simp only [send]
  split
  · rw [wp_pure]
    trivial
  · simp only [wp_bind, wp_look, onSession, wp_update, ho _, wp_markActivity]

end

/-! ### Messages -/

/-- The response code a message carries. -/
def Coded (c : ResCode) (m : Bytes) : Prop := leNat ((m.drop 1).take 2) = c.value

/-- A message of the given code and payload. -/
def message (version : Bytes) (c : ResCode) (payload : Bytes) : Bytes :=
  version ++ leBytes 2 c.value ++ leBytes 4 payload.length ++ payload

theorem value_lt (c : ResCode) : c.value < 256 ^ 2 := by cases c <;> decide

theorem messageAnswer_ok {version : Bytes} {c : ResCode} {n : ℕ} {payload m : Bytes} :
    messageAnswer version c n payload = .ok m ↔
      version.length = 1 ∧ n = payload.length ∧ payload.length < 256 ^ 4 ∧
        m = message version c payload := by
  unfold messageAnswer
  split_ifs with h₁ h₂
  · simp [h₁]
  · simp [h₂]
  · push Not at h₁ h₂
    subst h₂
    simp only [toBytes, if_pos (value_lt c), bind, Except.bind]
    split_ifs with h₃
    · rw [Except.ok.injEq]
      exact ⟨fun h => ⟨h₁, trivial, h₃, h.symm⟩, fun h => h.2.2.2.symm⟩
    · exact ⟨fun h => h.elim, fun h => absurd h.2.2.1 h₃⟩

theorem coded_message {version : Bytes} (c : ResCode) (payload : Bytes) (h : version.length = 1) :
    Coded c (message version c payload) := by
  obtain ⟨v, rfl⟩ := List.length_eq_one_iff.mp h
  exact leNat_leBytes_of_lt (value_lt c)

theorem message_ne_nil {version : Bytes} {c : ResCode} {payload : Bytes} :
    message version c payload ≠ [] := by
  intro h
  have := congrArg List.length h
  simp [message] at this

/-! ### Answers -/

section
variable {ctx : Ctx} {w : World} {version clientId : Bytes}

theorem tells_touchKnown : Keeps (Tells []) (touchKnown ctx clientId) := by
  apply keeps_of_wp
  intro w
  simp only [touchKnown, wp_bind, wp_look]
  rcases w.store.getClientById (hex clientId) with _ | r
  · rw [wp_pure]
    exact Tells.refl w
  · simp only [wp_bind, wp_pure]
    exact (tells_touch r.clientIdHex).wp w

/-- Books are quiet. -/
theorem quiet_of_tells {α : Type} {P : Bytes → Prop} {x : Server α} (h : Keeps (Tells []) x) :
    Keeps (Quiet P) x := fun w => (h w).silent

theorem quiet_send {P : Bytes → Prop} {data : Bytes} (h : P data) :
    Keeps (Quiet P) (send ctx data) := by
  by_cases hd : data = []
  · rw [hd, send, if_pos rfl]
    exact keeps_pure ()
  · intro w
    exact (tells_send hd w).quiet fun m hm => (List.mem_singleton.mp hm) ▸ h

theorem coded_of_ok {c : ResCode} {n : ℕ} {payload m : Bytes}
    (h : messageAnswer version c n payload = .ok m) : Coded c m := by
  obtain ⟨hv, -, -, rfl⟩ := messageAnswer_ok.mp h
  exact coded_message c payload hv

theorem quiet_log {P : Bytes → Prop} (key : LogKey) (event : String) :
    Keeps (Quiet P) (logEvent ctx key event) := quiet_of_tells (tells_logEvent key event)

theorem quiet_touch {P : Bytes → Prop} (id : String) :
    Keeps (Quiet P) (onStore (touchClientLastSeen ctx.out id)) := quiet_of_tells (tells_touch id)

theorem quiet_answer1600 : Keeps (Quiet (Coded .registerOk)) (answer1600 ctx clientId version) :=
  keeps_bind (quiet_log _ _) fun _ =>
    keeps_ofExcept_bind fun _ hm => quiet_send (coded_of_ok hm)

theorem quiet_answer1601 : Keeps (Quiet (Coded .registerFail)) (answer1601 ctx version) :=
  keeps_ofExcept_bind fun _ hm => quiet_send (coded_of_ok hm)

theorem quiet_answer1603 (fileName : String) (contentSize : ℕ) (crc : UInt32) :
    Keeps (Quiet (Coded .crcResult)) (answer1603 ctx clientId version fileName contentSize crc) :=
  keeps_bind (quiet_touch _) fun _ => keeps_bind (quiet_log _ _) fun _ =>
    keeps_ofExcept_bind fun _ _ => keeps_ofExcept_bind fun _ hm => quiet_send (coded_of_ok hm)

theorem quiet_answer1604 : Keeps (Quiet (Coded .transferDone)) (answer1604 ctx clientId version) :=
  keeps_ofExcept_bind fun _ hm => keeps_bind (quiet_of_tells tells_touchKnown) fun _ =>
    keeps_bind (quiet_log _ _) fun _ => quiet_send (coded_of_ok hm)

theorem quiet_answer1606 (name : String) :
    Keeps (Quiet (Coded .reloginFail)) (answer1606 ctx clientId version name) := by
  refine keeps_ofExcept_bind fun m hm => ?_
  have hs : Keeps (Quiet (Coded .reloginFail)) (send ctx m) := quiet_send (coded_of_ok hm)
  exact keeps_ite (keeps_bind (quiet_log _ _) fun _ => hs)
    (keeps_bind (quiet_log _ _) fun _ => keeps_bind (quiet_touch _) fun _ => hs)

theorem quiet_answer1607 (text : String) :
    Keeps (Quiet (Coded .error)) (answer1607 ctx clientId version text) :=
  keeps_ofExcept_bind fun _ hm => keeps_bind (quiet_of_tells tells_touchKnown) fun _ =>
    keeps_bind (quiet_log _ _) fun _ => quiet_send (coded_of_ok hm)

theorem quiet_answer1608 (securityVersion : UInt8) (nonce der signature : Bytes) :
    Keeps (Quiet (Coded .serverHello))
      (answer1608 ctx version securityVersion nonce der signature) :=
  keeps_ofExcept_bind fun _ _ => keeps_ofExcept_bind fun _ hm => quiet_send (coded_of_ok hm)

end

end Seftp.SessionFrames
