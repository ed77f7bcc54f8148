import Seftp.FrameSteps
import Seftp.HandshakeGate

/-!
# The stages of an upload

Over any run of frames a session is idle, in the middle of an upload with an open
file, or past the last packet. Which stage it is in is read off the transfer, and
every frame moves between them, whatever the outside world does.
-/
namespace Seftp.UploadStages
open LittleEndian ExceptState OutsideWorld BlockChaining Checksum Text Protocol ClientStore
open StoreFrames ServerSession Answers SessionFrames AccountHandlers UploadHandlers HandlerFrames
open UploadSteps ChunkSteps AccountSteps FrameSteps Router HandshakeGate

/-! ### One frame of a run -/

/-- A frame of a run, before or after the handshake. -/
inductive Steps (ctx : Ctx) (frame : Bytes) (w w' : World) : Prop
  | locked (hverified : w.session.handshake.verified = false) (htransfer : w.session.transfer = {})
      (hstep : LockedStep ctx.env frame w w')
  | handled (hverified : Verified w.session.handshake) (hstep : Handled ctx frame w w')

/-- Nothing is uploaded before the handshake is complete, and then it is complete. -/
def Sound (w : World) : Prop :=
  (w.session.handshake.verified = false ∧ w.session.transfer = {}) ∨ Verified w.session.handshake

theorem steps_of_sound {ctx : Ctx} {w : World} (h : Sound w) (frame : Bytes) :
    Steps ctx frame w (handleFrame ctx frame w).2 := by
  rcases h with ⟨hv, ht⟩ | hv
  · exact .locked hv ht (locked_handleFrameWith handlers ctx frame hv ht)
  · exact .handled hv (handled hv)

theorem sound_handleFrame {ctx : Ctx} {w : World} (h : Sound w) (frame : Bytes) :
    Sound (handleFrame ctx frame w).2 := by
  rcases h with ⟨hv, ht⟩ | hv
  · have hl : LockedStep ctx.env frame w (handleFrame ctx frame w).2 :=
      locked_handleFrameWith handlers ctx frame hv ht
    have htransfer : (handleFrame ctx frame w).2.session.transfer = {} :=
      (congrArg Core.transfer hl.core_eq).trans ht
    obtain ⟨ms, -, hm⟩ := hl.move
    generalize hk : (handleFrame ctx frame w).2.session.handshake = k at hm
    cases hm with
    | stay _ _ => exact .inl ⟨by rw [hk, hv], htransfer⟩
    | started _ _ _ => exact .inl ⟨by rw [hk]; rfl, htransfer⟩
    | hello _ _ _ _ _ _ _ => exact .inl ⟨by rw [hk]; rfl, htransfer⟩
    | ack _ ha _ => exact .inr (by rw [hk]; exact ⟨rfl, ha.client, ha.server, ha.security⟩)
  · exact .inr ((open_handleFrame ctx frame hv.verified).handshake ▸ hv)

section
variable {env : Env} {w₀ : World}

theorem sound_run (h : Sound w₀) (es : List Event) : Sound (runFrames env es w₀) := by
  induction es using List.reverseRecOn with
  | nil => exact h
  | append_singleton es e ih =>
      rw [runFrames_snoc]
      exact sound_handleFrame ih e.2

/-- Every frame of a run is one of these steps. -/
theorem run_steps (h : Sound w₀) (es : List Event) (e : Event) :
    Steps ⟨env, e.1⟩ e.2 (runFrames env es w₀) (runFrames env (es ++ [e]) w₀) := by
  rw [runFrames_snoc]
  exact steps_of_sound (sound_run h es) e.2

end

theorem sound_freshWorld (connectionId : String) (now : ℚ) (store : Store) (files : FileSystem)
    (limiter : UploadLimiter) : Sound (freshWorld connectionId now store files limiter) :=
  .inl ⟨rfl, rfl⟩

/-! ### Stages -/

/-- An upload that waits for packet `k` of `n`. -/
structure Waiting (c : SessionFrames.Core) (k n : ℕ) : Prop where
  active : c.transfer.uploadActive = true
  expected : c.transfer.expectedPacketNum = some k
  total : c.transfer.expectedTotalPackets = some n
  within : k ≤ n
  openFile : OpenFile c.transfer
  present : ∀ tmp ∈ c.transfer.uploadTmpPath, (c.files.entry tmp).isSome

inductive Stage (c : SessionFrames.Core) : Prop
  | idle (hactive : c.transfer.uploadActive = false)
      (hexpected : ∀ k ∈ c.transfer.expectedPacketNum, k = 1)
      (htmp : c.transfer.uploadTmpPath = none)
  | waiting (k n : ℕ) (h : Waiting c k n)
  | complete (k n : ℕ) (hactive : c.transfer.uploadActive = true)
      (hexpected : c.transfer.expectedPacketNum = some k)
      (htotal : c.transfer.expectedTotalPackets = some n) (hpast : n < k)
      (htmp : c.transfer.uploadTmpPath = none)

section
variable {ctx : Ctx} {frame clientId version : Bytes} {p : Packet} {w w' u : World}

theorem stage_reset (h : w.session.transfer = {}) : Stage (SessionFrames.core w) :=
  .idle (by rw [SessionFrames.core, h]) (fun k hk => by rw [SessionFrames.core, h] at hk; cases hk)
    (by rw [SessionFrames.core, h])

/-- The stage depends on the transfer and the files. -/
theorem stage_congr {c c' : SessionFrames.Core} (h : Stage c) (ht : c'.transfer = c.transfer)
    (hf : c'.files = c.files) : Stage c' := by
  rcases c with ⟨transfer, _, _, _, files, _, _⟩
  rcases c' with ⟨transfer', _, _, _, files', _, _⟩
  dsimp only at ht hf
  subst ht hf
  cases h with
  | idle h₁ h₂ h₃ => exact .idle h₁ h₂ h₃
  | waiting k n h =>
      exact .waiting k n ⟨h.active, h.expected, h.total, h.within, h.openFile, h.present⟩
  | complete k n h₁ h₂ h₃ h₄ h₅ => exact .complete k n h₁ h₂ h₃ h₄ h₅

/-- A valid header numbers its packet within the announced total. -/
theorem validateHeader_none {config : Config} (h : validateHeader config p = none) :
    p.totalPackets ≠ 0 ∧ p.packetNum ≤ p.totalPackets ∧ p.contentSize ≠ 0 ∧ p.origFileSize ≠ 0 ∧
      p.totalPackets ≤ config.maxPackets ∧ p.origFileSize ≤ config.maxFileSize ∧
      p.contentSize ≤ config.maxFileSize := by
  unfold validateHeader at h
  split_ifs at h
  exact ⟨by assumption, by omega, by assumption, by assumption, by omega, by omega, by omega⟩

theorem checkChunk_ok {config : Config} {t : Transfer} (h : checkChunk config t p = .ok ()) :
    t.transferIv.isSome ∧ t.expectedTotalPackets = some p.totalPackets ∧
      t.expectedContentSize = some p.contentSize ∧ t.expectedOrigFileSize = some p.origFileSize ∧
      p.cipherChunk.length ≤ config.maxChunkSize ∧ t.expectedPacketNum.getD 0 ≠ 0 := by
  unfold checkChunk at h
  split_ifs at h with h₁ h₂ h₃ h₄ h₅
  simp only [not_or, not_not] at h₃ h₄
  refine ⟨?_, h₃.symm, h₄.1.symm, h₄.2.symm, by omega, h₂⟩
  simpa [Option.isSome_iff_ne_none, Option.isNone_iff_eq_none] using h₁

/-- A packet that is taken moves the upload on. -/
theorem waiting_takes {env : Env} {k n : ℕ} (h : Waiting (SessionFrames.core u) k n)
    (ht : Takes env p u w) :
    p.packetNum = k ∧ w.session.transfer.uploadActive = true ∧
      w.session.transfer.expectedPacketNum = some (k + 1) ∧
      w.session.transfer.expectedTotalPackets = some n ∧
      (k + 1 ≤ n → Waiting (SessionFrames.core w) (k + 1) n) := by
  obtain ⟨ts, cipher, out, tail, htaken, hd⟩ := ht
  have hnum := (checkOrder_ok htaken.order).1
  have hk : u.session.transfer.expectedPacketNum = some k := h.expected
  have hexp : (SessionFrames.core w).transfer.expectedPacketNum = some (k + 1) := by
    rw [hd.core_eq]
    change Option.map _ u.session.transfer.expectedPacketNum = _
    rw [hk]
    rfl
  have hact : (SessionFrames.core w).transfer.uploadActive = true := by
    rw [hd.core_eq]
    exact h.active
  have htot : (SessionFrames.core w).transfer.expectedTotalPackets = some n := by
    rw [hd.core_eq]
    exact h.total
  refine ⟨?_, hact, hexp, htot, fun hle => ⟨hact, hexp, htot, hle, ?_, ?_⟩⟩
  · rw [hk] at hnum
    exact (Option.some.inj hnum).symm
  · rw [hd.core_eq]
    exact ⟨rfl, h.openFile.file⟩
  · rw [hd.core_eq]
    intro tmp htmp
    change ((appended _ _ _).entry tmp).isSome = true
    rw [appended_entry]
    exact h.present tmp htmp

theorem stage_accepts {env : Env} {k : ℕ}
    (h : Waiting (SessionFrames.core u) k p.totalPackets)
    (ha : Accepts env clientId version p u w') : Stage (SessionFrames.core w') := by
  rcases ha with ⟨hmore, ht⟩ | ⟨hlast, x, ht, tmp, path, hs, hsaid⟩
  · obtain ⟨hnum, -, -, -, hwait⟩ := waiting_takes h ht
    have := h.within
    exact .waiting _ _ (hwait (by omega))
  · obtain ⟨hnum, hact, hexp, htot, -⟩ := waiting_takes h ht
    rw [hsaid.core_eq]
    exact .complete (k + 1) p.totalPackets hact hexp htot (by omega) rfl

/-- An upload that has just been started waits for its first packet. -/
theorem waiting_started (h : Started clientId p w u) {n : ℕ} (hn : 1 ≤ n)
    (hexpected : w.session.transfer.expectedPacketNum = some 1)
    (htotal : w.session.transfer.expectedTotalPackets = some n) :
    Waiting (SessionFrames.core u) 1 n := by
  obtain ⟨ts, time, limiter, hd⟩ := h.does
  rw [hd.core_eq]
  refine ⟨rfl, hexpected, htotal, hn, ⟨rfl, rfl⟩, ?_⟩
  intro tmp htmp
  cases htmp
  change ((FileSystem.create _ _).2.entry _).isSome = true
  rw [create_entry]
  rfl

/-- An accepted packet is the expected one. -/
theorem accepts_expected {env : Env} (h : Accepts env clientId version p u w') :
    u.session.transfer.expectedPacketNum = some p.packetNum := by
  rcases h with ⟨-, ts, cipher, out, tail, htaken, -⟩ | ⟨-, x,
    ⟨ts, cipher, out, tail, htaken, -⟩, -⟩
  · exact (checkOrder_ok htaken.order).1
  · exact (checkOrder_ok htaken.order).1

/-- The first packet that starts an upload and is accepted was expected before. -/
theorem began_expected {env : Env} (hstart : Started clientId p w u)
    (h : Accepts env clientId version p u w') (hnum : p.packetNum = 1) :
    w.session.transfer.expectedPacketNum = some 1 := by
  obtain ⟨ts, time, limiter, hd⟩ := hstart.does
  have hsame : u.session.transfer.expectedPacketNum = w.session.transfer.expectedPacketNum :=
    congrArg (fun c => c.transfer.expectedPacketNum) hd.core_eq
  rw [← hsame, accepts_expected h, hnum]

/-- A packet from the state in which it is admitted. -/
theorem stage_admits (hs : Stage (SessionFrames.core w))
    (hheader : validateHeader ctx.env.config p = none)
    (h : Admits ctx clientId version p w w') : Stage (SessionFrames.core w') := by
  obtain ⟨hzero, hle, -⟩ := validateHeader_none hheader
  cases h with
  | announced t hnum hiv hd =>
      unfold acceptIv at hiv
      split_ifs at hiv with h₁
      cases hiv
      rw [not_or] at h₁
      cases hs with
      | idle h₂ h₃ h₄ =>
          rw [hd.core_eq]
          refine .idle h₂ ?_ h₄
          rintro k ⟨⟩
          rfl
      | waiting k n hw => exact (h₁.1 hw.active).elim
      | complete k n hactive => exact (h₁.1 hactive).elim
  | declined r hnum hiv hplain href => exact stage_reset href.transfer
  | failed r hnum hfail href => exact stage_reset href.transfer
  | busy hnum hcheck hbusy => exact stage_reset hbusy.transfer
  | unrecorded hnum hcheck hdown => exact stage_reset hdown.transfer
  | began x hnum hcheck hstart haccept =>
      have hone := began_expected hstart haccept hnum
      exact stage_accepts
        (waiting_started hstart (by omega) hone (checkChunk_ok hcheck).2.1) haccept
  | restarted x r hnum hcheck hstart hfail href => exact stage_reset href.transfer
  | taken hnum hcheck haccept =>
      have hexp := accepts_expected haccept
      have htot := (checkChunk_ok hcheck).2.1
      cases hs with
      | idle _ h₂ _ =>
          have := h₂ p.packetNum hexp
          omega
      | waiting k n hw =>
          have hn : n = p.totalPackets := Option.some.inj (hw.total.symm.trans htot)
          exact stage_accepts (hn ▸ hw) haccept
      | complete k n hactive hexpected htotal hpast _ =>
          have hk : k = p.packetNum := Option.some.inj (hexpected.symm.trans hexp)
          have hn : n = p.totalPackets := Option.some.inj (htotal.symm.trans htot)
          omega

/-- Binding the client leaves the stage. -/
theorem stage_bind {store : Store} {idHex : String} {t : Transfer}
    (hs : Stage (SessionFrames.core w))
    (hb : bindUpload store idHex w.session.transfer = .ok t)
    (hd : Does (withTransfer fun _ => t) w u) : Stage (SessionFrames.core u) := by
  rw [hd.core_eq]
  rcases bindUpload_ok hb with ⟨-, rfl⟩ | ⟨-, record, b64, key, -, -, -, rfl⟩
  · exact stage_congr hs rfl rfl
  · cases hs with
    | idle h₁ h₂ h₃ => exact .idle h₁ h₂ h₃
    | waiting k n h =>
        exact .waiting k n ⟨h.active, h.expected, h.total, h.within,
          ⟨h.openFile.cipher, h.openFile.file⟩, h.present⟩
    | complete k n h₁ h₂ h₃ h₄ h₅ => exact .complete k n h₁ h₂ h₃ h₄ h₅

theorem stage_uploads {payload : Bytes} (hs : Stage (SessionFrames.core w))
    (h : Uploads ctx clientId version payload w w') : Stage (SessionFrames.core w') := by
  cases h with
  | unparsed r hparse hplain href => exact stage_reset href.transfer
  | unbound p r hparse hbind hplain href => exact stage_reset href.transfer
  | foreign p hparse hid hother href => exact stage_reset href.transfer
  | header p t text hparse hbind hheader habandon => exact stage_reset habandon.transfer
  | admitted p t u hparse hbind hown hheader hd hadmits =>
      exact stage_admits (stage_bind hs hbind hd) hheader hadmits

theorem stage_account {env : Env} (hs : Stage (SessionFrames.core w)) (h : AccountOnly env w w') :
    Stage (SessionFrames.core w') := stage_congr hs h.transfer h.files

theorem stage_routed (hs : Stage (SessionFrames.core w)) (h : Routed ctx frame w w') :
    Stage (SessionFrames.core w') := by
  rcases routed_cases h with hstep | hreset | ⟨-, -, hstep⟩
  · exact stage_account hs hstep
  · exact stage_reset hreset
  · exact stage_uploads hs hstep

/-- A packet after the first is expected only while an upload is active. -/
theorem Stage.later {c : SessionFrames.Core} (hs : Stage c) :
    ∀ k, c.transfer.expectedPacketNum = some k → 1 < k → c.transfer.uploadActive = true := by
  intro k hexpected hk
  cases hs with
  | idle _ h₂ _ =>
      have := h₂ k hexpected
      omega
  | waiting k n h => exact h.active
  | complete k n h => exact h

/-- A raise that leaves no active upload has at most bound the client. -/
theorem broke_inactive (hlater : ∀ k, w.session.transfer.expectedPacketNum = some k → 1 < k →
      w.session.transfer.uploadActive = true)
    (h : Broke ctx frame w u) (hu : u.session.transfer.uploadActive = false) :
    w.session.transfer.uploadActive = false ∧ (u.session.transfer = w.session.transfer ∨
      ∃ idHex, bindUpload w.store idHex w.session.transfer = .ok u.session.transfer) := by
  cases h with
  | aside hstep => exact ⟨hstep.transfer ▸ hu, .inl hstep.transfer⟩
  | confirm hcode hstep hkept => exact ⟨hstep.transfer ▸ hu, .inl hstep.transfer⟩
  | upload hform hcode hstep =>
      cases hstep with
      | bound ht hslot hcause =>
          rcases ht with ht | ht
          · exact ⟨ht ▸ hu, .inl ht⟩
          · exact ⟨(bindUpload_same ht).active.symm.trans hu, .inr ⟨_, ht⟩⟩
      | going hstep k hk hexpected =>
          have hactive := hstep.active.trans (hlater k hexpected hk)
          exact absurd (hu.symm.trans hactive) (by decide)
      | begun p t hbegins hactive hslot => exact absurd (hactive.symm.trans hu) (by decide)

/-- The fields of the transfer after such a raise. -/
theorem broke_fields (hlater : ∀ k, w.session.transfer.expectedPacketNum = some k → 1 < k →
      w.session.transfer.uploadActive = true)
    (h : Broke ctx frame w u) (hu : u.session.transfer.uploadActive = false) :
    w.session.transfer.uploadActive = false ∧ ∃ key name idHex,
      u.session.transfer = { w.session.transfer with
        uploadAesKey := key, uploadUsername := name, uploadClientIdHex := idHex } := by
  obtain ⟨hw, ht | ⟨idHex, hbind⟩⟩ := broke_inactive hlater h hu
  · exact ⟨hw, _, _, _, ht⟩
  · rcases bindUpload_ok hbind with ⟨-, ht⟩ | ⟨-, record, b64, key, -, -, -, ht⟩
    · exact ⟨hw, _, _, _, ht⟩
    · exact ⟨hw, _, _, _, ht⟩

theorem stage_broke (hs : Stage (SessionFrames.core w)) (h : Broke ctx frame w u)
    (hu : u.session.transfer.uploadActive = false) : Stage (SessionFrames.core u) := by
  obtain ⟨hw, key, name, idHex, ht⟩ := broke_fields hs.later h hu
  cases hs with
  | idle _ h₂ h₃ =>
      apply Stage.idle hu
      · rw [SessionFrames.core, ht]
        exact h₂
      · rw [SessionFrames.core, ht]
        exact h₃
  | waiting k n h => exact absurd (hw.symm.trans h.active) (by decide)
  | complete k n h => exact absurd (hw.symm.trans h) (by decide)

/-- Every frame keeps the stages. -/
theorem stage_steps (hs : Stage (SessionFrames.core w)) (h : Steps ctx frame w w') :
    Stage (SessionFrames.core w') := by
  cases h with
  | locked hv ht hstep =>
      refine stage_congr hs ?_ ?_
      · rw [hstep.core_eq]
      · rw [hstep.core_eq]
  | handled hv hstep =>
      cases hstep with
      | short hlen hstep => exact hstep.core_eq ▸ hs
      | routed hlen hstep =>
          have hnote : Stage (SessionFrames.core (noteIdentity (parseFrame frame) w)) := hs
          exact stage_routed hnote hstep
      | raised hlen u hstep hcause hend =>
          have hnote : Stage (SessionFrames.core (noteIdentity (parseFrame frame) w)) := hs
          cases hend with
          | dropped hactive hdrop => exact stage_reset hdrop.transfer
          | kept hactive hkept => exact hkept ▸ stage_broke hnote hstep hactive

theorem stage_run {env : Env} {w₀ : World} (h : Sound w₀) (ht : w₀.session.transfer = {})
    (es : List Event) : Stage (SessionFrames.core (runFrames env es w₀)) := by
  induction es using List.reverseRecOn with
  | nil => exact stage_reset ht
  | append_singleton es e ih => exact stage_steps ih (run_steps h es e)

/-! ### Conditions along a run -/

/-- Every frame of a run meets a condition on the state before it. -/
def Along (env : Env) (P : World → Event → Prop) : World → List Event → Prop
  | _, [] => True
  | w, e :: es => P w e ∧ Along env P (handleEvent handlers env w e) es

theorem along_snoc {env : Env} {P : World → Event → Prop} {es : List Event} {e : Event} :
    Along env P w (es ++ [e]) ↔ Along env P w es ∧ P (runFrames env es w) e := by
  induction es generalizing w with
  | nil => simp [Along]
  | cons a es ih =>
      simp only [List.cons_append, Along, ih, and_assoc]
      rfl

theorem along_append_left {env : Env} {P : World → Event → Prop} {es fs : List Event}
    (h : Along env P w (es ++ fs)) : Along env P w es := by
  induction es generalizing w with
  | nil => trivial
  | cons a es ih => exact ⟨h.1, ih h.2⟩

/-! ### Frames that do not raise -/

/-- The conditions, on the state before a frame and on what the frame meets, under
which its request does not raise. -/
structure Orderly (ctx : Ctx) (frame : Bytes) (w : World) : Prop where
  answering : Answering ctx w (parseFrame frame).clientId (parseFrame frame).version
  register : (parseFrame frame).code = 825 → Smooth825 ctx (parseFrame frame).payload w
  enrol : (parseFrame frame).code = 826 →
    Smooth826 ctx (parseFrame frame).clientId (parseFrame frame).payload w
  relogin : (parseFrame frame).code = 827 → LibraryWorks ctx.env
  files : (parseFrame frame).code = 828 → ctx.out.FilesWork
  name : (parseFrame frame).code = 828 → ∀ p, parse828 (parseFrame frame).payload = .ok p →
    (utf8Encode p.fileName).length < 2 ^ 31
  starts : (parseFrame frame).code = 828 →
    ∀ p t, Begins ctx (parseFrame frame).clientId (parseFrame frame).payload w p t →
      Starts ctx (parseFrame frame).clientId p { SessionFrames.core w with transfer := t }
  confirm : (parseFrame frame).code ∈ [900, 901, 902] → NameDecodes (parseFrame frame).payload

theorem parse828_contentSize {payload : Bytes} (h : parse828 payload = .ok p) :
    p.contentSize < 256 ^ 4 := by
  unfold parse828 at h
  split at h
  · cases h
  · split at h
    · cases h
    · cases h
      refine (leNat_lt _).trans_le (Nat.pow_le_pow_right (by decide) ?_)
      rw [List.length_take]
      omega

/-- In every stage a packet after the first finds what it needs. -/
theorem stage_receives (hs : Stage (SessionFrames.core w)) (hfiles : ctx.out.FilesWork)
    (hfits : Fits p) (hmore : 1 < p.packetNum) (hle : p.packetNum ≤ p.totalPackets)
    (hcheck : checkChunk ctx.env.config w.session.transfer p = .ok ()) :
    Receives ctx p (SessionFrames.core w) := by
  have htot := (checkChunk_ok hcheck).2.1
  cases hs with
  | idle h₁ h₂ h₃ =>
      refine ⟨⟨hfiles, hfits, fun tmp htmp => by rw [h₃] at htmp; cases htmp⟩, fun horder => ?_⟩
      have := h₂ _ (checkOrder_ok horder).1
      omega
  | waiting k n h => exact ⟨⟨hfiles, hfits, h.present⟩, fun _ => h.openFile⟩
  | complete k n h₁ h₂ h₃ h₄ h₅ =>
      refine ⟨⟨hfiles, hfits, fun tmp htmp => by rw [h₅] at htmp; cases htmp⟩, fun horder => ?_⟩
      have hk : k = p.packetNum := Option.some.inj (h₂.symm.trans (checkOrder_ok horder).1)
      have hn : n = p.totalPackets := Option.some.inj (h₃.symm.trans htot)
      omega

/-- In every stage a frame that meets the conditions does not raise. -/
theorem smooth_of_orderly (hs : Stage (SessionFrames.core w)) (h : Orderly ctx frame w) :
    Smooth ctx frame w := by
  refine ⟨h.answering, h.register, h.enrol, h.relogin, fun hcode => ?_, h.confirm⟩
  intro p t hparse hbind hown hheader
  have hfits : Fits p := ⟨parse828_contentSize hparse, h.name hcode p hparse⟩
  refine ⟨h.files hcode, hfits, fun hone hcheck hcan => ?_, fun hmore hcheck => ?_⟩
  · exact h.starts hcode p t ⟨hparse, hbind, hown, hheader, hone, hcheck, hcan⟩
  · -- the state with the bound transfer is a state of the same stage
    have hd : Does (withTransfer fun _ => t) w (w.setTransfer t) := ⟨rfl, rfl⟩
    have hbound := stage_bind hs hbind hd
    exact stage_receives hbound (h.files hcode) hfits hmore (validateHeader_none hheader).2.1 hcheck

/-- The conditions do not depend on the identity noted for the session. -/
theorem orderly_note {r : Request} (h : Orderly ctx frame w) :
    Orderly ctx frame (noteIdentity r w) where
  answering := { h.answering with indexed := h.answering.indexed }
  register hc := ⟨(h.register hc).connected, (h.register hc).decodes, (h.register hc).free⟩
  enrol hc := ⟨(h.enrol hc).library, (h.enrol hc).report, (h.enrol hc).stored⟩
  relogin := h.relogin
  files := h.files
  name := h.name
  starts hc p t hb := h.starts hc p t
    ⟨hb.parses, hb.binds, hb.owns, hb.header, hb.first, hb.check, hb.canTake⟩
  confirm := h.confirm

end

end Seftp.UploadStages
