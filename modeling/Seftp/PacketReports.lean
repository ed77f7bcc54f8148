import Seftp.Confirmations

/-!
# Every refused packet is reported

A packet is taken, or one 1607 goes out and the transfer starts afresh. Two refusals
of request 828 say nothing: a payload without the separator after the file name, and
a first packet of a client that the store does not know. As long as responses are
sent and database calls succeed these are the only ones; an exception of a file
operation or of the cipher finds an active upload, which the router reports and
resets.
-/
namespace Seftp.PacketReports
open LittleEndian ExceptState OutsideWorld BlockChaining Text Protocol ClientStore StoreFrames
open ServerSession Answers SessionFrames AccountHandlers UploadHandlers HandlerFrames UploadSteps
open ChunkSteps AccountSteps FrameSteps Router HandshakeGate UploadStages UploadSlot KeyBinding
open RowSteps Confirmations

/-! ### Nothing is sent before a raise -/

/-- No message goes out. -/
def Mute (w w' : World) : Prop := w'.session.sent = w.session.sent

instance : Std.Refl Mute := ⟨fun _ => rfl⟩

instance : IsTrans World Mute := ⟨fun _ _ _ h h' => h'.trans h⟩

/-- A run that raises has sent nothing. -/
def SendsLast {α : Type} (x : Server α) : Prop :=
  ∀ w, wp x (fun _ _ => True) (fun _ u => Mute w u) w

section
variable {α β : Type} {ctx : Ctx} {clientId version : Bytes} {p : Packet} {w u w' : World}

theorem sendsLast_of_mute {x : Server α} (h : Keeps Mute x) : SendsLast x := fun w =>
  wp_mono (h.wp w) (fun _ _ _ => trivial) (fun _ _ h => h)

theorem sendsLast_bind {x : Server α} {f : α → Server β} (hx : Keeps Mute x)
    (hf : ∀ a, SendsLast (f a)) : SendsLast (x >>= f) := by
  intro w
  apply wp_seq (hx.wp w)
  · intro a u hu
    exact wp_mono (hf a u) (fun _ _ h => h) (fun _ _ h => trans_of Mute hu h)
  · exact fun _ _ h => h

/-- After the message only what cannot raise. -/
theorem sendsLast_then {x : Server α} {f : α → Server β} (hx : SendsLast x)
    (hf : ∀ a u, wp (f a) (fun _ _ => True) (fun _ _ => False) u) : SendsLast (x >>= f) := fun w =>
  wp_seq (hx w) (fun a u _ => wp_mono (hf a u) (fun _ _ h => h) (fun _ _ h => h.elim))
    (fun _ _ h => h)

theorem sendsLast_ite {c : Prop} [Decidable c] {x y : Server α} (hx : SendsLast x)
    (hy : SendsLast y) : SendsLast (if c then x else y) := fun w =>
  wp_branch (fun _ => hx w) (fun _ => hy w)

theorem sendsLast_look_bind {γ : Type} {f : World → γ} {g : γ → Server β}
    (h : ∀ c, SendsLast (g c)) : SendsLast (look f >>= g) := sendsLast_bind keeps_look h

theorem mute_of_tells {x : Server α} (h : Keeps (Tells []) x) : Keeps Mute x := fun w => by
  rw [Mute, (h w).sent, List.append_nil]

theorem mute_onStore (x : StoreProg α) : Keeps Mute (onStore x) := fun _ => rfl

theorem mute_onFiles (x : FileProg α) : Keeps Mute (onFiles x) := fun _ => rfl

theorem mute_onTransfer (f : Transfer → Transfer) : Keeps Mute (onTransfer f) := fun _ => rfl

theorem mute_markUploadProgress : Keeps Mute (markUploadProgress ctx) := by
  have hclock : Keeps Mute (monotonic ctx) :=
    keeps_look_bind fun n => keeps_bind (fun _ => rfl) fun _ => keeps_pure _
  exact keeps_bind hclock fun now => keeps_bind (mute_onTransfer _) fun _ =>
    keeps_bind hclock fun _ _ => rfl

theorem abandon_returns (u : World) : wp (abandon ctx) (fun _ _ => True) (fun _ _ => False) u :=
  wp_abandon.mpr trivial

/-- A response whose send does not raise. -/
theorem sendsLast_message (hs : ctx.out.SendsWork) (m : Bytes) : SendsLast (send ctx m) := fun _ =>
  wp_mono (send_returns hs) (fun _ _ h => h) (fun _ _ h => h.elim)

theorem sendsLast_answer1607 (hs : ctx.out.SendsWork) (text : String) :
    SendsLast (answer1607 ctx clientId version text) :=
  sendsLast_bind (keeps_ofExcept _) fun m =>
    sendsLast_bind (mute_of_tells tells_touchKnown) fun _ =>
    sendsLast_bind (mute_of_tells (tells_logEvent _ _)) fun _ => sendsLast_message hs m

theorem sendsLast_answer1603 (hs : ctx.out.SendsWork) (name : String) (size : ℕ) (crc : UInt32) :
    SendsLast (answer1603 ctx clientId version name size crc) :=
  sendsLast_bind (mute_onStore _) fun _ => sendsLast_bind (mute_of_tells (tells_logEvent _ _))
    fun _ => sendsLast_bind (keeps_ofExcept _) fun _ => sendsLast_bind (keeps_ofExcept _) fun m =>
      sendsLast_message hs m

theorem sendsLast_refuse (hs : ctx.out.SendsWork) (r : Refusal) :
    SendsLast (refuse ctx clientId version r) := by
  have hrecord : Keeps Mute (recordFailure ctx r.failure) := by
    rcases r.failure with _ | reason
    · exact keeps_pure _
    · exact keeps_bind keeps_fetch fun w =>
        keeps_ite (keeps_bind (mute_onStore _) fun _ => keeps_pure _) (keeps_pure _)
  refine sendsLast_bind hrecord fun _ => sendsLast_then ?_ fun _ u => abandon_returns u
  rcases r.answer with _ | text
  · exact sendsLast_of_mute (keeps_pure _)
  · exact sendsLast_answer1607 hs text

theorem mute_openUpload (p : Packet) : Keeps Mute (openUpload ctx clientId p) :=
  keeps_bind (mute_onFiles _) fun _ => keeps_look_bind fun _ =>
    keeps_bind (mute_onTransfer _) fun _ => keeps_bind (mute_onFiles _) fun _ =>
      keeps_bind (mute_onTransfer _) fun _ => keeps_bind (keeps_ofExcept _) fun _ =>
        keeps_bind (mute_onTransfer _) fun _ => mute_of_tells (tells_logEvent _ _)

theorem sendsLast_startUpload (hs : ctx.out.SendsWork) (p : Packet) :
    SendsLast (startUpload ctx clientId version p) := by
  have hacquire : Keeps Mute acquireUploadSlot :=
    keeps_bind keeps_fetch fun w => keeps_ite (keeps_pure _)
      (keeps_ite (keeps_bind (keeps_update fun _ => rfl) fun _ => keeps_pure _) (keeps_pure _))
  refine sendsLast_bind hacquire fun acquired => sendsLast_ite ?_ ?_
  · refine sendsLast_then (sendsLast_answer1607 hs _) fun _ u => ?_
    rw [wp_bind, wp_reset, wp_pure]
    trivial
  refine sendsLast_bind (mute_onTransfer _) fun _ => sendsLast_bind mute_markUploadProgress fun _ =>
    sendsLast_bind (mute_onStore _) fun _ => sendsLast_look_bind fun t =>
      sendsLast_bind (mute_onStore _) fun uploadId => sendsLast_bind (mute_onTransfer _) fun _ =>
        sendsLast_ite ?_ ?_
  · exact sendsLast_then (sendsLast_refuse hs _) fun _ u => (wp_pure _).mpr trivial
  · exact sendsLast_of_mute (keeps_bind (mute_openUpload p) fun _ => keeps_pure _)

theorem mute_writePlainStream (plain : Bytes) : Keeps Mute (writePlainStream ctx plain) := by
  refine keeps_ite (keeps_pure _) (keeps_look_bind fun file => ?_)
  rcases file with _ | inode
  · exact keeps_raise _
  · exact keeps_bind (mute_onFiles _) fun _ => mute_onTransfer _

theorem mute_processStreamingCipherChunk (chunk : Bytes) (isLast : Bool) :
    Keeps Mute (processStreamingCipherChunk ctx chunk isLast) := by
  refine keeps_ite (keeps_raise _) (keeps_ite (keeps_raise _) ?_)
  refine keeps_bind (keeps_look_bind fun cipher => ?_) fun plain => keeps_look_bind fun tail => ?_
  · rcases cipher with _ | c
    · exact keeps_raise _
    · exact keeps_bind (mute_onTransfer _) fun _ => keeps_pure _
  refine keeps_ite ?_ (keeps_ite (mute_onTransfer _) ?_)
  · rcases unpad 16 (tail ++ plain) with _ | final
    · exact keeps_raise _
    · exact keeps_bind (mute_writePlainStream _) fun _ => mute_onTransfer _
  · exact keeps_bind (mute_writePlainStream _) fun _ => mute_onTransfer _

theorem sendsLast_finishUpload (hs : ctx.out.SendsWork) (p : Packet) :
    SendsLast (finishUpload ctx clientId version p) := by
  refine sendsLast_look_bind fun t => sendsLast_ite (sendsLast_refuse hs _)
    (sendsLast_bind (mute_onStore _) fun _ => ?_)
  split
  · refine sendsLast_bind (mute_onFiles _) fun _ => sendsLast_bind (mute_onFiles _) fun _ =>
      sendsLast_bind (mute_onTransfer _) fun _ => sendsLast_look_bind fun t =>
        sendsLast_ite (sendsLast_refuse hs _) ?_
    exact sendsLast_bind (mute_onFiles _) fun _ => sendsLast_bind (mute_onTransfer _) fun _ =>
      sendsLast_answer1603 hs _ _ _
  · exact sendsLast_refuse hs _

theorem sendsLast_receiveChunk (hs : ctx.out.SendsWork) (p : Packet) :
    SendsLast (receiveChunk ctx clientId version p) := by
  refine sendsLast_look_bind fun t => ?_
  rcases checkOrder t p with r | ⟨⟩
  · exact sendsLast_refuse hs r
  refine sendsLast_bind mute_markUploadProgress fun _ => sendsLast_bind ?_ fun failed => ?_
  · refine keeps_attempt (keeps_bind (mute_processStreamingCipherChunk _ _) fun _ => keeps_pure _)
      fun e => ?_
    split
    · exact keeps_pure _
    · exact keeps_raise _
  rcases failed with _ | text
  · exact sendsLast_bind (mute_onTransfer _) fun _ =>
      sendsLast_ite (sendsLast_finishUpload hs p) (sendsLast_of_mute (keeps_pure _))
  · exact sendsLast_refuse hs _

theorem sendsLast_request828 (hs : ctx.out.SendsWork) (payload : Bytes) :
    SendsLast (request828 ctx payload version clientId) := by
  unfold request828
  rcases parse828 payload with r | p
  · exact sendsLast_refuse hs r
  refine sendsLast_bind keeps_fetch fun w => ?_
  rcases bindUpload w.store (hex clientId) w.session.transfer with r | t
  · exact sendsLast_refuse hs r
  refine sendsLast_bind (mute_onTransfer _) fun _ => sendsLast_ite (sendsLast_refuse hs _) ?_
  rcases validateHeader ctx.env.config p with _ | text
  · refine sendsLast_look_bind fun t => sendsLast_ite ?_ ?_
    · rcases acceptIv t p with r | t
      · exact sendsLast_refuse hs r
      · exact sendsLast_of_mute (mute_onTransfer _)
    · rcases checkChunk ctx.env.config t p with r | ⟨⟩
      · exact sendsLast_refuse hs r
      have hrest (go : Bool) :
          SendsLast (if go then receiveChunk ctx clientId version p else pure () : Server Unit) :=
        sendsLast_ite (sendsLast_receiveChunk hs p) (sendsLast_of_mute (keeps_pure _))
      refine sendsLast_ite (fun u => ?_) (sendsLast_bind (keeps_pure _) hrest)
      -- a first packet that goes on has not been answered
      apply wp_seq (wp_and (wp_startUpload p) (sendsLast_startUpload hs p u))
      · rintro go v ⟨⟨rfl, hstart⟩ | ⟨rfl, -⟩, -⟩
        · obtain ⟨ts, time, limiter, hd⟩ := hstart.does
          exact wp_mono (hrest true v) (fun _ _ h => h) (fun _ _ h => h.trans hd.sent)
        · exact (wp_pure _).mpr trivial
      · exact fun _ _ h => h.2
  · intro u
    rw [wp_bind, wp_attempt]
    have hreport : wp (answer1607 ctx clientId version text) (fun _ _ => True)
        (fun _ _ => True) u :=
      wp_state.mpr trivial
    refine wp_mono hreport (fun _ v _ => ?_) (fun _ v _ => ?_)
    · exact wp_abandon.mpr trivial
    · exact (wp_pure _).mpr (wp_abandon.mpr trivial)

/-! ### Packets after the first belong to an active upload -/

/-- A session that waits for a packet after the first has an active upload. -/
def Begun (t : Transfer) : Prop := ∀ k, t.expectedPacketNum = some k → 1 < k → t.uploadActive = true

theorem begun_initial : Begun {} := fun _ h => by cases h

theorem begun_congr {t t' : Transfer} (h : Begun t)
    (hexpected : t'.expectedPacketNum = t.expectedPacketNum)
    (hactive : t'.uploadActive = t.uploadActive) : Begun t' := by
  intro k hk hlt
  rw [hactive]
  exact h k (hexpected ▸ hk) hlt

theorem begun_of_active {t : Transfer} (h : t.uploadActive = true) : Begun t := fun _ _ _ => h

/-- A packet that is taken advances the expected number and keeps the flag. -/
theorem accepts_progress {env : Env} (h : Accepts env clientId version p w w') :
    w.session.transfer.expectedPacketNum = some p.packetNum ∧
      w'.session.transfer.expectedPacketNum = some (p.packetNum + 1) ∧
      w'.session.transfer.uploadActive = w.session.transfer.uploadActive := by
  have htaken {u : World} (h : Takes env p w u) :
      w.session.transfer.expectedPacketNum = some p.packetNum ∧
        u.session.transfer.expectedPacketNum = some (p.packetNum + 1) ∧
        u.session.transfer.uploadActive = w.session.transfer.uploadActive := by
    obtain ⟨ts, cipher, out, tail, ht, hd⟩ := h
    have hexpected := (checkOrder_ok ht.order).1
    refine ⟨hexpected, ?_, congrArg (fun c => c.transfer.uploadActive) hd.core_eq⟩
    have hnext : u.session.transfer.expectedPacketNum =
        w.session.transfer.expectedPacketNum.map (· + 1) :=
      congrArg (fun c => c.transfer.expectedPacketNum) hd.core_eq
    rw [hnext, hexpected]
    rfl
  rcases h with ⟨-, ht⟩ | ⟨-, x, ht, tmp, path, -, hsaid⟩
  · exact htaken ht
  · obtain ⟨h₁, h₂, h₃⟩ := htaken ht
    have hexpected : w'.session.transfer.expectedPacketNum = x.session.transfer.expectedPacketNum :=
      congrArg (fun c => c.transfer.expectedPacketNum) hsaid.core_eq
    have hactive : w'.session.transfer.uploadActive = x.session.transfer.uploadActive :=
      congrArg (fun c => c.transfer.uploadActive) hsaid.core_eq
    exact ⟨h₁, hexpected.trans h₂, hactive.trans h₃⟩

/-- The first packet leaves an active upload. -/
theorem started_active (h : Started clientId p w u) : u.session.transfer.uploadActive = true ∧
    u.session.transfer.expectedPacketNum = w.session.transfer.expectedPacketNum ∧
    u.session.transfer.transferIv = w.session.transfer.transferIv ∧ Mute w u := by
  obtain ⟨ts, time, limiter, hd⟩ := h.does
  exact ⟨congrArg (fun c => c.transfer.uploadActive) hd.core_eq,
    congrArg (fun c => c.transfer.expectedPacketNum) hd.core_eq,
    congrArg (fun c => c.transfer.transferIv) hd.core_eq, hd.sent⟩

theorem begun_admits (h : Begun w.session.transfer) (ha : Admits ctx clientId version p w w') :
    Begun w'.session.transfer := by
  cases ha with
  | announced t hnum hiv hd =>
      have ht : w'.session.transfer = t := congrArg Core.transfer hd.core_eq
      rw [ht]
      unfold acceptIv at hiv
      split_ifs at hiv
      cases hiv
      intro k hk hlt
      cases hk
      omega
  | declined r hnum hiv hplain href => rw [href.transfer]; exact begun_initial
  | failed r hnum hfail href => rw [href.transfer]; exact begun_initial
  | busy hnum hcheck hbusy => rw [hbusy.transfer]; exact begun_initial
  | unrecorded hnum hcheck hdown => rw [hdown.transfer]; exact begun_initial
  | began x hnum hcheck hstart haccept =>
      exact begun_of_active ((accepts_progress haccept).2.2.trans (started_active hstart).1)
  | restarted x r hnum hcheck hstart hfail href => rw [href.transfer]; exact begun_initial
  | taken hnum hcheck haccept =>
      obtain ⟨hexpected, -, hactive⟩ := accepts_progress haccept
      exact begun_of_active (hactive.trans (h _ hexpected hnum))

theorem begun_uploads {payload : Bytes} (h : Begun w.session.transfer)
    (hu : Uploads ctx clientId version payload w w') : Begun w'.session.transfer := by
  cases hu with
  | unparsed r hparse hplain href => rw [href.transfer]; exact begun_initial
  | unbound p r hparse hbind hplain href => rw [href.transfer]; exact begun_initial
  | foreign p hparse hid hother href => rw [href.transfer]; exact begun_initial
  | header p t text hparse hbind hheader habandon => rw [habandon.transfer]; exact begun_initial
  | admitted p t x hparse hbind hown hheader hd hadmits =>
      have hx : x.session.transfer = t := congrArg Core.transfer hd.core_eq
      apply begun_admits _ hadmits
      rw [hx]
      exact begun_congr h (bindUpload_same hbind).expected (bindUpload_same hbind).active

/-- A raise of request 828 that is not about an answer finds an active upload. -/
theorem active_of_stopped {payload : Bytes} (h : Begun w.session.transfer)
    (hs : Stopped828 ctx clientId version payload w u) (ha : Answering ctx w clientId version) :
    u.session.transfer.uploadActive = true := by
  cases hs with
  | bound ht hslot hcause => exact (hcause ha).elim
  | going hstep k hk hexpected => exact hstep.active.trans (h k hexpected hk)
  | begun p t hbegins hactive hslot => exact hactive

theorem begun_routed {frame : Bytes} (h : Begun w.session.transfer) (hr : Routed ctx frame w w') :
    Begun w'.session.transfer := by
  rcases routed_cases hr with hstep | hreset | ⟨-, -, hstep⟩
  · rwa [hstep.transfer]
  · rw [hreset]
    exact begun_initial
  · exact begun_uploads h hstep

/-- A raise with no active upload leaves no later packet to wait for. -/
theorem begun_broke {frame : Bytes} (h : Begun w.session.transfer) (hb : Broke ctx frame w u) :
    Begun u.session.transfer := by
  cases hb with
  | aside hstep => rwa [hstep.transfer]
  | confirm hcode hstep hkept => rwa [hstep.transfer]
  | upload hform hcode hstep =>
      cases hstep with
      | bound ht hslot hcause =>
          rcases ht with ht | ht
          · rwa [ht]
          · exact begun_congr h (bindUpload_same ht).expected (bindUpload_same ht).active
      | going hstep k hk hexpected => exact begun_of_active (hstep.active.trans (h k hexpected hk))
      | begun p t hbegins hactive hslot => exact begun_of_active hactive

theorem begun_steps {frame : Bytes} (h : Begun w.session.transfer) (hstep : Steps ctx frame w w') :
    Begun w'.session.transfer := by
  cases hstep with
  | locked hv ht hl =>
      rw [show w'.session.transfer = w.session.transfer from congrArg Core.transfer hl.core_eq]
      exact h
  | handled hv hh =>
      cases hh with
      | short hlen ht => rwa [ht.transfer]
      | routed hlen hr => exact begun_routed (w := noteIdentity (parseFrame frame) w) h hr
      | raised hlen u hbroke hcause hend =>
          have hu : Begun u.session.transfer :=
            begun_broke (w := noteIdentity (parseFrame frame) w) h hbroke
          cases hend with
          | dropped hactive hdrop => rw [hdrop.transfer]; exact begun_initial
          | kept hactive hkept =>
              rw [show w'.session.transfer = u.session.transfer from congrArg Core.transfer hkept]
              exact hu

/-! ### Taken or reported -/

/-- The packet is taken: it is the next one, or packet 0 opens a transfer. No error
is reported. -/
inductive Accepted (w w' : World) : Prop
  | advanced (k : ℕ) (hexpected : w.session.transfer.expectedPacketNum = some k)
      (hnext : w'.session.transfer.expectedPacketNum = some (k + 1))
      (hsent : ∀ m ∈ newSent w w', ¬ Coded .error m)
  | initialised (hiv : w.session.transfer.transferIv = none)
      (hset : w'.session.transfer.transferIv.isSome = true)
      (hnext : w'.session.transfer.expectedPacketNum = some 1) (hsent : newSent w w' = [])

/-- The 1607 responses among messages. -/
def errors (ms : List Bytes) : List Bytes := ms.filter fun m => Coded .error m

/-- One 1607 goes out, and the transfer is as in a new session. -/
def Reported (w w' : World) : Prop :=
  (errors (newSent w w')).length = 1 ∧ w'.session.transfer = {}

/-- The payload has the separator after the name, and the client is the upload's or
one that the store knows. -/
structure Heard (clientId payload : Bytes) (w : World) : Prop where
  separator : ((payload.drop 12).findIdx? (· = 0)).isSome = true
  known : ∀ p, parse828 payload = .ok p → w.session.transfer.uploadClientIdHex.isSome = true ∨
    (w.store.getClientById (hex clientId)).isSome = true

theorem reported_mk {text : String} (hversion : version.length = 1)
    (htransfer : w'.session.transfer = {})
    (hsent : w'.session.sent = w.session.sent ++ [errorMessage clientId version text]) :
    Reported w w' := by
  have hcoded : Coded .error (errorMessage clientId version text) :=
    coded_message .error _ hversion
  refine ⟨?_, htransfer⟩
  simp [newSent_eq hsent, errors, hcoded]

theorem reported_refused {r : Refusal} {text : String} (hversion : version.length = 1)
    (h : Refused clientId version r w w') (hr : r.answer = some text) : Reported w w' := by
  apply reported_mk hversion h.transfer
  rw [h.sent, hr]
  rfl

theorem accepted_accepts {env : Env} (hversion : version.length = 1)
    (h : Accepts env clientId version p w w') : Accepted w w' := by
  obtain ⟨hexpected, hnext, -⟩ := accepts_progress h
  refine .advanced p.packetNum hexpected hnext fun m hm herror => ?_
  rcases h with ⟨-, ts, cipher, out, tail, -, hd⟩ | ⟨-, x, ⟨ts, cipher, out, tail, -, hd⟩, hfin⟩
  · have hnone : newSent w w' = [] := newSent_eq (by rw [hd.sent, List.append_nil])
    rw [hnone] at hm
    cases hm
  · obtain ⟨tmp, path, -, hsaid⟩ := hfin
    have hone : newSent w w' =
        [crcMessage clientId version p x.session.transfer.uploadCrc32State] :=
      newSent_eq (by rw [hsaid.sent, hd.sent])
    rw [hone] at hm
    rw [List.mem_singleton.mp hm] at herror
    exact absurd (coded_unique herror (coded_message .crcResult _ hversion)) (by decide)

theorem newSent_of_mute (h : Mute w u) : newSent w w' = newSent u w' := by
  rw [newSent, newSent, show u.session.sent = w.session.sent from h]

theorem Accepted.after (h : Accepted u w') (hmute : Mute w u)
    (hexpected : u.session.transfer.expectedPacketNum = w.session.transfer.expectedPacketNum)
    (hiv : u.session.transfer.transferIv = w.session.transfer.transferIv) : Accepted w w' := by
  cases h with
  | advanced k hk hnext hsent =>
      exact .advanced k (hexpected ▸ hk) hnext (by rwa [newSent_of_mute hmute])
  | initialised hnone hset hnext hsent =>
      exact .initialised (hiv ▸ hnone) hset hnext (by rwa [newSent_of_mute hmute])

theorem Reported.after (h : Reported u w') (hmute : Mute w u) : Reported w w' := by
  rw [Reported, newSent_of_mute hmute]
  exact h

theorem acceptIv_answers {t : Transfer} {r : Refusal} (h : acceptIv t p = .error r) :
    ∃ text, r.answer = some text := by
  unfold acceptIv at h
  split_ifs at h
  · cases h
    exact ⟨_, rfl⟩
  · cases h
    exact ⟨_, rfl⟩

/-- A packet with a valid header is always taken or reported. -/
theorem treated_admits (hversion : version.length = 1)
    (h : Admits ctx clientId version p w w') : Accepted w w' ∨ Reported w w' := by
  cases h with
  | announced t hnum hiv hd =>
      have ht : w'.session.transfer = t := congrArg Core.transfer hd.core_eq
      have hsent : newSent w w' = [] := newSent_eq (by rw [hd.sent, List.append_nil])
      unfold acceptIv at hiv
      split_ifs at hiv with hbusy
      cases hiv
      push Not at hbusy
      exact .inl (.initialised (by simpa using hbusy.2) (by rw [ht]; rfl) (by rw [ht]) hsent)
  | declined r hnum hiv hplain href =>
      obtain ⟨text, htext⟩ := acceptIv_answers hiv
      exact .inr (reported_refused hversion href htext)
  | failed r hnum hfail href =>
      obtain ⟨-, text, htext, -⟩ := hfail
      exact .inr (reported_refused hversion href htext)
  | busy hnum hcheck hbusy => exact .inr (reported_mk hversion hbusy.transfer hbusy.sent)
  | unrecorded hnum hcheck hdown => exact .inr (reported_mk hversion hdown.transfer hdown.sent)
  | began x hnum hcheck hstart haccept =>
      obtain ⟨-, hexpected, hiv, hmute⟩ := started_active hstart
      exact .inl ((accepted_accepts hversion haccept).after hmute hexpected hiv)
  | restarted x r hnum hcheck hstart hfail href =>
      obtain ⟨-, text, htext, -⟩ := hfail
      exact .inr ((reported_refused hversion href htext).after (started_active hstart).2.2.2)
  | taken hnum hcheck haccept => exact .inl (accepted_accepts hversion haccept)

theorem treated_uploads {payload : Bytes} (ha : Answering ctx w clientId version)
    (hheard : Heard clientId payload w) (h : Uploads ctx clientId version payload w w') :
    Accepted w w' ∨ Reported w w' := by
  cases h with
  | unparsed r hparse hplain href =>
      unfold parse828 at hparse
      split at hparse
      · rename_i hnone
        have := hheard.separator
        rw [hnone] at this
        cases this
      · split at hparse
        · cases hparse
          exact .inr (reported_refused ha.version href rfl)
        · cases hparse
  | unbound p r hparse hbind hplain href =>
      have hknown := hheard.known p hparse
      unfold bindUpload at hbind
      split_ifs at hbind with hbound
      rcases hrecord : w.store.getClientById (hex clientId) with _ | record
      · rw [hrecord] at hknown
        rcases hknown with h | h
        · exact (hbound h).elim
        · cases h
      · rw [hrecord] at hbind
        dsimp only at hbind
        split_ifs at hbind
        · cases hbind
          exact .inr (reported_refused ha.version href rfl)
        · split at hbind
          · cases hbind
            exact .inr (reported_refused ha.version href rfl)
          · cases hbind
  | foreign p hparse hid hother href => exact .inr (reported_refused ha.version href rfl)
  | header p t text hparse hbind hheader habandon =>
      exact .inr (reported_mk ha.version habandon.transfer (habandon.sent ha))
  | admitted p t x hparse hbind hown hheader hd hadmits =>
      have hx : x.session.transfer = t := congrArg Core.transfer hd.core_eq
      have hsame := bindUpload_same hbind
      rcases treated_admits ha.version hadmits with hacc | hrep
      · exact .inl (hacc.after hd.sent (by rw [hx, hsame.expected]) (by rw [hx, hsame.iv]))
      · exact .inr (hrep.after hd.sent)

/-- A refusal without a text says nothing. -/
theorem silent_refuse : wp (refuse ctx clientId version {})
    (fun _ u => Mute w u ∧ u.session.transfer = {}) (fun _ _ => False) w := by
  rw [refuse, wp_bind, recordFailure, wp_pure, wp_bind, sendRefusal, wp_pure, wp_abandon]
  exact ⟨by rw [Mute, resetWorld_sent, releaseWorld_sent], rfl⟩

/-- A packet that is not heard is dropped without a word. -/
theorem silent_request828 {payload : Bytes} (h : ¬ Heard clientId payload w) :
    wp (request828 ctx payload version clientId)
      (fun _ u => Mute w u ∧ u.session.transfer = {}) (fun _ _ => False) w := by
  unfold request828
  rcases hsep : (payload.drop 12).findIdx? (· = 0) with _ | sep
  · have hparse : parse828 payload = .error {} := by
      unfold parse828
      rw [hsep]
    rw [hparse]
    exact silent_refuse
  · rcases hparse : parse828 payload with r | p
    · exact (h ⟨by rw [hsep]; rfl, fun p hp => by rw [hparse] at hp; cases hp⟩).elim
    · have hunknown : w.session.transfer.uploadClientIdHex.isSome = false ∧
          w.store.getClientById (hex clientId) = none := by
        by_contra hknown
        refine h ⟨by rw [hsep]; rfl, fun _ _ => ?_⟩
        rcases hb : w.session.transfer.uploadClientIdHex with _ | x
        · right
          by_contra hnone
          exact hknown ⟨by rw [hb]; rfl, Option.not_isSome_iff_eq_none.mp hnone⟩
        · left
          rfl
      dsimp only
      rw [wp_bind, wp_fetch]
      have hbind : bindUpload w.store (hex clientId) w.session.transfer = .error {} := by
        unfold bindUpload
        rw [if_neg (by simp [hunknown.1]), hunknown.2]
      rw [hbind]
      exact silent_refuse

/-! ### Frames -/

/-- After a raise an active upload is reported once and reset. -/
theorem reported_recover (r : Request) (e : PyError) (ha : Answering ctx w r.clientId r.version)
    (hactive : w.session.transfer.uploadActive = true) :
    wp (recover ctx r e) (fun _ u => Reported w u) (fun _ _ => False) w := by
  have hreason : wp (onFrameBad "handle_frame_exception" : Server Unit)
      (fun _ u => Tells [] w u ∧ u.session.disconnectReason = "handle_frame_exception")
      (fun _ _ => False) w := by
    rw [onFrameBad, onSession, wp_update]
    exact ⟨tells_setSession rfl rfl rfl rfl rfl, rfl⟩
  apply wp_then hreason
  rintro _ u ⟨hu, hr⟩
  rw [wp_bind, wp_look, hr, if_neg (by decide), wp_bind, wp_attempt]
  have hshort : Short "server error: internal handler failure" := by decide +kernel
  apply wp_mono (wp_answer1607 _)
  · intro _ v hv
    have hall := hu.trans hv
    have hstill : v.session.transfer.uploadActive = true := by rw [hall.transfer, hactive]
    rw [wp_bind, wp_look, if_pos hstill, wp_reset]
    exact reported_mk ha.version rfl hall.sent
  · rintro _ v ⟨-, hno⟩
    exact (hno ⟨ha.of_core hu.core_eq, hshort⟩).elim

/-- A malformed frame is reported by the router. -/
theorem reported_malformed (reason : String) {text : String} (hs : Short text)
    (ha : Answering ctx w clientId version) :
    wp (do
        onFrameBad reason
        answer1607 ctx clientId version text
        resetTransferState ctx) (fun _ u => Reported w u) (fun _ _ => False) w := by
  have hnote : wp (onFrameBad reason) (fun _ u => Tells [] w u) (fun _ _ => False) w := by
    rw [onFrameBad, onSession, wp_update]
    exact tells_setSession rfl rfl rfl rfl rfl
  apply wp_then hnote
  intro _ u hu
  apply wp_seq (wp_answer1607 _)
  · intro _ v hv
    rw [wp_reset]
    exact reported_mk ha.version rfl (hu.trans hv).sent
  · exact fun _ v h => h.2 ⟨ha.of_core hu.core_eq, hs⟩

theorem dispatchAs_828 {r : Request} (hcode : r.code = 828) :
    dispatchAs handlers ctx r true = request828 ctx r.payload r.version r.clientId := by
  unfold dispatchAs
  rw [if_neg (by simp), if_neg (by rw [hcode]; simp), if_neg (by rw [hcode]; decide),
    if_neg (by rw [hcode]; decide), if_neg (by rw [hcode]; decide), if_pos hcode]
  rfl

theorem length_of_code {frame : Bytes} (hcode : (parseFrame frame).code = 828) :
    17 ≤ frame.length := by
  by_contra hlen
  have hnil : frame.drop 17 = [] := List.drop_eq_nil_of_le (by omega)
  rw [show (parseFrame frame).code = leNat ((frame.drop 17).take 2) from rfl, hnil] at hcode
  exact absurd hcode (by decide)

/-- Request 828 of a verified session while responses go out. -/
theorem treated_request828 {r : Request} (hbegun : Begun w.session.transfer)
    (ha : Answering ctx w r.clientId r.version) (hheard : Heard r.clientId r.payload w) :
    wp (request828 ctx r.payload r.version r.clientId) (fun _ u => Accepted w u ∨ Reported w u)
      (fun _ u => Mute w u ∧ Answering ctx u r.clientId r.version ∧
        u.session.transfer.uploadActive = true) w := by
  apply wp_mono
    (wp_and (wp_request828 r.payload) (wp_and (sendsLast_request828 ha.sends r.payload w)
    ((upload_request828 r.payload).wp w)))
  · exact fun _ u h => treated_uploads ha hheard h.1
  · rintro _ u ⟨⟨hstop, -⟩, hmute, honly⟩
    exact ⟨hmute, ha.of_store honly.store, active_of_stopped hbegun hstop ha⟩

theorem treated_handleFrame {frame : Bytes} (hv : w.session.handshake.verified = true)
    (hbegun : Begun w.session.transfer) (hcode : (parseFrame frame).code = 828)
    (ha : Answering ctx w (parseFrame frame).clientId (parseFrame frame).version)
    (hheard : wellFormed frame = true →
      Heard (parseFrame frame).clientId (parseFrame frame).payload w) :
    Accepted w (handleFrame ctx frame w).2 ∨ Reported w (handleFrame ctx frame w).2 := by
  have hlen := length_of_code hcode
  unfold handleFrame
  rw [handleFrameWith_long hlen]
  have ha' : Answering ctx (noteIdentity (parseFrame frame) w) (parseFrame frame).clientId
      (parseFrame frame).version := { ha with indexed := ha.indexed }
  have hroute : wp (routeFrame handlers ctx frame)
      (fun _ u => Accepted (noteIdentity (parseFrame frame) w) u ∨
        Reported (noteIdentity (parseFrame frame) w) u)
      (fun _ u => Mute (noteIdentity (parseFrame frame) w) u ∧
        Answering ctx u (parseFrame frame).clientId (parseFrame frame).version ∧
        u.session.transfer.uploadActive = true) (noteIdentity (parseFrame frame) w) := by
    unfold routeFrame
    apply wp_branch
    · exact fun _ => wp_mono (reported_malformed _ (by decide +kernel) ha') (fun _ _ h => .inr h)
        (fun _ _ h => h.elim)
    intro _
    apply wp_branch
    · exact fun _ => wp_mono (reported_malformed _ (by decide +kernel) ha') (fun _ _ h => .inr h)
        (fun _ _ h => h.elim)
    intro hform
    obtain ⟨hsep, hknown⟩ := hheard (by simpa using hform)
    rw [wp_dispatch, show (noteIdentity (parseFrame frame) w).session.handshake.verified = true
      from hv, dispatchAs_828 hcode]
    exact treated_request828 hbegun ha' ⟨hsep, hknown⟩
  have hall : wp (attempt (routeFrame handlers ctx frame) (recover ctx (parseFrame frame)))
      (fun _ u => Accepted w u ∨ Reported w u) (fun _ u => Accepted w u ∨ Reported w u)
      (noteIdentity (parseFrame frame) w) := by
    rw [wp_attempt]
    apply wp_mono hroute
    · rintro _ u (h | h)
      · exact .inl (h.after rfl rfl rfl)
      · exact .inr (h.after rfl)
    · rintro e u ⟨hmute, hau, hactive⟩
      refine wp_mono (reported_recover _ e hau hactive) (fun _ v h => ?_) (fun _ _ h => h.elim)
      exact .inr (h.after hmute)
  have hstate : wp _ (fun _ u => (fun u => Accepted w u ∨ Reported w u) u)
      (fun _ u => (fun u => Accepted w u ∨ Reported w u) u) _ := hall
  exact wp_state.mp hstate

theorem silent_handleFrame {frame : Bytes} (hv : w.session.handshake.verified = true)
    (hcode : (parseFrame frame).code = 828) (hform : wellFormed frame = true)
    (h : ¬ Heard (parseFrame frame).clientId (parseFrame frame).payload w) :
    Mute w (handleFrame ctx frame w).2 ∧ (handleFrame ctx frame w).2.session.transfer = {} := by
  have hlen := length_of_code hcode
  have hlong : ¬ frame.length < 23 := by
    simp only [wellFormed, Bool.and_eq_true, decide_eq_true_eq] at hform
    omega
  unfold handleFrame
  rw [handleFrameWith_long hlen]
  have h' : ¬ Heard (parseFrame frame).clientId (parseFrame frame).payload
      (noteIdentity (parseFrame frame) w) := fun hh => h ⟨hh.separator, hh.known⟩
  have hroute : wp (routeFrame handlers ctx frame)
      (fun _ u => Mute (noteIdentity (parseFrame frame) w) u ∧ u.session.transfer = {})
      (fun _ _ => False) (noteIdentity (parseFrame frame) w) := by
    unfold routeFrame
    dsimp only
    rw [if_neg hlong, hform, if_neg (by decide), wp_dispatch,
      show (noteIdentity (parseFrame frame) w).session.handshake.verified = true from hv,
      dispatchAs_828 hcode]
    exact silent_request828 h'
  have hall : wp (attempt (routeFrame handlers ctx frame) (recover ctx (parseFrame frame)))
      (fun _ u => (fun u => Mute w u ∧ u.session.transfer = {}) u)
      (fun _ u => (fun u => Mute w u ∧ u.session.transfer = {}) u)
      (noteIdentity (parseFrame frame) w) := by
    rw [wp_attempt]
    exact wp_mono hroute (fun _ _ h => h) (fun _ _ h => h.elim)
  exact wp_state.mp hall

end

/-! ### Runs -/

theorem begun_runs (env : Env) (b : Boot) (as : List Arrival) (i : ℕ) :
    Begun ((b.system.run env as).world i).session.transfer := by
  induction as using List.reverseRecOn generalizing i with
  | nil => exact begun_initial
  | append_singleton as a ih =>
      rw [run_snoc]
      by_cases hi : i = a.connection
      · rw [hi, world_step]
        exact begun_steps (ih _) (steps_of_sound (sound_runs env b as _) _)
      · have hsession : (((b.system.run env as).step env a).world i).session =
            ((b.system.run env as).world i).session := sessions_step env hi
        rw [hsession]
        exact ih i

/-- The responses and the database calls of a frame succeed. -/
structure Undisturbed (o : Outside) (st : Store) : Prop where
  sends : o.SendsWork
  sql : o.SqlWorks
  indexed : (StoreFrames.core st).Indexed

/-- In every reachable state of a verified session and for every 828 frame: a packet
that is taken or reported belongs to a frame that is malformed or heard, and while
nothing disturbs the responses every such packet is taken, or reported once with a
transfer that starts afresh. -/
theorem packet_reported (env : Env) (b : Boot) (as : List Arrival) (a : Arrival)
    (hverified : ((b.system.run env as).sessions a.connection).handshake.verified = true)
    (hcode : (parseFrame a.frame).code = 828) :
    (Undisturbed a.out (b.system.run env as).store →
      (wellFormed a.frame = true → Heard (parseFrame a.frame).clientId (parseFrame a.frame).payload
        ((b.system.run env as).world a.connection)) →
      Accepted ((b.system.run env as).world a.connection)
          ((b.system.run env (as ++ [a])).world a.connection) ∨
        Reported ((b.system.run env as).world a.connection)
          ((b.system.run env (as ++ [a])).world a.connection)) ∧
    (Accepted ((b.system.run env as).world a.connection)
          ((b.system.run env (as ++ [a])).world a.connection) ∨
        Reported ((b.system.run env as).world a.connection)
          ((b.system.run env (as ++ [a])).world a.connection) →
      wellFormed a.frame = true → Heard (parseFrame a.frame).clientId (parseFrame a.frame).payload
        ((b.system.run env as).world a.connection)) := by
  have hlen := length_of_code hcode
  rw [run_snoc, world_step]
  constructor
  · intro hcalm hheard
    have ha : Answering ⟨env, a.out⟩ ((b.system.run env as).world a.connection)
        (parseFrame a.frame).clientId (parseFrame a.frame).version := by
      refine ⟨hcalm.sends, hcalm.sql, hcalm.indexed, ?_, ?_⟩
      · simp only [parseFrame, List.length_take, List.length_drop]
        omega
      · simp only [parseFrame, List.length_take]
        omega
    exact treated_handleFrame hverified (begun_runs env b as a.connection) hcode ha hheard
  · intro h hform
    by_contra hno
    obtain ⟨hmute, ht⟩ : Mute ((b.system.run env as).world a.connection)
        (handleFrame ⟨env, a.out⟩ a.frame ((b.system.run env as).world a.connection)).2 ∧ _ :=
      silent_handleFrame hverified hcode hform hno
    rcases h with (⟨k, hk, hnext, -⟩ | ⟨hiv, hset, -, -⟩) | ⟨hone, -⟩
    · rw [ht] at hnext
      cases hnext
    · rw [ht] at hset
      cases hset
    · rw [newSent, hmute, List.drop_length] at hone
      cases hone

/-! ### A frame without a separator -/

/-- An 828 frame whose file name never ends. -/
def unseparated : Arrival :=
  onConnection 0 (aliceRequest 828 (leBytes 4 32 ++ leBytes 4 17 ++ leBytes 2 1 ++ leBytes 2 2 ++
    utf8Encode "f"))

/-- A second packet without ciphertext. -/
def emptyPacket : Arrival := onConnection 0 (alicePacket 2 [])

theorem packet_reported_empty :
    ((aliceBoot.system.run plainEnv (aliceUpload.map (onConnection 0))).sessions
        0).handshake.verified = true ∧
      (Accepted ((aliceBoot.system.run plainEnv (aliceUpload.map (onConnection 0))).world 0)
          ((aliceBoot.system.run plainEnv (aliceUpload.map (onConnection 0) ++
            [emptyPacket])).world 0) ∨
        Reported ((aliceBoot.system.run plainEnv (aliceUpload.map (onConnection 0))).world 0)
          ((aliceBoot.system.run plainEnv (aliceUpload.map (onConnection 0) ++
            [emptyPacket])).world 0)) := by
  have hverified : ((aliceBoot.system.run plainEnv (aliceUpload.map (onConnection 0))).sessions
      0).handshake.verified = true := by decide +kernel
  have hcalm : Undisturbed emptyPacket.out
      (aliceBoot.system.run plainEnv (aliceUpload.map (onConnection 0))).store := by
    refine ⟨fun _ => rfl, fun _ => rfl, ?_⟩
    unfold StoreFrames.Core.Indexed
    decide +kernel
  have hheard : Heard (parseFrame emptyPacket.frame).clientId (parseFrame emptyPacket.frame).payload
      ((aliceBoot.system.run plainEnv (aliceUpload.map (onConnection 0))).world 0) :=
    ⟨by decide +kernel, fun _ _ => .inl (by decide +kernel)⟩
  exact ⟨hverified, (packet_reported plainEnv aliceBoot _ emptyPacket hverified
    (by decide +kernel)).1 hcalm fun _ => hheard⟩

/-- During an upload a packet without a separator ends the transfer and is not
answered. -/
theorem unseparated_packet_is_silent :
    ((aliceBoot.system.run plainEnv (aliceUpload.map (onConnection 0))).sessions
        0).handshake.verified = true ∧
      (parseFrame unseparated.frame).code = 828 ∧
      ¬ (Accepted ((aliceBoot.system.run plainEnv (aliceUpload.map (onConnection 0))).world 0)
          ((aliceBoot.system.run plainEnv (aliceUpload.map (onConnection 0) ++
            [unseparated])).world 0) ∨
        Reported ((aliceBoot.system.run plainEnv (aliceUpload.map (onConnection 0))).world 0)
          ((aliceBoot.system.run plainEnv (aliceUpload.map (onConnection 0) ++
            [unseparated])).world 0)) := by
  obtain ⟨hverified, htransfer, hsent⟩ :
      ((aliceBoot.system.run plainEnv (aliceUpload.map (onConnection 0))).sessions
        0).handshake.verified = true ∧
      ((aliceBoot.system.run plainEnv (aliceUpload.map (onConnection 0) ++
        [unseparated])).world 0).session.transfer = {} ∧
      newSent ((aliceBoot.system.run plainEnv (aliceUpload.map (onConnection 0))).world 0)
        ((aliceBoot.system.run plainEnv (aliceUpload.map (onConnection 0) ++
          [unseparated])).world 0) = [] := by decide +kernel
  refine ⟨hverified, by decide +kernel, ?_⟩
  rintro ((⟨k, -, hnext, -⟩ | ⟨-, hset, -, -⟩) | ⟨hone, -⟩)
  · rw [htransfer] at hnext
    cases hnext
  · rw [htransfer] at hset
    cases hset
  · rw [hsent] at hone
    cases hone

end Seftp.PacketReports
