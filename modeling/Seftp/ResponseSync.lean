import Seftp.FailureReports
import Seftp.LinkedClient

/-!
# Requests and responses stay in step

`send_single_file` streams all packets of a file before it reads, and reads at most two
responses for an attempt that fails. The server answers every packet that it drops, so
the two lose step when it drops one before the last two packets of a file, and only
then: a call that returns has read the responses to its own frames and no others, and
in a batch in which no earlier packet is answered every call does.
-/
namespace Seftp.ResponseSync
open LittleEndian ExceptState OutsideWorld BlockChaining Checksum Text Protocol ClientStore
open StoreFrames ServerSession Answers SessionFrames UploadHandlers UploadSteps ChunkSteps
open FrameSteps HandshakeGate UploadStages UploadSoundness KeyBinding RowSteps Confirmations
open Router hiding dispatch
open PacketReports UploadReplies Pipeline LinkedClient ClientProgram ClientDialogue ClientUpload
open ClientStream ResponseStream PayloadCodecs
open ResponseSteps (ofValue_value)
open UploadSlot (plainEnv aliceUpload)
open UploadDelivery (aliceClient aliceFiles aliceUuid aliceKeyText zeroKeyAes_inverts)

/-! ### The packets of one file -/

/-- A packet with at least two packets after it. -/
def isEarly (frame : Bytes) : Bool :=
  (parseFrame frame).code = 828 ∧ numberOf frame + 1 < countOf frame

/-- The responses to a frame. -/
def replies (site : Site) (v : Visit) : List Bytes :=
  newSent v.world (handleFrame ⟨site.env, v.out⟩ v.frame v.world).2

/-- No packet before the last two of its file is answered. -/
def EarlyQuiet (site : Site) (vs : List Visit) : Prop :=
  ∀ v ∈ vs, isEarly v.frame = true → replies site v = []

instance (site : Site) (vs : List Visit) : Decidable (EarlyQuiet site vs) :=
  inferInstanceAs (Decidable (∀ v ∈ vs, _))

section
variable {site : Site} {s s' : Served} {cid fileName frame : Bytes} {n k : ℕ}

theorem earlyQuiet_nil : EarlyQuiet site [] := by simp [EarlyQuiet]

theorem earlyQuiet_cons {v : Visit} {vs : List Visit} : EarlyQuiet site (v :: vs) ↔
    (isEarly v.frame = true → replies site v = []) ∧ EarlyQuiet site vs := List.forall_mem_cons

theorem earlyQuiet_append {vs ws : List Visit} :
    EarlyQuiet site (vs ++ ws) ↔ EarlyQuiet site vs ∧ EarlyQuiet site ws := List.forall_mem_append

theorem isEarly_packet (hp : Packets cid n fileName k frame) :
    isEarly frame = true ↔ k + 1 < n := by
  simp [isEarly, hp.code, hp.number, hp.count]

/-- The frame as the server comes to it. -/
def visit (site : Site) (s : Served) (frame : Bytes) : Visit :=
  ⟨site.scene s, site.out s.visits.length, frame⟩

theorem transfer_scene (hsite : site.Steady) (hs : site.Healthy s) :
    (site.scene s).session.transfer = site.transfer s := by
  rw [Site.scene_session hsite hs]
  rfl

theorem transfer_after (site : Site) (s : Served) (frame : Bytes) :
    site.transfer (site.serve s frame) =
    (handleFrame (site.ctx s) frame (site.scene s)).2.session.transfer :=
  congrArg Session.transfer (Site.session_serve s frame)

/-- What a packet does to the connection. -/
theorem dealt_serve (hsite : site.Steady) (hs : site.Healthy s)
    (hp : Packets cid n fileName k frame)
    (hwait : Awaits fileName k (site.transfer s)) :
    Dealt cid n fileName k (site.scene s) (handleFrame (site.ctx s) frame (site.scene s)).2 := by
  apply dealt_frame (Site.attentive_scene hsite hs) hp
  rw [transfer_scene hsite hs]
  exact hwait

theorem audible_serve (hsite : site.Steady) (hs : site.Healthy s) (frame : Bytes)
    (h : Audible cid fileName (site.scene s).store) :
    Audible cid fileName (site.serve s frame).system.store :=
  h.imp_right (Site.registered_serve hsite hs frame)

/-- Of so many packets one is dropped: the transfer is as in a new session, and errors are
all that has gone out, at most two if no early packet was answered and only then. -/
structure Drops (site : Site) (cid : Bytes) (packets : ℕ) (s s' : Served) : Prop where
  transfer : site.transfer s' = {}
  sent : ∃ es vs, site.sent s' = site.sent s ++ es ∧ s'.visits = s.visits ++ vs ∧
    (∀ m ∈ es, ErrorTo cid m) ∧ (EarlyQuiet site vs ↔ es.length ≤ 2) ∧ es.length ≤ packets

/-- Every one of so many packets is answered. -/
def AllAnswered (site : Site) (packets : ℕ) (s s' : Served) : Prop :=
  (site.sent s').length = (site.sent s).length + packets

/-- The file is stored, and its checksum is the only response. -/
structure Stores (site : Site) (cid fileName : Bytes) (s s' : Served) : Prop where
  waits : Concluding fileName (site.transfer s')
  sent : ∃ p crc vs, utf8Encode p.fileName = fileName ∧
    site.sent s' = site.sent s ++ [crcMessage cid [kVersion] p crc] ∧
    s'.visits = s.visits ++ vs ∧ EarlyQuiet site vs

/-- A dropped packet and the packets after it. -/
theorem drops_cons (hsite : site.Steady) (hs : site.Healthy s) (hp : Packets cid n fileName k frame)
    {packets : ℕ} (hcount : k + packets = n)
    (haway : TurnedAway cid (site.scene s) (handleFrame (site.ctx s) frame (site.scene s)).2)
    (hknown : ¬ Mute (site.scene s) (handleFrame (site.ctx s) frame (site.scene s)).2 →
      Audible cid fileName (site.scene s).store)
    (hrest : Drops site cid packets (site.serve s frame) s')
    (hall : Audible cid fileName (site.serve s frame).system.store →
      AllAnswered site packets (site.serve s frame) s') :
    Drops site cid (packets + 1) s s' ∧
      (Audible cid fileName s.system.store → AllAnswered site (packets + 1) s s') := by
  obtain ⟨es, hes, hle, herrors⟩ := haway.sent
  obtain ⟨fs, vs, hfs, hvs, hmore, hquiet, hbound⟩ := hrest.sent
  have hsent : site.sent s' = site.sent s ++ (es ++ fs) := by
    rw [hfs, Site.sent_after, hes, Site.sent_scene hsite hs, List.append_assoc]
  have hone (h : Audible cid fileName (site.scene s).store) : es.length = 1 := by
    rw [← newSent_eq hes]
    exact answered_away (Site.attentive_scene hsite hs) hp (heard_of_audible hp h) haway
  have hlater (h : es ≠ []) : Audible cid fileName (site.scene s).store := by
    refine hknown fun hmute => h ?_
    rw [show _ = _ from hmute] at hes
    exact List.append_right_eq_self.mp hes.symm
  have hfs' (h : Audible cid fileName (site.scene s).store) : fs.length = packets := by
    have := hall (audible_serve hsite hs frame h)
    rw [AllAnswered, hfs, List.length_append] at this
    omega
  have hreplies : replies site (visit site s frame) = es := newSent_eq hes
  have hearly : isEarly (visit site s frame).frame = true ↔ k + 1 < n := isEarly_packet hp
  refine ⟨⟨hrest.transfer, es ++ fs, visit site s frame :: vs, hsent, ?_, ?_, ?_, ?_⟩, fun h => ?_⟩
  · rw [hvs]
    exact List.append_assoc ..
  · exact fun m hm => (List.mem_append.mp hm).elim (herrors m) (hmore m)
  · rw [earlyQuiet_cons, hquiet, hreplies, hearly, List.length_append]
    constructor
    · rintro ⟨hquiet', hfew⟩
      by_cases h : k + 1 < n
      · rw [hquiet' h, List.length_nil]
        omega
      · omega
    · intro hfew
      refine ⟨fun h => ?_, by omega⟩
      by_contra hne
      have := hone (hlater hne)
      have := hfs' (hlater hne)
      omega
  · rw [List.length_append]
    omega
  · have haudible : Audible cid fileName (site.scene s).store :=
      h.imp_right (Site.registered_scene hsite hs)
    rw [AllAnswered, hsent, List.length_append, List.length_append, hone haudible, hfs' haudible,
      Nat.add_comm 1]

/-- Without a transfer all packets after packet 0 are dropped. -/
theorem run_drops (hsite : site.Steady) {u : Upload} (hu : Sendable u) {datas : List Bytes}
    (hdata : ∀ d ∈ datas, d.length < 2 ^ 31) (hcount : k + datas.length = u.totalPackets + 1)
    (hk : k ≠ 0) (hs : site.Healthy s) (hidle : site.transfer s = {}) :
    Drops site u.cid.val datas.length s (EventRuns.run site.serve s (packetMessages u k datas)) ∧
      (Audible u.cid.val u.fileName s.system.store →
        AllAnswered site datas.length s
          (EventRuns.run site.serve s (packetMessages u k datas))) := by
  induction datas generalizing k s with
  | nil =>
      exact ⟨⟨hidle, [], [], by simp [packetMessages], by simp [packetMessages], by simp,
        by simp [earlyQuiet_nil], by simp⟩, fun _ => rfl⟩
  | cons d datas ih =>
      have hlimit := hu.totalPackets
      rw [List.length_cons] at hcount
      have hp := packets_message hu (k := k) (by omega) (hdata d List.mem_cons_self)
      have hscene := (transfer_scene hsite hs).trans hidle
      have haway : TurnedAway u.cid.val (site.scene s)
          (handleFrame (site.ctx s) (packetMessage u k d) (site.scene s)).2 := by
        cases dealt_serve hsite hs hp (.inl hidle) with
        | taken _ hopen _ _ => exact (hopen.elim hk fun h => h hscene).elim
        | stored _ hopen _ => exact (hopen hscene).elim
        | away h => exact h
      have hnext := ih (fun d hd => hdata d (List.mem_cons_of_mem _ hd)) (k := k + 1) (by omega)
        (Nat.succ_ne_zero k) (Site.healthy_serve hsite hs _)
        ((transfer_after site s _).trans haway.transfer)
      exact drops_cons hsite hs hp (by omega) haway
        (fun h => audible_of_effect (Site.attentive_scene hsite hs) hp hscene fun hno => h hno.1)
        hnext.1 hnext.2

/-- From packet `k` on the packets end in a stored file or in errors. The induction is over
the packets that are left; a transfer was opened by an audible packet. -/
theorem run_ends (hsite : site.Steady) {u : Upload} (hu : Sendable u) {datas : List Bytes}
    (hdata : ∀ d ∈ datas, d.length < 2 ^ 31) (hcount : k + datas.length = u.totalPackets + 1)
    (hne : datas ≠ []) (hs : site.Healthy s) (hwait : Awaits u.fileName k (site.transfer s))
    (hknown : site.transfer s ≠ {} → Audible u.cid.val u.fileName s.system.store) :
    Stores site u.cid.val u.fileName s (EventRuns.run site.serve s (packetMessages u k datas)) ∨
      Drops site u.cid.val datas.length s
        (EventRuns.run site.serve s (packetMessages u k datas)) := by
  induction datas generalizing k s with
  | nil => exact (hne rfl).elim
  | cons d datas ih =>
      have hlimit := hu.totalPackets
      rw [List.length_cons] at hcount
      have hp := packets_message hu (k := k) (by omega) (hdata d List.mem_cons_self)
      have hdata' : ∀ d ∈ datas, d.length < 2 ^ 31 :=
        fun d hd => hdata d (List.mem_cons_of_mem _ hd)
      have hnext := Site.healthy_serve hsite hs (packetMessage u k d)
      have hafter := transfer_after site s (packetMessage u k d)
      have haudible (h : ¬ (Mute (site.scene s) (handleFrame (site.ctx s) (packetMessage u k d)
          (site.scene s)).2 ∧ (handleFrame (site.ctx s) (packetMessage u k d)
          (site.scene s)).2.session.transfer = {})) :
          Audible u.cid.val u.fileName (site.scene s).store := by
        by_cases hidle : site.transfer s = {}
        · exact audible_of_effect (Site.attentive_scene hsite hs) hp
            ((transfer_scene hsite hs).trans hidle) h
        · exact (hknown hidle).imp_right (Site.registered_scene hsite hs)
      rw [packetMessages, EventRuns.run_cons]
      rcases dealt_serve hsite hs hp hwait with ⟨hk, -, hmute, hmid⟩ | ⟨hk, -, hlast⟩ | haway
      · have hmore : datas ≠ [] := by
          rintro rfl
          rw [List.length_nil] at hcount
          omega
        -- a packet that is taken adds nothing
        have hsent : site.sent (site.serve s (packetMessage u k d)) = site.sent s := by
          rw [Site.sent_after, show _ = _ from hmute, Site.sent_scene hsite hs]
        have hnone : replies site (visit site s (packetMessage u k d)) = [] :=
          newSent_eq (by rw [List.append_nil]; exact hmute)
        have hopen := audible_serve hsite hs (packetMessage u k d) (haudible fun hno => by
          have := hmid.expected
          rw [hno.2] at this
          cases this)
        rcases ih hdata' (by omega) hmore hnext (.inr ⟨k, rfl, hafter ▸ hmid⟩) (fun _ => hopen) with
          hstore | hdrop
        · obtain ⟨p, crc, vs, hname, hcrc, hvs, hquiet⟩ := hstore.sent
          refine .inl ⟨hstore.waits, p, crc, visit site s (packetMessage u k d) :: vs, hname,
            by rw [hcrc, hsent], by rw [hvs]; exact List.append_assoc .., ?_⟩
          exact earlyQuiet_cons.mpr ⟨fun _ => hnone, hquiet⟩
        · obtain ⟨es, vs, hes, hvs, herrors, hquiet, hbound⟩ := hdrop.sent
          refine .inr ⟨hdrop.transfer, es, visit site s (packetMessage u k d) :: vs,
            by rw [hes, hsent], by rw [hvs]; exact List.append_assoc .., herrors, ?_, ?_⟩
          · rw [earlyQuiet_cons, hquiet]
            exact and_iff_right fun _ => hnone
          · rw [List.length_cons]
            omega
      · obtain rfl : datas = [] := List.eq_nil_of_length_eq_zero (by omega)
        obtain ⟨p, crc, hname, hcrc⟩ := hlast.sent
        refine .inl ⟨hafter ▸ hlast.waits, p, crc, [visit site s (packetMessage u k d)], hname, ?_,
          rfl, ?_⟩
        · rw [packetMessages, EventRuns.run_nil, Site.sent_after, hcrc, Site.sent_scene hsite hs]
        · refine earlyQuiet_cons.mpr ⟨fun h => ?_, earlyQuiet_nil⟩
          have := (isEarly_packet hp).mp h
          omega
      · obtain ⟨hrest, hall⟩ := run_drops hsite hu hdata' (k := k + 1) (by omega)
          (Nat.succ_ne_zero k) hnext (hafter.trans haway.transfer)
        exact .inr (drops_cons hsite hs hp (by omega) haway (fun h => haudible fun hno => h hno.1)
          hrest hall).1

end

/-! ### The confirmation of one file -/

/-- One response, and the transfer is as in a new session. -/
structure Closes (site : Site) (cid : Bytes) (s s' : Served) : Prop where
  transfer : site.transfer s' = {}
  sent : ∃ m, site.sent s' = site.sent s ++ [m] ∧
    (m = doneMessage cid [kVersion] ∨ ErrorTo cid m)

section
variable {site : Site} {s : Served} {cid fileName frame : Bytes}

theorem concluding_scene (hsite : site.Steady) (hs : site.Healthy s)
    (h : Concluding fileName (site.transfer s)) :
    Concluding fileName (site.scene s).session.transfer := by
  rw [transfer_scene hsite hs]
  exact h

theorem closes_of_answered (hsite : site.Steady) (hs : site.Healthy s)
    (h : Answered cid (site.scene s) (handleFrame (site.ctx s) frame (site.scene s)).2) :
    Closes site cid s (site.serve s frame) := by
  obtain ⟨m, hm, hkind⟩ := h.sent
  refine ⟨(transfer_after site s frame).trans h.transfer, m, ?_, hkind⟩
  rw [Site.sent_after, hm, Site.sent_scene hsite hs]

theorem closes_900 (hsite : site.Steady) (hs : site.Healthy s) (hzero : 0 ∉ fileName)
    (hc : Confirms cid 900 fileName frame) (h : Concluding fileName (site.transfer s)) :
    Closes site cid s (site.serve s frame) :=
  closes_of_answered hsite hs (frame_900 (Site.attentive_scene hsite hs) hzero hc
    (concluding_scene hsite hs h))

theorem closes_902 (hsite : site.Steady) (hs : site.Healthy s) (hzero : 0 ∉ fileName)
    (hc : Confirms cid 902 fileName frame) (h : Concluding fileName (site.transfer s)) :
    Closes site cid s (site.serve s frame) :=
  closes_of_answered hsite hs (frame_902 (Site.attentive_scene hsite hs) hzero hc
    (concluding_scene hsite hs h))

/-- A retry is announced without a response. -/
theorem quiet_901 (hsite : site.Steady) (hs : site.Healthy s) (hzero : 0 ∉ fileName)
    (hc : Confirms cid 901 fileName frame) (h : Concluding fileName (site.transfer s)) :
    site.transfer (site.serve s frame) = {} ∧ site.sent (site.serve s frame) = site.sent s := by
  obtain ⟨hmute, ht⟩ :=
    frame_901 (Site.attentive_scene hsite hs) (Site.live_scene hsite hs) hzero hc
    (concluding_scene hsite hs h)
  refine ⟨(transfer_after site s frame).trans ht, ?_⟩
  rw [Site.sent_after, show _ = _ from hmute, Site.sent_scene hsite hs]

end

/-! ### Reading a response -/

section
variable {σ : Type} {w : ClientWorld σ} {E : String → ClientWorld σ → Prop} {text : Bytes}

def withError (text : Bytes) (w : ClientWorld σ) : ClientWorld σ :=
  { w with cc := { w.cc with lastErrorText := text } }

theorem wp_setError {Q : Unit → ClientWorld σ → Prop} :
    wp (setError text) Q E w ↔ Q () (withError text w) := wp_update

theorem wp_failWith {Q : Bool → ClientWorld σ → Prop} {text : String} :
    wp (failWith text) Q E w ↔ Q false (withError (utf8Encode text) w) := by
  rw [failWith, wp_bind, wp_setError, wp_pure]

end

/-- A response of the server that the client accepts. -/
def responseOf (c : ResCode) (payload : Bytes) (h : payload.length ≤ 128 * 1024) : Response :=
  ⟨{ version := kVersion, code := c.value, payload }, lt_of_lt_of_eq (value_lt c) (by decide), h⟩

theorem ofValue_responseOf {c : ResCode} {payload : Bytes} (h : payload.length ≤ 128 * 1024) :
    ResCode.ofValue (responseOf c payload h).frame.code = some c := ofValue_value c

section
variable {site : Site} {client : ClientEnv Unit} {w w' : ClientWorld Line} {cid m : Bytes}
variable {rest : List Bytes}

/-- Reading the next response and dispatching it. -/
theorem wp_answerManager (hsite : site.Steady) (h : site.Attuned w) {r : Response}
    (hunread : site.unread w = r.encoded :: rest) {P : NextStep × Bool → Prop}
    (originalCrc : Option UInt32)
    (hd : ∀ x, wp (dispatch (site.link client) originalCrc r.frame)
      (fun a x' => P a ∧ ∃ text, x' = withError text x)
      (fun _ _ => False) x) :
    wp (answerManager (site.link client) originalCrc)
      (fun a w' => P a ∧ site.Goes w w' ∧ site.settled w' = site.settled w ∧ site.unread w' = rest)
      (fun _ _ => False) w := by
  obtain ⟨x, hx, htook⟩ := Site.read_takes client hsite h hunread
  obtain ⟨hgoes, hrest⟩ := Site.goes_of_took hunread htook
  rw [answerManager, wp_bind, wp_of_eq_ok hx]
  apply wp_mono (hd x)
  · rintro a x' ⟨ha, text, rfl⟩
    exact ⟨ha, ⟨⟨hgoes.attuned.healthy, hgoes.attuned.arrived, hgoes.attuned.taken⟩, hgoes.hungUp,
      hgoes.clientId, hgoes.files, hgoes.reads⟩, htook.settled, hrest⟩
  · exact fun _ _ hf => hf

theorem wp_answer_error (hsite : site.Steady) (h : site.Attuned w) (hm : ErrorTo cid m)
    (hunread : site.unread w = m :: rest) (originalCrc : Option UInt32) :
    wp (answerManager (site.link client) originalCrc)
      (fun a w' => a.1 = .fatal ∧ site.Goes w w' ∧ site.settled w' = site.settled w ∧
        site.unread w' = rest)
      (fun _ _ => False) w := by
  obtain ⟨⟨text, rfl⟩, hlen⟩ := hm
  have hpayload : (cid ++ utf8Encode text).length ≤ 128 * 1024 := by
    rw [errorMessage, message] at hlen
    simp only [List.length_append] at hlen ⊢
    omega
  refine wp_answerManager (r := responseOf .error _ hpayload) hsite h hunread originalCrc
    fun x => ?_
  rw [dispatch, ofValue_responseOf]
  dsimp only
  rw [wp_bind, fatal, wp_bind, wp_setError, wp_pure, wp_pure]
  exact ⟨rfl, _, rfl⟩

theorem wp_answer_checksum (hsite : site.Steady) (h : site.Attuned w) {p : Packet} {crc : UInt32}
    (hid : cid.length = 16) (hname : (utf8Encode p.fileName).length ≤ 255)
    (hunread : site.unread w = crcMessage cid [kVersion] p crc :: rest)
    (originalCrc : Option UInt32) :
    wp (answerManager (site.link client) originalCrc)
      (fun a w' => a.1 = .none ∧ site.Goes w w' ∧ site.settled w' = site.settled w ∧
        site.unread w' = rest)
      (fun _ _ => False) w := by
  have hlen : (cid ++ leBytes 4 p.contentSize ++ (utf8Encode p.fileName ++ [0]) ++
      leBytes 4 crc.toNat).length = 25 + (utf8Encode p.fileName).length := by
    simp only [List.length_append, length_leBytes, hid, List.length_singleton]
    omega
  have hshort : (cid ++ leBytes 4 p.contentSize ++ (utf8Encode p.fileName ++ [0]) ++
      leBytes 4 crc.toNat).length ≤ 128 * 1024 := by omega
  refine wp_answerManager (r := responseOf .crcResult _ hshort) hsite h hunread originalCrc
    fun x => ?_
  rw [dispatch, ofValue_responseOf]
  dsimp only [responseOf]
  rw [parse1603, if_neg (by omega), wp_bind, wp_ofExcept_ok, wp_pure]
  exact ⟨rfl, x.cc.lastErrorText, rfl⟩

theorem wp_answer_done (hsite : site.Steady) (h : site.Attuned w) (hid : cid.length = 16)
    (hunread : site.unread w = doneMessage cid [kVersion] :: rest) (originalCrc : Option UInt32) :
    wp (answerManager (site.link client) originalCrc)
      (fun a w' => a.1 = .none ∧ site.Goes w w' ∧ site.settled w' = site.settled w ∧
        site.unread w' = rest)
      (fun _ _ => False) w := by
  have hshort : cid.length ≤ 128 * 1024 := by omega
  refine wp_answerManager (r := responseOf .transferDone cid hshort) hsite h hunread originalCrc
    fun x => ?_
  rw [dispatch, ofValue_responseOf]
  dsimp only
  rw [wp_pure]
  exact ⟨rfl, x.cc.lastErrorText, rfl⟩

/-- Without a response the client's wait ends with the connection. -/
theorem wp_answer_hangs (hsite : site.Steady) (h : site.Attuned w) (hunread : site.unread w = [])
    (originalCrc : Option UInt32) :
    wp (answerManager (site.link client) originalCrc) (fun _ _ => False)
      (fun _ w' => w'.peer.hungUp = true) w := by
  obtain ⟨e, x, hx, hhung⟩ := Site.read_hangs client hsite h hunread
  rw [answerManager, wp_bind, wp_of_eq_error hx]
  exact hhung

end

/-! ### One attempt -/

/-- The client reads its files and writes, and its AES is a permutation of blocks. -/
structure Dependable (client : ClientEnv Unit) : Prop where
  reliable : Reliable client
  inverts : ∀ key : Bytes, key.length = 32 → ∃ dec, Inverts (client.aesEncrypt key) dec 16

/-- The name of a file: no NUL, and no longer than file systems allow. -/
structure Named (path : Bytes) : Prop where
  terminated : 0 ∉ protocolFilenameFromPath path
  short : (protocolFilenameFromPath path).length ≤ 255

/-- Everything has been read, and the session is without a transfer. -/
structure InStep (site : Site) (w : ClientWorld Line) : Prop where
  attuned : site.Attuned w
  unread : site.unread w = []
  transfer : site.transfer (site.settled w) = {}

/-- The frames between two states of the client. -/
def Visited (site : Site) (w w' : ClientWorld Line) (vs : List Visit) : Prop :=
  (site.settled w').visits = (site.settled w).visits ++ vs

/-- No early packet has been answered in between. -/
def Quietly (site : Site) (w w' : ClientWorld Line) : Prop :=
  ∃ vs, Visited site w w' vs ∧ EarlyQuiet site vs

/-- So many responses are unread if no early packet has been answered in between, and
only then. -/
def QuietIff (site : Site) (bound : ℕ) (w w' : ClientWorld Line) : Prop :=
  ∃ vs, Visited site w w' vs ∧ (EarlyQuiet site vs ↔ (site.unread w').length ≤ bound)

/-- What the client has before it once all packets are written. -/
inductive Streamed (site : Site) (cid fileName : Bytes) (w w' : ClientWorld Line) : Prop
  | stored (hwaits : Concluding fileName (site.transfer (site.settled w'))) (p : Packet)
      (crc : UInt32)
      (hname : utf8Encode p.fileName = fileName)
      (hunread : site.unread w' = [crcMessage cid [kVersion] p crc]) (hquiet : Quietly site w w')
  | dropped (htransfer : site.transfer (site.settled w') = {})
      (herrors : ∀ m ∈ site.unread w', ErrorTo cid m) (hquiet : QuietIff site 2 w w')

section
variable {site : Site} {client : ClientEnv Unit} {w w' : ClientWorld Line}
variable {uuid encryptKey path name cid : Bytes}

theorem quietly_of_settled (h : site.settled w' = site.settled w) : Quietly site w w' :=
  ⟨[], by rw [Visited, h, List.append_nil], earlyQuiet_nil⟩

theorem Quietly.trans {x : ClientWorld Line} (h : Quietly site w w') (h' : Quietly site w' x) :
    Quietly site w x := by
  obtain ⟨vs, hvs, hq⟩ := h
  obtain ⟨ws, hws, hq'⟩ := h'
  refine ⟨vs ++ ws, ?_, earlyQuiet_append.mpr ⟨hq, hq'⟩⟩
  rw [Visited, hws, hvs, List.append_assoc]

theorem Quietly.iff {x : ClientWorld Line} {bound : ℕ} (h : Quietly site w w')
    (h' : QuietIff site bound w' x) : QuietIff site bound w x := by
  obtain ⟨vs, hvs, hq⟩ := h
  obtain ⟨ws, hws, hiff⟩ := h'
  refine ⟨vs ++ ws, by rw [Visited, hws, hvs, List.append_assoc], ?_⟩
  rw [earlyQuiet_append, ← hiff]
  exact and_iff_right hq

/-- One of the responses is read. -/
theorem QuietIff.read {m : Bytes} {rest : List Bytes} {x : ClientWorld Line} {bound : ℕ}
    (h : QuietIff site (bound + 1) w w') (hunread : site.unread w' = m :: rest)
    (hsettled : site.settled x = site.settled w') (hrest : site.unread x = rest) :
    QuietIff site bound w x := by
  obtain ⟨vs, hvs, hiff⟩ := h
  refine ⟨vs, by rw [Visited, hsettled, hvs], ?_⟩
  rw [hiff, hunread, hrest, List.length_cons]
  omega

theorem quietIff_of_quietly {bound : ℕ} (h : Quietly site w w')
    (hfew : (site.unread w').length ≤ bound) : QuietIff site bound w w' := by
  obtain ⟨vs, hvs, hq⟩ := h
  exact ⟨vs, hvs, iff_of_true hq hfew⟩

/-- Nothing was left unread, so what is unread is new. -/
theorem unread_new (hsite : site.Steady) (h : site.Attuned w) (hnone : site.unread w = [])
    (ht : w'.peer.taken = w.peer.taken) {ms : List Bytes}
    (hsent : site.sent (site.settled w') = site.sent (site.settled w) ++ ms) :
    site.unread w' = ms := by
  have hle := Site.taken_settled hsite h
  have hge := List.drop_eq_nil_iff.mp hnone
  rw [Site.unread, hsent, ht, show w.peer.taken = _ from Nat.le_antisymm hle hge, List.drop_left]

theorem prepareUpload_inv {content : Bytes} {u : Upload}
    (h : prepareUpload uuid encryptKey path content = .ok u) :
    ∃ cid, parseClientIdHex32 uuid = .ok cid ∧ (decodeBase64 encryptKey).length = 32 ∧
      paddedCbcSize content.length < 2 ^ 32 := by
  rcases hcid : parseClientIdHex32 uuid with e | cid
  · simp only [prepareUpload, hcid] at h
    split_ifs at h
  · simp only [prepareUpload, hcid] at h
    split_ifs at h with h₁ h₂ h₃ h₄
    exact ⟨cid, rfl, not_not.mp h₄, by omega⟩

theorem sendable_uploadOf (hpath : Named path) (cid : ClientId) (key : Bytes) {content : Bytes}
    (hsize : paddedCbcSize content.length < 2 ^ 32) : Sendable (uploadOf cid key path content) where
  cipherSize := hsize
  plainSize := (paddedCbcSize_gt _).trans hsize
  totalPackets := Nat.lt_of_le_of_lt (sized_uploadOf cid key path content).limit (by decide)
  terminated := hpath.terminated
  plain h := by
    have := List.mem_rtakeWhile_imp h
    simp at this
  short := hpath.short

theorem messages_packets (ms : List Bytes) (crc : UInt32) :
    Site.messages (ms.map ClientProgram.Event.wrote ++ [.streamed crc]) = ms := by
  induction ms with
  | nil => rfl
  | cons m ms ih =>
      rw [List.map_cons, List.cons_append, Site.messages, List.filterMap_cons]
      exact congrArg (m :: ·) ih

/-- `request_828_streaming` has written nothing or all packets. -/
theorem wp_stream (hsite : site.Steady) (hc : Dependable client) (hpath : Named path)
    (h : InStep site w) :
    wp (request828Streaming (site.link client) uuid encryptKey path)
      (fun r w' => site.Goes w w' ∧ ((r = none ∧ w' = w) ∨
        ∃ crc cid, r = some crc ∧ parseClientIdHex32 uuid = .ok cid ∧
          Streamed site cid.val (protocolFilenameFromPath path) w w'))
      (fun _ _ => False) w := by
  have hkeeps := steps_request828Streaming (Site.steps_conveys client hsite) uuid
    encryptKey path w
  have hnone (hrun : request828Streaming (site.link client) uuid encryptKey path w =
      (.ok none, w)) :
      wp (request828Streaming (site.link client) uuid encryptKey path)
        (fun r w' => site.Goes w w' ∧ ((r = none ∧ w' = w) ∨
          ∃ crc cid, r = some crc ∧ parseClientIdHex32 uuid = .ok cid ∧
            Streamed site cid.val (protocolFilenameFromPath path) w w'))
        (fun _ _ => False) w := by
    rw [wp_of_eq_ok hrun]
    exact ⟨Site.Goes.refl h.attuned, .inl ⟨rfl, rfl⟩⟩
  rcases hfile : w.files path with _ | content
  · apply hnone
    simp only [request828Streaming, attempt, bind_apply, look, hfile, raise, pure_apply]
  rcases hprep : prepareUpload uuid encryptKey path content with e | u
  · apply hnone
    simp only [request828Streaming, attempt, bind_apply, look, hfile, hprep, ExceptState.ofExcept,
      pure_apply]
  obtain ⟨cid, hcid, hkey, hsize⟩ := prepareUpload_inv hprep
  obtain ⟨dec, haes⟩ := hc.inverts _ hkey
  have hr : Reliable (site.link client) := ⟨hc.reliable.writes, hc.reliable.reads⟩
  obtain ⟨chunks, t, hrun, hcut, htrace⟩ :=
    request828Streaming_emits hr haes rfl hkey hcid hfile hsize
  rw [hrun] at hkeeps
  have hgoes := Site.goes_of_conveys hsite h.attuned hkeeps
  obtain ⟨es, hes, -, hsettled⟩ := hkeeps.events
  rw [htrace, List.append_assoc, List.append_cancel_left_eq] at hes
  rw [← hes, messages_packets] at hsettled
  have hdata : ∀ d ∈ ((site.link client).makeIv w.calls).val :: chunks, d.length < 2 ^ 31 := by
    intro d hd
    rcases List.mem_cons.mp hd with rfl | hd
    · rw [((site.link client).makeIv w.calls).property]
      decide
    · exact (hcut.bounded d hd).trans_lt ((chooseUploadChunkSize_lt hsize).trans (by decide))
  have hcount : 0 + (((site.link client).makeIv w.calls).val :: chunks).length =
      (uploadOf cid (decodeBase64 encryptKey) path content).totalPackets + 1 := by
    rw [List.length_cons, hcut.count, Nat.zero_add]
  rw [wp_of_eq_ok hrun]
  refine ⟨hgoes, .inr ⟨_, cid, rfl, hcid, ?_⟩⟩
  have hends := run_ends hsite (sendable_uploadOf hpath cid (decodeBase64 encryptKey) hsize) hdata
    hcount (by simp) (Site.healthy_settled hsite h.attuned) (.inl h.transfer)
    (fun hopen => (hopen h.transfer).elim)
  rw [← show site.settled t = _ from hsettled] at hends
  rcases hends with hstore | hdrop
  · obtain ⟨p, crc, vs, hname, hsent, hvs, hquiet⟩ := hstore.sent
    exact .stored hstore.waits p crc hname
      (unread_new hsite h.attuned h.unread hkeeps.taken hsent) ⟨vs, hvs, hquiet⟩
  · obtain ⟨es, vs, hsent, hvs, herrors, hquiet, -⟩ := hdrop.sent
    have hunread := unread_new hsite h.attuned h.unread hkeeps.taken hsent
    exact .dropped hdrop.transfer (hunread ▸ herrors) ⟨vs, hvs, by rw [hunread, hquiet]⟩

/-- A confirmation is written. -/
theorem wp_confirm (hsite : site.Steady) (hc : Dependable client) {build : ClientId → Bytes → Bytes}
    {id : ClientId} (hid : parseClientIdHex32 uuid = .ok id) :
    wp (confirm (site.link client) build name uuid)
      (fun _ w' => site.Conveys w w' ∧
        site.settled w' = site.serve (site.settled w) (build id name))
      (fun _ _ => False) w := by
  have hrun : confirm (site.link client) build name uuid w =
      (.ok (), heard (site.link client) (build id name) (ticked w)) := by
    rw [confirm, hid]
    refine (writeLogged_eq (site.link client) (build id name) w).trans ?_
    rw [show (site.link client).writeRaises w.calls = false from hc.reliable.writes _]
    rfl
  rw [wp_of_eq_ok hrun]
  refine ⟨IsTrans.trans w (ticked w) _ ((Site.steps_conveys client hsite).tick w)
    (Site.conveys_heard hsite _ _), ?_⟩
  exact Site.settled_heard client (build id name) (ticked w)

/-- A call that has only one more response to read, unless early packets were answered. -/
structure Waits (site : Site) (w w' : ClientWorld Line) : Prop where
  goes : site.Goes w w'
  transfer : site.transfer (site.settled w') = {}
  replies : ∃ cid : Bytes, cid.length = 16 ∧
    ∀ m ∈ site.unread w', m = doneMessage cid [kVersion] ∨ ErrorTo cid m
  few : QuietIff site 1 w w'

theorem waits_of_inStep (hg : site.Goes w w') (hq : Quietly site w w') (h : InStep site w') :
    Waits site w w' :=
  ⟨hg, h.transfer, ⟨List.replicate 16 0, by simp, by simp [h.unread]⟩,
    quietIff_of_quietly hq (by simp [h.unread])⟩

theorem waits_after {x : ClientWorld Line} (h : site.Goes w w') (hq : Quietly site w w')
    (h' : Waits site w' x) : Waits site w x :=
  ⟨h.trans h'.goes, h'.transfer, h'.replies, hq.iff h'.few⟩

/-- The text of an error is the only thing that changes. -/
theorem goes_errorText (text : Bytes) (h : site.Goes w w') : site.Goes w (withError text w') :=
  ⟨⟨h.attuned.healthy, h.attuned.arrived, h.attuned.taken⟩, h.hungUp, h.clientId, h.files, h.reads⟩

theorem inStep_errorText (text : Bytes) (h : InStep site w) : InStep site (withError text w) :=
  ⟨⟨h.attuned.healthy, h.attuned.arrived, h.attuned.taken⟩, h.unread, h.transfer⟩

/-- The response to request 900 or 902 is the only one that is left. -/
theorem waits_of_closes (hsite : site.Steady) (id : ClientId) (hg : site.Goes w w')
    (hunread : site.unread w' = []) {x : ClientWorld Line} (hconv : site.Conveys w' x)
    (hq : Quietly site w x) (hcloses : Closes site id.val (site.settled w') (site.settled x)) :
    Waits site w x := by
  obtain ⟨m, hm, hkind⟩ := hcloses.sent
  have hnew := unread_new hsite hg.attuned hunread hconv.taken hm
  refine ⟨hg.trans (Site.goes_of_conveys hsite hg.attuned hconv), hcloses.transfer,
    ⟨id.val, id.property, ?_⟩, ?_⟩
  · rw [hnew]
    intro m' hm'
    rw [List.mem_singleton.mp hm']
    exact hkind
  · exact quietIff_of_quietly hq (by rw [hnew]; exact Nat.le_refl 1)

/-- A confirmation is no packet. -/
theorem quietly_confirm {code : ℕ} {fileName frame : Bytes} (hc : Confirms cid code fileName frame)
    (hcode : code ≠ 828) (h : site.settled w' = site.serve (site.settled w) frame) :
    Quietly site w w' := by
  refine ⟨[visit site (site.settled w) frame], by rw [Visited, h]; rfl,
    earlyQuiet_cons.mpr ⟨fun hearly => ?_, earlyQuiet_nil⟩⟩
  have hpacket : (parseFrame frame).code = 828 := (of_decide_eq_true hearly).1
  exact (hcode ((congrArg Request.code hc.fields).symm.trans hpacket)).elim

/-- The report of an attempt whose checksum has been read. -/
theorem wp_report (hsite : site.Steady) (hc : Dependable client) (hpath : Named path)
    {id : ClientId} (hid : parseClientIdHex32 uuid = .ok id) (hg : site.Goes w w')
    (hq : Quietly site w w') (hunread : site.unread w' = [])
    (hwaits : Concluding (protocolFilenameFromPath path) (site.transfer (site.settled w'))) :
    wp (request900 (site.link client) (protocolFilenameFromPath path) uuid)
        (fun _ x => Waits site w x) (fun _ _ => False) w' ∧
      wp (request902 (site.link client) (protocolFilenameFromPath path) uuid)
        (fun _ x => Waits site w x) (fun _ _ => False) w' ∧
      wp (request901 (site.link client) (protocolFilenameFromPath path) uuid)
        (fun _ x => site.Goes w x ∧ Quietly site w x ∧ InStep site x) (fun _ _ => False) w' := by
  have hhealthy := Site.healthy_settled hsite hg.attuned
  refine ⟨?_, ?_, ?_⟩
  · apply wp_mono (wp_confirm hsite hc hid)
    · rintro _ x ⟨hconv, hx⟩
      have hframe := confirms_message id 900 (by decide) hpath.short
      refine waits_of_closes hsite id hg hunread hconv
        (hq.trans (quietly_confirm hframe (by decide) hx)) ?_
      rw [hx]
      exact closes_900 hsite hhealthy hpath.terminated hframe hwaits
    · exact fun _ _ h => h
  · apply wp_mono (wp_confirm hsite hc hid)
    · rintro _ x ⟨hconv, hx⟩
      have hframe := confirms_message id 902 (by decide) hpath.short
      refine waits_of_closes hsite id hg hunread hconv
        (hq.trans (quietly_confirm hframe (by decide) hx)) ?_
      rw [hx]
      exact closes_902 hsite hhealthy hpath.terminated hframe hwaits
    · exact fun _ _ h => h
  · apply wp_mono (wp_confirm hsite hc hid)
    · rintro _ x ⟨hconv, hx⟩
      have hframe := confirms_message id 901 (by decide) hpath.short
      obtain ⟨ht, hsent⟩ := quiet_901 hsite hhealthy hpath.terminated hframe hwaits
      have hgoes := Site.goes_of_conveys hsite hg.attuned hconv
      rw [build901CrcRetry] at hx
      refine ⟨hg.trans hgoes, hq.trans (quietly_confirm hframe (by decide) hx), hgoes.attuned, ?_,
        hx ▸ ht⟩
      exact unread_new hsite hg.attuned hunread hconv.taken
        (by rw [hx, List.append_nil]; exact hsent)
    · exact fun _ _ h => h

/-- `request_828_retry` leaves at most one response, or the wait has ended the
connection. The induction is over the attempts that are left. -/
theorem wp_retryLoop (hsite : site.Steady) (hc : Dependable client) (hpath : Named path) (left : ℕ)
    (h : InStep site w) :
    wp (retryLoop (site.link client) encryptKey path left) (fun _ w' => Waits site w w')
      (fun _ w' => w'.peer.hungUp = true) w := by
  induction left generalizing w with
  | zero =>
      rw [retryLoop, wp_pure]
      exact waits_of_inStep (Site.Goes.refl h.attuned) (quietly_of_settled rfl) h
  | succ left ih =>
      rw [retryLoop, wp_bind, wp_look]
      apply wp_seq (wp_stream hsite hc hpath h) _ (fun _ _ hf => hf.elim)
      rintro r x ⟨hgoes, ⟨rfl, rfl⟩ | ⟨crc, cid, rfl, hid, hstreamed⟩⟩
      · dsimp only
        rw [wp_setError]
        exact waits_of_inStep (goes_errorText _ hgoes) (quietly_of_settled rfl)
          (inStep_errorText _ h)
      dsimp only
      cases hstreamed with
      | stored hwaits p sum hname hunread hquiet =>
          apply wp_seq (wp_answer_checksum hsite hgoes.attuned cid.property
            (by rw [hname]; exact hpath.short)
            hunread (some crc)) _ (fun _ _ hf => hf.elim)
          rintro ⟨step, crcOk⟩ y ⟨rfl, hy, hsettled, hnone⟩
          have hall := hgoes.trans hy
          dsimp only
          rw [if_neg (by decide), wp_bind, wp_look, hall.clientId]
          obtain ⟨h900, h902, h901⟩ := wp_report hsite hc hpath hid hall
            (hquiet.trans (quietly_of_settled hsettled)) hnone (hsettled ▸ hwaits)
          cases crcOk with
          | true =>
              rw [if_pos rfl]
              exact wp_mono h900 (fun _ _ hw => hw) (fun _ _ hf => hf.elim)
          | false =>
              rw [if_neg (by decide), reportMismatch]
              cases left with
              | zero =>
                  apply wp_then h902
                  intro _ z hz
                  rw [retryLoop, wp_pure]
                  exact hz
              | succ left =>
                  rw [if_neg (Nat.succ_ne_zero left)]
                  apply wp_then h901
                  rintro _ z ⟨hz, hquietz, hstep⟩
                  exact wp_mono (ih hstep) (fun _ _ hw => waits_after hz hquietz hw)
                    (fun _ _ hf => hf)
      | dropped htransfer herrors hquiet =>
          rcases hunread : site.unread x with _ | ⟨m, rest⟩
          · exact wp_seq (wp_answer_hangs hsite hgoes.attuned hunread (some crc))
              (fun _ _ hf => hf.elim) (fun _ _ hh => hh)
          · rw [hunread] at herrors
            apply wp_seq (wp_answer_error hsite hgoes.attuned (herrors m List.mem_cons_self) hunread
              (some crc)) _ (fun _ _ hf => hf.elim)
            rintro ⟨step, crcOk⟩ y ⟨rfl, hy, hsettled, hrest⟩
            dsimp only
            rw [if_pos rfl, wp_pure]
            refine ⟨hgoes.trans hy, hsettled ▸ htransfer, ⟨cid.val, cid.property, ?_⟩,
              hquiet.read hunread hsettled hrest⟩
            rw [hrest]
            exact fun m' hm' => .inr (herrors m' (List.mem_cons_of_mem m hm'))

/-- What a call of `send_single_file` leaves while the line is open. -/
structure Done (site : Site) (w w' : ClientWorld Line) : Prop where
  goes : site.Goes w w'
  transfer : site.transfer (site.settled w') = {}
  quiet : QuietIff site 0 w w'

theorem done_of_inStep (hg : site.Goes w w') (hq : Quietly site w w') (h : InStep site w') :
    Done site w w' := ⟨hg, h.transfer, quietIff_of_quietly hq (by simp [h.unread])⟩

/-- The last response of a call. -/
theorem wp_lastAnswer (hsite : site.Steady) (h : Waits site w w') :
    wp (answerManager (site.link client)) (fun _ x => Done site w x)
      (fun _ x => x.peer.hungUp = true) w' := by
  obtain ⟨cid, hid, hkinds⟩ := h.replies
  have hattuned := h.goes.attuned
  rcases hunread : site.unread w' with _ | ⟨m, rest⟩
  · exact wp_mono (wp_answer_hangs hsite hattuned hunread none) (fun _ _ hf => hf.elim)
      (fun _ _ hh => hh)
  have hdone {a : NextStep × Bool} {x : ClientWorld Line} (hx : site.Goes w' x)
      (hsettled : site.settled x = site.settled w') (hrest : site.unread x = rest) :
      Done site w x :=
    ⟨h.goes.trans hx, hsettled ▸ h.transfer, h.few.read hunread hsettled hrest⟩
  rw [hunread] at hkinds
  rcases hkinds m List.mem_cons_self with rfl | herror
  · exact wp_mono (wp_answer_done hsite hattuned hid hunread none)
      (fun a _ hx => hdone (a := a) hx.2.1 hx.2.2.1 hx.2.2.2) (fun _ _ hf => hf.elim)
  · exact wp_mono (wp_answer_error hsite hattuned herror hunread none)
      (fun a _ hx => hdone (a := a) hx.2.1 hx.2.2.1 hx.2.2.2) (fun _ _ hf => hf.elim)

/-- One call of `send_single_file` from a state in step. -/
theorem wp_sendSingleFile (hsite : site.Steady) (hc : Dependable client)
    (hpath : Named (normalizeUserPathInput path)) (h : InStep site w) (isOpen : Bool) :
    wp (sendSingleFile (site.link client) isOpen encryptKey path)
      (fun _ w' => w'.peer.hungUp = true ∨ Done site w w')
      (fun _ w' => w'.peer.hungUp = true) w := by
  have hstart := inStep_errorText [] h
  have hgoes := goes_errorText [] (Site.Goes.refl h.attuned)
  have hrefused (text : Bytes) : Done site w (withError text (withError [] w)) :=
    done_of_inStep (goes_errorText _ hgoes) (quietly_of_settled rfl) (inStep_errorText _ hstart)
  rw [sendSingleFile, wp_bind, wp_setError]
  dsimp only
  rw [wp_bind, fileExists, wp_look]
  apply wp_branch
  · intro _
    rw [wp_bind, wp_setError, wp_pure]
    exact .inr (hrefused _)
  intro _
  apply wp_branch
  · intro _
    rw [wp_failWith]
    exact .inr (hrefused _)
  intro _
  apply wp_branch
  · intro _
    rw [wp_failWith]
    exact .inr (hrefused _)
  intro _
  rw [wp_bind, wp_attempt, wp_bind]
  apply wp_mono (wp_retryLoop hsite hc hpath maxRetries hstart)
  · intro _ x hx
    rw [wp_pure, if_neg (by decide)]
    apply wp_seq (wp_lastAnswer hsite (waits_after hgoes (quietly_of_settled rfl) hx))
    · intro a y hy
      rw [wp_pure]
      exact .inr hy
    · exact fun _ _ hh => hh
  · intro e x hx
    rw [wp_failWith, if_pos (by decide), wp_pure]
    exact .inl hx

end

/-! ### A batch -/

/-- The loop over the files of the command line; the result is the exit code. -/
def sendFiles {σ : Type} (env : ClientEnv σ) (aesKey : Bytes) : List Bytes → ℕ → Client σ ℕ
  | [], exitCode => pure exitCode
  | path :: paths, exitCode => do
      let ok ← sendSingleFile env true aesKey path
      sendFiles env aesKey paths (if ok then exitCode else 1)

section
variable {site : Site} {client : ClientEnv Unit} {w w' : ClientWorld Line} {aesKey path : Bytes}
variable {paths : List Bytes} {exitCode exitCode' : ℕ} {ok : Bool}

theorem onward_sendFiles (site : Site) (client : ClientEnv Unit) (aesKey : Bytes)
    (paths : List Bytes) (exitCode : ℕ) :
    Keeps site.Onward (sendFiles (site.link client) aesKey paths exitCode) := by
  induction paths generalizing exitCode with
  | nil => exact keeps_pure _
  | cons path paths ih =>
      exact keeps_bind (Site.onward_sendSingleFile site client true aesKey path) fun ok => ih _

/-- A call that returns with the line open. -/
theorem done_of_call (hsite : site.Steady) (hc : Dependable client)
    (hpath : Named (normalizeUserPathInput path)) (h : InStep site w)
    (hcall : sendSingleFile (site.link client) true aesKey path w = (.ok ok, w'))
    (hopen : w'.peer.hungUp = false) : Done site w w' := by
  have hrun : wp (sendSingleFile (site.link client) true aesKey path)
      (fun _ w' => w'.peer.hungUp = true ∨ Done site w w') (fun _ w' => w'.peer.hungUp = true) w :=
    wp_sendSingleFile hsite hc hpath h true
  rw [wp_of_eq_ok hcall] at hrun
  refine hrun.resolve_left fun hdown => ?_
  rw [hdown] at hopen
  cases hopen

/-- Calls from a state in step in which no early packet is answered end in one. -/
theorem inStep_of_done (h : Done site w w') (hquiet : EarlyQuiet site (site.settled w').visits) :
    InStep site w' := by
  obtain ⟨vs, hvs, hiff⟩ := h.quiet
  rw [show _ = _ from hvs, earlyQuiet_append] at hquiet
  exact ⟨h.goes.attuned, List.eq_nil_of_length_eq_zero (Nat.le_zero.mp (hiff.mp hquiet.2)),
    h.transfer⟩

theorem inStep_sendFiles (hsite : site.Steady) (hc : Dependable client)
    (hpaths : ∀ path ∈ paths, Named (normalizeUserPathInput path)) (h : InStep site w)
    (hrun : sendFiles (site.link client) aesKey paths exitCode w = (.ok exitCode', w'))
    (hopen : w'.peer.hungUp = false) (hquiet : EarlyQuiet site (site.settled w').visits) :
    InStep site w' := by
  induction paths generalizing exitCode w with
  | nil =>
      obtain ⟨-, rfl⟩ := pure_eq_ok.mp hrun
      exact h
  | cons path paths ih =>
      obtain ⟨ok, x, hcall, hrest⟩ := bind_eq_ok.mp hrun
      have honward := onward_sendFiles site client aesKey paths
        (if ok then exitCode else 1) x
      rw [hrest] at honward
      have hup : x.peer.hungUp = false := by
        by_contra hdown
        rw [honward.down (by simpa using hdown)] at hopen
        cases hopen
      have hdone := done_of_call hsite hc (hpaths path List.mem_cons_self) h hcall hup
      obtain ⟨vs, hvs⟩ := honward.visits
      have hquiet' : EarlyQuiet site (site.settled x).visits :=
        (earlyQuiet_append.mp (hvs ▸ hquiet)).1
      exact ih (fun p hp => hpaths p (List.mem_cons_of_mem _ hp))
        (inStep_of_done hdone hquiet') hrest

/-- All responses have been read if those of the call are the ones it has read. -/
theorem unread_nil_iff (h : InStep site w) (hg : site.Goes w w') :
    (∃ fs, Site.framesRead w'.trace = Site.framesRead w.trace ++ fs ∧
      site.sent (site.settled w') = site.sent (site.settled w) ++ fs.map Site.frameBytes) ↔
    site.unread w' = [] := by
  have hall : site.heardSoFar w = site.sent (site.settled w) :=
    List.take_of_length_le (List.drop_eq_nil_iff.mp h.unread)
  obtain ⟨fs, hfs, hheard⟩ := hg.reads
  rw [hall] at hheard
  constructor
  · rintro ⟨gs, hgs, hsent⟩
    rw [hfs, List.append_cancel_left_eq] at hgs
    rw [← hgs, ← hheard, Site.heardSoFar] at hsent
    rw [Site.unread, List.drop_eq_nil_iff]
    have := congrArg List.length hsent
    rw [List.length_take] at this
    omega
  · intro hunread
    refine ⟨fs, hfs, ?_⟩
    rw [← hheard, Site.heardSoFar, List.take_of_length_le (List.drop_eq_nil_iff.mp hunread)]

end

/-- The line of a connection whose session the server has already. -/
def dialled (site : Site) (s : System) : Line :=
  { pipe := { state := { system := s, visits := [] }, underway := [] }
    taken := (s.sessions site.connection).sent.length
    moment := 0
    hungUp := false }

theorem healthy_reachable (env : Env) (b : Boot) {as : List Arrival} {i : ℕ}
    (hsql : ∀ a ∈ as, a.out.SqlWorks)
    (hv : ((b.system.run env as).sessions i).handshake.verified = true) :
    Healthy i (b.system.run env as) := by
  have hready : Ready (b.system.run env as).store := by
    clear hv
    induction as using List.reverseRecOn with
    | nil => exact ready_initialized b.db
    | append_singleton as a ih =>
        rw [run_snoc]
        exact ready_step env (ih fun c hc => hsql c (List.mem_append_left _ hc)) (hsql a (by simp))
  exact ⟨apart_run env (apart_boot b) as, sound_runs env b as i, begun_runs env b as i, hready, hv⟩

/-- The client of a connection whose responses have all been read. -/
theorem inStep_dialled (site : Site) (b : Boot) {as : List Arrival}
    (hsql : ∀ a ∈ as, a.out.SqlWorks)
    (hverified : ((b.system.run site.env as).sessions site.connection).handshake.verified = true)
    (hidle : ((b.system.run site.env as).sessions site.connection).transfer = {})
    {w : ClientWorld Line} (hpeer : w.peer = dialled site (b.system.run site.env as))
    (hincoming : w.incoming = []) :
    InStep site w ∧ site.settled w = ⟨b.system.run site.env as, []⟩ := by
  have hsettled : site.settled w = ⟨b.system.run site.env as, []⟩ := by
    rw [Site.settled, hpeer]
    rfl
  refine ⟨⟨⟨?_, ?_, ?_⟩, ?_, ?_⟩, hsettled⟩
  · rw [hpeer]
    exact healthy_reachable site.env b hsql hverified
  · rw [hincoming, hpeer]
    exact (congrArg List.flatten (List.drop_length ..)).symm
  · rw [hpeer]
    exact Nat.le_refl _
  · rw [Site.unread, hsettled, hpeer]
    exact List.drop_length ..
  · rw [hsettled]
    exact hidle

/-! ### One call -/

/-- Between two states the client has read the first responses to the frames that it has
written in between. -/
def ReadsOwn (site : Site) (w w' : ClientWorld Line) : Prop :=
  ∃ fs later, Site.framesRead w'.trace = Site.framesRead w.trace ++ fs ∧
    site.sent (site.settled w') = site.sent (site.settled w) ++ (fs.map Site.frameBytes ++ later)

/-- The call has read exactly the responses to its own frames, none is left unread, and
the next call on the connection reads only responses to its own frames. -/
structure Matched (site : Site) (client : ClientEnv Unit) (w w' : ClientWorld Line) : Prop where
  own : ∃ fs, Site.framesRead w'.trace = Site.framesRead w.trace ++ fs ∧
    site.sent (site.settled w') = site.sent (site.settled w) ++ fs.map Site.frameBytes
  all : site.unread w' = []
  next : ∀ aesKey path ok w'', Named (normalizeUserPathInput path) →
    sendSingleFile (site.link client) true aesKey path w' = (.ok ok, w'') →
    w''.peer.hungUp = false → ReadsOwn site w' w''

theorem readsOwn_of_goes {site : Site} {w w' : ClientWorld Line} (h : InStep site w)
    (hg : site.Goes w w') : ReadsOwn site w w' := by
  have hall : site.heardSoFar w = site.sent (site.settled w) :=
    List.take_of_length_le (List.drop_eq_nil_iff.mp h.unread)
  obtain ⟨fs, hfs, hheard⟩ := hg.reads
  refine ⟨fs, site.unread w', hfs, ?_⟩
  rw [← List.append_assoc, ← hall, ← hheard]
  exact (List.take_append_drop ..).symm

theorem matched_iff {site : Site} {client : ClientEnv Unit} (hsite : site.Steady)
    (hc : Dependable client) {w w' : ClientWorld Line} (h : InStep site w) (hd : Done site w w') :
    Matched site client w w' ↔ site.unread w' = [] := by
  refine ⟨fun hm => hm.all, fun hnone => ⟨(unread_nil_iff h hd.goes).mpr hnone, hnone, ?_⟩⟩
  intro aesKey path ok w'' hpath hcall hopen
  have hin : InStep site w' := ⟨hd.goes.attuned, hnone, hd.transfer⟩
  exact readsOwn_of_goes hin (done_of_call hsite hc hpath hin hcall hopen).goes

/-- Packets that come when the server cannot open its files. -/
def refusedFiles : Outside := { calm with fileRaises := fun _ => true }

/-- A server that cannot open the file of packet 1. -/
def fullDisk : Site where
  env := plainEnv
  connection := 0
  others _ := []
  out n := if n = 1 then refusedFiles else calm
  pace n := n % 2

/-- A server that takes no file of 8192 bytes. -/
def strict : Site where
  env := { plainEnv with config := { maxFileSize := 8191 } }
  connection := 0
  others _ := []
  out _ := calm
  pace n := n % 2

/-- The frames of the handshake of connection 0. -/
def shaken : List Arrival := (aliceUpload.take 2).map (onConnection 0)

/-- The client of connection 0 after the handshake; its file has 8192 bytes. -/
def lineTo (site : Site) : ClientWorld Line where
  cc := { clientId := aliceUuid }
  files path := if path = utf8Encode "docs/f" then some (List.replicate 8192 65) else none
  incoming := []
  peer := dialled site (aliceBoot.system.run site.env shaken)
  trace := []
  calls := 0

/-- After the file. -/
def lineAfter (site : Site) : ClientWorld Line :=
  (sendSingleFile (site.link aliceClient) true aliceKeyText (utf8Encode "docs/f") (lineTo site)).2

theorem run_eq {σ ε α : Type} {run : Except ε α × σ} {a : α} (h : run.1 = .ok a) :
    run = (.ok a, run.2) := by rw [← h]

theorem lineAfter_eq {site : Site} {ok : Bool}
    (h : (sendSingleFile (site.link aliceClient) true aliceKeyText (utf8Encode "docs/f")
      (lineTo site)).1 = .ok ok) :
    sendSingleFile (site.link aliceClient) true aliceKeyText (utf8Encode "docs/f") (lineTo site) =
      (.ok ok, lineAfter site) := by
  rw [lineAfter]
  exact run_eq h

theorem works_shaken : ∀ a ∈ shaken, a.out.SqlWorks := by
  intro a ha
  obtain ⟨e, he, rfl⟩ := List.mem_map.mp ha
  simp only [aliceUpload, List.take_succ_cons, List.take_zero, List.mem_cons, List.not_mem_nil,
    or_false] at he
  rcases he with rfl | rfl
  · exact fun _ => rfl
  · exact fun _ => rfl

theorem named_docs : Named (normalizeUserPathInput (utf8Encode "docs/f")) :=
  ⟨by decide +kernel, by decide +kernel⟩

theorem dependable_alice : Dependable aliceClient :=
  ⟨⟨fun _ => rfl, fun _ => rfl⟩, fun _ _ => ⟨_, zeroKeyAes_inverts⟩⟩

/-- The client and the server on one connection, with any number of others: for every
batch of files and every pace, if no packet before the last two of its file has been
answered so far and the next call returns with the line open, then the call has read
exactly the responses to its own frames if and only if none of its packets before the last
two has been answered. -/
theorem uploads_in_step (site : Site) (client : ClientEnv Unit) (hsite : site.Steady)
    (hc : Dependable client) (b : Boot) (as : List Arrival) (hsql : ∀ a ∈ as, a.out.SqlWorks)
    (hverified : ((b.system.run site.env as).sessions site.connection).handshake.verified = true)
    (hidle : ((b.system.run site.env as).sessions site.connection).transfer = {})
    (w₀ w₁ w₂ : ClientWorld Line) (hpeer : w₀.peer = dialled site (b.system.run site.env as))
    (hincoming : w₀.incoming = []) (aesKey path : Bytes) (paths : List Bytes)
    (hnames : ∀ p ∈ path :: paths, Named (normalizeUserPathInput p)) (exitCode : ℕ) (ok : Bool)
    (hbatch : sendFiles (site.link client) aesKey paths 0 w₀ = (.ok exitCode, w₁))
    (hcall : sendSingleFile (site.link client) true aesKey path w₁ = (.ok ok, w₂))
    (hopen : w₂.peer.hungUp = false) (hsofar : EarlyQuiet site (site.settled w₁).visits) :
    (∃ fs, Site.framesRead w₂.trace = Site.framesRead w₁.trace ++ fs ∧
      site.sent (site.settled w₂) = site.sent (site.settled w₁) ++ fs.map Site.frameBytes) ↔
    EarlyQuiet site ((site.settled w₂).visits.drop (site.settled w₁).visits.length) := by
  obtain ⟨hstart, -⟩ := inStep_dialled site b hsql hverified hidle hpeer hincoming
  have honward := Site.onward_sendSingleFile site client true aesKey path w₁
  rw [hcall] at honward
  have hup : w₁.peer.hungUp = false := by
    by_contra hdown
    rw [honward.down (by simpa using hdown)] at hopen
    cases hopen
  have hin := inStep_sendFiles hsite hc (fun p hp => hnames p (List.mem_cons_of_mem _ hp))
    hstart hbatch
    hup hsofar
  have hdone := done_of_call hsite hc (hnames path List.mem_cons_self) hin hcall hopen
  obtain ⟨vs, hvs, hiff⟩ := hdone.quiet
  rw [unread_nil_iff hin hdone.goes, show _ = _ from hvs, List.drop_left, hiff, Nat.le_zero,
    List.length_eq_zero_iff]

/-! ### Two files in a row -/

/-- A server that sometimes lags behind. -/
def aliceSite : Site where
  env := plainEnv
  connection := 0
  others _ := []
  out _ := calm
  pace n := n % 2

/-- The client of connection 0 after the handshake. -/
def aliceLine : ClientWorld Line where
  cc := { clientId := aliceUuid }
  files := aliceFiles.files
  incoming := []
  peer := dialled aliceSite
    (aliceBoot.system.run plainEnv ((aliceUpload.take 2).map (onConnection 0)))
  trace := []
  calls := 0

/-- After the first file. -/
def aliceOnce : ClientWorld Line :=
  (sendFiles (aliceSite.link aliceClient) aliceKeyText [utf8Encode "docs/f"] 0 aliceLine).2

/-- After the second. -/
def aliceTwice : ClientWorld Line :=
  (sendSingleFile (aliceSite.link aliceClient) true aliceKeyText (utf8Encode "docs/f") aliceOnce).2

/-- Both calls read a checksum and a confirmation, four responses in all. -/
theorem uploads_in_step_alice : (Site.framesRead aliceTwice.trace).map ResponseFrame.code =
      [1603, 1604, 1603, 1604] ∧
    ∃ fs, Site.framesRead aliceTwice.trace = Site.framesRead aliceOnce.trace ++ fs ∧
      aliceSite.sent (aliceSite.settled aliceTwice) =
        aliceSite.sent (aliceSite.settled aliceOnce) ++ fs.map Site.frameBytes := by
  obtain ⟨hcodes, hfirst, hsecond, hopen, honce, htwice⟩ :
      (Site.framesRead aliceTwice.trace).map ResponseFrame.code = [1603, 1604, 1603, 1604] ∧
      (sendFiles (aliceSite.link aliceClient) aliceKeyText [utf8Encode "docs/f"] 0 aliceLine).1 =
        .ok 0 ∧ (sendSingleFile (aliceSite.link aliceClient) true aliceKeyText (utf8Encode "docs/f")
        aliceOnce).1 = .ok true ∧ aliceTwice.peer.hungUp = false ∧
      EarlyQuiet aliceSite (aliceSite.settled aliceOnce).visits ∧
      EarlyQuiet aliceSite ((aliceSite.settled aliceTwice).visits.drop
        (aliceSite.settled aliceOnce).visits.length) := by
    decide +kernel
  refine ⟨hcodes, (uploads_in_step aliceSite aliceClient
    ⟨fun _ _ h => (List.not_mem_nil h).elim, fun _ => ⟨fun _ => rfl, fun _ => rfl⟩⟩
    dependable_alice aliceBoot shaken works_shaken (by decide +kernel) (by decide +kernel) aliceLine
    aliceOnce aliceTwice rfl rfl aliceKeyText (utf8Encode "docs/f") [utf8Encode "docs/f"] ?_
      0 true ?_ ?_
    hopen honce).mpr htwice⟩
  · intro p hp
    simp only [List.mem_cons, List.not_mem_nil, or_false, or_self] at hp
    subst hp
    exact named_docs
  · rw [aliceOnce]
    exact run_eq hfirst
  · rw [aliceTwice]
    exact run_eq hsecond

end Seftp.ResponseSync
