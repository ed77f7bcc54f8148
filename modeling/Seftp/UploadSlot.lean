import Seftp.UploadStages

/-!
# The slot and the active upload

A session holds a slot exactly while an upload is active, as long as no frame
makes the router reset an active upload. Its resets, after a frame it cannot read
or place and after an exception, leave the slot with the session.
-/
namespace Seftp.UploadSlot
open LittleEndian ExceptState OutsideWorld BlockChaining Checksum Text Protocol ClientStore
open StoreFrames ServerSession Answers SessionFrames AccountHandlers UploadHandlers HandlerFrames
open UploadSteps ChunkSteps AccountSteps FrameSteps Router HandshakeGate UploadStages

/-- A slot is held exactly by an active upload. -/
def SlotMatches (w : World) : Prop :=
  w.session.hasUploadSlot = true ↔ w.session.transfer.uploadActive = true

/-- A frame during an active upload is well formed, has a known code and does not
raise; nor does a first packet that gets as far as taking a slot. -/
structure SlotSafe (env : Env) (w : World) (e : Event) : Prop where
  active : 17 ≤ e.2.length → w.session.transfer.uploadActive = true →
    wellFormed e.2 = true ∧ Known (parseFrame e.2).code ∧ Orderly ⟨env, e.1⟩ e.2 w
  first : 17 ≤ e.2.length → wellFormed e.2 = true → (parseFrame e.2).code = 828 →
    ∀ p t, Begins ⟨env, e.1⟩ (parseFrame e.2).clientId (parseFrame e.2).payload w p t →
      Orderly ⟨env, e.1⟩ e.2 w

section
variable {ctx : Ctx} {frame clientId version payload : Bytes} {p : Packet} {w w' u : World}

theorem slotMatches_reset (ht : w.session.transfer = {}) (hs : w.session.hasUploadSlot = false) :
    SlotMatches w := by
  simp [SlotMatches, ht, hs]

theorem slotMatches_holds (h : SlotMatches w) (hh : Holds w w') : SlotMatches w' := by
  unfold SlotMatches
  rw [hh.active, hh.slot]
  exact h

theorem holds_account {env : Env} (h : AccountOnly env w w') : Holds w w' :=
  ⟨congrArg Transfer.uploadActive h.transfer, h.slot⟩

/-- An accepted packet keeps the slot and the active flag. -/
theorem holds_accepts {env : Env} (h : Accepts env clientId version p w w') : Holds w w' := by
  rcases h with ⟨-, ts, cipher, out, tail, -, hd⟩ | ⟨-, x, ⟨ts, cipher, out, tail, -, hd⟩, hfin⟩
  · exact hd.holds rfl rfl
  · obtain ⟨tmp, path, -, hsaid⟩ := hfin
    have hx : Holds w x := hd.holds rfl rfl
    refine hx.trans ⟨?_, ?_⟩
    · exact congrArg (fun c => c.transfer.uploadActive) hsaid.core_eq
    · exact congrArg Core.hasUploadSlot hsaid.core_eq

theorem slotMatches_admits (h : SlotMatches w) (ha : Admits ctx clientId version p w w') :
    SlotMatches w' := by
  cases ha with
  | announced t hnum hiv hd =>
      refine slotMatches_holds h (hd.holds ?_ rfl)
      unfold acceptIv at hiv
      split_ifs at hiv
      cases hiv
      rfl
  | declined r hnum hiv hplain href => exact slotMatches_reset href.transfer href.slot
  | failed r hnum hfail href => exact slotMatches_reset href.transfer href.slot
  | busy hnum hcheck hbusy => exact slotMatches_reset hbusy.transfer hbusy.slot
  | unrecorded hnum hcheck hdown => exact slotMatches_reset hdown.transfer hdown.slot
  | began x hnum hcheck hstart haccept =>
      obtain ⟨ts, time, limiter, hd⟩ := hstart.does
      have hx : SlotMatches x := by
        have hslot : x.session.hasUploadSlot = true := congrArg Core.hasUploadSlot hd.core_eq
        have hactive : x.session.transfer.uploadActive = true :=
          congrArg (fun c => c.transfer.uploadActive) hd.core_eq
        simp [SlotMatches, hslot, hactive]
      exact slotMatches_holds hx (holds_accepts haccept)
  | restarted x r hnum hcheck hstart hfail href => exact slotMatches_reset href.transfer href.slot
  | taken hnum hcheck haccept => exact slotMatches_holds h (holds_accepts haccept)

theorem slotMatches_uploads (h : SlotMatches w) (hu : Uploads ctx clientId version payload w w') :
    SlotMatches w' := by
  cases hu with
  | unparsed r hparse hplain href => exact slotMatches_reset href.transfer href.slot
  | unbound p r hparse hbind hplain href => exact slotMatches_reset href.transfer href.slot
  | foreign p hparse hid hother href => exact slotMatches_reset href.transfer href.slot
  | header p t text hparse hbind hheader habandon =>
      exact slotMatches_reset habandon.transfer habandon.slot
  | admitted p t x hparse hbind hown hheader hd hadmits =>
      exact slotMatches_admits (slotMatches_holds h (hd.holds (bindUpload_same hbind).active rfl))
        hadmits

/-- A frame handled without a raise, where the router resets no active upload. -/
theorem slotMatches_routed (h : SlotMatches w) (hr : Routed ctx frame w w')
    (hsafe : w.session.transfer.uploadActive = true →
      wellFormed frame = true ∧ Known (parseFrame frame).code) : SlotMatches w' := by
  cases hr with
  | aside hform hcode hstep => exact slotMatches_holds h (holds_account hstep)
  | ignored hform hcode hactive hstep => exact slotMatches_holds h (holds_account hstep)
  | malformed hform hstep =>
      have hinactive : ¬ w.session.transfer.uploadActive = true := by
        intro ha
        have := (hsafe ha).1
        rw [hform] at this
        cases this
      refine slotMatches_reset hstep.transfer (hstep.slot.trans ?_)
      simpa using mt h.mp hinactive
  | unknown hform hcode hactive hstep => exact (hcode (hsafe hactive).2).elim
  | upload hform hcode hstep => exact slotMatches_uploads h hstep
  | complete hform hcode hstep =>
      rcases hstep with h | h
      · obtain ⟨name, row, path, crc, time, -, -, -, -, -, hset⟩ := h.completed
        exact slotMatches_reset hset.transfer hset.slot
      · exact slotMatches_reset h.1.transfer h.1.slot
  | mismatch hform hcode hstep =>
      rcases hstep with ⟨⟨time, hset⟩, -⟩ | h
      · exact slotMatches_reset hset.transfer hset.slot
      · exact slotMatches_reset h.transfer h.slot
  | giveUp hform hcode hstep =>
      rcases hstep with ⟨⟨time, hset⟩, -⟩ | h
      · exact slotMatches_reset hset.transfer hset.slot
      · exact slotMatches_reset h.transfer h.slot

/-- A raise that no first packet has taken a slot before leaves both as they were. -/
theorem broke_holds (h : Broke ctx frame w u)
    (hfirst : ∀ p t, wellFormed frame = true → (parseFrame frame).code = 828 →
      ¬ Begins ctx (parseFrame frame).clientId (parseFrame frame).payload w p t) : Holds w u := by
  cases h with
  | aside hstep => exact holds_account hstep
  | confirm hcode hstep hkept => exact hstep.holds
  | upload hform hcode hstep =>
      cases hstep with
      | bound ht hslot hcause =>
          rcases ht with ht | ht
          · exact ⟨congrArg Transfer.uploadActive ht, hslot⟩
          · exact ⟨(bindUpload_same ht).active, hslot⟩
      | going hstep k hk hexpected => exact hstep
      | begun p t hbegins hactive hslot => exact (hfirst p t hform hcode hbegins).elim

theorem slotMatches_steps {env : Env} {e : Event} (hstage : Stage (SessionFrames.core w))
    (h : SlotMatches w) (hs : Steps ⟨env, e.1⟩ e.2 w w') (hsafe : SlotSafe env w e) :
    SlotMatches w' := by
  cases hs with
  | locked hv ht hstep =>
      refine slotMatches_holds h ⟨?_, ?_⟩
      · exact congrArg (fun c => c.transfer.uploadActive) hstep.core_eq
      · exact congrArg Core.hasUploadSlot hstep.core_eq
  | handled hv hstep =>
      cases hstep with
      | short hlen hstep => exact slotMatches_holds h (untouched_of_core hstep.core_eq).holds
      | routed hlen hstep =>
          have hnote : SlotMatches (noteIdentity (parseFrame e.2) w) := h
          exact slotMatches_routed hnote hstep fun ha =>
            ⟨(hsafe.active hlen ha).1, (hsafe.active hlen ha).2.1⟩
      | raised hlen u hbroke hcause hend =>
          -- no active upload and no first packet: both would make the frame return
          have horderly (hc : Orderly ⟨env, e.1⟩ e.2 w) : False :=
            hcause (smooth_of_orderly hstage (orderly_note hc))
          have hinactive : w.session.transfer.uploadActive = false := by
            by_contra ha
            exact horderly (hsafe.active hlen (by simpa using ha)).2.2
          have hhold : Holds w u := by
            have hb := broke_holds hbroke fun p t hform hcode hbegins =>
              horderly (hsafe.first hlen hform hcode p t ⟨hbegins.parses, hbegins.binds,
                hbegins.owns, hbegins.header, hbegins.first, hbegins.check, hbegins.canTake⟩)
            exact ⟨hb.active, hb.slot⟩
          cases hend with
          | dropped hactive hdrop =>
              rw [hhold.active, hinactive] at hactive
              cases hactive
          | kept hactive hkept =>
              exact slotMatches_holds h (hhold.trans (untouched_of_core hkept).holds)

end

/-- In every run whose frames are safe, after each frame the session holds a slot
exactly if its upload is active. -/
theorem slot_matches_active (env : Env) (connectionId : String) (now : ℚ) (store : Store)
    (files : FileSystem) (limiter : UploadLimiter) (es : List Event)
    (hsafe : Along env (SlotSafe env) (freshWorld connectionId now store files limiter) es)
    (pre post : List Event) (hes : es = pre ++ post) :
    SlotMatches (runFrames env pre (freshWorld connectionId now store files limiter)) := by
  subst hes
  have hpre := along_append_left hsafe
  clear hsafe
  have hsound := sound_freshWorld connectionId now store files limiter
  induction pre using List.reverseRecOn with
  | nil => exact slotMatches_reset rfl rfl
  | append_singleton pre e ih =>
      obtain ⟨hall, hlast⟩ := along_snoc.mp hpre
      exact slotMatches_steps (stage_run hsound rfl pre) (ih hall) (run_steps hsound pre e) hlast

/-! ### A session of one client -/

/-- Ciphertext and plaintext blocks of AES-256 under the key of 32 zero bytes: those
that the runs here and later meet. -/
def zeroKeyBlocks : List (Bytes × Bytes) :=
  [([117, 12, 234, 78, 117, 211, 0, 187, 226, 6, 96, 104, 113, 179, 59, 44],
    [104, 41, 111, 96, 101, 108, 41, 102, 111, 41, 56, 62, 41, 107, 112, 125]),
   ([111, 122, 171, 210, 107, 39, 142, 50, 50, 8, 19, 140, 206, 22, 200, 226],
    [16, 3, 229, 65, 122, 220, 15, 180, 237, 9, 111, 103, 126, 188, 52, 35]),
   (List.replicate 16 65,
    [249, 157, 198, 190, 250, 31, 31, 238, 11, 240, 80, 44, 73, 117, 44, 118])]

/-- The cipher on these blocks, in both directions. -/
def zeroKeyAes (block : Bytes) : Bytes :=
  match zeroKeyBlocks.find? (·.1 = block) with
  | some pair => pair.2
  | none =>
      match zeroKeyBlocks.find? (·.2 = block) with
      | some pair => pair.1
      | none => block

/-- Signatures of no bytes are enough here. -/
def plainEnv : Env where
  config := {}
  rsaImport _ := none
  oaepEncrypt _ _ := none
  signTranscript _ := some []
  serverPublicKeyDer := []
  aesDecrypt _ block := zeroKeyAes block
  isAlnum c := c.isAlphanum
  repr s := s

def aliceId : Bytes := List.replicate 16 1

/-- A client whose AES key is 32 zero bytes. -/
def alice : ClientRecord where
  clientIdHex := hex aliceId
  username := "alice"
  publicKeyDer := none
  aesKeyB64 := some "AAAAAAAAAAAAAAAAAAAAAAAAAAAAAAAAAAAAAAAAAAA="
  createdAt := ""
  lastSeen := ""

def aliceDb : Database where
  clients := [alice]
  uploads := []
  ids_unique := by simp
  usernames_unique := by simp
  upload_ids_unique := Database.empty.upload_ids_unique
  owners_exist := by simp

def aliceWorld : World :=
  freshWorld "c1" 0 (Store.initialized aliceDb)
    { entry := fun _ => none, content := fun _ => [], nextInode := 0, calls := 0 }
    { maxConcurrentUploads := 10, positive := by decide, activeUploads := 0, bounded := by decide }

/-- A request of that client. -/
def aliceRequest (code : ℕ) (payload : Bytes) : Event :=
  (calm, aliceId ++ [3] ++ leBytes 2 code ++ leBytes 4 payload.length ++ payload)

/-- Packet `num` of two for the file `f` of 17 bytes. -/
def alicePacket (num : ℕ) (chunk : Bytes) : Event :=
  aliceRequest 828 (leBytes 4 32 ++ leBytes 4 17 ++ leBytes 2 num ++ leBytes 2 2 ++
    utf8Encode "f" ++ [0] ++ chunk)

/-- The handshake, the IV and the first of two ciphertext packets. -/
def aliceUpload : List Event :=
  [aliceRequest 829 ([1] ++ List.replicate 32 5 ++ [0]), aliceRequest 830 [],
    alicePacket 0 (List.replicate 16 9), alicePacket 1 (List.replicate 16 65)]

/-- The ciphertext of a file of 17 bytes, in two packets. -/
def firstChunk : Bytes := [117, 12, 234, 78, 117, 211, 0, 187, 226, 6, 96, 104, 113, 179, 59, 44]

def lastChunk : Bytes := [111, 122, 171, 210, 107, 39, 142, 50, 50, 8, 19, 140, 206, 22, 200, 226]

/-- The handshake and all packets of `f`. -/
def wholeUpload : List Event :=
  aliceUpload.take 3 ++ [alicePacket 1 firstChunk, alicePacket 2 lastChunk]

/-- A frame that finds no active upload and is no first packet needs no care. -/
theorem slotSafe_idle {env : Env} {w : World} {e : Event}
    (ha : w.session.transfer.uploadActive = false)
    (hp : (parse828 (parseFrame e.2).payload).toOption.all (·.packetNum ≠ 1) = true) :
    SlotSafe env w e where
  active _ h := by
    rw [ha] at h
    cases h
  first _ _ _ p t hb := by
    rw [hb.parses] at hp
    simp [Except.toOption, hb.first] at hp

/-- The state before the first ciphertext packet. -/
def aliceAnnounced : World := runFrames plainEnv (aliceUpload.take 3) aliceWorld

/-- The first ciphertext packet as the server reads it. -/
def aliceFirst : Packet :=
  { contentSize := 32, origFileSize := 17, packetNum := 1, totalPackets := 2, fileName := "f",
    cipherChunk := List.replicate 16 65 }

/-- What it takes for a packet not to raise. -/
theorem orderly_packet {w : World} {frame : Bytes} {p : Packet}
    (hanswering : Answering ⟨plainEnv, calm⟩ w (parseFrame frame).clientId
      (parseFrame frame).version)
    (hcode : (parseFrame frame).code = 828) (hparse : parse828 (parseFrame frame).payload = .ok p)
    (hname : (utf8Encode p.fileName).length < 2 ^ 31)
    (hstarts : ∀ t, Begins ⟨plainEnv, calm⟩ (parseFrame frame).clientId (parseFrame frame).payload w
      p t → Starts ⟨plainEnv, calm⟩ (parseFrame frame).clientId p
        { SessionFrames.core w with transfer := t }) : Orderly ⟨plainEnv, calm⟩ frame w := by
  have hother {code : ℕ} (hne : 828 ≠ code) : (parseFrame frame).code ≠ code := by
    rw [hcode]
    exact hne
  refine ⟨hanswering, fun h => (hother (by decide) h).elim, fun h => (hother (by decide) h).elim,
    fun h => (hother (by decide) h).elim, fun _ _ => rfl, ?_, ?_, ?_⟩
  · intro _ q hq
    cases hparse.symm.trans hq
    exact hname
  · intro _ q t hb
    cases hparse.symm.trans hb.parses
    exact hstarts t hb
  · rw [hcode]
    exact fun h => absurd h (by decide)

theorem firstChunk_orderly :
    Orderly ⟨plainEnv, calm⟩ (alicePacket 1 firstChunk).2 aliceAnnounced := by
  have hbound : aliceAnnounced.session.transfer.uploadClientIdHex.isSome = true := by
    decide +kernel
  refine orderly_packet (p := { aliceFirst with cipherChunk := firstChunk })
    ⟨fun _ => rfl, fun _ => rfl, ?_, ?_, ?_⟩ ?_ ?_ ?_ ?_
  · unfold StoreFrames.Core.Indexed
    decide +kernel
  · decide +kernel
  · decide +kernel
  · decide +kernel
  · decide +kernel
  · decide +kernel
  · intro t hb
    have ht : t = aliceAnnounced.session.transfer := by
      rcases bindUpload_ok hb.binds with ⟨-, h⟩ | ⟨h, -⟩
      · exact h
      · rw [h] at hbound
        cases hbound
    subst ht
    refine ⟨⟨fun _ => rfl, ?_, ?_⟩, ?_⟩
    · unfold NameFits
      decide +kernel
    · unfold AesKeyLength
      decide +kernel
    · unfold Owned
      decide +kernel

/-- The state in which the last packet finds the upload active. -/
def aliceStreaming : World := runFrames plainEnv (wholeUpload.take 4) aliceWorld

theorem aliceStreaming_active : (StoreFrames.core aliceStreaming.store).Indexed ∧
    aliceStreaming.session.transfer.uploadActive = true := by
  unfold StoreFrames.Core.Indexed
  decide +kernel

theorem lastChunk_orderly :
    Orderly ⟨plainEnv, calm⟩ (alicePacket 2 lastChunk).2 aliceStreaming := by
  refine orderly_packet (p := { aliceFirst with packetNum := 2, cipherChunk := lastChunk })
    ⟨fun _ => rfl, fun _ => rfl, aliceStreaming_active.1, ?_, ?_⟩ ?_ ?_ ?_ fun t hb => ?_
  · decide +kernel
  · decide +kernel
  · decide +kernel
  · decide +kernel
  · decide +kernel
  · cases hb.first

/-- The upload with the client's confirmation. -/
def confirmedFrames : List Event := wholeUpload ++ [aliceRequest 900 (utf8Encode "f")]

/-- The state in which it finds the upload active. -/
def aliceWritten : World := runFrames plainEnv wholeUpload aliceWorld

theorem aliceWritten_active : (StoreFrames.core aliceWritten.store).Indexed ∧
    aliceWritten.session.transfer.uploadActive = true := by
  unfold StoreFrames.Core.Indexed
  decide +kernel

theorem confirmation_orderly :
    Orderly ⟨plainEnv, calm⟩ (aliceRequest 900 (utf8Encode "f")).2 aliceWritten := by
  have hcode : (parseFrame (aliceRequest 900 (utf8Encode "f")).2).code = 900 := by decide +kernel
  have hother {code : ℕ} (hne : 900 ≠ code) :
      (parseFrame (aliceRequest 900 (utf8Encode "f")).2).code ≠ code := by
    rw [hcode]
    exact hne
  refine ⟨⟨fun _ => rfl, fun _ => rfl, aliceWritten_active.1, ?_, ?_⟩,
    fun h => (hother (by decide) h).elim, fun h => (hother (by decide) h).elim,
    fun h => (hother (by decide) h).elim, fun h => (hother (by decide) h).elim,
    fun h => (hother (by decide) h).elim, fun h => (hother (by decide) h).elim, fun _ => ?_⟩
  · decide +kernel
  · decide +kernel
  · exact ⟨"f", by decide +kernel⟩

/-- The first ciphertext packet and the frames after it need care, and they get it. -/
theorem confirmedFrames_safe : Along plainEnv (SlotSafe plainEnv) aliceWorld confirmedFrames := by
  refine ⟨slotSafe_idle rfl (by decide +kernel), slotSafe_idle (by decide +kernel)
    (by decide +kernel), slotSafe_idle (by decide +kernel) (by decide +kernel),
    ⟨fun _ ha => ?_, fun _ _ _ _ _ _ => firstChunk_orderly⟩,
    ⟨fun _ _ => ⟨?_, ?_, lastChunk_orderly⟩, fun _ _ _ _ _ _ => lastChunk_orderly⟩,
    ⟨fun _ _ => ⟨?_, ?_, confirmation_orderly⟩, fun _ _ _ _ _ _ => confirmation_orderly⟩, trivial⟩
  · exact absurd ha (by decide +kernel)
  · decide +kernel
  · decide +kernel
  · decide +kernel
  · decide +kernel

/-- Two frames find the upload active and its slot held, and the last one ends both. -/
theorem slot_matches_active_alice :
    Along plainEnv (SlotSafe plainEnv) aliceWorld confirmedFrames ∧
      (aliceStreaming.session.transfer.uploadActive = true ∧ SlotMatches aliceStreaming) ∧
      (aliceWritten.session.transfer.uploadActive = true ∧ SlotMatches aliceWritten) ∧
      (runFrames plainEnv confirmedFrames aliceWorld).session.transfer.uploadActive = false ∧
      SlotMatches (runFrames plainEnv confirmedFrames aliceWorld) := by
  have hall (n : ℕ) : SlotMatches (runFrames plainEnv (confirmedFrames.take n) aliceWorld) :=
    slot_matches_active _ _ _ _ _ _ _ confirmedFrames_safe _ (confirmedFrames.drop n)
      (List.take_append_drop n _).symm
  exact ⟨confirmedFrames_safe, ⟨aliceStreaming_active.2, hall 4⟩, ⟨aliceWritten_active.2, hall 5⟩,
    by decide +kernel, hall 6⟩

/-- A frame with an unknown code during an upload: the transfer is reset and the
slot is kept. -/
theorem slot_kept_after_unknown_code :
    ¬ SlotMatches (runFrames plainEnv (aliceUpload ++ [aliceRequest 999 []]) aliceWorld) := by
  unfold SlotMatches
  decide +kernel

end Seftp.UploadSlot
