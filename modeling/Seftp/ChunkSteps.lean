import Seftp.UploadSteps

/-!
# What a ciphertext packet and a confirmation do

A packet that passes the checks is decrypted, the part that cannot be padding is
appended to the temporary file, and the last packet moves the file to its final
name. The specifications below give the transfer and the files exactly; a raise
leaves the active flag and the slot as they were.
-/
namespace Seftp.ChunkSteps
open LittleEndian ExceptState OutsideWorld BlockChaining Checksum Text Protocol ClientStore
open StoreFrames ServerSession Answers SessionFrames AccountHandlers UploadHandlers HandlerFrames
open UploadSteps

/-! ### Decryption -/

/-- The bytes appended to the open file. -/
def appended (file : Option ℕ) (out : Bytes) (fs : FileSystem) : FileSystem :=
  match file with
  | none => fs
  | some inode => bare (fs.append inode out)

theorem appended_entry (file : Option ℕ) (out : Bytes) (fs : FileSystem) :
    (appended file out fs).entry = fs.entry := by
  unfold appended
  split <;> rfl

/-- Plaintext that has been written, on cores. -/
def wrote (out : Bytes) (c : SessionFrames.Core) : SessionFrames.Core :=
  { c with
    transfer := { c.transfer with
      uploadPlainBytesWritten := c.transfer.uploadPlainBytesWritten + out.length
      uploadCrc32State := crc32 out c.transfer.uploadCrc32State }
    files := appended c.transfer.uploadTmpFile out c.files }

section
variable {ctx : Ctx} {w : World} {clientId version : Bytes}

theorem append_nil (fs : FileSystem) (inode : ℕ) : fs.append inode [] = fs := by
  simp [FileSystem.append, Function.update_eq_self]

theorem wrote_nil : wrote [] (SessionFrames.core w) = SessionFrames.core w := by
  have hfiles : appended w.session.transfer.uploadTmpFile [] (bare w.files) = bare w.files := by
    rcases hf : w.session.transfer.uploadTmpFile with _ | inode
    · rfl
    · rw [appended, append_nil]
      rfl
  simp only [wrote, SessionFrames.core, List.length_nil, Nat.add_zero, crc32_nil, hfiles]

theorem wp_writePlainStream (plain : Bytes) :
    wp (writePlainStream ctx plain)
      (fun _ u => (plain ≠ [] → w.session.transfer.uploadTmpFile.isSome) ∧ Does (wrote plain) w u)
      (fun e u => Does id w u ∧ (∀ text, e ≠ .value text) ∧
        ¬ (ctx.out.FilesWork ∧ w.session.transfer.uploadTmpFile.isSome)) w := by
  unfold writePlainStream
  split_ifs with hnil
  · rw [wp_pure, hnil]
    exact ⟨fun h => (h rfl).elim, wrote_nil.symm, rfl⟩
  rw [wp_bind, wp_look]
  rcases hfile : w.session.transfer.uploadTmpFile with _ | inode
  · simp only [wp_raise]
    exact ⟨⟨rfl, rfl⟩, fun text => by simp, by simp⟩
  · apply wp_seq (wp_onFileCall fun _ => ⟨rfl, rfl⟩)
    · rintro _ u ⟨-, hu⟩
      apply wp_mono (wp_onTransfer _)
      · intro _ v hv
        have hdone := hu.trans hv
        refine ⟨fun _ => rfl, hdone.core_eq.trans ?_, hdone.sent⟩
        have hf : (SessionFrames.core w).transfer.uploadTmpFile = some inode := hfile
        rw [wrote, hf]
        rfl
      · exact fun _ _ h => h.elim
    · rintro e u ⟨hu, rfl, hno⟩
      exact ⟨hu, fun text => by simp, fun h => hno h.1⟩

/-- What is written now and what stays behind; `none` is bad padding. -/
def splitPlain (isLast : Bool) (combined : Bytes) : Option (Bytes × Bytes) :=
  if isLast then (unpad 16 combined).map (·, []) else some (holdBack combined)

/-- A chunk that decrypts to `out`, with `tail` held back. -/
structure Decrypts (env : Env) (chunk : Bytes) (isLast : Bool) (t : Transfer)
    (cipher : DecryptCipher) (out tail : Bytes) : Prop where
  cipher_eq : t.uploadDecryptCipher = some cipher
  nonempty : chunk ≠ []
  aligned : 16 ∣ chunk.length
  split : splitPlain isLast (t.uploadPlainTail ++
    cbcDecrypt (env.aesDecrypt cipher.key) 16 cipher.chain chunk) = some (out, tail)
  file : out ≠ [] → t.uploadTmpFile.isSome

theorem Decrypts.unique {env : Env} {chunk : Bytes} {isLast : Bool} {t : Transfer}
    {cipher cipher' : DecryptCipher} {out out' tail tail' : Bytes}
    (h : Decrypts env chunk isLast t cipher out tail)
    (h' : Decrypts env chunk isLast t cipher' out' tail') : out = out' := by
  obtain rfl : cipher = cipher' := Option.some.inj (h.cipher_eq.symm.trans h'.cipher_eq)
  have hsame := Option.some.inj (h.split.symm.trans h'.split)
  exact congrArg Prod.fst hsame

/-- The chunk is whole blocks and, if it is the last one, properly padded. -/
def Decryptable (env : Env) (chunk : Bytes) (isLast : Bool) (t : Transfer) : Prop :=
  ∃ cipher out tail, Decrypts env chunk isLast t cipher out tail

/-- A decrypted chunk, on cores. -/
def streamed (cipher : DecryptCipher) (chunk out tail : Bytes) (c : SessionFrames.Core) :
    SessionFrames.Core :=
  { c with
    transfer := { c.transfer with
      uploadDecryptCipher := some { cipher with chain := chainValue 16 cipher.chain chunk }
      uploadPlainTail := tail
      uploadPlainBytesWritten := c.transfer.uploadPlainBytesWritten + out.length
      uploadCrc32State := crc32 out c.transfer.uploadCrc32State }
    files := appended c.transfer.uploadTmpFile out c.files }

/-- The cipher has moved on and nothing else has changed. -/
def Recoded (w u : World) : Prop :=
  ∃ cipher, Does (withTransfer fun t => { t with uploadDecryptCipher := cipher }) w u

/-- An open upload: its cipher and its file. -/
structure OpenFile (t : Transfer) : Prop where
  cipher : t.uploadDecryptCipher.isSome
  file : t.uploadTmpFile.isSome

theorem wp_decryptChunk (chunk : Bytes) :
    wp (decryptChunk ctx chunk)
      (fun plain u => ∃ cipher, w.session.transfer.uploadDecryptCipher = some cipher ∧
        plain = cbcDecrypt (ctx.env.aesDecrypt cipher.key) 16 cipher.chain chunk ∧
        Does (withTransfer fun t => { t with
            uploadDecryptCipher := some { cipher with chain := chainValue 16 cipher.chain chunk } })
          w u)
      (fun e u => u = w ∧ (∀ text, e ≠ .value text) ∧
        w.session.transfer.uploadDecryptCipher = none) w := by
  rw [decryptChunk, wp_bind, wp_look]
  rcases hc : w.session.transfer.uploadDecryptCipher with _ | cipher
  · simp only [wp_raise]
    exact ⟨trivial, fun text => by simp, trivial⟩
  · apply wp_then (wp_onTransfer _)
    intro _ u hu
    rw [wp_pure]
    exact ⟨cipher, rfl, rfl, hu⟩

theorem wp_processStreamingCipherChunk (chunk : Bytes) (isLast : Bool) :
    wp (processStreamingCipherChunk ctx chunk isLast)
      (fun _ u => ∃ cipher out tail,
        Decrypts ctx.env chunk isLast w.session.transfer cipher out tail ∧
        Does (streamed cipher chunk out tail) w u)
      (fun e u => Recoded w u ∧
        ((∃ text, e = .value text) ∧ ¬ Decryptable ctx.env chunk isLast w.session.transfer ∨
          (∀ text, e ≠ .value text) ∧
            ¬ (ctx.out.FilesWork ∧ OpenFile w.session.transfer))) w := by
  have hsame : Recoded w w := ⟨w.session.transfer.uploadDecryptCipher, rfl, rfl⟩
  unfold processStreamingCipherChunk
  by_cases hnil : chunk = []
  · rw [if_pos hnil, wp_raise]
    refine ⟨hsame, .inl ⟨⟨_, rfl⟩, ?_⟩⟩
    rintro ⟨cipher, out, tail, h⟩
    exact h.nonempty hnil
  by_cases halign : chunk.length % 16 ≠ 0
  · rw [if_neg hnil, if_pos halign, wp_raise]
    refine ⟨hsame, .inl ⟨⟨_, rfl⟩, ?_⟩⟩
    rintro ⟨cipher, out, tail, h⟩
    exact halign (Nat.mod_eq_zero_of_dvd h.aligned)
  rw [if_neg hnil, if_neg halign]
  apply wp_seq (wp_decryptChunk chunk)
  · rintro plain u ⟨cipher, hcipher, rfl, hu⟩
    have htail : u.session.transfer.uploadPlainTail = w.session.transfer.uploadPlainTail :=
      congrArg (fun c => c.transfer.uploadPlainTail) hu.core_eq
    have hfile : u.session.transfer.uploadTmpFile = w.session.transfer.uploadTmpFile :=
      congrArg (fun c => c.transfer.uploadTmpFile) hu.core_eq
    rw [wp_bind, wp_look, htail]
    -- writing `out` and keeping `tail`, in whichever branch
    have hwrite {out tail : Bytes} (hsplit : splitPlain isLast
          (w.session.transfer.uploadPlainTail ++
            cbcDecrypt (ctx.env.aesDecrypt cipher.key) 16 cipher.chain chunk) = some (out, tail)) :
        wp (do
            writePlainStream ctx out
            onTransfer fun t => { t with uploadPlainTail := tail })
          (fun _ u => ∃ cipher out tail,
            Decrypts ctx.env chunk isLast w.session.transfer cipher out tail ∧
            Does (streamed cipher chunk out tail) w u)
          (fun e u => Recoded w u ∧
            ((∃ text, e = .value text) ∧ ¬ Decryptable ctx.env chunk isLast w.session.transfer ∨
              (∀ text, e ≠ .value text) ∧
                ¬ (ctx.out.FilesWork ∧ OpenFile w.session.transfer))) u := by
      apply wp_seq (wp_writePlainStream out)
      · rintro _ v ⟨hopen, hv⟩
        apply wp_mono (wp_onTransfer _)
        · intro _ x hx
          have hdone := (hu.trans hv).trans hx
          refine ⟨cipher, out, tail, ⟨hcipher, hnil, ?_, hsplit, fun h => hfile ▸ hopen h⟩,
            hdone.core_eq, hdone.sent⟩
          exact Nat.dvd_of_mod_eq_zero (by omega)
        · exact fun _ _ h => h.elim
      · rintro e v ⟨hv, hother, hno⟩
        have hdone := hu.trans hv
        exact ⟨⟨_, hdone.core_eq, hdone.sent⟩,
          .inr ⟨hother, fun h => hno ⟨h.1, hfile ▸ h.2.file⟩⟩⟩
    rcases isLast with _ | _
    · simp only [Bool.false_eq_true, if_false]
      split_ifs with hlen
      · -- nothing is written while a single block has arrived
        have hhold : holdBack (w.session.transfer.uploadPlainTail ++
            cbcDecrypt (ctx.env.aesDecrypt cipher.key) 16 cipher.chain chunk) =
              ([], w.session.transfer.uploadPlainTail ++
                cbcDecrypt (ctx.env.aesDecrypt cipher.key) 16 cipher.chain chunk) := by
          rw [holdBack, Nat.sub_eq_zero_of_le hlen, List.take_zero, List.drop_zero]
        have hnone := hwrite (congrArg some hhold)
        rwa [writePlainStream, if_pos rfl, pure_bind] at hnone
      · exact hwrite rfl
    · simp only [if_true]
      rcases hun : unpad 16 (w.session.transfer.uploadPlainTail ++
          cbcDecrypt (ctx.env.aesDecrypt cipher.key) 16 cipher.chain chunk) with _ | final
      · simp only [wp_raise]
        refine ⟨⟨_, hu⟩, .inl ⟨⟨_, rfl⟩, ?_⟩⟩
        rintro ⟨cipher', out, tail, h⟩
        obtain rfl : cipher = cipher' := Option.some.inj (hcipher.symm.trans h.cipher_eq)
        have hsplit := h.split
        rw [splitPlain, if_pos rfl, hun] at hsplit
        cases hsplit
      · exact hwrite (by simp [splitPlain, hun])
  · rintro e u ⟨rfl, hother, hno⟩
    refine ⟨hsame, .inr ⟨hother, fun h => ?_⟩⟩
    have := h.2.cipher
    rw [hno] at this
    cases this

/-! ### The last packet -/

/-- The message of a 1603. -/
def crcMessage (clientId version : Bytes) (p : Packet) (crc : UInt32) : Bytes :=
  message version .crcResult
    (clientId ++ leBytes 4 p.contentSize ++ (utf8Encode p.fileName ++ [0]) ++ leBytes 4 crc.toNat)

/-- The fields of a packet that its 1603 repeats fit the message. -/
structure Fits (p : Packet) : Prop where
  contentSize : p.contentSize < 256 ^ 4
  fileName : (utf8Encode p.fileName).length < 2 ^ 31

theorem tells_answer1603 (p : Packet) (crc : UInt32) :
    wp (answer1603 ctx clientId version p.fileName p.contentSize crc)
      (fun _ u => Tells [crcMessage clientId version p crc] w u)
      (fun _ u => SessionFrames.core u = SessionFrames.core w) w := by
  apply wp_seq ((tells_touch _).wp w)
  · intro _ u hu
    apply wp_seq ((tells_logEvent _ _).wp u)
    · intro _ v hv
      have hbooks := hu.trans hv
      apply wp_ofExcept_bind
      · intro size hsize
        apply wp_ofExcept_bind
        · intro m hm
          obtain ⟨-, -, -, rfl⟩ := messageAnswer_ok.mp hm
          rw [toBytes] at hsize
          split_ifs at hsize
          cases hsize
          exact wp_mono ((tells_send message_ne_nil).wp v) (fun _ _ h => hbooks.trans h)
            (fun _ _ h => (hbooks.trans h).core_eq)
        · exact fun _ _ => hbooks.core_eq
      · exact fun _ _ => hbooks.core_eq
    · exact fun _ _ h => (hu.trans h).core_eq
  · exact fun _ _ h => h.core_eq

theorem answer1603_returns {p : Packet} (crc : UInt32) (h : Answering ctx w clientId version)
    (hp : Fits p) :
    wp (answer1603 ctx clientId version p.fileName p.contentSize crc) (fun _ _ => True)
      (fun _ _ => False) w := by
  apply wp_seq (wp_touch _)
  · intro _ u _
    apply wp_then (wp_logEvent _ _)
    intro _ v _
    have hm : messageAnswer version .crcResult
        (clientId ++ leBytes 4 p.contentSize ++ (utf8Encode p.fileName ++ [0]) ++
          leBytes 4 crc.toNat).length
        (clientId ++ leBytes 4 p.contentSize ++ (utf8Encode p.fileName ++ [0]) ++
          leBytes 4 crc.toNat) = .ok (crcMessage clientId version p crc) := by
      refine messageAnswer_ok.mpr ⟨h.version, rfl, ?_, rfl⟩
      have hc := h.clientId
      have hn := hp.fileName
      simp only [List.length_append, length_leBytes, List.length_singleton]
      omega
    rw [toBytes, if_pos hp.contentSize, wp_bind, wp_ofExcept_ok, wp_bind, hm, wp_ofExcept_ok]
    exact send_returns h.sends
  · exact fun _ _ hno => hno.2 ⟨h.sql, h.indexed⟩

theorem wp_answer1603 (p : Packet) (crc : UInt32) :
    wp (answer1603 ctx clientId version p.fileName p.contentSize crc)
      (fun _ u => Tells [crcMessage clientId version p crc] w u)
      (fun _ u => SessionFrames.core u = SessionFrames.core w ∧
        ¬ (Answering ctx w clientId version ∧ Fits p)) w :=
  wp_blame (tells_answer1603 p crc) fun h => answer1603_returns crc h.1 h.2

theorem wp_replaceFile (source target : String) :
    wp (onFiles (replaceFile ctx.out source target))
      (fun _ u => Does (withFiles fun fs => bare (fs.rename source target)) w u)
      (fun _ u => Does id w u ∧ ¬ (ctx.out.FilesWork ∧ (w.files.entry source).isSome)) w := by
  have hcall : wp (onFiles (fileCall ctx.out fun fs => ((), fs.rename source target)))
      (fun _ u => Does (withFiles fun fs => bare (fs.rename source target)) w u)
      (fun _ u => Does id w u ∧ ¬ (ctx.out.FilesWork ∧ (w.files.entry source).isSome)) w :=
    wp_mono (wp_onFileCall fun _ => ⟨rfl, rfl⟩) (fun _ _ h => h.2)
      (fun _ _ h => ⟨h.1, fun hg => h.2.2 hg.1⟩)
  rw [onFiles, wp_zoom] at hcall ⊢
  rw [replaceFile, wp_bind, wp_fetch]
  split_ifs with hmissing
  · rw [wp_raise]
    exact ⟨⟨rfl, rfl⟩, fun h => by simp_all⟩
  · exact hcall

/-- The file under its final name, on cores. -/
def stored (tmp path : String) (c : SessionFrames.Core) : SessionFrames.Core :=
  { c with
    transfer := { c.transfer with
      uploadTmpFile := none
      uploadTmpPath := none
      uploadCrc := some c.transfer.uploadCrc32State }
    files := bare (c.files.rename tmp path) }

/-- The last packet has brought the announced number of bytes. -/
structure Stores (p : Packet) (t : Transfer) (tmp path : String) : Prop where
  received : some t.receivedCipherBytes = t.expectedContentSize
  file : t.uploadTmpFile.isSome
  tmp : t.uploadTmpPath = some tmp
  path : t.uploadPath = some path
  written : t.uploadPlainBytesWritten = p.origFileSize

/-- Everything the last packet was to bring is there. -/
def Storable (p : Packet) (t : Transfer) : Prop := ∃ tmp path, Stores p t tmp path

/-- A refusal that records a failure and reports it. -/
def Failing (r : Refusal) : Prop := r.failure.isSome ∧ ∃ text, r.answer = some text ∧ Short text

theorem Failing.short {r : Refusal} (h : Failing r) : ShortAnswer r := by
  obtain ⟨-, text, ha, hs⟩ := h
  intro text' ht
  rw [ha] at ht
  cases ht
  exact hs

theorem failing_mk {reason text : String} (h : Short text) :
    Failing { failure := some reason, answer := some text } := ⟨rfl, text, rfl, h⟩

/-- What finishing an upload needs. -/
structure Finishes (ctx : Ctx) (p : Packet) (c : SessionFrames.Core) : Prop where
  files : ctx.out.FilesWork
  fits : Fits p
  present : ∀ tmp ∈ c.transfer.uploadTmpPath, (c.files.entry tmp).isSome

/-- The upload is stored and its checksum reported. -/
def Finished (clientId version : Bytes) (p : Packet) (w w' : World) : Prop :=
  ∃ tmp path, Stores p w.session.transfer tmp path ∧
    Says [crcMessage clientId version p w.session.transfer.uploadCrc32State] (stored tmp path) w w'

theorem wp_storeUpload {p : Packet} {tmp path : String}
    (hreceived : some w.session.transfer.receivedCipherBytes =
      w.session.transfer.expectedContentSize)
    (hfile : w.session.transfer.uploadTmpFile.isSome)
    (htmp : w.session.transfer.uploadTmpPath = some tmp)
    (hpath : w.session.transfer.uploadPath = some path) :
    wp (storeUpload ctx clientId version p tmp path)
      (fun _ w' => Finished clientId version p w w' ∨
        ∃ r, Failing r ∧ Refused clientId version r w w' ∧ ¬ Storable p w.session.transfer)
      (fun _ u => Holds w u ∧ ¬ (Answering ctx w clientId version ∧
        Finishes ctx p (SessionFrames.core w))) w := by
  apply wp_seq wp_touchFiles
  · intro _ u hu
    apply wp_seq wp_touchFiles
    · intro _ v hv
      apply wp_then (wp_onTransfer _)
      intro _ x hx
      have hclosed := (hu.trans hv).trans hx
      have hwritten : x.session.transfer.uploadPlainBytesWritten =
          w.session.transfer.uploadPlainBytesWritten :=
        congrArg (fun c => c.transfer.uploadPlainBytesWritten) hclosed.core_eq
      have hcrc : x.session.transfer.uploadCrc32State = w.session.transfer.uploadCrc32State :=
        congrArg (fun c => c.transfer.uploadCrc32State) hclosed.core_eq
      have hwx : Holds w x := hclosed.holds rfl rfl
      rw [wp_bind, wp_look, hwritten, hcrc]
      split_ifs with hsize
      · have hfail : Failing { failure := some "plaintext size mismatch"
                               answer := some "bad 828: plaintext size mismatch" } :=
          failing_mk (by decide +kernel)
        apply wp_mono (wp_refuse _)
        · intro _ w' hw'
          refine .inr ⟨_, hfail, hw'.after hclosed rfl rfl, ?_⟩
          rintro ⟨tmp', path', h⟩
          exact hsize h.written
        · rintro _ y ⟨hy, hno⟩
          refine ⟨hwx.trans hy.holds, fun hg => hno ⟨?_, hfail.short⟩⟩
          exact hg.1.after hclosed rfl
      · apply wp_seq (wp_replaceFile tmp path)
        · intro _ y hy
          apply wp_then (wp_onTransfer _)
          intro _ z hz
          have hmoved := (hclosed.trans hy).trans hz
          apply wp_mono (wp_answer1603 p _)
          · intro _ w' hw'
            refine .inl ⟨tmp, path, ⟨hreceived, hfile, htmp, hpath, by simpa using hsize⟩, ?_⟩
            have hdone := hmoved.tells hw'
            exact ⟨hdone.core_eq, hdone.sent⟩
          · rintro _ a ⟨ha, hno⟩
            refine ⟨(hmoved.holds rfl rfl).trans
              (untouched_of_core ha).holds, fun hg => hno ⟨?_, hg.2.fits⟩⟩
            exact hg.1.after hmoved rfl
        · rintro _ y ⟨hy, hno⟩
          have hwy : Holds x y := hy.holds rfl rfl
          refine ⟨hwx.trans hwy, fun hg => hno ⟨hg.2.files, ?_⟩⟩
          have hentry : x.files.entry = w.files.entry :=
            congrArg (fun c => c.files.entry) hclosed.core_eq
          rw [hentry]
          exact hg.2.present tmp htmp
    · rintro _ v ⟨hv, hno⟩
      exact ⟨(hu.trans hv).holds rfl rfl, fun hg => hno hg.2.files⟩
  · rintro _ u ⟨hu, hno⟩
    exact ⟨hu.holds rfl rfl, fun hg => hno hg.2.files⟩

theorem wp_finishUpload (p : Packet) :
    wp (finishUpload ctx clientId version p)
      (fun _ w' => Finished clientId version p w w' ∨
        ∃ r, Failing r ∧ Refused clientId version r w w' ∧ ¬ Storable p w.session.transfer)
      (fun _ u => Holds w u ∧ ¬ (Answering ctx w clientId version ∧
        Finishes ctx p (SessionFrames.core w))) w := by
  rw [finishUpload, wp_bind, wp_look]
  have hrefuse {r : Refusal} {u : World} (hr : Failing r) (hu : Does id w u)
      (hcause : ¬ Storable p w.session.transfer) :
      wp (refuse ctx clientId version r)
        (fun _ w' => Finished clientId version p w w' ∨
          ∃ r, Failing r ∧ Refused clientId version r w w' ∧ ¬ Storable p w.session.transfer)
        (fun _ u => Holds w u ∧ ¬ (Answering ctx w clientId version ∧
          Finishes ctx p (SessionFrames.core w))) u := by
    apply wp_mono (wp_refuse r)
    · exact fun _ _ h => .inr ⟨r, hr, h.after hu rfl rfl, hcause⟩
    · rintro _ v ⟨hv, hno⟩
      refine ⟨(hu.holds rfl rfl).trans hv.holds, fun hg => hno ⟨?_, hr.short⟩⟩
      exact hg.1.after hu rfl
  split_ifs with hreceived
  · refine hrefuse (failing_mk (by decide +kernel)) (Does.refl w) ?_
    rintro ⟨tmp, path, h⟩
    exact hreceived h.received
  · apply wp_seq (wp_touch _)
    · intro _ u hu
      have ht : u.session.transfer = w.session.transfer := congrArg Core.transfer hu.core_eq
      split
      · rename_i file tmp path hfile htmp hpath
        have hcore : SessionFrames.core u = SessionFrames.core w := hu.core_eq
        apply wp_mono (wp_storeUpload (by rw [ht]; simpa using hreceived) (by rw [ht, hfile]; rfl)
          (by rw [ht, htmp]) (by rw [ht, hpath]))
        · rintro _ w' (⟨tmp, path, hs, hsaid⟩ | ⟨r, hr, href, hcause⟩)
          · rw [ht] at hs hsaid
            exact .inl ⟨tmp, path, hs, hcore ▸ hsaid.core_eq, by rw [hsaid.sent, hu.sent]⟩
          · exact .inr ⟨r, hr, href.after hu rfl rfl, ht ▸ hcause⟩
        · rintro _ v ⟨hv, hno⟩
          refine ⟨(hu.holds rfl rfl).trans hv, fun hg => hno ⟨?_, ?_⟩⟩
          · exact hg.1.after hu rfl
          · exact hcore ▸ hg.2
      · rename_i hmissing
        refine hrefuse (failing_mk (by decide +kernel)) hu ?_
        rintro ⟨tmp, path, h⟩
        obtain ⟨file, hfile⟩ := Option.isSome_iff_exists.mp h.file
        exact hmissing file tmp path hfile h.tmp h.path
    · rintro _ u ⟨hu, hno⟩
      exact ⟨hu.holds rfl rfl, fun hg => hno ⟨hg.1.sql, hg.1.indexed⟩⟩

/-! ### A ciphertext packet -/

/-- An accepted packet before its last steps, on cores. -/
def advanced (p : Packet) (ts : ℚ) (cipher : DecryptCipher) (out tail : Bytes)
    (c : SessionFrames.Core) : SessionFrames.Core :=
  let c := streamed cipher p.cipherChunk out tail c
  { c with
    transfer := { c.transfer with
      lastUploadProgressTs := some ts
      expectedPacketNum := c.transfer.expectedPacketNum.map (· + 1)
      receivedCipherBytes := c.transfer.receivedCipherBytes + p.cipherChunk.length } }

/-- The packet is the next one and is decrypted. -/
structure Taken (env : Env) (p : Packet) (t : Transfer) (cipher : DecryptCipher)
    (out tail : Bytes) : Prop where
  order : checkOrder t p = .ok ()
  decrypts : Decrypts env p.cipherChunk (p.packetNum = p.totalPackets) t cipher out tail

/-- What the packet does to the core. -/
def Takes (env : Env) (p : Packet) (w u : World) : Prop :=
  ∃ ts cipher out tail, Taken env p w.session.transfer cipher out tail ∧
    Does (advanced p ts cipher out tail) w u

/-- A packet that is taken, and stored if it is the last one. -/
def Accepts (env : Env) (clientId version : Bytes) (p : Packet) (w w' : World) : Prop :=
  (p.packetNum ≠ p.totalPackets ∧ Takes env p w w') ∨
    (p.packetNum = p.totalPackets ∧ ∃ u, Takes env p w u ∧ Finished clientId version p u w')

/-- What a ciphertext packet needs besides sending and store calls. -/
structure Receives (ctx : Ctx) (p : Packet) (c : SessionFrames.Core) : Prop where
  finishes : Finishes ctx p c
  openFile : checkOrder c.transfer p = .ok () → OpenFile c.transfer

/-- A packet that is the next one, decrypts and, if it is the last one, completes the
upload. -/
def Acceptable (env : Env) (p : Packet) (t : Transfer) : Prop :=
  ∃ cipher out tail, Taken env p t cipher out tail ∧
    (p.packetNum = p.totalPackets →
      some (t.receivedCipherBytes + p.cipherChunk.length) = t.expectedContentSize ∧
      t.uploadTmpFile.isSome ∧ t.uploadTmpPath.isSome ∧ t.uploadPath.isSome ∧
      t.uploadPlainBytesWritten + out.length = p.origFileSize)

/-- The last packet of an acceptable upload leaves everything in place. -/
theorem storable_of_takes {env : Env} {p : Packet} {u : World}
    (h : Acceptable env p w.session.transfer) (hlast : p.packetNum = p.totalPackets)
    (ht : Takes env p w u) : Storable p u.session.transfer := by
  obtain ⟨ts, cipher, out, tail, htaken, hd⟩ := ht
  obtain ⟨cipher', out', tail', htaken', hall⟩ := h
  obtain rfl : out' = out := htaken'.decrypts.unique htaken.decrypts
  obtain ⟨hreceived, hfile, htmp, hpath, hwritten⟩ := hall hlast
  obtain ⟨tmp, htmp⟩ := Option.isSome_iff_exists.mp htmp
  obtain ⟨path, hpath⟩ := Option.isSome_iff_exists.mp hpath
  have hu : u.session.transfer =
      (advanced p ts cipher out' tail (SessionFrames.core w)).transfer :=
    congrArg Core.transfer hd.core_eq
  rw [hu]
  exact ⟨tmp, path, hreceived, hfile, htmp, hpath, hwritten⟩

theorem checkOrder_error {t : Transfer} {p : Packet} {r : Refusal} (h : checkOrder t p = .error r) :
    Failing r := by
  unfold checkOrder at h
  split_ifs at h
  · cases h
    exact failing_mk (by decide +kernel)
  · cases h
    exact failing_mk (by decide +kernel)

/-- The `try` block of a ciphertext packet: a `ValueError` is caught. -/
theorem wp_tryDecrypt (chunk : Bytes) (isLast : Bool) :
    wp (attempt
        (do
          processStreamingCipherChunk ctx chunk isLast
          pure none)
        fun e =>
          match e with
          | .value text => pure (some text)
          | e => raise e)
      (fun failed u => (failed = none ∧ ∃ cipher out tail,
          Decrypts ctx.env chunk isLast w.session.transfer cipher out tail ∧
          Does (streamed cipher chunk out tail) w u) ∨
        (∃ text, failed = some text ∧ Recoded w u ∧
          ¬ Decryptable ctx.env chunk isLast w.session.transfer))
      (fun _ u => Recoded w u ∧ ¬ (ctx.out.FilesWork ∧ OpenFile w.session.transfer)) w := by
  rw [wp_attempt]
  apply wp_seq (wp_processStreamingCipherChunk chunk isLast)
  · intro _ u hu
    rw [wp_pure]
    exact .inl ⟨rfl, hu⟩
  · rintro e u ⟨hu, hcause⟩
    rcases e with _ | _ | _ | _ | _ | _ | _ | _ | text | _
    case value =>
      rcases hcause with ⟨-, hno⟩ | ⟨hother, -⟩
      · exact (wp_pure _).mpr (.inr ⟨text, rfl, hu, hno⟩)
      · exact (hother text rfl).elim
    all_goals
      rw [wp_raise]
      exact ⟨hu, (hcause.resolve_left (by simp)).2⟩

theorem wp_receiveChunk (p : Packet) :
    wp (receiveChunk ctx clientId version p)
      (fun _ w' => Accepts ctx.env clientId version p w w' ∨
        ∃ r, Failing r ∧ Refused clientId version r w w' ∧
          ¬ Acceptable ctx.env p w.session.transfer)
      (fun _ u => (Untouched w u ∧ ¬ Answering ctx w clientId version ∨
          Holds w u ∧ checkOrder w.session.transfer p = .ok ()) ∧
        ¬ (Answering ctx w clientId version ∧ Receives ctx p (SessionFrames.core w))) w := by
  rw [receiveChunk, wp_bind, wp_look]
  rcases horder : checkOrder w.session.transfer p with r | ⟨⟩
  · have hr := checkOrder_error horder
    apply wp_mono (wp_refuse r)
    · intro _ _ h
      refine .inr ⟨r, hr, h, ?_⟩
      rintro ⟨cipher, out, tail, htaken, -⟩
      exact absurd (horder.symm.trans htaken.order) (by simp)
    · rintro _ u ⟨hu, hno⟩
      exact ⟨.inl ⟨hu, fun hg => hno ⟨hg, hr.short⟩⟩, fun hg => hno ⟨hg.1, hr.short⟩⟩
  apply wp_then wp_markUploadProgress
  rintro _ u ⟨ts, hu⟩
  have htu : u.session.transfer =
      { w.session.transfer with lastUploadProgressTs := some ts } :=
    congrArg Core.transfer hu.core_eq
  have hwu : Holds w u := hu.holds rfl rfl
  have hopen : OpenFile w.session.transfer → OpenFile u.session.transfer := by
    rw [htu]
    exact fun h => ⟨h.cipher, h.file⟩
  apply wp_seq (wp_tryDecrypt p.cipherChunk (p.packetNum = p.totalPackets))
  · rintro failed v (⟨rfl, cipher, out, tail, hdec, hv⟩ | ⟨text, rfl, ⟨cipher, hv⟩, hcause⟩)
    · apply wp_then (wp_onTransfer _)
      intro _ x hx
      have hdone := (hu.trans hv).trans hx
      have htake : Takes ctx.env p w x := by
        rw [htu] at hdec
        refine ⟨ts, cipher, out, tail, ⟨horder, hdec.cipher_eq, hdec.nonempty, hdec.aligned,
          hdec.split, hdec.file⟩, hdone.core_eq, hdone.sent⟩
      have hwx : Holds w x := hdone.holds rfl rfl
      split_ifs with hlast
      · apply wp_mono (wp_finishUpload p)
        · rintro _ w' (hfin | ⟨r, hr, href, hcause⟩)
          · exact .inl (.inr ⟨hlast, x, htake, hfin⟩)
          · exact .inr ⟨r, hr, href.after hdone rfl rfl,
              fun h => hcause (storable_of_takes h hlast htake)⟩
        · rintro _ y ⟨hy, hno⟩
          refine ⟨.inr ⟨hwx.trans hy, rfl⟩, fun hg => hno ⟨?_, ?_⟩⟩
          · exact hg.1.after hdone rfl
          · have hf := hg.2.finishes
            rw [hdone.core_eq]
            refine ⟨hf.files, hf.fits, fun tmp htmp => ?_⟩
            change ((appended _ _ _).entry tmp).isSome = true
            rw [appended_entry]
            exact hf.present tmp htmp
      · rw [wp_pure]
        exact .inl (.inl ⟨hlast, htake⟩)
    · have hdone := hu.trans hv
      have hfail : Failing { failure := some ("streaming decrypt failed: " ++ text)
                             answer := some "bad 828: streaming decrypt failed" } :=
        failing_mk (by decide +kernel)
      apply wp_mono (wp_refuse _)
      · intro _ _ h
        refine .inr ⟨_, hfail, h.after hdone rfl rfl, ?_⟩
        rintro ⟨cipher', out, tail, htaken, -⟩
        have hdec := htaken.decrypts
        rw [htu] at hcause
        exact hcause ⟨cipher', out, tail, hdec.cipher_eq, hdec.nonempty, hdec.aligned, hdec.split,
          hdec.file⟩
      · rintro _ x ⟨hx, hno⟩
        refine ⟨.inr ⟨(hdone.holds rfl rfl).trans hx.holds, rfl⟩,
          fun hg => hno ⟨?_, hfail.short⟩⟩
        exact hg.1.after hdone rfl
  · rintro e v ⟨⟨cipher, hv⟩, hno⟩
    refine ⟨.inr ⟨(hu.trans hv).holds rfl rfl, rfl⟩, fun hg => hno ?_⟩
    exact ⟨hg.2.finishes.files, hopen (hg.2.openFile horder)⟩

/-! ### Request 828 -/

theorem checkChunk_error {config : Config} {t : Transfer} {p : Packet} {r : Refusal}
    (h : checkChunk config t p = .error r) : Failing r := by
  unfold checkChunk at h
  split_ifs at h <;> cases h <;> exact failing_mk (by decide +kernel)

/-- A refusal that reports a short text or nothing, and records nothing. -/
def Plain (r : Refusal) : Prop := r.failure = none ∧ ShortAnswer r

theorem plain_mk {text : String} (h : Short text) : Plain { answer := some text } := by
  refine ⟨rfl, fun text' ht => ?_⟩
  cases ht
  exact h

theorem plain_silent : Plain {} := ⟨rfl, fun _ h => by cases h⟩

theorem parse828_error {payload : Bytes} {r : Refusal} (h : parse828 payload = .error r) :
    Plain r := by
  unfold parse828 at h
  split at h
  · cases h
    exact plain_silent
  · split at h
    · cases h
      exact plain_mk (by decide +kernel)
    · cases h

theorem bindUpload_error {store : Store} {idHex : String} {t : Transfer} {r : Refusal}
    (h : bindUpload store idHex t = .error r) : Plain r := by
  unfold bindUpload at h
  split_ifs at h
  split at h
  · cases h
    exact plain_silent
  · dsimp only at h
    split_ifs at h
    · cases h
      exact plain_mk (by decide +kernel)
    · split at h
      · cases h
        exact plain_mk (by decide +kernel)
      · cases h

theorem acceptIv_error {t : Transfer} {p : Packet} {r : Refusal} (h : acceptIv t p = .error r) :
    Plain r := by
  unfold acceptIv at h
  split_ifs at h
  · cases h
    exact plain_mk (by decide +kernel)
  · cases h
    exact plain_mk (by decide +kernel)

theorem validateHeader_short {config : Config} {p : Packet} {text : String}
    (h : validateHeader config p = some text) : Short text := by
  unfold validateHeader at h
  split_ifs at h <;> cases h <;> decide +kernel

theorem create_entry (fs : FileSystem) (path : String) :
    (fs.create path).2.entry path = some (fs.create path).1 := by
  unfold FileSystem.create
  rcases h : fs.entry path with _ | i
  · exact Function.update_self ..
  · exact h

theorem create_content (fs : FileSystem) (path : String) :
    (fs.create path).2.content (fs.create path).1 = [] := by
  unfold FileSystem.create
  rcases fs.entry path with _ | i
  · exact Function.update_self ..
  · exact Function.update_self ..

/-- An upload starts with an empty file. -/
theorem started_content {p : Packet} {u : World} (h : Started clientId p w u) {i : ℕ}
    (hi : u.session.transfer.uploadTmpFile = some i) : u.files.content i = [] := by
  obtain ⟨ts, time, limiter, hd⟩ := h.does
  have hfile : (SessionFrames.core u).transfer.uploadTmpFile = some i := hi
  change (SessionFrames.core u).files.content i = []
  rw [hd.core_eq] at hfile ⊢
  cases hfile
  exact create_content _ _

/-- The outcomes of a packet with a valid header from the upload's own client. -/
inductive Admits (ctx : Ctx) (clientId version : Bytes) (p : Packet) (w w' : World) : Prop
  | announced (t : Transfer) (hnum : p.packetNum = 0) (hiv : acceptIv w.session.transfer p = .ok t)
      (hdoes : Does (withTransfer fun _ => t) w w')
  | declined (r : Refusal) (hnum : p.packetNum = 0) (hiv : acceptIv w.session.transfer p = .error r)
      (hplain : Plain r) (href : Refused clientId version r w w')
  | failed (r : Refusal) (hnum : p.packetNum ≠ 0) (hfail : Failing r)
      (href : Refused clientId version r w w')
  | busy (hnum : p.packetNum = 1) (hcheck : checkChunk ctx.env.config w.session.transfer p = .ok ())
      (hbusy : Busy clientId version w w')
  | unrecorded (hnum : p.packetNum = 1)
      (hcheck : checkChunk ctx.env.config w.session.transfer p = .ok ())
      (hdown : Unrecorded clientId version w w')
  | began (u : World) (hnum : p.packetNum = 1)
      (hcheck : checkChunk ctx.env.config w.session.transfer p = .ok ())
      (hstart : Started clientId p w u) (haccept : Accepts ctx.env clientId version p u w')
  | restarted (u : World) (r : Refusal) (hnum : p.packetNum = 1)
      (hcheck : checkChunk ctx.env.config w.session.transfer p = .ok ())
      (hstart : Started clientId p w u) (hfail : Failing r) (href : Refused clientId version r u w')
  | taken (hnum : 1 < p.packetNum)
      (hcheck : checkChunk ctx.env.config w.session.transfer p = .ok ())
      (haccept : Accepts ctx.env clientId version p w w')

/-- What a packet with a valid header needs besides sending and store calls. -/
structure Admissible (ctx : Ctx) (clientId : Bytes) (p : Packet) (c : SessionFrames.Core) :
    Prop where
  files : ctx.out.FilesWork
  fits : Fits p
  starts : p.packetNum = 1 → checkChunk ctx.env.config c.transfer p = .ok () → CanTake c →
    Starts ctx clientId p c
  goes : 1 < p.packetNum → checkChunk ctx.env.config c.transfer p = .ok () → Receives ctx p c

/-- How a raise leaves the active flag and the slot. -/
inductive Stopped (ctx : Ctx) (clientId version : Bytes) (p : Packet) (w u : World) : Prop
  | untouched (hstep : Untouched w u) (hcause : ¬ Answering ctx w clientId version)
  | going (hstep : Holds w u) (k : ℕ) (hk : 1 < k)
      (hexpected : w.session.transfer.expectedPacketNum = some k)
  | begun (hnum : p.packetNum = 1)
      (hcheck : checkChunk ctx.env.config w.session.transfer p = .ok ())
      (hcan : CanTake (SessionFrames.core w))
      (hactive : u.session.transfer.uploadActive = true) (hslot : u.session.hasUploadSlot = true)

theorem checkOrder_ok {t : Transfer} {p : Packet} (h : checkOrder t p = .ok ()) :
    t.expectedPacketNum = some p.packetNum ∧
      t.receivedCipherBytes + p.cipherChunk.length ≤ t.expectedContentSize.getD 0 := by
  unfold checkOrder at h
  split_ifs at h with hsize horder
  exact ⟨(not_not.mp horder).symm, by omega⟩

theorem started_receives {p : Packet} {u : World} (h : Started clientId p w u)
    (hfiles : ctx.out.FilesWork) (hfits : Fits p) : Receives ctx p (SessionFrames.core u) := by
  obtain ⟨ts, time, limiter, hd⟩ := h.does
  rw [hd.core_eq]
  refine ⟨⟨hfiles, hfits, ?_⟩, fun _ => ⟨rfl, rfl⟩⟩
  intro tmp htmp
  cases htmp
  change ((FileSystem.create _ _).2.entry _).isSome = true
  rw [create_entry]
  rfl

theorem wp_admitPacket (p : Packet) :
    wp (admitPacket ctx clientId version p)
      (fun _ w' => Admits ctx clientId version p w w')
      (fun _ u => Stopped ctx clientId version p w u ∧
        ¬ (Answering ctx w clientId version ∧
          Admissible ctx clientId p (SessionFrames.core w))) w := by
  have hstop {r : Refusal} {u : World} (hr : ShortAnswer r)
      (h : Untouched w u ∧ ¬ (Answering ctx w clientId version ∧ ShortAnswer r)) :
      Stopped ctx clientId version p w u ∧ ¬ (Answering ctx w clientId version ∧
        Admissible ctx clientId p (SessionFrames.core w)) :=
    ⟨.untouched h.1 fun hg => h.2 ⟨hg, hr⟩, fun hg => h.2 ⟨hg.1, hr⟩⟩
  rw [admitPacket, wp_bind, wp_look]
  by_cases hzero : p.packetNum = 0
  · rw [if_pos hzero]
    rcases hiv : acceptIv w.session.transfer p with r | t
    · have hr := acceptIv_error hiv
      exact wp_mono (wp_refuse r) (fun _ _ h => .declined r hzero hiv hr h)
        (fun _ _ h => hstop hr.2 h)
    · exact wp_mono (wp_onTransfer _) (fun _ _ h => .announced t hzero hiv h)
        (fun _ _ h => h.elim)
  rw [if_neg hzero]
  rcases hcheck : checkChunk ctx.env.config w.session.transfer p with r | ⟨⟩
  · have hr := checkChunk_error hcheck
    exact wp_mono (wp_refuse r) (fun _ _ h => .failed r hzero hr h) (fun _ _ h => hstop hr.short h)
  by_cases hone : p.packetNum = 1
  · simp only [hone, if_true]
    apply wp_seq (wp_startUpload p)
    · rintro go u (⟨rfl, hstart⟩ | ⟨rfl, hbusy | hdown⟩)
      · simp only [if_true]
        obtain ⟨ts, time, limiter, hd⟩ := hstart.does
        apply wp_mono (wp_receiveChunk p)
        · rintro _ w' (haccept | ⟨r, hr, href, -⟩)
          · exact .began u hone hcheck hstart haccept
          · exact .restarted u r hone hcheck hstart hr href
        · rintro _ v ⟨hv, hno⟩
          have hhold : Holds u v := hv.elim (fun h => h.1.holds) (fun h => h.1)
          have hactive : u.session.transfer.uploadActive = true :=
            congrArg (fun c => c.transfer.uploadActive) hd.core_eq
          have hslot : u.session.hasUploadSlot = true :=
            congrArg Core.hasUploadSlot hd.core_eq
          refine ⟨.begun hone hcheck hstart.canTake (hhold.active.trans hactive)
            (hhold.slot.trans hslot),
            fun hg => hno ⟨?_, started_receives hstart hg.2.files hg.2.fits⟩⟩
          exact hg.1.of_store ⟨_, congrArg Core.store hd.core_eq⟩
      · simp only [Bool.false_eq_true, if_false, wp_pure]
        exact .busy hone hcheck hbusy
      · simp only [Bool.false_eq_true, if_false, wp_pure]
        exact .unrecorded hone hcheck hdown
    · rintro _ u ⟨⟨hu, hno⟩ | ⟨hcan, hactive, hslot⟩, hsmooth⟩
      · exact ⟨.untouched hu hno, fun hg => hsmooth ⟨hg.1, hg.2.starts hone hcheck⟩⟩
      · exact ⟨.begun hone hcheck hcan hactive hslot,
          fun hg => hsmooth ⟨hg.1, hg.2.starts hone hcheck⟩⟩
  · have hmore : 1 < p.packetNum := by omega
    simp only [hone, if_false, pure_bind, if_true]
    apply wp_mono (wp_receiveChunk p)
    · rintro _ w' (haccept | ⟨r, hr, href, -⟩)
      · exact .taken hmore hcheck haccept
      · exact .failed r hzero hr href
    · rintro _ u ⟨⟨hu, hanswer⟩ | ⟨hu, horder⟩, hno⟩
      · exact ⟨.untouched hu hanswer, fun hg => hno ⟨hg.1, hg.2.goes hmore hcheck⟩⟩
      · exact ⟨.going hu _ hmore (checkOrder_ok horder).1,
          fun hg => hno ⟨hg.1, hg.2.goes hmore hcheck⟩⟩

/-- Binding sets three fields, once. -/
theorem bindUpload_ok {store : Store} {idHex : String} {t t' : Transfer}
    (h : bindUpload store idHex t = .ok t') :
    (t.uploadClientIdHex.isSome ∧ t' = t) ∨
      (t.uploadClientIdHex = none ∧ ∃ record b64 key, store.getClientById idHex = some record ∧
        record.aesKeyB64 = some b64 ∧ b64decode false b64 = some key ∧
        t' = { t with
          uploadAesKey := some key
          uploadUsername := some record.username
          uploadClientIdHex := some idHex }) := by
  unfold bindUpload at h
  split_ifs at h with hbound
  · cases h
    exact .inl ⟨hbound, rfl⟩
  · rcases hrec : store.getClientById idHex with _ | record
    · rw [hrec] at h
      cases h
    · rw [hrec] at h
      dsimp only at h
      split_ifs at h with hempty
      rcases hb : record.aesKeyB64 with _ | b64
      · simp [hb] at hempty
      · rw [hb, Option.getD_some] at h
        rcases hk : b64decode false b64 with _ | key
        · rw [hk] at h
          cases h
        · rw [hk] at h
          cases h
          exact .inr ⟨by simpa using hbound, record, b64, key, rfl, hb, hk, rfl⟩

/-- The fields that binding sets do not include the following. -/
structure SameProgress (t t' : Transfer) : Prop where
  active : t'.uploadActive = t.uploadActive
  uploadId : t'.uploadId = t.uploadId
  expected : t'.expectedPacketNum = t.expectedPacketNum
  iv : t'.transferIv = t.transferIv

theorem bindUpload_same {store : Store} {idHex : String} {t t' : Transfer}
    (h : bindUpload store idHex t = .ok t') : SameProgress t t' := by
  rcases bindUpload_ok h with ⟨-, rfl⟩ | ⟨-, record, b64, key, -, -, -, rfl⟩
  · exact ⟨rfl, rfl, rfl, rfl⟩
  · exact ⟨rfl, rfl, rfl, rfl⟩

/-- A header that is not valid: the report is best effort. -/
structure Abandoned (ctx : Ctx) (clientId version : Bytes) (text : String) (w w' : World) :
    Prop where
  transfer : w'.session.transfer = {}
  slot : w'.session.hasUploadSlot = false
  rows : w'.store.working.uploads = w.store.working.uploads
  sent : Answering ctx w clientId version →
    w'.session.sent = w.session.sent ++ [errorMessage clientId version text]

/-- The outcomes of request 828. -/
inductive Uploads (ctx : Ctx) (clientId version payload : Bytes) (w w' : World) : Prop
  | unparsed (r : Refusal) (hparse : parse828 payload = .error r) (hplain : Plain r)
      (href : Refused clientId version r w w')
  | unbound (p : Packet) (r : Refusal) (hparse : parse828 payload = .ok p)
      (hbind : bindUpload w.store (hex clientId) w.session.transfer = .error r) (hplain : Plain r)
      (href : Refused clientId version r w w')
  | foreign (p : Packet) (hparse : parse828 payload = .ok p)
      (hid : w.session.transfer.uploadClientIdHex.isSome)
      (hother : w.session.transfer.uploadClientIdHex ≠ some (hex clientId))
      (href : Refused clientId version
        { answer := some "bad 828: client mismatch during upload" } w w')
  | header (p : Packet) (t : Transfer) (text : String) (hparse : parse828 payload = .ok p)
      (hbind : bindUpload w.store (hex clientId) w.session.transfer = .ok t)
      (hheader : validateHeader ctx.env.config p = some text)
      (habandon : Abandoned ctx clientId version text w w')
  | admitted (p : Packet) (t : Transfer) (u : World) (hparse : parse828 payload = .ok p)
      (hbind : bindUpload w.store (hex clientId) w.session.transfer = .ok t)
      (hown : t.uploadClientIdHex = some (hex clientId))
      (hheader : validateHeader ctx.env.config p = none)
      (hdoes : Does (withTransfer fun _ => t) w u) (hadmits : Admits ctx clientId version p u w')

/-- What request 828 needs besides sending and store calls. -/
def Smooth828 (ctx : Ctx) (clientId payload : Bytes) (w : World) : Prop :=
  ∀ p t, parse828 payload = .ok p →
    bindUpload w.store (hex clientId) w.session.transfer = .ok t →
    t.uploadClientIdHex = some (hex clientId) → validateHeader ctx.env.config p = none →
    Admissible ctx clientId p { SessionFrames.core w with transfer := t }

/-- A first packet that gets as far as taking a slot. -/
structure Begins (ctx : Ctx) (clientId payload : Bytes) (w : World) (p : Packet) (t : Transfer) :
    Prop where
  parses : parse828 payload = .ok p
  binds : bindUpload w.store (hex clientId) w.session.transfer = .ok t
  owns : t.uploadClientIdHex = some (hex clientId)
  header : validateHeader ctx.env.config p = none
  first : p.packetNum = 1
  check : checkChunk ctx.env.config t p = .ok ()
  canTake : CanTake (SessionFrames.core w)

/-- How a raise of request 828 leaves the active flag and the slot. -/
inductive Stopped828 (ctx : Ctx) (clientId version payload : Bytes) (w u : World) : Prop
  | bound (htransfer : u.session.transfer = w.session.transfer ∨
        bindUpload w.store (hex clientId) w.session.transfer = .ok u.session.transfer)
      (hslot : u.session.hasUploadSlot = w.session.hasUploadSlot)
      (hcause : ¬ Answering ctx w clientId version)
  | going (hstep : Holds w u) (k : ℕ) (hk : 1 < k)
      (hexpected : w.session.transfer.expectedPacketNum = some k)
  | begun (p : Packet) (t : Transfer) (hbegins : Begins ctx clientId payload w p t)
      (hactive : u.session.transfer.uploadActive = true) (hslot : u.session.hasUploadSlot = true)

theorem wp_request828 (payload : Bytes) :
    wp (request828 ctx payload version clientId)
      (fun _ w' => Uploads ctx clientId version payload w w')
      (fun _ u => Stopped828 ctx clientId version payload w u ∧
        ¬ (Answering ctx w clientId version ∧ Smooth828 ctx clientId payload w)) w := by
  have hstop {r : Refusal} {v u : World} (hr : ShortAnswer r)
      (hv : v.session.transfer = w.session.transfer ∨
        bindUpload w.store (hex clientId) w.session.transfer = .ok v.session.transfer)
      (hslot : v.session.hasUploadSlot = w.session.hasUploadSlot)
      (hanswer : Answering ctx w clientId version → Answering ctx v clientId version)
      (h : Untouched v u ∧ ¬ (Answering ctx v clientId version ∧ ShortAnswer r)) :
      Stopped828 ctx clientId version payload w u ∧
        ¬ (Answering ctx w clientId version ∧ Smooth828 ctx clientId payload w) :=
    ⟨.bound (h.1.transfer ▸ hv) (h.1.slot.trans hslot) fun hg => h.2 ⟨hanswer hg, hr⟩,
      fun hg => h.2 ⟨hanswer hg.1, hr⟩⟩
  unfold request828
  rcases hparse : parse828 payload with r | p
  · have hr := parse828_error hparse
    exact wp_mono (wp_refuse r) (fun _ _ h => .unparsed r hparse hr h)
      (fun _ _ h => hstop hr.2 (.inl rfl) rfl (fun hg => hg) h)
  dsimp only
  rw [wp_bind, wp_fetch]
  rcases hbind : bindUpload w.store (hex clientId) w.session.transfer with r | t
  · have hr := bindUpload_error hbind
    exact wp_mono (wp_refuse r) (fun _ _ h => .unbound p r hparse hbind hr h)
      (fun _ _ h => hstop hr.2 (.inl rfl) rfl (fun hg => hg) h)
  dsimp only
  have hsame := bindUpload_same hbind
  apply wp_then (wp_onTransfer _)
  intro _ u hu
  have htu : u.session.transfer = t := congrArg Core.transfer hu.core_eq
  have hslot : u.session.hasUploadSlot = w.session.hasUploadSlot :=
    congrArg Core.hasUploadSlot hu.core_eq
  have hwu : Holds w u := ⟨by rw [htu]; exact hsame.active, hslot⟩
  have hanswer (h : Answering ctx w clientId version) : Answering ctx u clientId version :=
    h.after hu rfl
  split_ifs with hown
  · -- only a session that was bound before can belong to another client
    have hid : w.session.transfer.uploadClientIdHex.isSome ∧ t = w.session.transfer := by
      rcases bindUpload_ok hbind with h | ⟨-, record, b64, key, -, -, -, rfl⟩
      · exact h
      · exact (hown rfl).elim
    have hshort : ShortAnswer { answer := some "bad 828: client mismatch during upload" } :=
      (plain_mk (by decide +kernel)).2
    apply wp_mono (wp_refuse _)
    · intro _ w' hw'
      exact .foreign p hparse hid.1 (hid.2 ▸ hown) (hw'.after hu hsame.uploadId rfl)
    · exact fun _ _ h => hstop hshort (.inr (htu ▸ hbind)) hslot hanswer h
  · rcases hheader : validateHeader ctx.env.config p with _ | text
    · apply wp_mono (wp_admitPacket p)
      · exact fun _ w' hw' => .admitted p t u hparse hbind (not_not.mp hown) hheader hu hw'
      · rintro _ v ⟨hv, hno⟩
        refine ⟨?_, fun hg => hno ⟨hanswer hg.1, ?_⟩⟩
        · cases hv with
          | untouched hv hcause =>
              refine .bound (.inr ?_) (hv.slot.trans hslot) fun hg => hcause (hanswer hg)
              rw [hv.transfer, htu]
              exact hbind
          | going hv k hk hexpected =>
              rw [htu, hsame.expected] at hexpected
              exact .going (hwu.trans hv) k hk hexpected
          | begun hnum hcheck hcan hactive hvslot =>
              rw [htu] at hcheck
              rw [hu.core_eq] at hcan
              exact .begun p t ⟨hparse, hbind, not_not.mp hown, hheader, hnum, hcheck, hcan⟩ hactive
                hvslot
        · rw [hu.core_eq]
          exact hg.2 p t hparse hbind (not_not.mp hown) hheader
    · have habandon {v : World} (hrows : v.store.working.uploads = w.store.working.uploads)
          (hsent : Answering ctx w clientId version →
            v.session.sent = w.session.sent ++ [errorMessage clientId version text]) :
          Uploads ctx clientId version payload w (resetWorld ctx (releaseWorld v)) := by
        refine .header p t text hparse hbind hheader ⟨rfl, releaseWorld_slot, ?_, ?_⟩
        · rw [resetWorld_store, releaseWorld_store, hrows]
        · rwa [resetWorld_sent, releaseWorld_sent]
      have hurows : u.store.working.uploads = w.store.working.uploads :=
        congrArg (fun c => c.store.uploads) hu.core_eq
      rw [wp_bind, wp_attempt]
      apply wp_mono (wp_answer1607 text)
      · intro _ v hv
        rw [wp_abandon]
        apply habandon
        · exact (congrArg (fun c => c.store.uploads) hv.core_eq).trans hurows
        · intro _
          rw [hv.sent, hu.sent]
      · rintro _ v ⟨hv, hno⟩
        rw [wp_pure, wp_abandon]
        apply habandon
        · exact (congrArg (fun c => c.store.uploads) hv).trans hurows
        · exact fun hg => (hno ⟨hanswer hg, validateHeader_short hheader⟩).elim

end

end Seftp.ChunkSteps
