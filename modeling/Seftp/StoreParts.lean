import Seftp.KeyBinding

/-!
# What the store calls of a frame keep

A relation between stores that every call on the store keeps is kept by `handle_frame`.
Times last seen, the recent log and messages are one kind of part; the rest are
registrations, the two key columns and the two kinds of calls on the upload table. A key
is written only for the client of the frame, and only if the frame binds a public key or
renews an AES key; the relation may use that.
-/
namespace Seftp.StoreParts
open LittleEndian ExceptState OutsideWorld Text Protocol ClientStore StoreFrames ServerSession
open Answers SessionFrames HandlerParts HandlerFrames AccountHandlers UploadHandlers Router
open KeySteps KeyBinding

/-- An 826 of the client that finds no bound public key. -/
structure Binds (st : Store) (r : Request) (idHex : String) : Prop where
  client : hex r.clientId = idHex
  code : r.code = 826
  unbound : publicKeyOf st idHex = none

/-- An 827 of the client that passes every check, or an 826 of the client that finds no
bound public key or no AES key. -/
structure Renews (env : Env) (st : Store) (r : Request) (idHex : String) : Prop where
  client : hex r.clientId = idHex
  reason : r.code = 827 ∧ Relogs env (book st) r ∨
    r.code = 826 ∧ (publicKeyOf st idHex = none ∨ aesKeyOf st idHex = none)

/-- The relation is kept by each call on the store; public keys are written for the ids
`binds` and AES keys for the ids `renews`. -/
structure CallParts (ctx : Ctx) (binds renews : String → Prop) (S : Store → Store → Prop) :
    Prop where
  seen : ∀ st st', SeenOnly st st' → S st st'
  createClient : ∀ name, Keeps S (createClient ctx.out name)
  setClientAesKey : ∀ idHex b64, renews idHex → Keeps S (setClientAesKey ctx.out idHex b64)
  setClientPublicKey : ∀ idHex der st, binds idHex →
    (∀ r ∈ st.getClientById idHex, r.publicKeyDer = none) →
    S st (setClientPublicKey ctx.out idHex der st).2
  createUploadRecord : ∀ idHex name orig cipher,
    Keeps S (createUploadRecord ctx.out idHex name orig cipher)
  changeUploadRecord : ∀ id c, Keeps S (changeUploadRecord ctx.out id c)

/-- The relation, between the stores of two worlds. -/
def Stores (S : Store → Store → Prop) (w w' : World) : Prop := S w.store w'.store

instance {S : Store → Store → Prop} [Std.Refl S] : Std.Refl (Stores S) :=
  ⟨fun w => refl_of S w.store⟩

instance {S : Store → Store → Prop} [IsTrans Store S] : IsTrans World (Stores S) where
  trans _ _ _ h h' := trans_of S h h'

theorem stores_onStore {S : Store → Store → Prop} {α : Type} {x : StoreProg α} (hx : Keeps S x) :
    Keeps (Stores S) (onStore x) := keeps_zoom hx fun _ _ h => h

/-- Times last seen are not in the book. -/
theorem book_seen {st st' : Store} (h : SeenOnly st st') : book st' = book st :=
  congrArg (fun c : StoreFrames.Core =>
    Book.mk c.connected c.clientsById c.clientsByUsername c.records)
    h.core_eq

/-- A record's public key after times last seen have changed. -/
theorem publicKey_seen {st st' : Store} (h : SeenOnly st st') {idHex : String}
    {record : ClientRecord}
    (hrecord : st.getClientById idHex = some record) :
    ∀ r ∈ st'.getClientById idHex, r.publicKeyDer = record.publicKeyDer := by
  have hsame : (st'.getClientById idHex).map forgetSeen = some (forgetSeen record) := by
    rw [← find_book, book_seen h, find_book, hrecord, Option.map_some]
  intro r hr
  rw [Option.mem_def.mp hr, Option.map_some] at hsame
  have hforget : forgetSeen r = forgetSeen record := Option.some.inj hsame
  change (forgetSeen r).publicKeyDer = (forgetSeen record).publicKeyDer
  rw [hforget]

section
variable {ctx : Ctx} {binds renews : String → Prop} {S : Store → Store → Prop}
variable (h : CallParts ctx binds renews S) {version clientId : Bytes}

theorem stores_branch {c : Prop} [Decidable c] {x y : Server Unit} {w : World}
    (hx : c → Stores S w (x w).2) (hy : ¬ c → Stores S w (y w).2) :
    Stores S w ((if c then x else y) w).2 := by
  by_cases hc : c
  · rw [if_pos hc]
    exact hx hc
  · rw [if_neg hc]
    exact hy hc

section
include h

theorem stores_of_quiet {α : Type} {P : Bytes → Prop} {x : Server α} (hx : Keeps (Quiet P) x) :
    Keeps (Stores S) x := fun w => by
  obtain ⟨ms, ht, -⟩ := hx w
  exact h.seen _ _ ht.store

theorem stores_of_tells {α : Type} {x : Server α} (hx : Keeps (Tells []) x) : Keeps (Stores S) x :=
  fun w => h.seen _ _ (hx w).store

/-- What leaves the store alone. -/
theorem stores_of_eq {α : Type} {x : Server α} (hx : ∀ w, (x w).2.store = w.store) :
    Keeps (Stores S) x := fun w => by
  rw [Stores, hx w]
  exact h.seen _ _ (refl_of SeenOnly _)

theorem stores_log (key : LogKey) (event time : String) :
    Keeps (Stores S) (update fun w => w.setStore (w.store.appendLog key event time) :
      Server Unit) :=
  fun _ => h.seen _ _ ⟨rfl, .inl (.refl _)⟩

theorem stores_uploadParts : UploadParts ctx (Stores S) where
  tells := stores_of_tells h
  answers hx _ := stores_of_quiet h hx
  onTransfer _ := stores_of_eq h fun _ => rfl
  onFiles _ := stores_of_eq h fun _ => rfl
  changeUploadRecord id c := stores_onStore (h.changeUploadRecord id c)
  createUploadRecord id name orig cipher :=
    stores_onStore (h.createUploadRecord id name orig cipher)
  log := stores_log h
  acquire := by
    refine stores_of_eq h fun w => ?_
    simp only [acquireUploadSlot, bind_apply, fetch]
    split
    · rfl
    · split <;> rfl
  release := by
    refine stores_of_eq h fun w => ?_
    simp only [releaseUploadSlot, update]
    split <;> rfl

theorem stores_answer1607 (text : String) :
    Keeps (Stores S) (answer1607 ctx clientId version text) :=
  stores_of_quiet h (quiet_answer1607 text)

theorem stores_answer1606 (name : String) :
    Keeps (Stores S) (answer1606 ctx clientId version name) :=
  stores_of_quiet h (quiet_answer1606 name)

theorem stores_request830 (payload : Bytes) :
    Keeps (Stores S) (request830 ctx payload version clientId) :=
  keeps_look_bind fun _ => keeps_ite (stores_answer1607 h _) (keeps_ite (stores_answer1607 h _)
    (keeps_ite (stores_answer1607 h _) (stores_of_eq h fun _ => rfl)))

end

variable [Std.Refl S] [IsTrans Store S]
include h

theorem stores_answerAesKey (code : ResCode) (event : String) (key : Bytes) :
    Keeps (Stores S) (answerAesKey ctx code event key clientId version) :=
  keeps_look_bind fun _ => keeps_ofExcept_bind fun _ _ => keeps_ofExcept_bind fun _ hm =>
    keeps_bind (stores_of_tells h (tells_touch _)) fun _ =>
      keeps_bind (stores_of_tells h (tells_logEvent _ _)) fun _ =>
        stores_of_quiet h (quiet_send (coded_of_ok hm))

theorem stores_request825 (payload : Bytes) :
    Keeps (Stores S) (request825 ctx payload version) := by
  unfold request825
  rcases utf8Decode (rstripNul payload) with _ | name
  · exact keeps_raise _
  refine keeps_look_bind fun known => ?_
  have h1601 : Keeps (Stores S) (answer1601 ctx version) := stores_of_quiet h quiet_answer1601
  refine keeps_ite h1601 (keeps_ite h1601 ?_)
  refine keeps_bind (stores_onStore (h.createClient name)) fun record => ?_
  rcases record with _ | record
  · exact keeps_raise _
  dsimp only
  rcases fromHex record.clientIdHex with _ | id
  · exact keeps_raise _
  refine keeps_bind (keeps_update fun w => ?_) fun _ =>
    keeps_bind (stores_of_tells h (tells_logEvent _ _)) fun _ => stores_of_quiet h quiet_answer1600
  rcases w.store.recentLog (.name name) with _ | past
  · exact refl_of _ _
  · exact h.seen _ _ ⟨rfl, .inl (.refl _)⟩

theorem stores_freshAesKey {id : String} (hid : renews id) :
    Keeps (Stores S) (freshAesKey ctx id) :=
  keeps_look_bind fun _ =>
    keeps_bind (stores_onStore (h.setClientAesKey _ _ hid)) fun _ => keeps_pure _

theorem stores_wrapKey (code : ResCode) (event : String) (der key : Bytes) :
    Keeps (Stores S) (do
      let ciphertext ← ofExcept (encryptKey ctx.env der key)
      answerAesKey ctx code event ciphertext clientId version) :=
  keeps_ofExcept_bind fun _ _ => stores_answerAesKey h code event _

/-- A key is enrolled for the record that the index still holds. -/
theorem stores_enrollKey {record : ClientRecord} (der : Bytes) {u : World}
    (hrecord : ∀ r ∈ u.store.getClientById (hex clientId), r.publicKeyDer = record.publicKeyDer)
    (hbinds : record.publicKeyDer = none → binds (hex clientId) ∧ renews (hex clientId))
    (hrenews : record.aesKeyB64 = none → renews (hex clientId)) :
    Stores S u (enrollKey ctx clientId version record der u).2 := by
  have hsend (key : Bytes) : Keeps (Stores S) (do
      let ciphertext ← ofExcept (encryptKey ctx.env der key)
      answerAesKey ctx .aesKey "answer_1602" ciphertext clientId version) :=
    stores_wrapKey h .aesKey "answer_1602" der key
  unfold enrollKey
  rcases hpub : record.publicKeyDer with _ | stored
  · rw [hpub] at hrecord
    have hset : Stores S u (onStore (setClientPublicKey ctx.out (hex clientId) der) u).2 :=
      h.setClientPublicKey (hex clientId) der u.store (hbinds hpub).1 hrecord
    have hrest : Keeps (Stores S) (do
        let key ← freshAesKey ctx (hex clientId)
        let ciphertext ← ofExcept (encryptKey ctx.env der key)
        answerAesKey ctx .aesKey "answer_1602" ciphertext clientId version) :=
      keeps_bind (stores_freshAesKey h (hbinds hpub).2) hsend
    dsimp only
    rcases hrun : onStore (setClientPublicKey ctx.out (hex clientId) der) u with ⟨e | b, v⟩
    · rw [bind_error hrun]
      rwa [hrun] at hset
    · rw [bind_ok hrun]
      rw [hrun] at hset
      exact trans_of (Stores S) hset (hrest v)
  · dsimp only
    split_ifs
    · exact stores_answer1607 h _ u
    rcases haes : record.aesKeyB64 with _ | b64
    · exact keeps_bind (stores_freshAesKey h (hrenews haes)) hsend u
    dsimp only
    rcases b64decode false b64 with _ | key
    · exact keeps_raise (R := Stores S) _ u
    · exact hsend key u

theorem stores_request826 {w : World} (payload : Bytes)
    (hbinds : publicKeyOf w.store (hex clientId) = none →
      binds (hex clientId) ∧ renews (hex clientId))
    (hrenews : aesKeyOf w.store (hex clientId) = none → renews (hex clientId)) :
    Stores S w (request826 ctx clientId payload version w).2 := by
  unfold publicKeyOf at hbinds
  unfold aesKeyOf at hrenews
  unfold request826
  rw [bind_apply, look]
  rcases hrecord : w.store.getClientById (hex clientId) with _ | record
  · exact stores_answer1607 h _ w
  rw [hrecord, Option.bind_some] at hbinds hrenews
  dsimp only
  -- up to the enrolment only times last seen and messages
  have hseen {α : Type} {x : Server α} (hx : Keeps (Stores SeenOnly) x) {f : α → Server Unit}
      {u : World} (hu : SeenOnly w.store u.store)
      (hf : ∀ a v, SeenOnly w.store v.store → Stores S w (f a v).2) : Stores S w
      ((x >>= f) u).2 := by
    have hnext : SeenOnly w.store (x u).2.store := trans_of SeenOnly hu (hx u)
    rcases hrun : x u with ⟨e | a, v⟩
    · rw [bind_error hrun]
      rw [hrun] at hnext
      exact h.seen _ _ hnext
    · rw [bind_ok hrun]
      rw [hrun] at hnext
      exact hf a v hnext
  have hquiet {α : Type} {P : Bytes → Prop} {x : Server α} (hx : Keeps (Quiet P) x) :
      Keeps (Stores SeenOnly) x := fun u => by
    obtain ⟨ms, ht, -⟩ := hx u
    exact ht.store
  have htells {α : Type} {x : Server α} (hx : Keeps (Tells []) x) : Keeps (Stores SeenOnly) x :=
    fun u => (hx u).store
  have hlast {x : Server Unit} (hx : Keeps (Stores S) x) {v : World}
      (hv : SeenOnly w.store v.store) :
      Stores S w (x v).2 := trans_of (Stores S) (show Stores S w v from h.seen _ _ hv) (hx v)
  refine hseen (htells (tells_touch _)) (refl_of SeenOnly _) fun _ u hu =>
    hseen (htells (tells_logEvent _ _)) hu fun _ v hv => ?_
  rcases parse826 ctx.env record.username payload with text | ⟨name, der⟩
  · exact hlast (stores_answer1607 h _) hv
  refine hseen (keeps_attempt ?_ fun _ => ?_) hv fun accepted x hx => ?_
  · unfold checkPublicKey
    rcases ctx.env.rsaImport der with _ | key
    · exact keeps_raise _
    · exact keeps_ite (keeps_bind (hquiet (quiet_answer1606 _)) fun _ => keeps_pure _)
        (keeps_pure _)
  · exact keeps_bind (hquiet (quiet_answer1607 _)) fun _ => keeps_pure _
  · rcases accepted with _ | _
    · exact h.seen _ _ hx
    · exact trans_of (Stores S) (show Stores S w x from h.seen _ _ hx)
        (stores_enrollKey h der (publicKey_seen hx hrecord) hbinds hrenews)

theorem stores_request827 {r : Request} {w : World}
    (hrenews : Relogs ctx.env (book w.store) r → renews (hex r.clientId)) :
    Stores S w (request827 ctx r.clientId r.payload r.version w).2 := by
  unfold request827
  rcases hname : utf8Decode (rstripNul r.payload) with _ | rawName
  · exact stores_answer1606 h _ w
  dsimp only
  rw [bind_apply, look]
  have hlog (key : LogKey) : Keeps (Stores S) (logEvent ctx key "request_827") :=
    stores_of_tells h (tells_logEvent _ _)
  rcases hrecord : w.store.getClientByUsername (strip rawName) with _ | record
  · exact keeps_bind (hlog _) (fun _ => stores_answer1606 h _) w
  dsimp only
  split_ifs with hid
  · exact keeps_bind (hlog _) (fun _ => stores_answer1606 h _) w
  rcases hpub : record.publicKeyDer with _ | der
  · exact stores_answer1606 h _ w
  dsimp only
  split_ifs with hempty
  · exact stores_answer1606 h _ w
  refine keeps_bind (stores_of_tells h (tells_touch _)) (fun _ => keeps_bind (hlog _) fun _ => ?_) w
  rcases himport : ctx.env.rsaImport der with _ | pub
  · exact stores_answer1606 h _
  dsimp only
  by_cases hsize : pub.sizeInBits ≠ 2048
  · rw [if_pos hsize]
    exact stores_answer1606 h _
  rw [if_neg hsize]
  have hrelogs : Relogs ctx.env (book w.store) r := by
    refine ⟨rawName, forgetSeen record, der, pub, hname, ?_, not_not.mp hid, hpub, hempty, himport,
      not_not.mp hsize⟩
    rw [findName_book, hrecord, Option.map_some]
  exact keeps_bind (stores_freshAesKey h (hrenews hrelogs)) fun key =>
    stores_wrapKey h .reloginOk "answer_1605" der key

theorem stores_request829 (payload : Bytes) :
    Keeps (Stores S) (request829 ctx payload version clientId) := by
  have hrefuse (text : String) : Keeps (Stores S) (answer1607 ctx clientId version text) :=
    stores_answer1607 h text
  refine keeps_look_bind fun hs =>
    keeps_ite (hrefuse _) (keeps_ite (hrefuse _) (keeps_ite (hrefuse _)
    (keeps_ite (hrefuse _) (keeps_ite (hrefuse _) (keeps_ite (hrefuse _) ?_)))))
  refine keeps_bind (stores_of_eq h fun _ => rfl) fun _ => keeps_look_bind fun n =>
    keeps_ofExcept_bind fun signature _ => keeps_bind (stores_of_eq h fun _ => rfl) fun _ => ?_
  exact stores_of_quiet h (quiet_answer1608 _ _ _ _)

theorem stores_dispatch {r : Request} {w : World} (hbinds : ∀ id, Binds w.store r id → binds id)
    (hrenews : ∀ id, Renews ctx.env w.store r id → renews id) :
    Stores S w (dispatch handlers ctx r w).2 := by
  have hparts := stores_uploadParts h
  unfold dispatch
  rw [bind_apply, look]
  dsimp only
  generalize w.session.handshake.verified = verified
  unfold dispatchAs
  refine stores_branch (fun _ => stores_answer1607 h _ w) fun _ => ?_
  refine stores_branch (fun _ => stores_answer1607 h _ w) fun _ => ?_
  refine stores_branch (fun _ => stores_request825 h _ w) fun _ => ?_
  refine stores_branch (fun hcode => ?_) fun _ => ?_
  · exact stores_request827 h fun hrelogs => hrenews _ ⟨rfl, .inl ⟨hcode, hrelogs⟩⟩
  refine stores_branch (fun hcode => ?_) fun _ => ?_
  · apply stores_request826 h
    · exact fun hnone => ⟨hbinds _ ⟨rfl, hcode, hnone⟩, hrenews _ ⟨rfl, .inr ⟨hcode, .inl hnone⟩⟩⟩
    · exact fun hnone => hrenews _ ⟨rfl, .inr ⟨hcode, .inr hnone⟩⟩
  refine stores_branch (fun _ => hparts.keeps_request828 _ w) fun _ => ?_
  refine stores_branch (fun _ => stores_request829 h _ w) fun _ => ?_
  refine stores_branch (fun _ => stores_request830 h _ w) fun _ => ?_
  refine stores_branch (fun _ => hparts.refusal.keeps_request900 _ w) fun _ => ?_
  refine stores_branch (fun _ => hparts.refusal.keeps_request901 _ w) fun _ => ?_
  refine stores_branch (fun _ => hparts.refusal.keeps_request902 _ w) fun _ => ?_
  exact keeps_bind (stores_of_tells h (tells_onFrameBad _)) (fun _ =>
    keeps_bind (stores_answer1607 h _) fun _ => keeps_look_bind fun active =>
      keeps_ite hparts.keeps_resetTransferState (keeps_pure _)) w

/-- A frame keeps what every call on the store keeps. -/
theorem stores_handleFrame {frame : Bytes} {w : World}
    (hbinds : ∀ id, Binds w.store (parseFrame frame) id → binds id)
    (hrenews : ∀ id, Renews ctx.env w.store (parseFrame frame) id → renews id) :
    Stores S w (handleFrame ctx frame w).2 := by
  have hbad (reason : String) : Keeps (Stores S) (onFrameBad reason) :=
    stores_of_tells h (tells_onFrameBad _)
  have hreset := (stores_uploadParts h).keeps_resetTransferState
  have hmalformed (reason text : String) : Keeps (Stores S) (do
      onFrameBad reason
      answer1607 ctx (parseFrame frame).clientId (parseFrame frame).version text
      resetTransferState ctx) :=
    keeps_bind (hbad _) fun _ => keeps_bind (stores_answer1607 h _) fun _ => hreset
  have hrecover (e : PyError) : Keeps (Stores S) (recover ctx (parseFrame frame) e) := by
    refine keeps_bind (hbad _) fun _ => keeps_look_bind fun reason => keeps_ite (keeps_raise _) ?_
    refine keeps_bind (keeps_attempt (stores_answer1607 h _) fun _ => keeps_pure _) fun _ =>
      keeps_look_bind fun active => keeps_ite hreset (keeps_pure _)
  unfold handleFrame
  rcases Nat.lt_or_ge frame.length 17 with hlen | hlen
  · rw [handleFrameWith_short hlen]
    exact hbad _ w
  rw [handleFrameWith_long hlen]
  have hroute : wp (routeFrame handlers ctx frame) (fun _ u => Stores S w u)
      (fun _ u => Stores S w u)
      (noteIdentity (parseFrame frame) w) := by
    have hsame : Stores S w (noteIdentity (parseFrame frame) w) := h.seen _ _ (refl_of SeenOnly _)
    unfold routeFrame
    refine wp_branch (fun _ => ?_) fun _ => wp_branch (fun _ => ?_) fun _ => ?_
    · exact wp_state.mpr (trans_of (Stores S) hsame (hmalformed _ _ _))
    · exact wp_state.mpr (trans_of (Stores S) hsame (hmalformed _ _ _))
    · exact wp_state.mpr (trans_of (Stores S) hsame (stores_dispatch h hbinds hrenews))
  refine wp_state.mp (wp_attempt.mpr (wp_mono hroute (fun _ _ hu => hu) fun e u hu => ?_))
  exact wp_state.mpr (trans_of (Stores S) hu (hrecover e u))

end

end Seftp.StoreParts
