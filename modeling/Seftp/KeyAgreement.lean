import Seftp.PacketReports

/-!
# The key of an upload

The AES key belongs to the client and not to the connection: a relogin on any
connection replaces it, and the first packet of an upload caches the key that the
store holds then. So the key a session has been given is the key of its next upload
as long as no relogin of that client comes between the two.
-/
namespace Seftp.KeyAgreement
open LittleEndian ExceptState OutsideWorld BlockChaining Text Protocol ClientStore StoreFrames
open ServerSession Answers SessionFrames AccountHandlers UploadHandlers HandlerFrames UploadSteps
open ChunkSteps AccountSteps FrameSteps Router HandshakeGate UploadStages UploadSlot KeySteps
open KeyBinding RowSteps Confirmations PacketReports

/-! ### What a frame does to the cached key -/

/-- The ways a frame leaves the transfer, as far as the client, its key and the
initialisation vector are concerned. -/
inductive Turns (st : Store) (t t' : Transfer) : Prop
  | cleared (h : t' = {})
  | kept (h : t' = t)
  | bound (idHex : String) (h : bindUpload st idHex t = .ok t')
  | opened (idHex : String) (t₁ : Transfer) (p : Packet) (hbind : bindUpload st idHex t = .ok t₁)
      (hown : t₁.uploadClientIdHex = some idHex) (hiv : acceptIv t₁ p = .ok t')
  | went (idHex : String) (t₁ : Transfer) (hbind : bindUpload st idHex t = .ok t₁)
      (hactive : t₁.transferIv.isSome = true) (hiv : t'.transferIv = t₁.transferIv)
      (hclient : t'.uploadClientIdHex = t₁.uploadClientIdHex)
      (hkey : t'.uploadAesKey = t₁.uploadAesKey)
      (hcipher : ∀ c ∈ t'.uploadDecryptCipher,
        (∃ c₁ ∈ t₁.uploadDecryptCipher, c.key = c₁.key) ∨ c.key = t₁.uploadAesKey.getD [])

section
variable {ctx : Ctx} {clientId version payload frame : Bytes} {p : Packet} {w u w' : World}
  {st : Store} {t t' : Transfer} {idHex : String} {key : Bytes}

/-- A packet that is taken moves the chain of the cipher on and keeps its key. -/
theorem accepts_key {env : Env} (h : Accepts env clientId version p w w') :
    w'.session.transfer.transferIv = w.session.transfer.transferIv ∧
      w'.session.transfer.uploadClientIdHex = w.session.transfer.uploadClientIdHex ∧
      w'.session.transfer.uploadAesKey = w.session.transfer.uploadAesKey ∧
      ∀ c ∈ w'.session.transfer.uploadDecryptCipher,
        ∃ c₁ ∈ w.session.transfer.uploadDecryptCipher, c.key = c₁.key := by
  have htakes {x : World} (h : Takes env p w x) :
      x.session.transfer.transferIv = w.session.transfer.transferIv ∧
        x.session.transfer.uploadClientIdHex = w.session.transfer.uploadClientIdHex ∧
        x.session.transfer.uploadAesKey = w.session.transfer.uploadAesKey ∧
        ∀ c ∈ x.session.transfer.uploadDecryptCipher,
          ∃ c₁ ∈ w.session.transfer.uploadDecryptCipher, c.key = c₁.key := by
    obtain ⟨ts, cipher, out, tail, htaken, hd⟩ := h
    have hx : x.session.transfer = _ := congrArg Core.transfer hd.core_eq
    rw [hx]
    refine ⟨rfl, rfl, rfl, fun c hc => ⟨cipher, htaken.decrypts.cipher_eq, ?_⟩⟩
    cases hc
    rfl
  rcases h with ⟨-, ht⟩ | ⟨-, x, ht, tmp, path, -, hsaid⟩
  · exact htakes ht
  · have hw' : w'.session.transfer = _ := congrArg Core.transfer hsaid.core_eq
    rw [hw']
    exact htakes ht

theorem turns_admits (hbind : bindUpload st (hex clientId) t = .ok w.session.transfer)
    (hown : w.session.transfer.uploadClientIdHex = some (hex clientId))
    (h : Admits ctx clientId version p w w') : Turns st t w'.session.transfer := by
  cases h with
  | announced t₁ hnum hiv hd =>
      rw [show w'.session.transfer = t₁ from congrArg Core.transfer hd.core_eq]
      exact .opened (hex clientId) _ p hbind hown hiv
  | declined r hnum hiv hplain href => exact .cleared href.transfer
  | failed r hnum hfail href => exact .cleared href.transfer
  | busy hnum hcheck hbusy => exact .cleared hbusy.transfer
  | unrecorded hnum hcheck hdown => exact .cleared hdown.transfer
  | began x hnum hcheck hstart haccept =>
      obtain ⟨ts, time, limiter, hd⟩ := hstart.does
      have hx : x.session.transfer = _ := congrArg Core.transfer hd.core_eq
      obtain ⟨hiv, hclient, hkey, hcipher⟩ := accepts_key haccept
      rw [hx] at hiv hclient hkey hcipher
      refine .went (hex clientId) _ hbind (checkChunk_ok hcheck).1 hiv hclient hkey ?_
      intro c hc
      obtain ⟨c₁, hc₁, hsame⟩ := hcipher c hc
      cases hc₁
      exact .inr hsame
  | restarted x r hnum hcheck hstart hfail href => exact .cleared href.transfer
  | taken hnum hcheck haccept =>
      obtain ⟨hiv, hclient, hkey, hcipher⟩ := accepts_key haccept
      exact .went (hex clientId) _ hbind (checkChunk_ok hcheck).1 hiv hclient hkey
        fun c hc => .inl (hcipher c hc)

theorem turns_uploads (h : Uploads ctx clientId version payload w w') :
    Turns w.store w.session.transfer w'.session.transfer := by
  cases h with
  | unparsed r hparse hplain href => exact .cleared href.transfer
  | unbound p r hparse hbind hplain href => exact .cleared href.transfer
  | foreign p hparse hid hother href => exact .cleared href.transfer
  | header p t text hparse hbind hheader habandon => exact .cleared habandon.transfer
  | admitted p t x hparse hbind hown hheader hd hadmits =>
      have hx : x.session.transfer = t := congrArg Core.transfer hd.core_eq
      subst hx
      exact turns_admits hbind hown hadmits

theorem turns_routed (h : Routed ctx frame w w') :
    Turns w.store w.session.transfer w'.session.transfer := by
  rcases routed_cases h with hstep | hreset | ⟨-, -, hstep⟩
  · exact .kept hstep.transfer
  · exact .cleared hreset
  · exact turns_uploads hstep

/-- A raise that the router does not reset for has at most bound the client. -/
theorem turns_broke (hb : Begun w.session.transfer) (h : Broke ctx frame w u)
    (hu : u.session.transfer.uploadActive = false) :
    Turns w.store w.session.transfer u.session.transfer := by
  obtain ⟨-, ht | ⟨idHex, ht⟩⟩ := broke_inactive hb h hu
  · exact .kept ht
  · exact .bound idHex ht

theorem turns_steps (hb : Begun w.session.transfer) (h : Steps ctx frame w w') :
    Turns w.store w.session.transfer w'.session.transfer := by
  cases h with
  | locked hv ht hl => exact .kept (congrArg Core.transfer hl.core_eq)
  | handled hv hh =>
      cases hh with
      | short hlen ht => exact .kept ht.transfer
      | routed hlen hr => exact turns_routed (w := noteIdentity (parseFrame frame) w) hr
      | raised hlen u hbroke hcause hend =>
          cases hend with
          | dropped hactive hdrop => exact .cleared hdrop.transfer
          | kept hactive hkept =>
              rw [show w'.session.transfer = u.session.transfer from congrArg Core.transfer hkept]
              exact turns_broke (w := noteIdentity (parseFrame frame) w) hb hbroke hactive

/-! ### The cached key -/

/-- The store holds a key for the client. -/
def StoreKey (st : Store) (idHex : String) (key : Bytes) : Prop :=
  ∃ b64, aesKeyOf st idHex = some b64 ∧ b64decode false b64 = some key

/-- A session bound to the client has cached the key. -/
def Cached (idHex : String) (key : Bytes) (t : Transfer) : Prop :=
  t.uploadClientIdHex = some idHex → t.uploadAesKey = some key

/-- A vector belongs to a bound client, and a cipher to a vector. -/
structure Fitting (t : Transfer) : Prop where
  bound : t.transferIv.isSome = true → t.uploadClientIdHex.isSome = true
  cipher : t.transferIv = none → t.uploadDecryptCipher = none

theorem cached_bind {idHex' : String} (hst : StoreKey st idHex key) (h : Cached idHex key t)
    (hb : bindUpload st idHex' t = .ok t') : Cached idHex key t' := by
  rcases bindUpload_ok hb with ⟨-, rfl⟩ | ⟨hnone, record, b64, key', hrecord, haes, hdecode, rfl⟩
  · exact h
  · intro hid
    obtain rfl : idHex' = idHex := Option.some.inj hid
    obtain ⟨b64', hheld, hkey⟩ := hst
    have hsame : some b64 = some b64' := by
      rw [← hheld, aesKeyOf, hrecord, Option.bind_some, haes]
    cases hsame
    rw [← hkey, ← hdecode]

theorem cached_turns (hst : StoreKey st idHex key) (h : Cached idHex key t) (ht : Turns st t t') :
    Cached idHex key t' := by
  cases ht with
  | cleared hclear =>
      intro hid
      rw [hclear] at hid
      cases hid
  | kept hkept => rwa [hkept]
  | bound idHex' hb => exact cached_bind hst h hb
  | opened idHex' t₁ p hb hown hiv =>
      have h₁ := cached_bind hst h hb
      unfold acceptIv at hiv
      split_ifs at hiv
      cases hiv
      exact h₁
  | went idHex' t₁ hb hactive hiv hclient hkey hcipher =>
      have h₁ := cached_bind hst h hb
      unfold Cached
      rw [hclient, hkey]
      exact h₁

theorem bind_fields {idHex' : String} (hb : bindUpload st idHex' t = .ok t') :
    t'.transferIv = t.transferIv ∧ t'.uploadDecryptCipher = t.uploadDecryptCipher ∧
      t'.uploadClientIdHex.isSome = true := by
  rcases bindUpload_ok hb with ⟨hsome, rfl⟩ | ⟨-, record, b64, key', -, -, -, rfl⟩
  · exact ⟨rfl, rfl, hsome⟩
  · exact ⟨rfl, rfl, rfl⟩

theorem fitting_turns (h : Fitting t) (ht : Turns st t t') : Fitting t' := by
  cases ht with
  | cleared hclear =>
      rw [hclear]
      exact ⟨(fun h => by cases h), fun _ => rfl⟩
  | kept hkept => rwa [hkept]
  | bound idHex' hb =>
      obtain ⟨hiv, hcipher, hsome⟩ := bind_fields hb
      exact ⟨fun _ => hsome, fun hnone => hcipher.trans (h.cipher (hiv ▸ hnone))⟩
  | opened idHex' t₁ p hb hown hiv =>
      unfold acceptIv at hiv
      split_ifs at hiv
      cases hiv
      exact ⟨fun _ => by simp [hown], fun hnone => by cases hnone⟩
  | went idHex' t₁ hb hactive hiv hclient hkey hcipher =>
      refine ⟨fun _ => ?_, fun hnone => ?_⟩
      · rw [hclient]
        exact (bind_fields hb).2.2
      · rw [← hiv, hnone] at hactive
        cases hactive

/-- An upload of the client that goes on with the key. -/
structure Going (idHex : String) (key : Bytes) (t : Transfer) : Prop where
  iv : t.transferIv.isSome = true
  client : t.uploadClientIdHex = some idHex
  key_eq : t.uploadAesKey = some key
  cipher : ∀ c ∈ t.uploadDecryptCipher, c.key = key

/-- Packet 0 opens an upload of the client. -/
structure Opens (idHex : String) (t t' : Transfer) : Prop where
  before : t.transferIv = none
  after : t'.transferIv.isSome = true
  client : t'.uploadClientIdHex = some idHex

theorem going_opens (hst : StoreKey st idHex key) (hc : Cached idHex key t) (hf : Fitting t)
    (ht : Turns st t t') (ho : Opens idHex t t') : Going idHex key t' := by
  have hcached := cached_turns hst hc ht ho.client
  have hafter := ho.after
  refine ⟨hafter, ho.client, hcached, fun c hmem => ?_⟩
  cases ht with
  | cleared hclear =>
      rw [hclear] at hafter
      cases hafter
  | kept hkept =>
      rw [hkept, ho.before] at hafter
      cases hafter
  | bound idHex' hb =>
      rw [(bind_fields hb).1, ho.before] at hafter
      cases hafter
  | opened idHex' t₁ p hb hown hiv =>
      -- the cipher of the new upload does not exist yet
      have hnone : t₁.uploadDecryptCipher = none :=
        (bind_fields hb).2.1.trans (hf.cipher ho.before)
      unfold acceptIv at hiv
      split_ifs at hiv
      cases hiv
      rw [show Transfer.uploadDecryptCipher _ = t₁.uploadDecryptCipher from rfl, hnone] at hmem
      cases hmem
  | went idHex' t₁ hb hactive hiv hclient hkey hcipher =>
      rw [(bind_fields hb).1, ho.before] at hactive
      cases hactive

/-- While the upload goes on its key stays, whatever the store holds. -/
theorem going_turns (h : Going idHex key t) (ht : Turns st t t')
    (hiv' : t'.transferIv.isSome = true) : Going idHex key t' := by
  have hsame {idHex' : String} {t₁ : Transfer} (hb : bindUpload st idHex' t = .ok t₁) : t₁ = t := by
    rcases bindUpload_ok hb with ⟨-, rfl⟩ | ⟨hnone, -⟩
    · rfl
    · rw [h.client] at hnone
      cases hnone
  cases ht with
  | cleared hclear =>
      rw [hclear] at hiv'
      cases hiv'
  | kept hkept => rwa [hkept]
  | bound idHex' hb => rwa [hsame hb]
  | opened idHex' t₁ p hb hown hiv =>
      rw [hsame hb] at hiv
      unfold acceptIv at hiv
      rw [if_pos (.inr h.iv)] at hiv
      cases hiv
  | went idHex' t₁ hb hactive hiv hclient hkey hcipher =>
      rw [hsame hb] at hclient hkey hcipher
      refine ⟨hiv', hclient.trans h.client, hkey.trans h.key_eq, fun c hc => ?_⟩
      rcases hcipher c hc with ⟨c₁, hc₁, hk⟩ | hk
      · exact hk.trans (h.cipher c₁ hc₁)
      · rw [hk, h.key_eq]
        rfl

end

/-! ### Runs -/

/-- A relogin of the client that passes its checks. -/
structure Rotates (env : Env) (s : System) (a : Arrival) (idHex : String) : Prop where
  code : (parseFrame a.frame).code = 827
  client : hex (parseFrame a.frame).clientId = idHex
  relogs : Relogs env (book s.store) (parseFrame a.frame)

/-- No relogin of the client in a run. -/
def Unrotated (env : Env) (s : System) (idHex : String) (bs : List Arrival) : Prop :=
  ∀ pre a post, bs = pre ++ a :: post → ¬ Rotates env (s.run env pre) a idHex

section
variable {env : Env} {b : Boot} {as bs : List Arrival} {idHex : String} {key : Bytes} {i : ℕ}

theorem unrotated_snoc {s : System} {a : Arrival} (h : Unrotated env s idHex (bs ++ [a])) :
    Unrotated env s idHex bs ∧ ¬ Rotates env (s.run env bs) a idHex := by
  constructor
  · rintro pre x post rfl
    exact h pre x (post ++ [a]) (by simp)
  · exact h bs a [] rfl

/-- The store keeps a client's keys until a relogin. -/
theorem storeKey_step {s : System} {a : Arrival} (hl : Linked s.store)
    (hpub : (publicKeyOf s.store idHex).isSome = true) (hst : StoreKey s.store idHex key)
    (hno : ¬ Rotates env s a idHex) : StoreKey (s.step env a).store idHex key := by
  obtain ⟨b64, hheld, hdecode⟩ := hst
  refine ⟨b64, ?_, hdecode⟩
  by_contra hchanged
  have hne : aesKeyOf ((s.step env a).world a.connection).store idHex ≠
      aesKeyOf (s.world a.connection).store idHex := by
    rw [show aesKeyOf (s.world a.connection).store idHex = some b64 from hheld]
    exact hchanged
  cases aesKey_step hl (step_world env hl a) hne with
  | relogin hid hcode hrelogs hanswer => exact hno ⟨hcode, hid, hrelogs⟩
  | enrolment hid hcode hmissing =>
      rcases hmissing with h | h
      · rw [show publicKeyOf s.store idHex = none from h] at hpub
        cases hpub
      · rw [show aesKeyOf s.store idHex = none from h] at hheld
        cases hheld

theorem publicKey_step {s : System} {a : Arrival} (hl : Linked s.store)
    (hpub : (publicKeyOf s.store idHex).isSome = true) :
    (publicKeyOf (s.step env a).store idHex).isSome = true := by
  obtain ⟨der, hder⟩ := Option.isSome_iff_exists.mp hpub
  rw [publicKeyOf_book] at hder
  obtain ⟨record, hf, hd⟩ := Option.bind_eq_some_iff.mp hder
  obtain ⟨record', hf', -, hkeep⟩ := record_run env hl hf [a]
  have hstep : (book (s.step env a).store).find idHex = some record' := hf'
  rw [publicKeyOf_book, hstep, Option.bind_some, hkeep der hd]
  rfl

theorem linked_boot (env : Env) (b : Boot) (as : List Arrival) :
    Linked (b.system.run env as).store := linked_run env (linked_initialized b.db) as

theorem storeKey_run (hpub : (publicKeyOf (b.system.run env as).store idHex).isSome = true)
    (hst : StoreKey (b.system.run env as).store idHex key)
    (hno : Unrotated env (b.system.run env as) idHex bs) :
    StoreKey (b.system.run env (as ++ bs)).store idHex key ∧
      (publicKeyOf (b.system.run env (as ++ bs)).store idHex).isSome = true := by
  induction bs using List.reverseRecOn with
  | nil => simpa using ⟨hst, hpub⟩
  | append_singleton bs a ih =>
      obtain ⟨hbefore, hlast⟩ := unrotated_snoc hno
      obtain ⟨hkey, hpublic⟩ := ih hbefore
      have hl := linked_boot env b (as ++ bs)
      rw [← List.append_assoc, run_snoc]
      rw [← run_append] at hlast
      exact ⟨storeKey_step hl hpublic hkey hlast, publicKey_step hl hpublic⟩

/-- A frame of any session, seen by the transfer of one. -/
theorem turns_run (env : Env) (b : Boot) (as : List Arrival) (a : Arrival) (i : ℕ) :
    Turns (b.system.run env as).store ((b.system.run env as).sessions i).transfer
      ((b.system.run env (as ++ [a])).sessions i).transfer := by
  rw [run_snoc]
  by_cases hi : i = a.connection
  · have hturns : Turns (b.system.run env as).store
        ((b.system.run env as).world a.connection).session.transfer
        (((b.system.run env as).step env a).world a.connection).session.transfer := by
      rw [world_step]
      exact turns_steps (begun_runs env b as _) (steps_of_sound (sound_runs env b as _) _)
    rw [hi]
    exact hturns
  · rw [sessions_step env hi]
    exact .kept rfl

theorem fitting_run (env : Env) (b : Boot) (as : List Arrival) (i : ℕ) :
    Fitting ((b.system.run env as).sessions i).transfer := by
  induction as using List.reverseRecOn with
  | nil => exact ⟨(fun h => by cases h), fun _ => rfl⟩
  | append_singleton as a ih => exact fitting_turns ih (turns_run env b as a i)

theorem cached_run (hpub : (publicKeyOf (b.system.run env as).store idHex).isSome = true)
    (hst : StoreKey (b.system.run env as).store idHex key)
    (hc : Cached idHex key ((b.system.run env as).sessions i).transfer)
    (hno : Unrotated env (b.system.run env as) idHex bs) :
    Cached idHex key ((b.system.run env (as ++ bs)).sessions i).transfer := by
  induction bs using List.reverseRecOn with
  | nil => simpa using hc
  | append_singleton bs a ih =>
      obtain ⟨hbefore, -⟩ := unrotated_snoc hno
      have hkey := (storeKey_run hpub hst hbefore).1
      rw [← List.append_assoc]
      exact cached_turns hkey (ih hbefore) (turns_run env b (as ++ bs) a i)

theorem going_run (hg : Going idHex key ((b.system.run env as).sessions i).transfer)
    (hiv : ∀ pre post, bs = pre ++ post →
      ((b.system.run env (as ++ pre)).sessions i).transfer.transferIv.isSome = true) :
    Going idHex key ((b.system.run env (as ++ bs)).sessions i).transfer := by
  induction bs using List.reverseRecOn with
  | nil => simpa using hg
  | append_singleton bs a ih =>
      have hbefore := ih fun pre post h => hiv pre (post ++ [a]) (by rw [h, List.append_assoc])
      have hafter := hiv (bs ++ [a]) [] (by simp)
      rw [← List.append_assoc] at hafter ⊢
      exact going_turns hbefore (turns_run env b (as ++ bs) a i) hafter

end

/-- A key response that carries a client's key under its public key. -/
def Delivers (env : Env) (st : Store) (clientId key m : Bytes) : Prop :=
  ∃ record der b64, st.getClientById (hex clientId) = some record ∧
    record.publicKeyDer = some der ∧ record.aesKeyB64 = some b64 ∧
    b64decode false b64 = some key ∧ Wrapped env clientId der key m

theorem storeKey_of_delivers {env : Env} {st : Store} {clientId key m : Bytes}
    (h : Delivers env st clientId key m) : StoreKey st (hex clientId) key ∧
      (publicKeyOf st (hex clientId)).isSome = true := by
  obtain ⟨record, der, b64, hrecord, hpub, haes, hdecode, -⟩ := h
  refine ⟨⟨b64, ?_, hdecode⟩, ?_⟩
  · rw [aesKeyOf, hrecord, Option.bind_some, haes]
  · rw [publicKeyOf, hrecord, Option.bind_some, hpub]
    rfl

/-- A key response delivers the key that the store holds for the client. -/
theorem delivers_of_sent (env : Env) (b : Boot) (as : List Arrival) (a : Arrival) {m : Bytes}
    (hm : m ∈ (b.system.run env as).sentBy env a) (hc : Coded .aesKey m ∨ Coded .reloginOk m) :
    ∃ key, Delivers env (b.system.run env (as ++ [a])).store (parseFrame a.frame).clientId
      key m := by
  have hl := linked_boot env b as
  obtain ⟨record, hrecord, der, b64, key, hpub, haes, hdecode, hwrapped⟩ :=
    wraps_step (w := (b.system.run env as).world a.connection) hl (step_world env hl a) hm hc
  rw [run_snoc]
  exact ⟨key, record, der, b64, hrecord, hpub, haes, hdecode, hwrapped⟩

/-- Every key response of a session delivers a key `key` for the client of its
request. Unless a relogin of that client is accepted on some session, every upload
of that client that the session opens later, with a client bound after the response,
has `key` as its key as long as it goes on. -/
theorem upload_key_agreement (env : Env) (b : Boot) (as : List Arrival) (a : Arrival) (m : Bytes)
    (hm : m ∈ (b.system.run env as).sentBy env a) (hc : Coded .aesKey m ∨ Coded .reloginOk m) :
    ∃ key, Delivers env (b.system.run env (as ++ [a])).store (parseFrame a.frame).clientId key m ∧
      ∀ pre post x cs,
        Unrotated env (b.system.run env (as ++ [a])) (hex (parseFrame a.frame).clientId)
          (pre ++ post) →
        ((b.system.run env (as ++ [a] ++ pre)).sessions
          a.connection).transfer.uploadClientIdHex = none →
        Opens (hex (parseFrame a.frame).clientId)
          ((b.system.run env (as ++ [a] ++ (pre ++ post))).sessions a.connection).transfer
          ((b.system.run env (as ++ [a] ++ (pre ++ post) ++ [x])).sessions a.connection).transfer →
        (∀ cs₁ cs₂, cs = cs₁ ++ cs₂ →
          ((b.system.run env (as ++ [a] ++ (pre ++ post) ++ [x] ++ cs₁)).sessions
            a.connection).transfer.transferIv.isSome = true) →
        ((b.system.run env (as ++ [a] ++ (pre ++ post) ++ [x] ++ cs)).sessions
            a.connection).transfer.uploadAesKey = some key ∧
          ∀ cipher ∈ ((b.system.run env (as ++ [a] ++ (pre ++ post) ++ [x] ++ cs)).sessions
            a.connection).transfer.uploadDecryptCipher, cipher.key = key := by
  obtain ⟨key, hdeliver⟩ := delivers_of_sent env b as a hm hc
  refine ⟨key, hdeliver, fun pre post x cs hno hunbound hopens hgoing => ?_⟩
  obtain ⟨hstore, hpublic⟩ := storeKey_of_delivers hdeliver
  -- the store's key up to the moment when the session is unbound, and from there on
  have hpre : Unrotated env (b.system.run env (as ++ [a]))
      (hex (parseFrame a.frame).clientId) pre := by
    rintro p y q rfl
    exact hno p y (q ++ post) (by simp)
  have hpost : Unrotated env (b.system.run env (as ++ [a] ++ pre))
      (hex (parseFrame a.frame).clientId) post := by
    rintro p y q rfl
    have hrun : (b.system.run env (as ++ [a])).run env (pre ++ p) =
        (b.system.run env (as ++ [a] ++ pre)).run env p := by
      rw [run_append, run_append b.system (as ++ [a]) pre]
    rw [← hrun]
    exact hno (pre ++ p) y q (by simp)
  obtain ⟨hmid, hmidPublic⟩ := storeKey_run hpublic hstore hpre
  have hcached : Cached (hex (parseFrame a.frame).clientId) key
      ((b.system.run env (as ++ [a] ++ pre)).sessions a.connection).transfer := by
    intro hid
    rw [hunbound] at hid
    cases hid
  have hlate := cached_run hmidPublic hmid hcached hpost
  have hheld := (storeKey_run hpublic hstore hno).1
  rw [List.append_assoc] at hlate
  have hgo := going_opens hheld hlate (fitting_run env b _ _) (turns_run env b _ x _) hopens
  have hend := going_run hgo hgoing
  exact ⟨hend.key_eq, hend.cipher⟩

/-! ### A relogin on another connection -/

/-- A library that accepts every public key and pads the wrapped key to 256 bytes. -/
def reloginEnv : Env :=
  { plainEnv with
    rsaImport := fun _ => some { hasPrivate := false, sizeInBits := 2048, e := 65537 }
    oaepEncrypt := fun _ key => some (key ++ List.replicate 224 0) }

/-- A server that knows one client with a public key. -/
def keyedBoot : Boot :=
  { aliceBoot with
    db := { aliceDb with
      clients := [{ alice with publicKeyDer := some [1] }]
      ids_unique := by simp
      usernames_unique := by simp } }

/-- The handshake of a connection. -/
def handshakeOn (i : ℕ) : List Arrival := (aliceUpload.take 2).map (onConnection i)

def reloginOn (i : ℕ) : Arrival := onConnection i (aliceRequest 827 (utf8Encode "alice"))

/-- Packets 0 and 1 on connection 0. -/
def openPacket : Arrival := onConnection 0 (alicePacket 0 (List.replicate 16 9))

def nextPacket : Arrival := onConnection 0 (alicePacket 1 (List.replicate 16 65))

/-- The 1605 of the relogin on connection 0. -/
def reloginAnswer : Bytes :=
  ((keyedBoot.system.run reloginEnv (handshakeOn 0 ++ handshakeOn 1)).sentBy reloginEnv
    (reloginOn 0)).headD []

theorem reloginAnswer_sent :
    reloginAnswer ∈ (keyedBoot.system.run reloginEnv (handshakeOn 0 ++ handshakeOn 1)).sentBy
      reloginEnv (reloginOn 0) ∧ Coded .reloginOk reloginAnswer := by
  decide +kernel

/-- What connection 1 sends after the 1605: a registration under another name, and a
relogin of the client under that name. -/
def otherRequests : List Arrival :=
  [onConnection 1 (aliceRequest 825 (utf8Encode "bob")),
    onConnection 1 (aliceRequest 827 (utf8Encode "bob"))]

/-- A relogin passes only under a name of the client. -/
theorem not_relogs_of_name {env : Env} {b : Book} {r : Request}
    (h : ((utf8Decode (rstripNul r.payload)).bind fun name => b.findName (strip name)).map
      ClientRecord.clientIdHex ≠ some (hex r.clientId)) : ¬ Relogs env b r := by
  rintro ⟨rawName, record, -, -, hname, hfind, hid, -⟩
  apply h
  rw [hname, Option.bind_some, hfind, Option.map_some, hid]

theorem upload_key_agreement_alice :
    ∃ key, Delivers reloginEnv (keyedBoot.system.run reloginEnv (handshakeOn 0 ++ handshakeOn 1 ++
        [reloginOn 0])).store (parseFrame (reloginOn 0).frame).clientId key reloginAnswer ∧
      ((keyedBoot.system.run reloginEnv (handshakeOn 0 ++ handshakeOn 1 ++ [reloginOn 0] ++
        otherRequests)).store.clientExistsByUsername "bob" = true) ∧
      ((keyedBoot.system.run reloginEnv (handshakeOn 0 ++ handshakeOn 1 ++ [reloginOn 0] ++
        otherRequests ++ [openPacket] ++ [nextPacket])).sessions 0).transfer.uploadAesKey =
          some key := by
  obtain ⟨hsent, hcoded⟩ := reloginAnswer_sent
  obtain ⟨key, hdeliver, hkey⟩ := upload_key_agreement reloginEnv keyedBoot
    (handshakeOn 0 ++ handshakeOn 1) (reloginOn 0) reloginAnswer hsent (.inr hcoded)
  refine ⟨key, hdeliver, by decide +kernel, ?_⟩
  have hall := hkey (otherRequests.take 1) (otherRequests.drop 1) openPacket [nextPacket]
  rw [List.take_append_drop, show (reloginOn 0).connection = 0 from rfl] at hall
  refine (hall ?_ ?_ ?_ ?_).1
  · rintro (_ | ⟨y, _ | ⟨z, zs⟩⟩) a post h
    · cases h
      rintro ⟨hcode, -⟩
      revert hcode
      decide +kernel
    · cases h
      exact fun hrotates => not_relogs_of_name (by decide +kernel) hrotates.relogs
    · simp [otherRequests] at h
  · decide +kernel
  · exact ⟨by decide +kernel, by decide +kernel, by decide +kernel⟩
  · rintro (_ | ⟨y, _ | ⟨z, zs⟩⟩) cs₂ h
    · decide +kernel
    · cases h
      decide +kernel
    · simp at h

/-- A relogin on connection 0, one on connection 1, then packet 0 on connection 0:
the upload has the key that went to connection 1. -/
theorem relogin_elsewhere_changes_key :
    ∃ key, Delivers reloginEnv (keyedBoot.system.run reloginEnv (handshakeOn 0 ++ handshakeOn 1 ++
        [reloginOn 0])).store (parseFrame (reloginOn 0).frame).clientId key reloginAnswer ∧
      (∀ m ∈ (keyedBoot.system.run reloginEnv (handshakeOn 0 ++ handshakeOn 1 ++ [reloginOn 0] ++
        [reloginOn 1])).sentBy reloginEnv openPacket, ¬ Coded .aesKey m ∧ ¬ Coded .reloginOk m) ∧
      Opens (hex aliceId)
        ((keyedBoot.system.run reloginEnv (handshakeOn 0 ++ handshakeOn 1 ++ [reloginOn 0] ++
          [reloginOn 1])).sessions 0).transfer
        ((keyedBoot.system.run reloginEnv (handshakeOn 0 ++ handshakeOn 1 ++ [reloginOn 0] ++
          [reloginOn 1] ++ [openPacket])).sessions 0).transfer ∧
      ((keyedBoot.system.run reloginEnv (handshakeOn 0 ++ handshakeOn 1 ++ [reloginOn 0] ++
        [reloginOn 1] ++ [openPacket])).sessions 0).transfer.uploadAesKey ≠ some key := by
  obtain ⟨hsent, hcoded⟩ := reloginAnswer_sent
  obtain ⟨key, hdeliver⟩ := delivers_of_sent reloginEnv keyedBoot (handshakeOn 0 ++ handshakeOn 1)
    (reloginOn 0) hsent (.inr hcoded)
  refine ⟨key, hdeliver, by decide +kernel,
    ⟨by decide +kernel, by decide +kernel, by decide +kernel⟩, fun hsame => ?_⟩
  obtain ⟨⟨b64, hheld, hdecode⟩, -⟩ := storeKey_of_delivers hdeliver
  have hkey : (aesKeyOf (keyedBoot.system.run reloginEnv (handshakeOn 0 ++ handshakeOn 1 ++
      [reloginOn 0])).store (hex (parseFrame (reloginOn 0).frame).clientId)).bind
        (b64decode false) = some key := by rw [hheld, Option.bind_some, hdecode]
  exact absurd (hkey.trans hsame.symm) (by decide +kernel)

end Seftp.KeyAgreement
