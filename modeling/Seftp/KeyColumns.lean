import Seftp.KeyAgreement
import Seftp.Restarts

/-!
# The key columns of the clients table

A key is written to the client's row, committed, and then given to the record that the
index holds. So a key that the index knows is in the row, whatever fails, while a commit
that raises leaves a row with a key that the index does not know. Which requests write a
column is read off the handlers.
-/
namespace Seftp.KeyColumns
open LittleEndian ExceptState OutsideWorld Text Protocol ClientStore StoreFrames ServerSession
open Answers SessionFrames HandlerFrames Router KeyedRows KeySteps KeyBinding StoreParts Restarts
open UploadSlot (plainEnv aliceId aliceRequest)
open Confirmations (aliceBoot onConnection)
open KeyAgreement (reloginEnv keyedBoot handshakeOn)

/-- A column of the row with an id. -/
def column {β : Type} (g : ClientRecord → Option β) (db : Database) (idHex : String) : Option β :=
  (db.clients.find? fun r => r.clientIdHex = idHex).bind g

/-- The column `public_key_der`. -/
def publicKeyIn (db : Database) (idHex : String) : Option Bytes :=
  column ClientRecord.publicKeyDer db idHex

/-- The column `aes_key_b64`. -/
def aesKeyIn (db : Database) (idHex : String) : Option String :=
  column ClientRecord.aesKeyB64 db idHex

/-! ### What writes a column -/

/-- The column has changed for none but the ids `may`. -/
def KeepsColumn {β : Type} (g : ClientRecord → Option β) (may : String → Prop)
    (st st' : Store) : Prop :=
  ∀ idHex, ¬ may idHex → column g st'.working idHex = column g st.working idHex

section
variable {β : Type} {g : ClientRecord → Option β} {may : String → Prop} {db db' : Database}

instance : Std.Refl (KeepsColumn g may) := ⟨fun _ _ _ => rfl⟩

instance : IsTrans Store (KeepsColumn g may) :=
  ⟨fun _ _ _ h h' id hid => (h' id hid).trans (h id hid)⟩

/-- Times last seen are no part of it. -/
theorem column_forget (hg : ∀ r, g (forgetSeen r) = g r) (db : Database) (idHex : String) :
    column g db idHex =
      ((db.clients.map forgetSeen).find? fun r => r.clientIdHex = idHex).bind g := by
  rw [column, List.find?_map, Option.bind_map]
  exact congrArg (Option.bind _) (funext fun r => (hg r).symm)

theorem column_of_row (hg : ∀ r, g (forgetSeen r) = g r) {row : ClientRecord} {idHex : String}
    (hrow : row ∈ db.clients.map forgetSeen) (hid : row.clientIdHex = idHex) :
    column g db idHex = g row := by
  obtain ⟨r, hr, rfl⟩ := List.mem_map.mp hrow
  rw [column, (find_key db.ids_unique).mpr ⟨hr, hid⟩, Option.bind_some, hg]

/-- The rows are as before, up to times last seen. -/
theorem column_rows {st st' : Store} {us : List UploadRow} (hg : ∀ r, g (forgetSeen r) = g r)
    (h : StoreFrames.core st' = { StoreFrames.core st with uploads := us }) :
    KeepsColumn g may st st' := by
  intro idHex _
  rw [column_forget hg, column_forget hg]
  exact congrArg (fun rows : List ClientRecord =>
    (rows.find? fun r => r.clientIdHex = idHex).bind g) (congrArg StoreFrames.Core.clients h)

/-- A new row has no keys. -/
theorem column_insert {r : ClientRecord} (hnone : g r = none) (h : db.insertClient r = some db')
    (idHex : String) : column g db' idHex = column g db idHex := by
  obtain ⟨-, -, hclients, -⟩ := insertClient_some h
  have hsame (found : Option ClientRecord) :
      (found.or ([r].find? fun r => r.clientIdHex = idHex)).bind g = found.bind g := by
    rcases found with _ | row
    · rw [Option.none_or, List.find?_singleton]
      split_ifs
      · exact hnone
      · rfl
    · rfl
  rw [column, column, hclients, List.find?_append]
  exact hsame _

/-- An update of another row, or of another column. -/
theorem column_update {id idHex : String} {f : ClientField}
    (hother : id ≠ idHex ∨ ∀ r : ClientRecord, g (r.set f) = g r) :
    column g (db.updateClient id f) idHex = column g db idHex := by
  have hkey : ((fun r : ClientRecord => decide (r.clientIdHex = idHex)) ∘
      fun r => if r.clientIdHex = id then r.set f else r) =
        fun r => decide (r.clientIdHex = idHex) := by
    funext r
    simp only [Function.comp]
    split_ifs
    · rw [ClientRecord.set_clientIdHex]
    · rfl
  have hrows : (db.updateClient id f).clients.find? (fun r => r.clientIdHex = idHex) =
      (db.clients.find? fun r => r.clientIdHex = idHex).map
        fun r => if r.clientIdHex = id then r.set f else r := by
    rw [Database.updateClient, List.find?_map, hkey]
  have hsame (found : Option ClientRecord) (hfound : ∀ row ∈ found, row.clientIdHex = idHex) :
      (found.map fun r => if r.clientIdHex = id then r.set f else r).bind g = found.bind g := by
    rcases found with _ | row
    · rfl
    rw [Option.map_some, Option.bind_some, Option.bind_some]
    split_ifs with hid
    · exact (hother.resolve_left fun hne => hne (hid.symm.trans (hfound row rfl))) row
    · rfl
  rw [column, column, hrows]
  exact hsame _ fun row hrow => ((find_key db.ids_unique).mp hrow).2

/-- A key call, on a column that it does not write or for an id that may change. -/
theorem column_setKey {o : Outside} {id : String} {f : ClientField}
    (hother : may id ∨ ∀ r : ClientRecord, g (r.set f) = g r) :
    Keeps (KeepsColumn g may) (setClientField o id f) := by
  refine keeps_of_wp fun st => ?_
  have hupdate (idHex : String) (hno : ¬ may idHex) :
      column g (st.working.updateClient id f) idHex = column g st.working idHex := by
    apply column_update
    rcases hother with hmay | hsame
    · exact .inl fun he => hno (he ▸ hmay)
    · exact .inr hsame
  exact wp_setClientField (fun _ _ _ => rfl) (fun _ _ => rfl) hupdate (fun _ => hupdate)
    (fun _ _ => hupdate) fun _ _ _ => hupdate

/-- The calls of a frame on a column of keys. -/
theorem parts_column {ctx : Ctx} {binds renews : String → Prop}
    (hseen : ∀ r, g (forgetSeen r) = g r)
    (hnew : ∀ r : ClientRecord, r.publicKeyDer = none → r.aesKeyB64 = none → g r = none)
    (hpub : (∀ id, binds id → may id) ∨ ∀ der (r : ClientRecord),
      g (r.set (.publicKeyDer der)) = g r)
    (haes : (∀ id, renews id → may id) ∨ ∀ b64 (r : ClientRecord),
      g (r.set (.aesKeyB64 b64)) = g r) :
    CallParts ctx binds renews (KeepsColumn g may) where
  seen st st' hs := column_rows hseen hs.core_eq
  createClient name := by
    refine keeps_of_wp fun st => ?_
    have hinsert (db : Database)
        (h : st.working.insertClient (newClient ctx.out st.calls name) = some db) :
        ∀ idHex, ¬ may idHex → column g db idHex = column g st.working idHex :=
      fun idHex _ => column_insert (hnew _ rfl rfl) h idHex
    exact wp_createClient (fun _ _ _ => rfl) (fun _ _ => rfl) hinsert hinsert
  setClientAesKey idHex b64 hrenews :=
    column_setKey (haes.imp (fun h => h idHex hrenews) fun h => h b64)
  setClientPublicKey idHex der st hbinds _ :=
    column_setKey (hpub.imp (fun h => h idHex hbinds) fun h => h der) st
  createUploadRecord id name orig cipher := by
    refine keeps_of_wp fun st => ?_
    refine wp_mono wp_createUploadRecord ?_ ?_
    · rintro _ u (⟨-, -, rfl⟩ | ⟨-, -, hrow⟩)
      · exact fun _ _ => rfl
      · exact column_rows hseen hrow
    · rintro _ u (hsame | hrow)
      · exact column_rows hseen hsame
      · exact column_rows hseen hrow
  changeUploadRecord id c := by
    refine keeps_of_wp fun st => ?_
    refine wp_mono wp_changeUploadRecord ?_ ?_
    · rintro _ u (⟨-, -, rfl⟩ | ⟨-, -, hrow⟩)
      · exact fun _ _ => rfl
      · exact column_rows hseen hrow
    · rintro _ u (hsame | hrow)
      · exact column_rows hseen hsame
      · exact column_rows hseen hrow

end

/-! ### Runs -/

section
variable {env : Env} {s : System} {a : Arrival} {idHex : String}

/-- A public key is written by an 826 that finds none. -/
theorem publicKeyIn_step
    (h : publicKeyIn (s.step env a).store.working idHex ≠ publicKeyIn s.store.working idHex) :
    Binds s.store (parseFrame a.frame) idHex := by
  by_contra hno
  have hparts : CallParts ⟨env, a.out⟩ (Binds s.store (parseFrame a.frame))
      (Renews env s.store (parseFrame a.frame))
      (KeepsColumn ClientRecord.publicKeyDer (Binds s.store (parseFrame a.frame))) :=
    parts_column (fun _ => rfl) (fun _ hpub _ => hpub) (.inl fun _ hb => hb) (.inr fun _ _ => rfl)
  exact h (stores_handleFrame (w := s.world a.connection) hparts (fun _ hb => hb) (fun _ hr => hr)
    idHex hno)

/-- An AES key is written by an 827 that passes every check or by an 826 that finds a
key missing. -/
theorem aesKeyIn_step
    (h : aesKeyIn (s.step env a).store.working idHex ≠ aesKeyIn s.store.working idHex) :
    Renews env s.store (parseFrame a.frame) idHex := by
  by_contra hno
  have hparts : CallParts ⟨env, a.out⟩ (Binds s.store (parseFrame a.frame))
      (Renews env s.store (parseFrame a.frame))
      (KeepsColumn ClientRecord.aesKeyB64 (Renews env s.store (parseFrame a.frame))) :=
    parts_column (fun _ => rfl) (fun _ _ haes => haes) (.inr fun _ _ => rfl) (.inl fun _ hr => hr)
  exact h (stores_handleFrame (w := s.world a.connection) hparts (fun _ hb => hb) (fun _ hr => hr)
    idHex hno)

/-- The row has the key that the index knows. -/
theorem publicKeyIn_of_backs {st : Store} {db : Database} (h : Backs Vouches db (book st))
    {der : Bytes} (hder : publicKeyOf st idHex = some der) : publicKeyIn db idHex = some der := by
  rw [publicKeyOf_book] at hder
  obtain ⟨r, hr, hpub⟩ := Option.bind_eq_some_iff.mp hder
  obtain ⟨row, hrow, hid, hv⟩ := h idHex r hr
  exact (column_of_row (fun _ => rfl) hrow hid).trans (hv.publicKey der hpub)

/-- While SQL calls work the index knows the key of the row. -/
theorem publicKeyIn_of_mirrored {st : Store} (h : Mirrored st) (idHex : String) :
    publicKeyIn st.working idHex = publicKeyOf st idHex := by
  rw [publicKeyOf_book]
  rcases hf : (book st).find idHex with _ | r
  · have hno : st.working.clients.find? (fun r => decide (r.clientIdHex = idHex)) = none := by
      rw [List.find?_eq_none]
      intro row hrow hid
      have hin : idHex ∈ st.working.clients.map ClientRecord.clientIdHex :=
        of_decide_eq_true hid ▸ List.mem_map_of_mem hrow
      obtain ⟨i, hi⟩ := Option.isSome_iff_exists.mp (indexed_iff.mp h.indexed idHex hin)
      obtain ⟨r, hr, -⟩ := h.held.linked.indices.byId idHex i hi
      cases hf.symm.trans (Book.find_eq_some.mpr ⟨h.connected, i, hi, hr⟩)
    rw [publicKeyIn, column, hno, Option.bind_none]
  · obtain ⟨row, hrow, hid, rfl⟩ := h.held.working idHex r hf
    exact column_of_row (fun _ => rfl) hrow hid

end

/-- One SQL call of the frame fails. -/
def sqlFailsAt (n : ℕ) : Outside := { calm with sqlRaises := fun k => k == n }

/-- The relogin of the client. -/
def reloginIn (o : Outside) : Arrival :=
  onConnection 0 (o, (aliceRequest 827 (utf8Encode "alice")).2)

/-- The enrolment of a key, in Base64. -/
def enrolIn (o : Outside) (b64 : String) : Arrival :=
  onConnection 0 (o, (aliceRequest 826 (utf8Encode "alice" ++ [0] ++ utf8Encode b64)).2)

end Seftp.KeyColumns
