import Seftp.Confirmations
import Seftp.StoreParts
import Seftp.StoreRuns
import Seftp.UploadSoundness

/-!
# Lives of the server

The server is killed or stopped between two frames and started again on the same
database, any number of times. What was not committed is lost, the indices are loaded
from the table, and every connection is new.

A call writes the table, commits, and only then changes the index. So what the index
knows of a client, its id, its name and its public key, is durable, also if SQL calls
fail; where they work, so is its AES key.
-/
namespace Seftp.Restarts
open LittleEndian ExceptState OutsideWorld Text Protocol ClientStore StoreFrames ServerSession
open SessionFrames Router KeyedRows KeySteps KeyBinding RowSteps UploadSoundness StoreRuns
open StoreParts

/-! ### Records with a row -/

/-- Every record of the index has a row that stands for it. -/
def Backs (P : ClientRecord → ClientRecord → Prop) (db : Database) (b : Book) : Prop :=
  ∀ idHex r, b.find idHex = some r →
    ∃ row ∈ db.clients.map forgetSeen, row.clientIdHex = idHex ∧ P row r

/-- A row that stands for the identity of a client. -/
structure Vouches (row r : ClientRecord) : Prop where
  username : row.username = r.username
  publicKey : ∀ der, r.publicKeyDer = some der → row.publicKeyDer = some der

theorem Vouches.refl (r : ClientRecord) : Vouches r r := ⟨rfl, fun _ h => h⟩

/-- Rows stand for the records, also those that are durable, and no durable row is
missing from the connection's view. -/
structure Held (P : ClientRecord → ClientRecord → Prop) (st : Store) : Prop where
  linked : Linked st
  working : Backs P st.working (book st)
  committed : Backs P st.committed (book st)
  older : ∀ id ∈ st.committed.clients.map ClientRecord.clientIdHex, id ∈ rowIds st

section
variable {P : ClientRecord → ClientRecord → Prop} {o : Outside} {st st' : Store} {db db' : Database}
variable {b : Book} {idHex : String} {f : ClientField}

theorem Backs.of_rows (h : Backs P db b)
    (hrows : db'.clients.map forgetSeen = db.clients.map forgetSeen) : Backs P db' b := by
  intro id r hr
  rw [hrows]
  exact h id r hr

theorem ids_forget (db : Database) : db.clients.map ClientRecord.clientIdHex =
    (db.clients.map forgetSeen).map ClientRecord.clientIdHex := by
  rw [List.map_map]
  rfl

/-- The same index over the same clients. -/
theorem held_same (h : Held P st) (hbook : book st' = book st)
    (hworking : st'.working.clients.map forgetSeen = st.working.clients.map forgetSeen)
    (hnames : rowNames st' = rowNames st)
    (hcommitted : st'.committed.clients.map forgetSeen = st.committed.clients.map forgetSeen ∨
      st'.committed.clients.map forgetSeen = st.working.clients.map forgetSeen) : Held P st' := by
  have hids : rowIds st' = rowIds st := by
    rw [rowIds, rowIds, ids_forget, ids_forget, hworking]
  refine ⟨⟨hbook ▸ h.linked.indices, fun id hid => ?_, fun name hname => ?_⟩, ?_, ?_,
    fun id hid => ?_⟩
  · change ((book st').byId id).isSome = true at hid
    rw [hbook] at hid
    rw [hids]
    exact h.linked.ids id hid
  · change ((book st').byName name).isSome = true at hname
    rw [hbook] at hname
    rw [hnames]
    exact h.linked.names name hname
  · rw [hbook]
    exact h.working.of_rows hworking
  · rw [hbook]
    rcases hcommitted with hc | hc
    · exact h.committed.of_rows hc
    · exact h.working.of_rows hc
  · rw [ids_forget] at hid
    rw [hids]
    rcases hcommitted with hc | hc
    · rw [hc, ← ids_forget] at hid
      exact h.older id hid
    · rw [hc, ← ids_forget] at hid
      exact hid

theorem held_seen (h : Held P st) (hs : SeenOnly st st') : Held P st' := by
  have hworking := (sameButSeen_working hs.core_eq).1
  have hnames (u : Store) : rowNames u =
      (u.working.clients.map forgetSeen).map ClientRecord.username := by
    rw [rowNames, List.map_map]
    rfl
  refine held_same h (book_seen hs) hworking (by rw [hnames, hnames, hworking]) ?_
  exact hs.committed.imp And.left And.left

/-! ### A column of a client -/

theorem rows_update (hf : IsKey f) (db : Database) :
    (db.updateClient idHex f).clients.map forgetSeen =
      (db.clients.map forgetSeen).map fun r => if r.clientIdHex = idHex then r.set f else r := by
  simp only [Database.updateClient, List.map_map]
  apply List.map_congr_left
  intro r _
  simp only [Function.comp]
  by_cases hid : r.clientIdHex = idHex
  · rw [if_pos hid, if_pos (show (forgetSeen r).clientIdHex = idHex from hid), hf r]
  · rw [if_neg hid, if_neg (show ¬ (forgetSeen r).clientIdHex = idHex from hid)]

theorem book_modify (hf : IsKey f) {ref : ℕ} (href : st.clientsById idHex = some ref)
    (hid : st'.clientsById = st.clientsById) (hname : st'.clientsByUsername = st.clientsByUsername)
    (hc : st'.connected = st.connected) (hr : st'.records = st.records.modify ref (·.set f)) :
    book st' = (book st).set idHex f := by
  have hset : (book st).set idHex f =
      { book st with records := (book st).records.modify ref (·.set f) } := by
    unfold Book.set
    rw [show (book st).byId idHex = some ref from href]
  rw [hset]
  simp only [book, hid, hname, hc, hr, Book.mk.injEq, true_and]
  apply List.ext_getElem?
  intro n
  simp only [List.getElem?_map, List.getElem?_modify]
  rcases st.records[n]? with _ | r
  · rfl
  · simp only [Option.map_some, Option.map_eq_map]
    split
    · simp [hf r]
    · rfl

/-- The row has its new value and the record its old one. -/
theorem backs_half (h : Backs P db b) (hf : IsKey f)
    (hp : ∀ row r, b.find idHex = some r → row ∈ db.clients.map forgetSeen →
      row.clientIdHex = idHex → P row r → P (row.set f) r) :
    Backs P (db.updateClient idHex f) b := by
  intro id r hr
  obtain ⟨row, hrow, hid, hrp⟩ := h id r hr
  rw [rows_update hf]
  refine ⟨_, List.mem_map_of_mem hrow, ?_⟩
  by_cases hsame : row.clientIdHex = idHex
  · rw [if_pos hsame, ClientRecord.set_clientIdHex]
    have hidEq : id = idHex := hid.symm.trans hsame
    subst hidEq
    exact ⟨hid, hp row r hr hrow hsame hrp⟩
  · rw [if_neg hsame]
    exact ⟨hid, hrp⟩

/-- Both have their new value. -/
theorem backs_set (h : Backs P db b) (hl : b.Linked) (hf : IsKey f)
    (hp : ∀ row r, P row r → P (row.set f) (r.set f)) :
    Backs P (db.updateClient idHex f) (b.set idHex f) := by
  intro id r hr
  rw [Book.find_set hl] at hr
  obtain ⟨r₀, hr₀, rfl⟩ := Option.map_eq_some_iff.mp hr
  obtain ⟨row, hrow, hid, hrp⟩ := h id r₀ hr₀
  rw [rows_update hf]
  refine ⟨_, List.mem_map_of_mem hrow, ?_⟩
  by_cases hsame : id = idHex
  · rw [if_pos (hid.trans hsame), if_pos hsame, ClientRecord.set_clientIdHex]
    exact ⟨hid, hp row r₀ hrp⟩
  · rw [if_neg fun he => hsame (hid.symm.trans he), if_neg hsame]
    exact ⟨hid, hrp⟩

/-- A key column is written and committed, then the record; a commit that fails leaves
the row ahead of the record. -/
theorem wp_heldKey (o : Outside) (idHex : String) (half : Prop) (h : Held P st) (hf : IsKey f)
    (hset : ∀ row r, P row r → P (row.set f) (r.set f))
    (hhalf : half → ∀ row r, (book st).find idHex = some r → P row r → P (row.set f) r) :
    wp (setClientField o idHex f) (fun _ u => Held P u) (fun _ u => half → Held P u) st := by
  have hcalls (n : ℕ) : Held P { st with calls := n } :=
    ⟨⟨h.linked.indices, h.linked.ids, h.linked.names⟩, h.working, h.committed, h.older⟩
  have hlinked {u : Store} (hw : u.working = st.working.updateClient idHex f)
      (hb : book u = book st)
      (hi : u.clientsById = st.clientsById) : Linked u :=
    linked_same h.linked (o := o) (changes_of_update (g := id) hw hb hi)
  have hids : (st.working.updateClient idHex f).clients.map ClientRecord.clientIdHex = rowIds st :=
    updateClient_ids ..
  -- the row is written and committed for a client that the index does not know
  have hunknown (hp : ∀ row r, (book st).find idHex = some r →
      row ∈ st.working.clients.map forgetSeen →
      row.clientIdHex = idHex → P row r → P (row.set f) r) (n : ℕ) :
      Held P { st with calls := n, working := st.working.updateClient idHex f,
                       committed := st.working.updateClient idHex f } :=
    ⟨hlinked rfl rfl rfl, backs_half h.working hf hp, backs_half h.working hf hp, fun _ hid => hid⟩
  apply wp_setClientField
  · exact fun _ => h
  · exact fun _ => hcalls _
  · intro hh
    refine ⟨hlinked rfl rfl rfl, backs_half h.working hf fun row r hr _ _ => hhalf hh row r hr,
      h.committed, fun id hid => ?_⟩
    change id ∈ (st.working.updateClient idHex f).clients.map ClientRecord.clientIdHex
    rw [hids]
    exact h.older id hid
  · intro hzero
    refine hunknown (fun row r _ hrow hid => ?_) _
    obtain ⟨r', hr', rfl⟩ := List.mem_map.mp hrow
    have hpos : 0 < st.working.clientRows idHex :=
      List.length_pos_of_mem (List.mem_filter.mpr ⟨hr', decide_eq_true hid⟩)
    omega
  · intro hnone _ _
    refine hunknown (fun row r hr _ _ => ?_) _
    obtain ⟨-, i, hi, -⟩ := Book.find_eq_some.mp hr
    cases hnone.symm.trans (show st.clientsById idHex = some i from hi)
  · intro ref href _
    have hbook : book { st with calls := st.calls + 2, working := st.working.updateClient idHex f,
                                committed := st.working.updateClient idHex f,
                                records := st.records.modify ref (·.set f) } =
        (book st).set idHex f := book_modify hf href rfl rfl rfl rfl
    refine ⟨?_, ?_, ?_, fun _ hid => hid⟩
    · exact linked_setField h.linked (o := o) (changes_of_update rfl hbook rfl)
    · rw [hbook]
      exact backs_set h.working h.linked.indices hf hset
    · rw [hbook]
      exact backs_set h.working h.linked.indices hf hset

/-! ### The other calls -/

/-- A row joins the table. -/
theorem Backs.append (h : Backs P db b) {r : ClientRecord}
    (hrows : db'.clients = db.clients ++ [r]) :
    Backs P db' b := by
  intro id r' hr
  obtain ⟨row, hrow, hid, hp⟩ := h id r' hr
  refine ⟨row, ?_, hid, hp⟩
  rw [hrows, List.map_append]
  exact List.mem_append_left _ hrow

theorem held_createClient (hp : ∀ r, P r r) (name : String) :
    Keeps (fun st st' => Held P st → Held P st') (createClient o name) := by
  refine keeps_of_wp fun st => ?_
  have hadds {db : Database} (h : Held P st)
      (hdb : st.working.insertClient (newClient o st.calls name) = some db) :
      Backs P db (book st) ∧ rowIds st ⊆ db.clients.map ClientRecord.clientIdHex ∧
        rowNames st ⊆ db.clients.map ClientRecord.username := by
    obtain ⟨-, -, hclients, -⟩ := insertClient_some hdb
    refine ⟨h.working.append hclients, ?_, ?_⟩
    · rw [hclients, List.map_append]
      exact List.subset_append_left _ _
    · rw [hclients, List.map_append]
      exact List.subset_append_left _ _
  apply wp_createClient
  · exact fun _ h => h
  · exact fun h => ⟨⟨h.linked.indices, h.linked.ids, h.linked.names⟩, h.working,
      h.committed, h.older⟩
  · intro db hdb h
    obtain ⟨hbacks, hids, hnames⟩ := hadds h hdb
    exact ⟨⟨h.linked.indices, fun id hid => hids (h.linked.ids id hid),
      fun name hname => hnames (h.linked.names name hname)⟩, hbacks, h.committed,
      fun id hid => hids (h.older id hid)⟩
  · intro db hdb h
    obtain ⟨hbacks, hids, hnames⟩ := hadds h hdb
    obtain ⟨hnewId, hnewName, hclients, -⟩ := insertClient_some hdb
    have hbook :
        book (Store.indexPut { st with calls := st.calls + 2, working := db, committed := db }
        (newClient o st.calls name)) = (book st).put (forgetSeen (newClient o st.calls name)) := by
      simp only [book, Book.put, Store.indexPut, List.map_append, List.map_singleton,
        List.length_map]
      rfl
    have hrow : forgetSeen (newClient o st.calls name) ∈ db.clients.map forgetSeen := by
      rw [hclients, List.map_append]
      exact List.mem_append_right _ (List.mem_singleton_self _)
    have hnew : Backs P db ((book st).put (forgetSeen (newClient o st.calls name))) := by
      intro id r hr
      have hc : (book st).connected = true := (Book.find_eq_some.mp hr).1
      rw [Book.find_put h.linked.indices hc] at hr
      split_ifs at hr with hid
      · cases hr
        exact ⟨_, hrow, hid.symm, hp _⟩
      · exact hbacks id r hr
    refine ⟨?_, by rw [hbook]; exact hnew, by rw [hbook]; exact hnew, fun _ hid => hid⟩
    refine linked_register (o := o) (r := forgetSeen (newClient o st.calls name)) h.linked
      hnewId hnewName
      ?_ ?_ ⟨hbook, hids, hnames, fun _ hi => AccountSteps.indexed_register _ hdb hi⟩
    · change _ ∈ db.clients.map ClientRecord.clientIdHex
      rw [ids_forget]
      exact List.mem_map_of_mem hrow
    · change _ ∈ db.clients.map ClientRecord.username
      rw [hclients, List.map_append]
      exact List.mem_append_right _ (List.mem_singleton_self _)

/-- The clients stay, and what is durable of them was durable or in view. -/
theorem held_uploads {n : ℕ} (h : Held P st) (hdb : db.clients = st.working.clients)
    (hdb' : db'.clients = st.working.clients ∨ db' = st.committed) :
    Held P { st with calls := n, working := db, committed := db' } := by
  refine held_same h rfl (congrArg _ hdb) (congrArg (List.map ClientRecord.username) hdb) ?_
  rcases hdb' with hdb' | rfl
  · exact .inr (congrArg _ hdb')
  · exact .inl rfl

theorem held_createUploadRecord (id name : String) (orig cipher : ℕ) :
    Keeps (fun st st' => Held P st → Held P st') (createUploadRecord o id name orig cipher) := by
  refine keeps_of_wp fun st => ?_
  simp only [createUploadRecord, wp_bind, wp_fetch, wp_ite, wp_execute, wp_commit, wp_pure,
    Bool.not_eq_true']
  rcases hi : st.working.insertUpload
      { id := 0, clientIdHex := id, fileName := name, origFileSize := orig, cipherSize := cipher,
        status := .inProgress, createdAt := o.now st.calls } with _ | db
  · simp only [Option.map_none]
    split_ifs
    · exact fun h => h
    · exact fun h => held_uploads h rfl (.inr rfl)
    · exact fun h => held_uploads h rfl (.inr rfl)
  · have hclients := insertUpload_clients hi
    simp only [Option.map_some]
    split_ifs
    · exact fun h => h
    · exact fun h => held_uploads h rfl (.inr rfl)
    · exact fun h => held_uploads h hclients (.inr rfl)
    · exact fun h => held_uploads h hclients (.inl hclients)

theorem held_changeUploadRecord (id : Option ℕ) (c : UploadChange) :
    Keeps (fun st st' => Held P st → Held P st') (changeUploadRecord o id c) := by
  refine keeps_of_wp fun st => ?_
  simp only [changeUploadRecord, wp_bind, wp_fetch, wp_ite, wp_execute, wp_commit, wp_pure,
    Bool.not_eq_true']
  split_ifs
  · exact fun h => h
  · exact fun h => held_uploads h rfl (.inr rfl)
  · exact fun h => held_uploads h rfl (.inr rfl)
  · exact fun h => held_uploads h rfl (.inl rfl)

end

/-! ### Frames -/

/-- An invariant of stores, as a relation. -/
def Maintains (I : Store → Prop) (st st' : Store) : Prop := I st → I st'

instance (I : Store → Prop) : Std.Refl (Maintains I) := ⟨fun _ h => h⟩

instance (I : Store → Prop) : IsTrans Store (Maintains I) := ⟨fun _ _ _ h h' hi => h' (h hi)⟩

/-- With working SQL calls the table, also the durable one, is what the index says. -/
structure Mirrored (st : Store) : Prop where
  connected : st.connected = true
  held : Held Eq st
  indexed : (StoreFrames.core st).Indexed
  uploads : st.committed.uploads = st.working.uploads

section
variable {ctx : Ctx} {st st' : Store}

/-- What the index knows of an identity is durable, whatever fails. -/
theorem parts_vouches (ctx : Ctx) (binds renews : String → Prop) :
    CallParts ctx binds renews (Maintains (Held Vouches)) where
  seen _ _ hs h := held_seen h hs
  createClient name := held_createClient Vouches.refl name
  setClientAesKey idHex b64 _ st h := by
    refine wp_state.mp (wp_mono (wp_heldKey ctx.out idHex True h
      (isKey_aesKeyB64 b64) ?_ ?_) (fun _ _ hu => hu) fun _ _ hu => hu trivial)
    · exact fun _ _ hp => ⟨hp.username, hp.publicKey⟩
    · exact fun _ _ _ _ hp => ⟨hp.username, hp.publicKey⟩
  setClientPublicKey idHex der st _ hnone h := by
    refine wp_state.mp (wp_mono (wp_heldKey ctx.out idHex True h
      (isKey_publicKeyDer der) ?_ ?_) (fun _ _ hu => hu) fun _ _ hu => hu trivial)
    · exact fun _ _ hp => ⟨hp.username, fun _ hd => hd⟩
    · intro _ row r hr hp
      rw [find_book] at hr
      obtain ⟨r', hr', rfl⟩ := Option.map_eq_some_iff.mp hr
      refine ⟨hp.username, fun der' hd => ?_⟩
      cases (hnone r' hr').symm.trans hd
  createUploadRecord := held_createUploadRecord
  changeUploadRecord := held_changeUploadRecord

theorem mirrored_seen (h : Mirrored st) (hs : SeenOnly st st') : Mirrored st' := by
  refine ⟨?_, held_seen h.held hs, by rw [hs.core_eq]; exact h.indexed, ?_⟩
  · exact (congrArg StoreFrames.Core.connected hs.core_eq).trans h.connected
  have hworking := (sameButSeen_working hs.core_eq).2
  rcases hs.committed with hc | hc
  · exact hc.2.trans (h.uploads.trans hworking.symm)
  · exact hc.2.trans hworking.symm

/-- A key column, while SQL calls work. -/
theorem mirrored_setKey {o : Outside} {f : ClientField} (ho : o.SqlWorks) (h : Mirrored st)
    (hf : IsKey f) (idHex : String) : Mirrored (setClientField o idHex f st).2 := by
  have hheld := wp_heldKey o idHex False h.held hf
    (fun _ _ hp => congrArg (ClientRecord.set · f) hp) False.elim
  have hrest : wp (setClientField o idHex f)
      (fun _ u => u.connected = true ∧ u.committed.uploads = u.working.uploads)
      (fun _ _ => True) st :=
    wp_setClientField (fun _ => ⟨h.connected, h.uploads⟩) trivial trivial
      (fun _ => ⟨h.connected, rfl⟩) (fun _ _ => trivial) fun _ _ _ => ⟨h.connected, rfl⟩
  have hall := wp_and (wp_and hheld hrest) (wp_and (indexed_setClientField.wp st)
    (setClientField_returns ho h.indexed))
  refine wp_state.mp (wp_mono hall (fun _ u hu => ?_) fun _ u hu => hu.2.2.elim)
  exact ⟨hu.1.2.1, hu.1.1, hu.2.1 h.indexed, hu.1.2.2⟩

theorem mirrored_createClient {o : Outside} (ho : o.SqlWorks) (h : Mirrored st) (name : String) :
    Mirrored (createClient o name st).2 := by
  have hrest : wp (createClient o name)
      (fun _ u => u.connected = true ∧ u.committed.uploads = u.working.uploads)
      (fun _ u => u.connected = true ∧ u.committed.uploads = u.working.uploads) st := by
    refine wp_createClient (fun _ => ⟨h.connected, h.uploads⟩) ⟨h.connected, h.uploads⟩
      (fun db hdb => ⟨h.connected, ?_⟩) fun _ _ => ⟨h.connected, rfl⟩
    obtain ⟨-, -, -, hsame⟩ := insertClient_some hdb
    exact h.uploads.trans hsame.symm
  have hindexed : wp (createClient o name) (fun _ u => (StoreFrames.core u).Indexed)
      (fun _ u => (StoreFrames.core u).Indexed) st := by
    refine wp_mono (wp_register name) (fun r u hu => ?_) fun _ u hu => hu.indexed ho h.indexed
    rcases hu with ⟨-, hu⟩ | ⟨uid, record, -, -, -, -, -, -, -, -, -, -, -, hu⟩
    · exact hu.indexed ho h.indexed
    · exact hu.indexed ho h.indexed
  obtain ⟨hconnected, huploads⟩ := wp_state.mp hrest
  exact ⟨hconnected, held_createClient (fun _ => rfl) name st h.held,
    wp_state.mp hindexed, huploads⟩

/-- Rows of the other table change, and are committed. -/
theorem mirrored_uploads {db : Database} (h : Mirrored st) (hdb : db.clients = st.working.clients)
    (n : ℕ) : Mirrored { st with calls := n, working := db, committed := db } := by
  refine ⟨h.connected, held_uploads h.held hdb (.inl hdb), ?_, rfl⟩
  have hindexed := h.indexed
  rw [indexed_iff] at hindexed ⊢
  change ∀ id ∈ db.clients.map _, _
  rw [hdb]
  exact hindexed

theorem mirrored_calls (h : Mirrored st) (n : ℕ) : Mirrored { st with calls := n } :=
  ⟨h.connected, held_uploads h.held rfl (.inr rfl), h.indexed, h.uploads⟩

/-- Where SQL calls work, nothing the index knows is ahead of the table or behind it. -/
theorem parts_mirrored (ho : ctx.out.SqlWorks) (binds renews : String → Prop) :
    CallParts ctx binds renews (Maintains Mirrored) where
  seen _ _ hs h := mirrored_seen h hs
  createClient name st h := mirrored_createClient ho h name
  setClientAesKey idHex b64 _ st h := mirrored_setKey ho h (isKey_aesKeyB64 b64) idHex
  setClientPublicKey idHex der st _ _ h := mirrored_setKey ho h (isKey_publicKeyDer der) idHex
  createUploadRecord id name orig cipher := by
    refine keeps_of_wp fun st => ?_
    simp only [createUploadRecord, wp_bind, wp_fetch, wp_ite, wp_execute, wp_commit, wp_pure, ho _,
      Bool.not_eq_true', Bool.false_eq_true, if_false]
    rcases hi : st.working.insertUpload
        { id := 0, clientIdHex := id, fileName := name, origFileSize := orig, cipherSize := cipher,
          status := .inProgress, createdAt := ctx.out.now st.calls } with _ | db
    · simp only [Option.map_none]
      split_ifs
      · exact fun h => h
      · exact fun h => mirrored_calls h _
    · simp only [Option.map_some]
      split_ifs
      · exact fun h => h
      · exact fun h => mirrored_uploads h (insertUpload_clients hi) _
  changeUploadRecord id c := by
    refine keeps_of_wp fun st => ?_
    simp only [changeUploadRecord, wp_bind, wp_fetch, wp_ite, wp_execute, wp_commit, wp_pure, ho _,
      Bool.not_eq_true', Bool.false_eq_true, if_false]
    split_ifs
    · exact fun h => h
    · exact fun h => mirrored_uploads h (show (st.working.updateUpload id c).clients = _ from rfl) _

end

/-! ### Lives -/

/-- What a stopped server leaves behind. -/
structure Disk where
  db : Database
  files : FileSystem

/-- One life of the server: its connections, its limiter, the frames that arrive, and how
it ends. Without `stop` the process is killed; with it `Store.close` runs in the outside
world given. -/
structure Life where
  connectionIds : ℕ → String
  times : ℕ → ℚ
  limiter : UploadLimiter
  arrivals : List Arrival
  stop : Option Outside

namespace Life

/-- The server just started. -/
def boot (l : Life) (d : Disk) : Boot :=
  { db := d.db, connectionIds := l.connectionIds, times := l.times, files := d.files
    limiter := l.limiter }

/-- The server after its frames. -/
def state (env : Env) (l : Life) (d : Disk) : System := (l.boot d).system.run env l.arrivals

/-- What is durable when the life ends. -/
def leaves (env : Env) (l : Life) (d : Disk) : Disk :=
  { db :=
      match l.stop with
      | none => (l.state env d).store.committed
      | some o => (closeStore o (l.state env d).store).2.committed
    files := (l.state env d).files }

/-- The ids announced in a life, with the names. -/
def announces (env : Env) (l : Life) (d : Disk) : List (Option String × Bytes) :=
  (l.boot d).system.registrations env l.arrivals

/-- No SQL call of the frames fails. -/
def SqlWorks (l : Life) : Prop := ∀ a ∈ l.arrivals, a.out.SqlWorks

end Life

/-- The disk after some lives. -/
def after (env : Env) (d : Disk) (ls : List Life) : Disk := ls.foldl (fun d l => l.leaves env d) d

/-- All ids announced in some lives. -/
def announcements (env : Env) : Disk → List Life → List (Option String × Bytes)
  | _, [] => []
  | d, l :: ls => l.announces env d ++ announcements env (l.leaves env d) ls

section
variable {env : Env} {l : Life} {d : Disk} {st : Store} {db : Database}

/-! ### Starting -/

theorem lists_initialized (db : Database) :
    Lists db.clients (Store.initialized db) ∧ (Store.initialized db).connected = true ∧
      (Store.initialized db).working = db ∧ (Store.initialized db).committed = db :=
  lists_load
    { connected := true, committed := db, working := db, records := [],
      clientsById := fun _ => none, clientsByUsername := fun _ => none,
      recentLog := fun _ => none, calls := 0 }

/-- A started server knows the clients of the table. -/
theorem find_initialized (db : Database) {idHex : String} {r : ClientRecord} :
    (book (Store.initialized db)).find idHex = some r ↔
      r ∈ db.clients.map forgetSeen ∧ r.clientIdHex = idHex := by
  obtain ⟨hlists, hconnected, -, -⟩ := lists_initialized db
  rw [find_book, (lookup_of_lists hlists hconnected).1 idHex, Option.map_eq_some_iff]
  simp only [find_key db.ids_unique]
  constructor
  · rintro ⟨r, ⟨hr, hid⟩, rfl⟩
    exact ⟨List.mem_map_of_mem hr, hid⟩
  · rintro ⟨hr, hid⟩
    obtain ⟨row, hrow, rfl⟩ := List.mem_map.mp hr
    exact ⟨row, ⟨hrow, hid⟩, rfl⟩

theorem held_initialized {P : ClientRecord → ClientRecord → Prop} (hp : ∀ r, P r r)
    (db : Database) :
    Held P (Store.initialized db) := by
  obtain ⟨-, -, hworking, hcommitted⟩ := lists_initialized db
  have hbacks : Backs P db (book (Store.initialized db)) := by
    intro id r hr
    obtain ⟨hmem, hid⟩ := (find_initialized db).mp hr
    exact ⟨r, hmem, hid, hp r⟩
  refine ⟨linked_initialized db,
    by rw [hworking]; exact hbacks, by rw [hcommitted]; exact hbacks, ?_⟩
  rw [hcommitted, rowIds, hworking]
  exact fun _ hid => hid

theorem mirrored_initialized (db : Database) : Mirrored (Store.initialized db) := by
  obtain ⟨-, hconnected, hworking, hcommitted⟩ := lists_initialized db
  refine ⟨hconnected, held_initialized (fun _ => rfl) db, indexed_initialized db, ?_⟩
  exact congrArg Database.uploads (hcommitted.trans hworking.symm)

/-! ### Running -/

theorem held_run (env : Env) {s : System} (h : Held Vouches s.store) (as : List Arrival) :
    Held Vouches (s.run env as).store := by
  induction as using List.reverseRecOn with
  | nil => exact h
  | append_singleton as a ih =>
      rw [run_snoc]
      exact stores_handleFrame (w := (s.run env as).world a.connection)
        (parts_vouches ⟨env, a.out⟩ _ _) (fun _ hb => hb) (fun _ hr => hr) ih

theorem mirrored_run (env : Env) {s : System} (h : Mirrored s.store) (as : List Arrival)
    (hsql : ∀ a ∈ as, a.out.SqlWorks) : Mirrored (s.run env as).store := by
  induction as using List.reverseRecOn with
  | nil => exact h
  | append_singleton as a ih =>
      have ho : (Ctx.mk env a.out).out.SqlWorks := hsql a (by simp)
      have hprev := ih fun b hb => hsql b (List.mem_append_left _ hb)
      rw [run_snoc]
      exact stores_handleFrame (w := (s.run env as).world a.connection) (parts_mirrored ho _ _)
        (fun _ hb => hb) (fun _ hr => hr) hprev

/-! ### Stopping -/

/-- Whether `close` succeeds or not, what is durable afterwards was durable or in view. -/
theorem closeStore_committed (o : Outside) (st : Store) :
    (closeStore o st).2.committed = st.committed ∨ (closeStore o st).2.committed = st.working := by
  have hwp : wp (closeStore o) (fun _ u => u.committed = st.committed ∨ u.committed = st.working)
      (fun _ u => u.committed = st.committed ∨ u.committed = st.working) st := by
    simp only [closeStore, disconnect, wp_bind, wp_fetch, wp_ite, wp_attempt, wp_commit, wp_update,
      wp_pure, wp_raise, clearIndex]
    split_ifs
    · exact .inl trivial
    · exact .inl trivial
    · exact .inr trivial
    · exact .inr trivial
  exact wp_state.mp hwp

theorem leaves_db (env : Env) (l : Life) (d : Disk) :
    (l.leaves env d).db = (l.state env d).store.committed ∨
      (l.leaves env d).db = (l.state env d).store.working := by
  unfold Life.leaves
  rcases l.stop with _ | o
  · exact .inl rfl
  · exact closeStore_committed o _

/-- A record that the index of a life holds is known, as far as `P` goes, to the next. -/
theorem known_next {P : ClientRecord → ClientRecord → Prop} (h : Held P (l.state env d).store)
    {idHex : String} {r : ClientRecord} (hr : (book (l.state env d).store).find idHex = some r) :
    ∃ r', (book (Store.initialized (l.leaves env d).db)).find idHex = some r' ∧ P r' r := by
  have hbacks : Backs P (l.leaves env d).db (book (l.state env d).store) := by
    rcases leaves_db env l d with hdb | hdb
    · rw [hdb]
      exact h.committed
    · rw [hdb]
      exact h.working
  obtain ⟨row, hrow, hid, hp⟩ := hbacks idHex r hr
  exact ⟨row, (find_initialized _).mpr ⟨hrow, hid⟩, hp⟩

/-! ### Over all lives -/

theorem held_state (env : Env) (l : Life) (d : Disk) : Held Vouches (l.state env d).store :=
  held_run env (held_initialized Vouches.refl d.db) l.arrivals

theorem linked_boot (l : Life) (d : Disk) : Linked (l.boot d).system.store :=
  linked_initialized d.db

/-- What a life knows at its start it knows at its end. -/
theorem known_state (env : Env) (l : Life) {idHex : String} {r : ClientRecord}
    (hr : (book (Store.initialized d.db)).find idHex = some r) :
    ∃ r', (book (l.state env d).store).find idHex = some r' ∧ Vouches r' r := by
  obtain ⟨r', hr', hname, hpub⟩ := record_run env (linked_boot l d) hr l.arrivals
  exact ⟨r', hr', hname, hpub⟩

theorem Vouches.trans {r r' r'' : ClientRecord} (h : Vouches r' r) (h' : Vouches r'' r') :
    Vouches r'' r :=
  ⟨h'.username.trans h.username, fun der hd => h'.publicKey der (h.publicKey der hd)⟩

theorem known_leaves (l : Life) {idHex : String} {r : ClientRecord}
    (hr : (book (Store.initialized d.db)).find idHex = some r) :
    ∃ r', (book (Store.initialized (l.leaves env d).db)).find idHex = some r' ∧ Vouches r' r := by
  obtain ⟨r', hr', hv⟩ := known_state env l hr
  obtain ⟨r'', hr'', hv'⟩ := known_next (held_state env l d) hr'
  exact ⟨r'', hr'', hv.trans hv'⟩

theorem known_after (env : Env) (ls : List Life) {idHex : String} {r : ClientRecord}
    (hr : (book (Store.initialized d.db)).find idHex = some r) :
    ∃ r', (book (Store.initialized (after env d ls).db)).find idHex = some r' ∧ Vouches r' r := by
  induction ls generalizing d r with
  | nil => exact ⟨r, hr, .refl r⟩
  | cons l ls ih =>
      obtain ⟨r', hr', hv⟩ := known_leaves l hr
      obtain ⟨r'', hr'', hv'⟩ := ih hr'
      exact ⟨r'', hr'', hv.trans hv'⟩

/-- The index knows the client that has been announced. -/
def Owned (st : Store) (p : Option String × Bytes) : Prop :=
  ∃ name record, p.1 = some name ∧ (book st).find (hex p.2) = some record ∧ record.username = name

/-- A name that the index knows is not announced. -/
theorem registrations_new (env : Env) {s : System} (h : Linked s.store) {q : Option String × Bytes}
    (hq : Owned s.store q) (as : List Arrival) : ∀ p ∈ s.registrations env as, p.1 ≠ q.1 := by
  induction as using List.reverseRecOn with
  | nil => simp [System.registrations]
  | append_singleton as a ih =>
      intro p hp
      rw [registrations_snoc] at hp
      rcases List.mem_append.mp hp with hp | hp
      · exact ih p hp
      have hl := linked_run env h as
      rcases announced_step hl (step_world env hl a) with hnone | ⟨name, uid, -, hname, -,
        -, hfree, -⟩
      · rw [show announced ((s.run env as).sentBy env a) = [] from hnone] at hp
        cases hp
      obtain ⟨m, -, rfl⟩ := List.mem_map.mp hp
      obtain ⟨qname, record, hqname, hf, rfl⟩ := hq
      obtain ⟨record', hf', huser, -⟩ := record_run env h hf as
      rw [hqname]
      intro hsame
      have hmine : name = record.username := Option.some.inj (hname.symm.trans hsame)
      -- the name would have no row
      have hby := hl.indices.findName_iff.mpr ⟨(hl.indices.find_id hf').symm ▸ hf', huser⟩
      obtain ⟨-, i, hi, -⟩ := Book.findName_eq_some.mp hby
      have hindex : (s.run env as).store.clientsByUsername record.username = some i := hi
      exact hfree (hmine ▸ hl.names record.username (by rw [hindex]; rfl))

theorem after_append (env : Env) (d : Disk) (ls more : List Life) :
    after env d (ls ++ more) = after env (after env d ls) more := List.foldl_append ..

theorem announcements_snoc (env : Env) (d : Disk) (ls : List Life) (l : Life) :
    announcements env d (ls ++ [l]) = announcements env d ls ++ l.announces env
      (after env d ls) := by
  induction ls generalizing d with
  | nil => simp [announcements, after]
  | cons k ls ih =>
      rw [List.cons_append, announcements, ih, announcements, List.append_assoc]
      rfl

theorem owned_state (l : Life) {p : Option String × Bytes} (hp : Owned (Store.initialized d.db) p) :
    Owned (l.state env d).store p := by
  obtain ⟨name, record, hname, hf, huser⟩ := hp
  obtain ⟨record', hf', hv⟩ := known_state env l hf
  exact ⟨name, record', hname, hf', hv.username.trans huser⟩

/-- One more life after lives whose announcements are kept. -/
theorem announces_next (env : Env) (l : Life) {ps : List (Option String × Bytes)}
    (hnodup : (ps.map Prod.fst).Nodup) (howned : ∀ p ∈ ps, Owned (Store.initialized d.db) p) :
    ((ps ++ l.announces env d).map Prod.fst).Nodup ∧
      ∀ p ∈ ps ++ l.announces env d, Owned (l.state env d).store p := by
  have hl := linked_boot l d
  obtain ⟨hnew, hbound⟩ := registrations_bound env hl l.arrivals
  constructor
  · rw [List.map_append]
    refine List.nodup_append.mpr ⟨hnodup, hnew, fun x hx y hy => ?_⟩
    obtain ⟨q, hq, rfl⟩ := List.mem_map.mp hx
    obtain ⟨p, hp, rfl⟩ := List.mem_map.mp hy
    exact (registrations_new env hl (howned q hq) l.arrivals p hp).symm
  · intro p hp
    rcases List.mem_append.mp hp with hp | hp
    · exact owned_state l (howned p hp)
    · exact hbound p hp

theorem announced_kept (env : Env) (d : Disk) (ls : List Life) :
    ((announcements env d ls).map Prod.fst).Nodup ∧
      ∀ p ∈ announcements env d ls, Owned (Store.initialized (after env d ls).db) p := by
  induction ls using List.reverseRecOn with
  | nil => exact ⟨List.nodup_nil, by simp [announcements]⟩
  | append_singleton ls l ih =>
      obtain ⟨hnodup, howned⟩ := announces_next env l ih.1 ih.2
      rw [announcements_snoc]
      refine ⟨hnodup, fun p hp => ?_⟩
      obtain ⟨name, record, hname, hf, huser⟩ := howned p hp
      obtain ⟨record', hf', hv⟩ := known_next (held_state env l (after env d ls)) hf
      rw [after_append]
      exact ⟨name, record', hname, hf', hv.username.trans huser⟩

/-- Where SQL calls work the next life finds every record as it was. -/
theorem same_next (env : Env) (d : Disk) (hsql : l.SqlWorks) (idHex : String) :
    (book (Store.initialized (l.leaves env d).db)).find idHex =
      (book (l.state env d).store).find idHex := by
  have hm : Mirrored (l.state env d).store :=
    mirrored_run env (mirrored_initialized d.db) l.arrivals hsql
  rcases hf : (book (l.state env d).store).find idHex with _ | r
  · by_contra hne
    obtain ⟨row, hrow⟩ := Option.ne_none_iff_exists'.mp hne
    obtain ⟨hmem, hid⟩ := (find_initialized _).mp hrow
    -- a durable row is in view, so the index knows it
    have hview : idHex ∈ rowIds (l.state env d).store := by
      rw [← hid]
      have hin : row.clientIdHex ∈ (l.leaves env d).db.clients.map ClientRecord.clientIdHex := by
        rw [ids_forget]
        exact List.mem_map_of_mem hmem
      rcases leaves_db env l d with hdb | hdb
      · exact hm.held.older _ (hdb ▸ hin)
      · rw [hdb] at hin
        exact hin
    obtain ⟨i, hi⟩ := Option.isSome_iff_exists.mp (indexed_iff.mp hm.indexed idHex hview)
    obtain ⟨r, hr, -⟩ := hm.held.linked.indices.byId idHex i hi
    cases hf.symm.trans (Book.find_eq_some.mpr ⟨hm.connected, i, hi, hr⟩)
  · obtain ⟨row, hrow, rfl⟩ := known_next hm.held hf
    exact hrow

end

/-- Over any number of lives of the server, whatever SQL calls fail: a name is announced
at most once in all of them and stays bound to its id, a public key that is bound stays
bound, and a restart after frames whose SQL calls work changes no record. -/
theorem identities_survive_restarts (env : Env) (d : Disk) (ls : List Life) (l : Life) :
    ((announcements env d (ls ++ [l])).map Prod.fst).Nodup ∧
    (∀ p ∈ announcements env d (ls ++ [l]), ∃ name, p.1 = some name ∧
      Bound (l.state env (after env d ls)).store name p.2) ∧
    (∀ idHex der, publicKeyOf (l.state env (after env d ls)).store idHex = some der →
      ∀ (more : List Life) (l' : Life),
        publicKeyOf (l'.state env (after env d (ls ++ l :: more))).store idHex = some der) ∧
    (l.SqlWorks → ∀ l' : Life, ∀ idHex,
      publicKeyOf (l'.boot (after env d (ls ++ [l]))).system.store idHex =
        publicKeyOf (l.state env (after env d ls)).store idHex ∧
      aesKeyOf (l'.boot (after env d (ls ++ [l]))).system.store idHex =
        aesKeyOf (l.state env (after env d ls)).store idHex) := by
  obtain ⟨hnodup, howned⟩ := announced_kept env d ls
  obtain ⟨hnames, hall⟩ := announces_next env l hnodup howned
  refine ⟨?_, fun p hp => ?_, fun idHex der hpub more l' => ?_, fun hsql l' idHex => ?_⟩
  · rw [announcements_snoc]
    exact hnames
  · rw [announcements_snoc] at hp
    obtain ⟨name, record, hname, hf, rfl⟩ := hall p hp
    exact ⟨record.username, hname, bound_of_find (held_state env l _).linked hf⟩
  · rw [publicKeyOf_book] at hpub
    obtain ⟨record, hf, hd⟩ := Option.bind_eq_some_iff.mp hpub
    obtain ⟨next, hnext, hv⟩ := known_next (held_state env l (after env d ls)) hf
    obtain ⟨later, hlater, hv'⟩ := known_after env more hnext
    obtain ⟨last, hlast, hv''⟩ := known_state env l' hlater
    have hafter : after env d (ls ++ l :: more) = after env (l.leaves env (after env d ls)) more :=
      after_append env d ls (l :: more)
    rw [publicKeyOf_book, hafter, hlast]
    exact hv''.publicKey der (hv'.publicKey der (hv.publicKey der hd))
  · have hsame := same_next env (after env d ls) hsql idHex
    have hboot : (l'.boot (after env d (ls ++ [l]))).system.store =
        Store.initialized (l.leaves env (after env d ls)).db := by
      rw [after_append]
      rfl
    rw [publicKeyOf_book, publicKeyOf_book, aesKeyOf_book, aesKeyOf_book, hboot, hsame]
    exact ⟨rfl, rfl⟩

/-! ### Upload rows -/

/-- Rows of an earlier life are still there, and no session tracks one. -/
structure Untracked (rows : List UploadRow) (s : System) : Prop where
  apart : Apart s
  kept : rows ⊆ s.store.working.uploads
  tracked : ∀ i id, (s.sessions i).transfer.uploadId = some id → id ∉ rows.map UploadRow.id

section
variable {env : Env} {l : Life} {d : Disk} {rows : List UploadRow} {s : System}

/-- A row of an earlier life is none that a frame may conclude. -/
theorem Untracked.not_mine (h : Untracked rows s) {id : ℕ}
    (hid : id ∈ rows.map UploadRow.id) (i : ℕ) :
    ¬ (rowsOf (s.world i)).Mine id := by
  rintro (htracked | hnew)
  · exact h.tracked i id htracked hid
  · obtain ⟨r, hr, rfl⟩ := List.mem_map.mp hid
    exact hnew (List.mem_map_of_mem (h.kept hr))

theorem untracked_step (h : Untracked rows s) (a : Arrival) : Untracked rows (s.step env a) := by
  obtain ⟨hwithin, -⟩ := good_step env h.apart a
  refine ⟨apart_step h.apart a, fun r hr => ?_, fun i id hid hold => ?_⟩
  · refine mem_of_changes hwithin.rows (h.kept hr) fun hmine => ?_
    exact (h.not_mine (List.mem_map_of_mem hr) _ hmine).elim
  · by_cases hi : i = a.connection
    · subst hi
      exact h.not_mine hold _ (hwithin.own id hid)
    · rw [sessions_step env hi] at hid
      exact h.tracked i id hid hold

theorem untracked_run (env : Env) (h : Untracked rows s) (as : List Arrival) :
    Untracked rows (s.run env as) := by
  induction as using List.reverseRecOn with
  | nil => exact h
  | append_singleton as a ih =>
      rw [run_snoc]
      exact untracked_step ih a

/-- Every row that a life starts with is there, as it was, at every moment of it. -/
theorem rows_state (env : Env) (l : Life) (d : Disk) :
    d.db.uploads ⊆ (l.state env d).store.working.uploads := by
  have hboot : Untracked d.db.uploads (l.boot d).system := by
    refine ⟨apart_boot _, ?_, fun i id hid => by cases hid⟩
    change d.db.uploads ⊆ (Store.initialized d.db).working.uploads
    rw [(lists_initialized d.db).2.2.1]
    exact fun _ hr => hr
  exact (untracked_run env hboot l.arrivals).kept

theorem leaves_uploads (hsql : l.SqlWorks) :
    (l.leaves env d).db.uploads = (l.state env d).store.working.uploads := by
  have hm : Mirrored (l.state env d).store :=
    mirrored_run env (mirrored_initialized d.db) l.arrivals hsql
  rcases leaves_db env l d with hdb | hdb
  · rw [hdb]
    exact hm.uploads
  · rw [hdb]

theorem rows_after (env : Env) (d : Disk) (ls : List Life) (hsql : ∀ k ∈ ls, k.SqlWorks) :
    d.db.uploads ⊆ (after env d ls).db.uploads := by
  induction ls generalizing d with
  | nil => exact fun _ hr => hr
  | cons l ls ih =>
      have hnext : d.db.uploads ⊆ (l.leaves env d).db.uploads := by
        rw [leaves_uploads (hsql l List.mem_cons_self)]
        exact rows_state env l d
      have hrest := ih (l.leaves env d) fun k hk => hsql k (List.mem_cons_of_mem l hk)
      exact fun r hr => hrest (hnext hr)

end

/-- Where SQL calls work, the upload table at the end of a life is settled for good: each
row is found as it was at every moment of every later life, a row in progress included,
which no life concludes any more. -/
theorem rows_settled_by_restart (env : Env) (d : Disk) (l : Life) (more : List Life) (l' : Life)
    (hsql : ∀ k ∈ l :: more, k.SqlWorks) :
    ∀ r ∈ (l.state env d).store.working.uploads,
      r ∈ (l'.state env (after env d (l :: more))).store.working.uploads := by
  intro r hr
  rw [← leaves_uploads (hsql l List.mem_cons_self)] at hr
  have hlater :=
    rows_after env (l.leaves env d) more (fun k hk => hsql k (List.mem_cons_of_mem l hk)) hr
  exact rows_state env l' _ hlater

/-! ### A server killed during an upload -/

open UploadSlot Confirmations

/-- The handshake, the IV and the first packet, and then the process is killed. -/
def aliceLife : Life where
  connectionIds _ := "c1"
  times _ := 0
  limiter := aliceWorld.limiter
  arrivals := aliceUpload.map (onConnection 0)
  stop := none

/-- A life with a whole upload and its confirmation, which ends with `close`. -/
def busyLife : Life :=
  { aliceLife with arrivals := confirmedFrames.map (onConnection 0), stop := some calm }

def aliceDisk : Disk := { db := aliceDb, files := aliceWorld.files }

/-- Alice's row is in progress when the server dies and in every life after, whatever
other uploads these lives complete. -/
theorem rows_settled_by_restart_alice :
    (∃ r ∈ (aliceLife.state plainEnv aliceDisk).store.working.uploads, r.status = .inProgress ∧
      r ∈ (busyLife.state plainEnv
        (after plainEnv aliceDisk [aliceLife, busyLife])).store.working.uploads) ∧
    (busyLife.state plainEnv
      (after plainEnv aliceDisk [aliceLife, busyLife])).store.working.uploads.map
      UploadRow.status = [.inProgress, .completed, .completed] := by
  have hany : (aliceLife.state plainEnv aliceDisk).store.working.uploads.any
      (fun r => r.status = .inProgress) = true := by
    decide +kernel
  obtain ⟨r, hr, hstatus⟩ := List.any_eq_true.mp hany
  refine ⟨⟨r, hr, of_decide_eq_true hstatus, ?_⟩, by decide +kernel⟩
  have hcalm : ∀ e ∈ aliceUpload ++ confirmedFrames, e.1 = calm := by
    intro e he
    simp only [aliceUpload, confirmedFrames, wholeUpload, List.take_succ_cons, List.take_zero,
      List.cons_append, List.nil_append, List.mem_cons, List.not_mem_nil, or_false] at he
    rcases he with rfl | rfl | rfl | rfl | rfl | rfl | rfl | rfl | rfl | rfl <;> rfl
  have hworks {e : HandshakeGate.Event} (he : e ∈ aliceUpload ++ confirmedFrames) :
      (onConnection 0 e).out.SqlWorks := by
    intro n
    change e.1.sqlRaises n = false
    rw [hcalm e he]
    rfl
  refine rows_settled_by_restart plainEnv aliceDisk aliceLife [busyLife] busyLife
    (fun k hk a ha => ?_) r hr
  rcases List.mem_cons.mp hk with rfl | hk
  · obtain ⟨e, he, rfl⟩ := List.mem_map.mp ha
    exact hworks (List.mem_append_left _ he)
  · rw [List.mem_singleton.mp hk] at ha
    obtain ⟨e, he, rfl⟩ := List.mem_map.mp ha
    exact hworks (List.mem_append_right _ he)

end Seftp.Restarts
