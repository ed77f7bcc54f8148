import Seftp.HandlerFrames
import Seftp.Router

/-!
# What a frame does to identities and keys

A `Book` is what the two indices of the store say about the clients, without the
time they were last seen. Only registration and the two key requests change it, and
each of them in one way. The descriptions cover raising runs and failing SQL calls:
a store operation that raises leaves the book as it was.
-/
namespace Seftp.KeySteps
open LittleEndian ExceptState OutsideWorld Text Protocol ClientStore StoreFrames ServerSession
open Answers SessionFrames AccountHandlers UploadHandlers HandlerFrames Router

/-! ### Books -/

structure Book where
  connected : Bool
  byId : String → Option ℕ
  byName : String → Option ℕ
  records : List ClientRecord

def book (st : Store) : Book :=
  { connected := st.connected
    byId := st.clientsById
    byName := st.clientsByUsername
    records := st.records.map forgetSeen }

namespace Book

def find (b : Book) (id : String) : Option ClientRecord :=
  if b.connected then (b.byId id).bind (b.records[·]?) else none

def findName (b : Book) (name : String) : Option ClientRecord :=
  if b.connected then (b.byName name).bind (b.records[·]?) else none

/-- A field of the record with an id. -/
def set (id : String) (f : ClientField) (b : Book) : Book :=
  match b.byId id with
  | none => b
  | some i => { b with records := b.records.modify i (·.set f) }

/-- A new record. -/
def put (r : ClientRecord) (b : Book) : Book :=
  { b with
    byId := Function.update b.byId r.clientIdHex (some b.records.length)
    byName := Function.update b.byName r.username (some b.records.length)
    records := b.records ++ [r] }

/-- Both indices point to the record of their key. -/
structure Linked (b : Book) : Prop where
  byId : ∀ id i, b.byId id = some i →
    ∃ r, b.records[i]? = some r ∧ r.clientIdHex = id ∧ b.byName r.username = some i
  byName : ∀ name i, b.byName name = some i →
    ∃ r, b.records[i]? = some r ∧ r.username = name ∧ b.byId r.clientIdHex = some i

variable {b : Book} {id id' name : String} {f : ClientField} {r : ClientRecord}

@[simp] theorem set_connected : (b.set id f).connected = b.connected := by
  unfold set
  split <;> rfl

@[simp] theorem set_byId : (b.set id f).byId = b.byId := by
  unfold set
  split <;> rfl

@[simp] theorem set_byName : (b.set id f).byName = b.byName := by
  unfold set
  split <;> rfl

theorem find_eq_some : b.find id = some r ↔
    b.connected = true ∧ ∃ i, b.byId id = some i ∧ b.records[i]? = some r := by
  unfold find
  split_ifs with h
  · simp [h, Option.bind_eq_some_iff]
  · simp [h]

theorem findName_eq_some : b.findName name = some r ↔
    b.connected = true ∧ ∃ i, b.byName name = some i ∧ b.records[i]? = some r := by
  unfold findName
  split_ifs with h
  · simp [h, Option.bind_eq_some_iff]
  · simp [h]

/-- The two lookups agree. -/
theorem Linked.findName_iff (h : b.Linked) :
    b.findName name = some r ↔ b.find r.clientIdHex = some r ∧ r.username = name := by
  rw [findName_eq_some, find_eq_some]
  constructor
  · rintro ⟨hc, i, hi, hr⟩
    obtain ⟨r', hr', hname, hid⟩ := h.byName name i hi
    obtain rfl : r' = r := Option.some.inj (hr'.symm.trans hr)
    exact ⟨⟨hc, i, hid, hr⟩, hname⟩
  · rintro ⟨⟨hc, i, hi, hr⟩, rfl⟩
    obtain ⟨r', hr', -, hname⟩ := h.byId _ i hi
    obtain rfl : r' = r := Option.some.inj (hr'.symm.trans hr)
    exact ⟨hc, i, hname, hr⟩

theorem Linked.find_id (h : b.Linked) (hr : b.find id = some r) : r.clientIdHex = id := by
  obtain ⟨-, i, hi, hr⟩ := find_eq_some.mp hr
  obtain ⟨r', hr', hid, -⟩ := h.byId id i hi
  obtain rfl : r' = r := Option.some.inj (hr'.symm.trans hr)
  exact hid

/-- A field is set in the record with that id and in no other. -/
theorem find_set (h : b.Linked) :
    (b.set id f).find id' = (b.find id').map fun r => if id' = id then r.set f else r := by
  rcases hi : b.byId id with _ | i
  · rw [show b.set id f = b by unfold set; rw [hi]]
    by_cases he : id' = id
    · subst he
      simp [find, hi]
    · simp [he]
  · have hset : (b.set id f).records = b.records.modify i (·.set f) := by
      unfold set
      rw [hi]
    unfold find
    rw [set_connected, set_byId, hset]
    split_ifs with hc he
    · subst he
      obtain ⟨r, hr, -, -⟩ := h.byId id' i hi
      simp [hi, List.getElem?_modify, hr]
    · -- another id is at another position
      rcases hj : b.byId id' with _ | j
      · rfl
      · have hij : i ≠ j := by
          rintro rfl
          obtain ⟨r, hr, hid, -⟩ := h.byId id i hi
          obtain ⟨r', hr', hid', -⟩ := h.byId id' i hj
          obtain rfl : r' = r := Option.some.inj (hr'.symm.trans hr)
          exact he (hid'.symm.trans hid)
        simp [List.getElem?_modify, hij]
    · rfl
    · rfl

theorem linked_set (h : b.Linked) : (b.set id f).Linked := by
  rcases hi : b.byId id with _ | i
  · rwa [show b.set id f = b by unfold set; rw [hi]]
  have hset : (b.set id f).records = b.records.modify i (·.set f) := by
    unfold set
    rw [hi]
  -- a record of the new list is the old one up to a field that no index uses
  have hget {j : ℕ} {r : ClientRecord} (hr : b.records[j]? = some r) :
      ∃ r', (b.set id f).records[j]? = some r' ∧ r'.clientIdHex = r.clientIdHex ∧
        r'.username = r.username := by
    rw [hset, List.getElem?_modify, hr]
    by_cases hij : i = j
    · exact ⟨r.set f, by simp [hij], by simp, by simp⟩
    · exact ⟨r, by simp [hij], rfl, rfl⟩
  constructor
  · intro id' j hj
    rw [set_byId] at hj
    obtain ⟨r, hr, hid, hname⟩ := h.byId id' j hj
    obtain ⟨r', hr', hid', hname'⟩ := hget hr
    exact ⟨r', hr', hid'.trans hid, by rw [set_byName, hname', hname]⟩
  · intro name j hj
    rw [set_byName] at hj
    obtain ⟨r, hr, hname, hid⟩ := h.byName name j hj
    obtain ⟨r', hr', hid', hname'⟩ := hget hr
    exact ⟨r', hr', hname'.trans hname, by rw [set_byId, hid', hid]⟩

theorem linked_put (h : b.Linked) (hid : b.byId r.clientIdHex = none)
    (hname : b.byName r.username = none) : (b.put r).Linked := by
  have hlast : (b.put r).records[b.records.length]? = some r := by simp [put]
  have hold {j : ℕ} {r' : ClientRecord} (hr : b.records[j]? = some r') :
      (b.put r).records[j]? = some r' := by
    have hj : j < b.records.length := (List.getElem?_eq_some_iff.mp hr).1
    rw [put, List.getElem?_append_left hj, hr]
  constructor
  · intro id' j hj
    change Function.update b.byId r.clientIdHex _ id' = _ at hj
    rw [Function.update_apply] at hj
    split_ifs at hj with he
    · cases hj
      exact ⟨r, hlast, he.symm, Function.update_self ..⟩
    · obtain ⟨r', hr', hid', hname'⟩ := h.byId id' j hj
      refine ⟨r', hold hr', hid', ?_⟩
      change Function.update b.byName r.username _ r'.username = _
      rw [Function.update_of_ne, hname']
      intro hsame
      rw [hsame, hname] at hname'
      cases hname'
  · intro name j hj
    change Function.update b.byName r.username _ name = _ at hj
    rw [Function.update_apply] at hj
    split_ifs at hj with he
    · cases hj
      exact ⟨r, hlast, he.symm, Function.update_self ..⟩
    · obtain ⟨r', hr', hname', hid'⟩ := h.byName name j hj
      refine ⟨r', hold hr', hname', ?_⟩
      change Function.update b.byId r.clientIdHex _ r'.clientIdHex = _
      rw [Function.update_of_ne, hid']
      intro hsame
      rw [hsame, hid] at hid'
      cases hid'

/-- A new record is found under its id; what was found before is still found. -/
theorem find_put (h : b.Linked) (hc : b.connected = true) :
    (b.put r).find id = if id = r.clientIdHex then some r else b.find id := by
  have hconnected : (b.put r).connected = true := hc
  unfold find
  rw [hconnected, hc, if_pos rfl, if_pos rfl]
  change (Function.update b.byId r.clientIdHex _ id).bind _ = _
  rw [Function.update_apply]
  split_ifs with he
  · simp [put]
  · rcases hi : b.byId id with _ | i
    · rfl
    · obtain ⟨r', hr', -, -⟩ := h.byId id i hi
      have hlt : i < b.records.length := (List.getElem?_eq_some_iff.mp hr').1
      simp [put, List.getElem?_append_left hlt]

end Book

theorem find_book (st : Store) (id : String) :
    (book st).find id = (st.getClientById id).map forgetSeen := by
  unfold Book.find Store.getClientById book
  dsimp only
  split_ifs
  · rcases st.clientsById id with _ | i
    · rfl
    · simp
  · rfl

theorem findName_book (st : Store) (name : String) :
    (book st).findName name = (st.getClientByUsername name).map forgetSeen := by
  unfold Book.findName Store.getClientByUsername book
  dsimp only
  split_ifs
  · rcases st.clientsByUsername name with _ | i
    · rfl
    · simp
  · rfl

/-! ### Stores -/

def rowIds (st : Store) : List String := st.working.clients.map ClientRecord.clientIdHex

def rowNames (st : Store) : List String := st.working.clients.map ClientRecord.username

/-- The indices are consistent, and every client they know has a row. -/
structure Linked (st : Store) : Prop where
  indices : (book st).Linked
  ids : ∀ id, (st.clientsById id).isSome → id ∈ rowIds st
  names : ∀ name, (st.clientsByUsername name).isSome → name ∈ rowNames st

/-- A step that changes the book by `g` and deletes no row. While SQL calls work the
index stays complete. -/
structure Changes (o : Outside) (g : Book → Book) (st st' : Store) : Prop where
  book_eq : book st' = g (book st)
  ids : rowIds st ⊆ rowIds st'
  names : rowNames st ⊆ rowNames st'
  indexed : o.SqlWorks → (StoreFrames.core st).Indexed → (StoreFrames.core st').Indexed

section
variable {o : Outside} {g k : Book → Book} {st st' st'' : Store} {idHex : String} {f : ClientField}

theorem Changes.trans (h : Changes o g st st') (h' : Changes o k st' st'') :
    Changes o (fun b => k (g b)) st st'' :=
  ⟨by rw [h'.book_eq, h.book_eq], fun _ hx => h'.ids (h.ids hx),
    fun _ hx => h'.names (h.names hx),
    fun ho hi => h'.indexed ho (h.indexed ho hi)⟩

theorem Changes.refl (st : Store) : Changes o id st st :=
  ⟨rfl, fun _ h => h, fun _ h => h, fun _ h => h⟩

/-- A change of the upload rows and of the bookkeeping. -/
theorem changes_of_core {us : List UploadRow}
    (h : StoreFrames.core st' = { StoreFrames.core st with uploads := us }) :
    Changes o id st st' := by
  have hclients : (StoreFrames.core st').clients = (StoreFrames.core st).clients := by rw [h]
  have hids (st : Store) : rowIds st =
      (StoreFrames.core st).clients.map ClientRecord.clientIdHex := by
    simp only [rowIds, StoreFrames.core, List.map_map]
    rfl
  have hnames (st : Store) : rowNames st =
      (StoreFrames.core st).clients.map ClientRecord.username := by
    simp only [rowNames, StoreFrames.core, List.map_map]
    rfl
  refine ⟨?_, ?_, ?_, fun _ hi => ?_⟩
  · exact congrArg (fun c : StoreFrames.Core =>
      Book.mk c.connected c.clientsById c.clientsByUsername c.records) h
  · rw [hids st', hclients, hids]
    exact List.Subset.refl _
  · rw [hnames st', hclients, hnames]
    exact List.Subset.refl _
  · rw [h]
    exact hi

theorem linked_of_changes (h : Linked st) (hc : Changes o g st st') (hb : (g (book st)).Linked)
    (hid : ∀ x, ((g (book st)).byId x).isSome → (st.clientsById x).isSome ∨ x ∈ rowIds st')
    (hname : ∀ x, ((g (book st)).byName x).isSome →
      (st.clientsByUsername x).isSome ∨ x ∈ rowNames st') : Linked st' := by
  have hbook : book st' = g (book st) := hc.book_eq
  refine ⟨hbook ▸ hb, fun x hx => ?_, fun x hx => ?_⟩
  · have hx' : ((g (book st)).byId x).isSome := by rw [← hbook]; exact hx
    rcases hid x hx' with h' | h'
    · exact hc.ids (h.ids x h')
    · exact h'
  · have hx' : ((g (book st)).byName x).isSome := by rw [← hbook]; exact hx
    rcases hname x hx' with h' | h'
    · exact hc.names (h.names x h')
    · exact h'

theorem linked_same (h : Linked st) (hc : Changes o id st st') : Linked st' :=
  linked_of_changes h hc h.indices (fun _ hx => .inl hx) (fun _ hx => .inl hx)

theorem linked_setField (h : Linked st) (hc : Changes o (Book.set idHex f) st st') : Linked st' :=
  linked_of_changes h hc (Book.linked_set h.indices)
    (fun _ hx => .inl (by rwa [Book.set_byId] at hx))
    (fun _ hx => .inl (by rwa [Book.set_byName] at hx))

@[simp] theorem updateClient_names (db : Database) (idHex : String) (f : ClientField) :
    (db.updateClient idHex f).clients.map ClientRecord.username =
      db.clients.map ClientRecord.username := by
  simp only [Database.updateClient, List.map_map]
  apply List.map_congr_left
  intro r _
  simp only [Function.comp]
  split
  · simp
  · rfl

/-- An update of one column, as far as rows and index go. -/
theorem changes_of_update (hdb : st'.working = st.working.updateClient idHex f)
    (hb : book st' = g (book st)) (hi : st'.clientsById = st.clientsById) : Changes o g st st' := by
  refine ⟨hb, ?_, ?_, fun _ h => ?_⟩
  · rw [rowIds, rowIds, hdb, updateClient_ids]
    exact List.Subset.refl _
  · rw [rowNames, rowNames, hdb, updateClient_names]
    exact List.Subset.refl _
  · rw [indexed_iff] at h ⊢
    rwa [hdb, hi, updateClient_ids]

/-- A field other than `last_seen`. -/
def IsKey (f : ClientField) : Prop :=
  ∀ r : ClientRecord, forgetSeen (r.set f) = (forgetSeen r).set f

/-- A key is set in the row and in the record, or nothing happens to the book. -/
theorem wp_setKey (h : Linked st) (hf : IsKey f) (hfound : ((book st).find idHex).isSome) :
    wp (setClientField o idHex f) (fun _ st' => Changes o (Book.set idHex f) st st')
      (fun _ st' => Changes o id st st') st := by
  obtain ⟨r, hr⟩ := Option.isSome_iff_exists.mp hfound
  obtain ⟨hc, i, hi, -⟩ := Book.find_eq_some.mp hr
  have hconnected : st.connected = true := hc
  have hindex : st.clientsById idHex = some i := hi
  have hrows : 0 < st.working.clientRows idHex := by
    obtain ⟨row, hrow, rfl⟩ := List.mem_map.mp (h.ids idHex (by rw [hindex]; rfl))
    exact List.length_pos_of_mem (List.mem_filter.mpr ⟨hrow, by simp⟩)
  apply wp_setClientField
  · exact fun hdown => absurd (hdown.symm.trans hconnected) (by decide)
  · exact ⟨rfl, fun _ h => h, fun _ h => h, fun _ h => h⟩
  · exact changes_of_update rfl rfl rfl
  · exact fun hzero => absurd hrows (by omega)
  · exact fun hnone _ => absurd (hnone.symm.trans hindex) (by simp)
  · intro ref href _
    obtain rfl : ref = i := Option.some.inj (href.symm.trans hindex)
    refine changes_of_update rfl ?_ rfl
    have hset : (book st).set idHex f =
        { book st with records := (book st).records.modify ref (·.set f) } := by
      unfold Book.set
      rw [show (book st).byId idHex = some ref from hindex]
    rw [hset]
    simp only [book, Book.mk.injEq, true_and]
    apply List.ext_getElem?
    intro n
    simp only [List.getElem?_map, List.getElem?_modify]
    rcases st.records[n]? with _ | r
    · rfl
    · simp only [Option.map_some, Option.map_eq_map]
      split
      · simp [hf r]
      · rfl

/-- A new client: the row and the record, or a row without a record if the commit
fails. -/
theorem wp_register (name : String) :
    wp (createClient o name)
      (fun r st' => (r = none ∧ Changes o id st st') ∨
        ∃ uid : Bytes, ∃ record, r = some record ∧ uid.length = 16 ∧ record.username = name ∧
          record.clientIdHex = hex uid ∧ record.publicKeyDer = none ∧ record.aesKeyB64 = none ∧
          st.connected = true ∧ record.clientIdHex ∉ rowIds st ∧ name ∉ rowNames st ∧
          record.clientIdHex ∈ rowIds st' ∧ name ∈ rowNames st' ∧
          Changes o (Book.put (forgetSeen record)) st st')
      (fun _ st' => Changes o id st st') st := by
  simp only [createClient, wp_bind, wp_fetch, wp_ite, wp_execute, wp_commit, wp_pure, wp_update,
    Bool.not_eq_true']
  have hkeep (n : ℕ) : Changes o id st { st with calls := n } :=
    ⟨rfl, fun _ h => h, fun _ h => h, fun _ h => h⟩
  rcases hi : st.working.insertClient (newClient o st.calls name) with _ | db
  · simp only [Option.map_none]
    split_ifs with hc
    · exact .inl ⟨trivial, Changes.refl st⟩
    · exact hkeep _
    · exact hkeep _
  obtain ⟨hid, hname, hclients, -⟩ := insertClient_some hi
  have hids : db.clients.map ClientRecord.clientIdHex =
      rowIds st ++ [(newClient o st.calls name).clientIdHex] := by
    rw [hclients, List.map_append]
    rfl
  have hnames : db.clients.map ClientRecord.username = rowNames st ++ [name] := by
    rw [hclients, List.map_append]
    rfl
  have hidIn : (newClient o st.calls name).clientIdHex ∈
      db.clients.map ClientRecord.clientIdHex := by simp [hids]
  have hnameIn : name ∈ db.clients.map ClientRecord.username := by simp [hnames]
  have hidsOld : rowIds st ⊆ db.clients.map ClientRecord.clientIdHex :=
    fun x hx => by simp [hids, hx]
  have hnamesOld : rowNames st ⊆ db.clients.map ClientRecord.username :=
    fun x hx => by simp [hnames, hx]
  simp only [Option.map_some]
  split_ifs with hc hexec hcommit
  · exact .inl ⟨trivial, Changes.refl st⟩
  · exact hkeep _
  · -- the row stays in the open transaction
    refine ⟨rfl, hidsOld, hnamesOld, fun ho => ?_⟩
    rw [ho] at hcommit
    cases hcommit
  · refine .inr ⟨(o.uuid4 st.calls).val, newClient o st.calls name, rfl,
      (o.uuid4 st.calls).property,
      rfl, rfl, rfl, rfl, by simpa using hc, hid, hname, hidIn, hnameIn, ?_, hidsOld, hnamesOld, ?_⟩
    · simp only [book, Book.put, Store.indexPut, List.map_append, List.map_singleton,
        List.length_map]
      rfl
    · intro _ hix
      rw [indexed_iff] at hix ⊢
      intro x hx
      change x ∈ db.clients.map ClientRecord.clientIdHex at hx
      change (Function.update st.clientsById _ _ x).isSome = true
      rw [Function.update_apply]
      split_ifs with he
      · rfl
      · rw [hids] at hx
        rcases List.mem_append.mp hx with hx | hx
        · exact hix x hx
        · exact (he (List.mem_singleton.mp hx)).elim

theorem linked_register {r : ClientRecord} (h : Linked st) (hid : r.clientIdHex ∉ rowIds st)
    (hname : r.username ∉ rowNames st) (hid' : r.clientIdHex ∈ rowIds st')
    (hname' : r.username ∈ rowNames st') (hc : Changes o (Book.put r) st st') : Linked st' := by
  have hnoId : (book st).byId r.clientIdHex = none := by
    by_contra hne
    exact hid (h.ids _ (Option.isSome_iff_ne_none.mpr hne))
  have hnoName : (book st).byName r.username = none := by
    by_contra hne
    exact hname (h.names _ (Option.isSome_iff_ne_none.mpr hne))
  apply linked_of_changes h hc (Book.linked_put h.indices hnoId hnoName)
  · intro x hx
    change (Function.update (book st).byId r.clientIdHex _ x).isSome = true at hx
    rw [Function.update_apply] at hx
    split_ifs at hx with he
    · exact .inr (he ▸ hid')
    · exact .inl hx
  · intro x hx
    change (Function.update (book st).byName r.username _ x).isSome = true at hx
    rw [Function.update_apply] at hx
    split_ifs at hx with he
    · exact .inr (he ▸ hname')
    · exact .inl hx

end

/-! ### Messages -/

/-- A message that neither announces an id nor carries a key. -/
structure Tame (m : Bytes) : Prop where
  registerOk : ¬ Coded .registerOk m
  aesKey : ¬ Coded .aesKey m
  reloginOk : ¬ Coded .reloginOk m

theorem tame_of_coded {c : ResCode} {m : Bytes} (h : Coded c m) (h₀ : c ≠ .registerOk)
    (h₂ : c ≠ .aesKey) (h₅ : c ≠ .reloginOk) : Tame m :=
  ⟨fun h' => h₀ (coded_unique h h'), fun h' => h₂ (coded_unique h h'),
    fun h' => h₅ (coded_unique h h')⟩

/-- A key response with the OAEP encryption of `key` under `der`. -/
def Wrapped (env : Env) (clientId der key m : Bytes) : Prop :=
  ∃ (version encryptedKey signature : Bytes) (code : ResCode),
    env.oaepEncrypt der key = some encryptedKey ∧
      m = message version code (clientId ++ leBytes 2 encryptedKey.length ++ encryptedKey ++
        leBytes 2 signature.length ++ signature)

/-- The response carries the client's AES key under the client's public key. -/
def Wraps (env : Env) (clientId : Bytes) (record : ClientRecord) (m : Bytes) : Prop :=
  ∃ der b64 key, record.publicKeyDer = some der ∧ record.aesKeyB64 = some b64 ∧
    b64decode false b64 = some key ∧ Wrapped env clientId der key m

/-- A step that changes the book by `g` and sends `ms`. -/
structure Acts (o : Outside) (g : Book → Book) (ms : List Bytes) (w w' : World) : Prop where
  changes : Changes o g w.store w'.store
  sent : w'.session.sent = w.session.sent ++ ms

section
variable {ctx : Ctx} {o : Outside} {g k : Book → Book} {ms ns : List Bytes} {w u v : World}
  {clientId version : Bytes} {idHex : String}

theorem Acts.refl (w : World) : Acts o id [] w w := ⟨Changes.refl _, by simp⟩

theorem Acts.trans (h : Acts o g ms w u) (h' : Acts o k ns u v) :
    Acts o (fun b => k (g b)) (ms ++ ns) w v :=
  ⟨h.changes.trans h'.changes, by rw [h'.sent, h.sent, List.append_assoc]⟩

theorem acts_of_tells (h : Tells ms w u) : Acts o id ms w u :=
  ⟨changes_of_core (congrArg SessionFrames.Core.store h.core_eq), h.sent⟩

theorem acts_onStore {α : Type} {x : StoreProg α} {Q : α → Store → Prop}
    {E : PyError → Store → Prop} (h : wp x Q E w.store) :
    wp (onStore x) (fun a u => Q a u.store ∧ u.session.sent = w.session.sent ++ [])
      (fun e u => E e u.store ∧ u.session.sent = w.session.sent ++ []) w := by
  rw [onStore, wp_zoom]
  exact wp_mono h (fun _ _ h => ⟨h, by simp [World.setStore]⟩)
    (fun _ _ h => ⟨h, by simp [World.setStore]⟩)

/-! ### Handing out a key -/

theorem wp_answerAesKey (code : ResCode) (event : String) {der key encryptedKey : Bytes}
    (hkey : ctx.env.oaepEncrypt der key = some encryptedKey) :
    wp (answerAesKey ctx code event encryptedKey clientId version)
      (fun _ u => ∃ m, Coded code m ∧ Wrapped ctx.env clientId der key m ∧ Tells [m] w u)
      (fun _ u => ∃ ms, (∀ m ∈ ms, Coded code m ∧ Wrapped ctx.env clientId der key m) ∧
        Tells ms w u) w := by
  rw [answerAesKey, wp_bind, wp_look]
  have hnone : ∀ m ∈ ([] : List Bytes), Coded code m ∧ Wrapped ctx.env clientId der key m := by simp
  apply wp_ofExcept_bind
  · intro payload hp
    obtain ⟨sv, cn, sn, signature, -, -, -, -, -, -, -, rfl⟩ := buildBoundAesKeyPayload_ok hp
    apply wp_ofExcept_bind
    · intro m hm
      have hcoded := coded_of_ok hm
      obtain ⟨-, -, -, rfl⟩ := messageAnswer_ok.mp hm
      have hw : Wrapped ctx.env clientId der key (message version code (clientId ++
          leBytes 2 encryptedKey.length ++ encryptedKey ++ leBytes 2 signature.length ++
            signature)) :=
        ⟨version, encryptedKey, signature, code, hkey, rfl⟩
      apply wp_seq ((tells_touch _).wp w)
      · intro _ u hu
        apply wp_seq ((tells_logEvent _ _).wp u)
        · intro _ v hv
          have hbooks := hu.trans hv
          apply wp_mono ((tells_send message_ne_nil).wp v)
          · exact fun _ _ h => ⟨_, hcoded, hw, hbooks.trans h⟩
          · refine fun _ _ h => ⟨_, fun m hm => ?_, hbooks.trans h⟩
            rw [List.mem_singleton.mp hm]
            exact ⟨hcoded, hw⟩
        · exact fun _ _ h => ⟨[], hnone, hu.trans h⟩
      · exact fun _ _ h => ⟨[], hnone, h⟩
    · exact fun _ _ => ⟨[], hnone, Tells.refl w⟩
  · exact fun _ _ => ⟨[], hnone, Tells.refl w⟩

theorem wp_wrapKey (code : ResCode) (event : String) (der key : Bytes) :
    wp (do
        let ciphertext ← ofExcept (encryptKey ctx.env der key)
        answerAesKey ctx code event ciphertext clientId version)
      (fun _ u => ∃ m, Coded code m ∧ Wrapped ctx.env clientId der key m ∧ Tells [m] w u)
      (fun _ u => ∃ ms, (∀ m ∈ ms, Coded code m ∧ Wrapped ctx.env clientId der key m) ∧
        Tells ms w u) w := by
  apply wp_ofExcept_bind
  · intro ciphertext hc
    unfold encryptKey at hc
    split at hc
    · cases hc
      exact wp_answerAesKey code event (by assumption)
    · cases hc
  · exact fun _ _ => ⟨[], by simp, Tells.refl w⟩

theorem isKey_aesKeyB64 (b64 : String) : IsKey (.aesKeyB64 b64) := fun _ => rfl

theorem isKey_publicKeyDer (der : Bytes) : IsKey (.publicKeyDer der) := fun _ => rfl

theorem wp_freshAesKey (h : Linked w.store) (hfound : ((book w.store).find idHex).isSome) :
    wp (freshAesKey ctx idHex)
      (fun key u => Acts ctx.out (Book.set idHex (.aesKeyB64 (b64encode key))) [] w u)
      (fun _ u => Acts ctx.out id [] w u) w := by
  rw [freshAesKey, wp_bind, wp_look]
  apply wp_seq (acts_onStore (wp_setKey h (isKey_aesKeyB64 _) hfound))
  · rintro _ u ⟨hu, hs⟩
    rw [wp_pure]
    exact ⟨hu, hs⟩
  · exact fun _ u hu => ⟨hu.1, hu.2⟩

/-- A fresh key is stored and sent. -/
theorem wp_freshAndWrap (h : Linked w.store) (hfound : ((book w.store).find idHex).isSome)
    (code : ResCode) (event : String) (der : Bytes) :
    wp (do
        let key ← freshAesKey ctx idHex
        let ciphertext ← ofExcept (encryptKey ctx.env der key)
        answerAesKey ctx code event ciphertext clientId version)
      (fun _ u => ∃ key m, Coded code m ∧ Wrapped ctx.env clientId der key m ∧
        Acts ctx.out (Book.set idHex (.aesKeyB64 (b64encode key))) [m] w u)
      (fun _ u => Acts ctx.out id [] w u ∨
        ∃ key ms, (∀ m ∈ ms, Coded code m ∧ Wrapped ctx.env clientId der key m) ∧
          Acts ctx.out (Book.set idHex (.aesKeyB64 (b64encode key))) ms w u) w := by
  apply wp_seq (wp_freshAesKey h hfound)
  · intro key u hu
    apply wp_mono (wp_wrapKey code event der key)
    · rintro _ v ⟨m, hc, hw, hv⟩
      exact ⟨key, m, hc, hw, hu.trans (acts_of_tells hv)⟩
    · rintro _ v ⟨ms, hm, hv⟩
      exact .inr ⟨key, ms, hm, hu.trans (acts_of_tells hv)⟩
  · exact fun _ u hu => .inl hu

end

/-! ### The requests -/

def setAll (fs : List ClientField) (r : ClientRecord) : ClientRecord := fs.foldl ClientRecord.set r

/-- Fields of the record with an id. -/
def Book.setAll (idHex : String) (fs : List ClientField) (b : Book) : Book :=
  fs.foldl (fun b f => b.set idHex f) b

/-- An 827 that passes every check of the handler. -/
def Relogs (env : Env) (b : Book) (r : Request) : Prop :=
  ∃ rawName record der key, utf8Decode (rstripNul r.payload) = some rawName ∧
    b.findName (strip rawName) = some record ∧ record.clientIdHex = hex r.clientId ∧
    record.publicKeyDer = some der ∧ der ≠ [] ∧ env.rsaImport der = some key ∧
    key.sizeInBits = 2048

/-- The fields that a request may set in its client's record. -/
inductive Grants (env : Env) (b : Book) (r : Request) (record : ClientRecord) :
    List ClientField → Prop
  | none : Grants env b r record []
  | bind (hcode : r.code = 826) (hpub : record.publicKeyDer = none) (der : Bytes) :
      Grants env b r record [.publicKeyDer der]
  | enrol (hcode : r.code = 826) (hpub : record.publicKeyDer = none) (der : Bytes) (b64 : String) :
      Grants env b r record [.publicKeyDer der, .aesKeyB64 b64]
  | complete (hcode : r.code = 826) (haes : record.aesKeyB64 = none) (b64 : String) :
      Grants env b r record [.aesKeyB64 b64]
  | relogin (hcode : r.code = 827) (hrelogs : Relogs env b r) (b64 : String) :
      Grants env b r record [.aesKeyB64 b64]

instance (c : ResCode) (m : Bytes) : Decidable (Coded c m) := inferInstanceAs (Decidable (_ = _))

/-- The messages that announce an id. -/
def announced (ms : List Bytes) : List Bytes := ms.filter fun m => Coded .registerOk m

/-- The message of a 1600. -/
def idMessage (version uid : Bytes) : Bytes := message version .registerOk uid

/-- What a frame does to identities and keys. -/
inductive KeyStep (ctx : Ctx) (r : Request) (raised : Prop) (w w' : World) : Prop
  | quiet (ms : List Bytes) (hacts : Acts ctx.out id ms w w') (hm : ∀ m ∈ ms, Tame m)
  | registered (name : String) (uid : Bytes) (record : ClientRecord) (ms : List Bytes)
      (hcode : r.code = 825) (hname : utf8Decode (rstripNul r.payload) = some name)
      (huid : uid.length = 16) (husername : record.username = name)
      (hid : record.clientIdHex = hex uid) (hpub : record.publicKeyDer = none)
      (haes : record.aesKeyB64 = none) (hup : (book w.store).connected = true)
      (hnewId : record.clientIdHex ∉ rowIds w.store) (hnewName : name ∉ rowNames w.store)
      (hrowId : record.clientIdHex ∈ rowIds w'.store) (hrowName : name ∈ rowNames w'.store)
      (hacts : Acts ctx.out (Book.put record) ms w w')
      (hann : announced ms = [] ∨ announced ms = [idMessage r.version uid] ∧ r.version.length = 1)
      (hm : ∀ m ∈ ms, ¬ Coded .aesKey m ∧ ¬ Coded .reloginOk m)
  | keyed (record : ClientRecord) (fs : List ClientField) (ms : List Bytes)
      (hfound : (book w.store).find (hex r.clientId) = some record)
      (hgrants : Grants ctx.env (book w.store) r record fs)
      (hacts : Acts ctx.out (Book.setAll (hex r.clientId) fs) ms w w')
      (hm : ∀ m ∈ ms, ¬ Coded .registerOk m ∧
        (Coded .aesKey m ∨ Coded .reloginOk m → Wraps ctx.env r.clientId (setAll fs record) m))
      (hanswer : r.code = 827 → fs ≠ [] → raised ∨ ∃ m ∈ ms, Coded .reloginOk m)

section
variable {ctx : Ctx} {r : Request} {raised : Prop} {w u v w' : World} {clientId version : Bytes}

/-- Bookkeeping and tame messages. -/
def Calm (o : Outside) (w w' : World) : Prop := ∃ ms, Acts o id ms w w' ∧ ∀ m ∈ ms, Tame m

instance (o : Outside) : Std.Refl (Calm o) := ⟨fun w => ⟨[], Acts.refl w, by simp⟩⟩

instance (o : Outside) : IsTrans World (Calm o) where
  trans _ _ _ := by
    rintro ⟨ms, h, hm⟩ ⟨ns, h', hn⟩
    exact ⟨ms ++ ns, h.trans h', fun m hmem => (List.mem_append.mp hmem).elim (hm m) (hn m)⟩

theorem Calm.step (h : Calm ctx.out w w') : KeyStep ctx r raised w w' := by
  obtain ⟨ms, ha, hm⟩ := h
  exact .quiet ms ha hm

theorem announced_append (ms ns : List Bytes) :
    announced (ms ++ ns) = announced ms ++ announced ns := List.filter_append ..

theorem announced_tame {ms : List Bytes} (h : ∀ m ∈ ms, Tame m) : announced ms = [] := by
  refine List.filter_eq_nil_iff.mpr fun m hm => ?_
  simpa using (h m hm).registerOk

/-- Calm steps before or after change nothing of the description. -/
theorem KeyStep.between (h : Calm ctx.out w u) (hs : KeyStep ctx r raised u v)
    (h' : Calm ctx.out v w') : KeyStep ctx r raised w w' := by
  obtain ⟨ms₁, ha, hm₁⟩ := h
  obtain ⟨ms₂, ha', hm₂⟩ := h'
  have hb : book u.store = book w.store := ha.changes.book_eq
  -- what holds of the middle messages and of tame ones holds of all
  have hall {P : Bytes → Prop} {ms : List Bytes} (hp : ∀ m, Tame m → P m) (hm : ∀ m ∈ ms, P m) :
      ∀ m ∈ ms₁ ++ ms ++ ms₂, P m := by
    intro m hmem
    rcases List.mem_append.mp hmem with hmem | hmem
    · rcases List.mem_append.mp hmem with hmem | hmem
      · exact hp m (hm₁ m hmem)
      · exact hm m hmem
    · exact hp m (hm₂ m hmem)
  cases hs with
  | quiet ms hacts hm => exact .quiet _ ((ha.trans hacts).trans ha') (hall (fun _ h => h) hm)
  | registered name uid record ms hcode hname huid husername hid hpub haes hup hnewId hnewName
      hrowId hrowName hacts hann hm =>
      refine .registered name uid record _ hcode hname huid husername hid hpub haes (hb ▸ hup)
        (fun hx => hnewId (ha.changes.ids hx)) (fun hx => hnewName (ha.changes.names hx))
        (ha'.changes.ids hrowId) (ha'.changes.names hrowName) ((ha.trans hacts).trans ha') ?_
        (hall (fun _ h => ⟨h.aesKey, h.reloginOk⟩) hm)
      rw [announced_append, announced_append, announced_tame hm₁, announced_tame hm₂,
        List.nil_append, List.append_nil]
      exact hann
  | keyed record fs ms hfound hgrants hacts hm hanswer =>
      rw [hb] at hfound hgrants
      refine .keyed record fs _ hfound hgrants ((ha.trans hacts).trans ha')
        (hall (fun _ h => ⟨h.registerOk, fun hk => (hk.elim h.aesKey h.reloginOk).elim⟩) hm)
        fun hcode hfs => (hanswer hcode hfs).imp_right ?_
      rintro ⟨m, hmem, hc⟩
      exact ⟨m, List.mem_append_left _ (List.mem_append_right _ hmem), hc⟩

/-! ### Registration -/

theorem calm_of_quiet {α : Type} {c : ResCode} {x : Server α} {o : Outside}
    (hx : Keeps (Quiet (Coded c)) x) (h₀ : c ≠ .registerOk) (h₂ : c ≠ .aesKey)
    (h₅ : c ≠ .reloginOk) : Keeps (Calm o) x := by
  intro w
  obtain ⟨ms, ht, hm⟩ := hx w
  exact ⟨ms, acts_of_tells ht, fun m h => tame_of_coded (hm m h) h₀ h₂ h₅⟩

theorem calm_of_tells {α : Type} {x : Server α} {o : Outside} (hx : Keeps (Tells []) x) :
    Keeps (Calm o) x := fun w => ⟨[], acts_of_tells (hx w), by simp⟩

theorem step_of_calm {α : Type} {x : Server α} (hx : Keeps (Calm ctx.out) x) :
    wp x (fun _ w' => KeyStep ctx r False w w') (fun _ w' => KeyStep ctx r True w w') w :=
  wp_mono (hx.wp w) (fun _ _ h => h.step) (fun _ _ h => h.step)

theorem step_request825 (hcode : r.code = 825) :
    wp (request825 ctx r.payload r.version) (fun _ w' => KeyStep ctx r False w w')
      (fun _ w' => KeyStep ctx r True w w') w := by
  have h1601 : Keeps (Calm ctx.out) (answer1601 ctx r.version) :=
    calm_of_quiet quiet_answer1601 (by decide) (by decide) (by decide)
  unfold request825
  rcases hname : utf8Decode (rstripNul r.payload) with _ | name
  · exact step_of_calm (keeps_raise _)
  rw [wp_bind, wp_look]
  split_ifs
  · exact step_of_calm h1601
  · exact step_of_calm h1601
  apply wp_seq (acts_onStore (wp_register name))
  · rintro _ u ⟨⟨rfl, hu⟩ | ⟨uid, record, rfl, huid, husername, hid, hpub, haes, hup,
      hnewId, hnewName, hrowId, hrowName, hu⟩, hsent⟩
    · rw [wp_raise]
      exact .quiet [] ⟨hu, hsent⟩ (by simp)
    · dsimp only
      rw [hid, fromHex_hex]
      -- what follows keeps the book and announces the id at most once
      have hdone {v : World} {ms : List Bytes} {raised : Prop} (hv : Acts ctx.out id ms u v)
          (hm : ms = [] ∨ ms = [idMessage r.version uid] ∧ r.version.length = 1) :
          KeyStep ctx r raised w v := by
        refine .registered name uid (forgetSeen record) ms hcode hname huid husername hid
          hpub haes hup
          (hid ▸ hnewId) hnewName (hv.changes.ids hrowId) (hv.changes.names hrowName)
          ⟨hu.trans hv.changes, by rw [hv.sent, hsent, List.append_nil]⟩ ?_ ?_
        · rcases hm with rfl | ⟨rfl, hver⟩
          · exact .inl rfl
          · refine .inr ⟨?_, hver⟩
            have hc : Coded .registerOk (idMessage r.version uid) := coded_message _ _ hver
            simp [announced, hc]
        · rcases hm with rfl | ⟨rfl, hver⟩
          · simp
          · intro m hmem
            have hc : Coded .registerOk m := by
              rw [List.mem_singleton.mp hmem]
              exact coded_message _ _ hver
            exact ⟨fun h => absurd (coded_unique hc h) (by decide),
              fun h => absurd (coded_unique hc h) (by decide)⟩
      have hmove (x : World) : Tells [] x (moveRecentLog name uid x).2 := by
        rw [moveRecentLog, update]
        rcases x.store.recentLog (.name name) with _ | past
        · exact Tells.refl x
        · exact ⟨rfl, by simp [World.setStore], ⟨rfl, .inl (.refl _)⟩⟩
      apply wp_seq (Keeps.wp hmove u)
      · intro _ x hx
        apply wp_seq ((tells_logEvent _ _).wp x)
        · intro _ y hy
          apply wp_seq ((tells_logEvent _ _).wp y)
          · intro _ z hz
            have hbooks := (hx.trans hy).trans hz
            apply wp_ofExcept_bind
            · intro m hm
              obtain ⟨hver, -, -, rfl⟩ := messageAnswer_ok.mp hm
              have hlast (t : World) (ht : Tells [idMessage r.version uid] z t) :
                  Acts ctx.out id [idMessage r.version uid] u t := acts_of_tells (hbooks.trans ht)
              exact wp_mono ((tells_send message_ne_nil).wp z)
                (fun _ t ht => hdone (hlast t ht) (.inr ⟨rfl, hver⟩))
                (fun _ t ht => hdone (hlast t ht) (.inr ⟨rfl, hver⟩))
            · exact fun _ _ => hdone (acts_of_tells hbooks) (.inl rfl)
          · exact fun _ _ h => hdone (acts_of_tells ((hx.trans hy).trans h)) (.inl rfl)
        · exact fun _ _ h => hdone (acts_of_tells (hx.trans h)) (.inl rfl)
      · exact fun _ _ h => hdone (acts_of_tells h) (.inl rfl)
  · rintro _ u ⟨hu, hsent⟩
    exact .quiet [] ⟨hu, hsent⟩ (by simp)

/-! ### Keys -/

theorem b64decode_b64encode (key : Bytes) : b64decode false (b64encode key) = some key := by
  have hascii : (Base64.encode key).all (·.toNat < 128) = true := by
    simpa using Base64.encode_ascii key
  rw [b64decode, b64encode, String.toList_ofList, if_pos hascii, Base64.decode_encode]

/-- Key responses of one kind wrap the keys of the record they were made from. -/
theorem keyMessages {code : ResCode} {der key : Bytes} {record : ClientRecord} {ms : List Bytes}
    (hc : code ≠ .registerOk) (hm : ∀ m ∈ ms, Coded code m ∧ Wrapped ctx.env r.clientId der key m)
    {b64 : String} (hpub : record.publicKeyDer = some der) (haes : record.aesKeyB64 = some b64)
    (hkey : b64decode false b64 = some key) :
    ∀ m ∈ ms, ¬ Coded .registerOk m ∧
      (Coded .aesKey m ∨ Coded .reloginOk m → Wraps ctx.env r.clientId record m) := by
  intro m hmem
  obtain ⟨hcode, hwrap⟩ := hm m hmem
  exact ⟨fun h => hc (coded_unique hcode h), fun _ => ⟨der, b64, key, hpub, haes, hkey, hwrap⟩⟩

theorem step_enrollKey {record : ClientRecord} (h : Linked w.store) (hcode : r.code = 826)
    (hfound : (book w.store).find (hex r.clientId) = some (forgetSeen record)) (der : Bytes) :
    wp (enrollKey ctx r.clientId r.version record der) (fun _ w' => KeyStep ctx r False w w')
      (fun _ w' => KeyStep ctx r True w w') w := by
  have hsome : ((book w.store).find (hex r.clientId)).isSome := by rw [hfound]; rfl
  have hvacuous {raised : Prop} {fs : List ClientField} {ms : List Bytes} :
      r.code = 827 → fs ≠ [] → raised ∨ ∃ m ∈ ms, Coded .reloginOk m := by
    intro h
    rw [hcode] at h
    cases h
  have hone {code : ResCode} {key m : Bytes} (hm : Coded code m)
      (hw : Wrapped ctx.env r.clientId der key m) :
      ∀ m' ∈ [m], Coded code m' ∧ Wrapped ctx.env r.clientId der key m' := by
    intro m' hmem
    rw [List.mem_singleton.mp hmem]
    exact ⟨hm, hw⟩
  unfold enrollKey
  rcases hpub : record.publicKeyDer with _ | stored
  · have hnone : (forgetSeen record).publicKeyDer = none := hpub
    apply wp_seq (acts_onStore (wp_setKey h (isKey_publicKeyDer der) hsome))
    · rintro _ u ⟨hu, hsent⟩
      have hbound : Acts ctx.out (Book.set (hex r.clientId) (.publicKeyDer der)) [] w u :=
        ⟨hu, hsent⟩
      have hsome' : ((book u.store).find (hex r.clientId)).isSome := by
        rw [hu.book_eq, Book.find_set h.indices, hfound]
        rfl
      -- both keys have been set
      have hboth {raised : Prop} {v : World} {key : Bytes} {ms : List Bytes}
          (hv : Acts ctx.out (Book.set (hex r.clientId) (.aesKeyB64 (b64encode key))) ms u v)
          (hm : ∀ m ∈ ms, Coded .aesKey m ∧ Wrapped ctx.env r.clientId der key m) :
          KeyStep ctx r raised w v :=
        .keyed _ [.publicKeyDer der, .aesKeyB64 (b64encode key)] ms hfound
          (.enrol hcode hnone der (b64encode key)) (hbound.trans hv)
          (keyMessages (by decide) hm rfl rfl (b64decode_b64encode key)) hvacuous
      apply wp_mono (wp_freshAndWrap (linked_setField h hu) hsome' .aesKey "answer_1602" der)
      · rintro _ v ⟨key, m, hm, hw, hv⟩
        exact hboth hv (hone hm hw)
      · rintro _ v (hv | ⟨key, ms, hm, hv⟩)
        · exact .keyed _ [.publicKeyDer der] [] hfound (.bind hcode hnone der) (hbound.trans hv)
            (by simp) hvacuous
        · exact hboth hv hm
    · rintro _ u ⟨hu, hsent⟩
      exact .quiet [] ⟨hu, hsent⟩ (by simp)
  dsimp only
  split_ifs with hother
  · exact step_of_calm (calm_of_quiet (quiet_answer1607 _) (by decide) (by decide) (by decide))
  obtain rfl : der = stored := not_not.mp hother
  have hpub' : (forgetSeen record).publicKeyDer = some der := hpub
  rcases haes : record.aesKeyB64 with _ | b64
  · have hnone : (forgetSeen record).aesKeyB64 = none := haes
    have hfresh {raised : Prop} {v : World} {key : Bytes} {ms : List Bytes}
        (hv : Acts ctx.out (Book.set (hex r.clientId) (.aesKeyB64 (b64encode key))) ms w v)
        (hm : ∀ m ∈ ms, Coded .aesKey m ∧ Wrapped ctx.env r.clientId der key m) :
        KeyStep ctx r raised w v :=
      .keyed _ [.aesKeyB64 (b64encode key)] ms hfound (.complete hcode hnone (b64encode key)) hv
        (keyMessages (by decide) hm hpub' rfl (b64decode_b64encode key)) hvacuous
    apply wp_mono (wp_freshAndWrap h hsome .aesKey "answer_1602" der)
    · rintro _ v ⟨key, m, hm, hw, hv⟩
      exact hfresh hv (hone hm hw)
    · rintro _ v (hv | ⟨key, ms, hm, hv⟩)
      · exact .quiet [] hv (by simp)
      · exact hfresh hv hm
  · dsimp only
    rcases hkey : b64decode false b64 with _ | key
    · exact step_of_calm (keeps_raise _)
    have hagain {raised : Prop} {v : World} {ms : List Bytes} (hv : Tells ms w v)
        (hm : ∀ m ∈ ms, Coded .aesKey m ∧ Wrapped ctx.env r.clientId der key m) :
        KeyStep ctx r raised w v :=
      .keyed _ [] ms hfound .none (acts_of_tells hv)
        (keyMessages (by decide) hm hpub' haes hkey) hvacuous
    apply wp_mono (wp_wrapKey .aesKey "answer_1602" der key)
    · rintro _ v ⟨m, hm, hw, hv⟩
      exact hagain hv (hone hm hw)
    · rintro _ v ⟨ms, hm, hv⟩
      exact hagain hv hm

/-- A request that goes on after calm steps. -/
theorem step_calm_bind {α : Type} {x : Server α} {f : α → Server Unit}
    (hx : Keeps (Calm ctx.out) x)
    (hf : ∀ a u, Calm ctx.out w u → wp (f a) (fun _ w' => KeyStep ctx r False u w')
      (fun _ w' => KeyStep ctx r True u w') u) :
    wp (x >>= f) (fun _ w' => KeyStep ctx r False w w')
      (fun _ w' => KeyStep ctx r True w w') w := by
  apply wp_seq (hx.wp w)
  · intro a u hu
    exact wp_mono (hf a u hu) (fun _ _ h => h.between hu (refl_of _ _))
      (fun _ _ h => h.between hu (refl_of _ _))
  · exact fun _ _ h => h.step

theorem linked_calm (h : Linked w.store) (hc : Calm ctx.out w u) : Linked u.store := by
  obtain ⟨ms, ha, -⟩ := hc
  exact linked_same h ha.changes

theorem book_calm (hc : Calm ctx.out w u) : book u.store = book w.store := by
  obtain ⟨ms, ha, -⟩ := hc
  exact ha.changes.book_eq

theorem calm_touch (idHex : String) :
    Keeps (Calm ctx.out) (onStore (touchClientLastSeen ctx.out idHex)) :=
  calm_of_tells (tells_touch idHex)

theorem calm_answer1606 (name : String) :
    Keeps (Calm ctx.out) (answer1606 ctx clientId version name) :=
  calm_of_quiet (quiet_answer1606 name) (by decide) (by decide) (by decide)

theorem calm_answer1607 (text : String) :
    Keeps (Calm ctx.out) (answer1607 ctx clientId version text) :=
  calm_of_quiet (quiet_answer1607 text) (by decide) (by decide) (by decide)

theorem step_request826 (h : Linked w.store) (hcode : r.code = 826) :
    wp (request826 ctx r.clientId r.payload r.version) (fun _ w' => KeyStep ctx r False w w')
      (fun _ w' => KeyStep ctx r True w w') w := by
  rw [request826, wp_bind, wp_look]
  rcases hrec : w.store.getClientById (hex r.clientId) with _ | record
  · exact step_of_calm (calm_answer1607 _)
  have hfound : (book w.store).find (hex r.clientId) = some (forgetSeen record) := by
    rw [find_book, hrec]
    rfl
  apply step_calm_bind (calm_touch _)
  intro _ u hu
  apply step_calm_bind (calm_of_tells (tells_logEvent _ _))
  intro _ v hv
  have hwv : Calm ctx.out w v := trans_of (Calm ctx.out) hu hv
  rcases parse826 ctx.env record.username r.payload with text | ⟨name, der⟩
  · exact step_of_calm (calm_answer1607 _)
  have hcheck : Keeps (Calm ctx.out) (attempt (checkPublicKey ctx r.clientId r.version name der)
      fun _ => do
        answer1607 ctx r.clientId r.version "Invalid RSA public key"
        pure false) := by
    apply keeps_attempt
    · unfold checkPublicKey
      rcases ctx.env.rsaImport der with _ | key
      · exact keeps_raise _
      · exact keeps_ite (keeps_bind (calm_answer1606 _) fun _ => keeps_pure _) (keeps_pure _)
    · exact fun _ => keeps_bind (calm_answer1607 _) fun _ => keeps_pure _
  apply step_calm_bind hcheck
  intro accepted x hx
  have hwx : Calm ctx.out w x := trans_of (Calm ctx.out) hwv hx
  split_ifs
  · apply step_enrollKey (linked_calm h hwx) hcode
    rw [book_calm hwx, hfound]
  · exact step_of_calm (keeps_pure _)

theorem step_request827 (h : Linked w.store) (hcode : r.code = 827) :
    wp (request827 ctx r.clientId r.payload r.version) (fun _ w' => KeyStep ctx r False w w')
      (fun _ w' => KeyStep ctx r True w w') w := by
  unfold request827
  rcases hname : utf8Decode (rstripNul r.payload) with _ | rawName
  · exact step_of_calm (calm_answer1606 _)
  rw [wp_bind, wp_look]
  rcases hrec : w.store.getClientByUsername (strip rawName) with _ | record
  · exact step_of_calm (keeps_bind (calm_of_tells (tells_logEvent _ _)) fun _ => calm_answer1606 _)
  dsimp only
  split_ifs with hid
  · exact step_of_calm (keeps_bind (calm_of_tells (tells_logEvent _ _)) fun _ => calm_answer1606 _)
  rcases hpub : record.publicKeyDer with _ | der
  · exact step_of_calm (calm_answer1606 _)
  dsimp only
  split_ifs with hempty
  · exact step_of_calm (calm_answer1606 _)
  have hbyName : (book w.store).findName (strip rawName) = some (forgetSeen record) := by
    rw [findName_book, hrec]
    rfl
  have hfound : (book w.store).find (hex r.clientId) = some (forgetSeen record) := by
    have := (h.indices.findName_iff.mp hbyName).1
    rwa [show (forgetSeen record).clientIdHex = hex r.clientId from not_not.mp hid] at this
  apply step_calm_bind (calm_touch _)
  intro _ u hu
  apply step_calm_bind (calm_of_tells (tells_logEvent _ _))
  intro _ v hv
  have hwv : Calm ctx.out w v := trans_of (Calm ctx.out) hu hv
  rcases himport : ctx.env.rsaImport der with _ | pub
  · exact step_of_calm (calm_answer1606 _)
  dsimp only
  split_ifs with hsize
  · exact step_of_calm (calm_answer1606 _)
  have hrelogs : Relogs ctx.env (book v.store) r :=
    ⟨rawName, forgetSeen record, der, pub, hname,
      by rw [book_calm hwv, hbyName], not_not.mp hid, hpub, hempty, himport, not_not.mp hsize⟩
  have hfoundv : (book v.store).find (hex r.clientId) = some (forgetSeen record) := by
    rw [book_calm hwv, hfound]
  have hfresh {raised : Prop} {x : World} {key : Bytes} {ms : List Bytes}
      (hx : Acts ctx.out (Book.set (hex r.clientId) (.aesKeyB64 (b64encode key))) ms v x)
      (hm : ∀ m ∈ ms, Coded .reloginOk m ∧ Wrapped ctx.env r.clientId der key m)
      (hans : raised ∨ ∃ m ∈ ms, Coded .reloginOk m) : KeyStep ctx r raised v x :=
    .keyed _ [.aesKeyB64 (b64encode key)] ms hfoundv (.relogin hcode hrelogs (b64encode key)) hx
      (keyMessages (by decide) hm hpub rfl (b64decode_b64encode key)) fun _ _ => hans
  apply wp_mono (wp_freshAndWrap (linked_calm h hwv) (by rw [hfoundv]; rfl) .reloginOk "answer_1605"
    der)
  · rintro _ x ⟨key, m, hm, hw, hx⟩
    refine hfresh hx (fun m' hmem => ?_) (.inr ⟨m, List.mem_singleton.mpr rfl, hm⟩)
    rw [List.mem_singleton.mp hmem]
    exact ⟨hm, hw⟩
  · rintro _ x (hx | ⟨key, ms, hm, hx⟩)
    · exact .quiet [] hx (by simp)
    · exact hfresh hx hm (.inl trivial)

/-! ### The router -/

theorem calm_onSession {f : Session → Session} (hf : ∀ s, (f s).sent = s.sent) :
    Keeps (Calm ctx.out) (onSession f) := fun w =>
  ⟨[], ⟨Changes.refl _, by simp [onSession, update, World.setSession, hf]⟩, by simp⟩

theorem calm_of_upload {α : Type} {x : Server α} (hx : Keeps UploadOnly x) :
    Keeps (Calm ctx.out) x := by
  intro w
  obtain ⟨us, hs⟩ := (hx w).store
  obtain ⟨ms, hsent, hm⟩ := (hx w).sent
  refine ⟨ms, ⟨changes_of_core hs, hsent⟩, fun m hmem => ?_⟩
  rcases hm m hmem with h | h | h
  · exact tame_of_coded h (by decide) (by decide) (by decide)
  · exact tame_of_coded h (by decide) (by decide) (by decide)
  · exact tame_of_coded h (by decide) (by decide) (by decide)

theorem calm_reset : Keeps (Calm ctx.out) (resetTransferState ctx) :=
  calm_of_upload upload_resetTransferState

theorem calm_request829 (payload : Bytes) :
    Keeps (Calm ctx.out) (request829 ctx payload version clientId) := by
  refine keeps_look_bind fun h => keeps_ite (calm_answer1607 _) (keeps_ite (calm_answer1607 _)
    (keeps_ite (calm_answer1607 _) (keeps_ite (calm_answer1607 _) (keeps_ite (calm_answer1607 _)
      (keeps_ite (calm_answer1607 _) ?_)))))
  refine keeps_bind (calm_onSession fun _ => rfl) fun _ => keeps_look_bind fun n =>
    keeps_ofExcept_bind fun signature _ => keeps_bind (calm_onSession fun _ => rfl) fun _ => ?_
  exact calm_of_quiet (quiet_answer1608 _ _ _ _) (by decide) (by decide) (by decide)

theorem calm_request830 (payload : Bytes) :
    Keeps (Calm ctx.out) (request830 ctx payload version clientId) :=
  keeps_look_bind fun _ => keeps_ite (calm_answer1607 _) (keeps_ite (calm_answer1607 _)
    (keeps_ite (calm_answer1607 _) (calm_onSession fun _ => rfl)))

theorem step_dispatchAs (h : Linked w.store) (verified : Bool) :
    wp (dispatchAs handlers ctx r verified) (fun _ w' => KeyStep ctx r False w w')
      (fun _ w' => KeyStep ctx r True w w') w := by
  unfold dispatchAs
  refine wp_branch (fun _ => step_of_calm (calm_answer1607 _)) fun _ => ?_
  refine wp_branch (fun _ => step_of_calm (calm_answer1607 _)) fun _ => ?_
  refine wp_branch step_request825 fun _ => ?_
  refine wp_branch (step_request827 h) fun _ => ?_
  refine wp_branch (step_request826 h) fun _ => ?_
  apply step_of_calm
  refine keeps_ite (calm_of_upload (upload_request828 _)) (keeps_ite (calm_request829 _)
    (keeps_ite (calm_request830 _) (keeps_ite (calm_of_upload (upload_request900 _))
      (keeps_ite (calm_of_upload (upload_request901 _))
        (keeps_ite (calm_of_upload (upload_request902 _)) ?_)))))
  refine keeps_bind (calm_of_tells (tells_onFrameBad _)) fun _ =>
    keeps_bind (calm_answer1607 _) fun _ => keeps_look_bind fun active => ?_
  exact keeps_ite calm_reset (keeps_pure _)

theorem step_routeFrame (h : Linked w.store) (frame : Bytes) :
    wp (routeFrame handlers ctx frame) (fun _ w' => KeyStep ctx (parseFrame frame) False w w')
      (fun _ w' => KeyStep ctx (parseFrame frame) True w w') w := by
  have hbad (reason text : String) : Keeps (Calm ctx.out) (do
      onFrameBad reason
      answer1607 ctx (parseFrame frame).clientId (parseFrame frame).version text
      resetTransferState ctx) :=
    keeps_bind (calm_of_tells (tells_onFrameBad _)) fun _ =>
      keeps_bind (calm_answer1607 _) fun _ => calm_reset
  unfold routeFrame
  split_ifs
  · exact step_of_calm (hbad _ _)
  · exact step_of_calm (hbad _ _)
  · rw [dispatch, wp_bind, wp_look]
    exact step_dispatchAs h _

theorem calm_recover (e : PyError) : Keeps (Calm ctx.out) (recover ctx r e) := by
  refine keeps_bind (calm_of_tells (tells_onFrameBad _)) fun _ => keeps_look_bind fun reason =>
    keeps_ite (keeps_raise e) ?_
  refine keeps_bind (keeps_attempt (calm_answer1607 _) fun _ => keeps_pure _) fun _ =>
    keeps_look_bind fun active => ?_
  exact keeps_ite calm_reset (keeps_pure _)

/-- The request of a frame has raised. -/
def Raises (ctx : Ctx) (frame : Bytes) (w : World) : Prop :=
  ∃ err, (routeFrame handlers ctx frame (noteIdentity (parseFrame frame) w)).1 = .error err

theorem step_handleFrame (h : Linked w.store) (frame : Bytes) :
    KeyStep ctx (parseFrame frame) (Raises ctx frame w) w (handleFrame ctx frame w).2 := by
  unfold handleFrame
  rcases Nat.lt_or_ge frame.length 17 with hlen | hlen
  · rw [handleFrameWith_short hlen]
    exact (calm_of_tells (tells_onFrameBad _) w).step
  rw [handleFrameWith_long hlen]
  have hnote : Calm ctx.out w (noteIdentity (parseFrame frame) w) :=
    ⟨[], ⟨Changes.refl _, by simp [noteIdentity, World.setSession]⟩, by simp⟩
  have hroute : wp (routeFrame handlers ctx frame) _ _ (noteIdentity (parseFrame frame) w) :=
    step_routeFrame (w := noteIdentity (parseFrame frame) w) h frame
  rcases hr : routeFrame handlers ctx frame (noteIdentity (parseFrame frame) w) with ⟨e | _, u⟩
  · have hraises : Raises ctx frame w := ⟨e, by rw [hr]⟩
    rw [wp_of_eq_error hr] at hroute
    simp only [attempt, hr]
    have hstep := hroute.between hnote (calm_recover (r := parseFrame frame) e u)
    rwa [show True = Raises ctx frame w by simp [hraises]] at hstep
  · have hreturns : ¬ Raises ctx frame w := by
      rintro ⟨e, he⟩
      rw [hr] at he
      cases he
    rw [wp_of_eq_ok hr] at hroute
    simp only [attempt, hr]
    have hstep := hroute.between hnote (refl_of (Calm ctx.out) u)
    rwa [show False = Raises ctx frame w by simp [hreturns]] at hstep

end

end Seftp.KeySteps
