import Seftp.StoreFrames
import Seftp.KeyedRows

/-!
# Runs of store operations

Starting, closing and changing the store in any order. A statement works on the
connection's view; the commit after it makes the view durable, and only then are the
indices changed. Nothing is rolled back when the commit fails.

Between operations the view is what is durable, and the indices of an open store list
its clients in the order of the table, as long as no commit fails that has something to
commit.
-/
namespace Seftp.StoreRuns
open LittleEndian ExceptState OutsideWorld Text ClientStore StoreFrames KeyedRows

/-! ### Opening and closing -/

/-- `sqlite3.connect`. What an earlier connection had not committed is lost with it. -/
def connect (o : Outside) : StoreProg Unit := do
  let st ← fetch
  update fun st => { st with calls := st.calls + 1 }
  if o.sqlRaises st.calls then raise .sqlite
  else update fun st => { st with connected := true, working := st.committed }

/-- A statement that changes no row: a `PRAGMA`, a `CREATE TABLE IF NOT EXISTS` or a
`SELECT`. -/
def executeIdle (o : Outside) : StoreProg Unit := do
  let _ ← execute o fun db => some (db, 0)

def clearIndex (st : Store) : Store :=
  { st with records := [], clientsById := fun _ => none, clientsByUsername := fun _ => none }

/-- `_load_clients_index`, whose statement may raise. -/
def loadIndex (o : Outside) : StoreProg Unit := do
  update clearIndex
  executeIdle o
  update fun st => st.loadClientsIndex

/-- The body of the `try` block of `initialize`. -/
def openDatabase (o : Outside) : StoreProg Unit := do
  connect o
  executeIdle o
  executeIdle o
  executeIdle o
  executeIdle o
  executeIdle o
  commit o
  loadIndex o

def initializeStore (o : Outside) : StoreProg Bool :=
  attempt (do
    openDatabase o
    pure true) fun _ => do
    update fun st => { st with connected := false }
    pure false

/-- The connection's own `close`. -/
def disconnect (o : Outside) : StoreProg Unit := do
  let st ← fetch
  update fun st => { st with calls := st.calls + 1 }
  if o.sqlRaises st.calls then raise .sqlite
  else update fun st => clearIndex { st with connected := false }

def closeStore (o : Outside) : StoreProg Unit := do
  let st ← fetch
  if !st.connected then pure ()
  else attempt (do
    commit o
    disconnect o) fun _ => pure ()

def clientExistsById (st : Store) (id : String) : Bool :=
  st.connected && (st.clientsById id).isSome

/-! ### Operations -/

inductive StoreOp where
  | initializeStore
  | closeStore
  | createClient (username : String)
  | setClientPublicKey (id : String) (der : Bytes)
  | setClientAesKey (id aesKeyB64 : String)
  | touchClientLastSeen (id : String)
  | createUploadRecord (clientIdHex fileName : String) (origFileSize cipherSize : ℕ)
  | completeUploadRecord (id : Option ℕ) (storedPath : String) (serverCrc32 : ℕ)
      (completedAt : String)
  | failUploadRecord (id : Option ℕ) (failureReason : String) (status : UploadStatus)
      (completedAt : String)

/-- The call, without its value. -/
def StoreOp.run (o : Outside) : StoreOp → StoreProg Unit
  | .initializeStore => do let _ ← StoreRuns.initializeStore o
  | .closeStore => StoreRuns.closeStore o
  | .createClient username => do let _ ← ClientStore.createClient o username
  | .setClientPublicKey id der => do let _ ← ClientStore.setClientPublicKey o id der
  | .setClientAesKey id key => do let _ ← ClientStore.setClientAesKey o id key
  | .touchClientLastSeen id => do let _ ← ClientStore.touchClientLastSeen o id
  | .createUploadRecord id name orig cipher => do
      let _ ← ClientStore.createUploadRecord o id name orig cipher
  | .completeUploadRecord id path crc time => do
      let _ ← ClientStore.completeUploadRecord o id path crc time
  | .failUploadRecord id reason status time => do
      let _ ← ClientStore.failUploadRecord o id reason status time

/-- What the operation's statement does to the tables; `none` where a constraint makes
it raise. The generated values depend on the number of calls made before. -/
def StoreOp.statement (o : Outside) (calls : ℕ) : StoreOp → Database → Option Database
  | .initializeStore, db => some db
  | .closeStore, db => some db
  | .createClient username, db => db.insertClient (newClient o calls username)
  | .setClientPublicKey id der, db => some (db.updateClient id (.publicKeyDer der))
  | .setClientAesKey id key, db => some (db.updateClient id (.aesKeyB64 key))
  | .touchClientLastSeen id, db => some (db.updateClient id (.lastSeen (o.now calls)))
  | .createUploadRecord id name orig cipher, db =>
      db.insertUpload (newRow id name orig cipher (o.now calls) 0)
  | .completeUploadRecord id path crc time, db =>
      some (db.updateUpload id (.complete path crc time))
  | .failUploadRecord id reason status time, db =>
      some (db.updateUpload id (.fail reason status time))

/-- An operation with the outside world it meets. -/
abbrev Call := Outside × StoreOp

def next (st : Store) (a : Call) : Store := (a.2.run a.1 st).2

def runCalls (st : Store) (as : List Call) : Store := as.foldl next st

/-- A store object on a database file, before `initialize`. -/
def createdStore (db : Database) : Store :=
  { connected := false, committed := db, working := db, records := [],
    clientsById := fun _ => none, clientsByUsername := fun _ => none,
    recentLog := fun _ => none, calls := 0 }

/-! ### The indices -/

/-- The indices list these rows, in this order. -/
structure Lists (rows : List ClientRecord) (st : Store) : Prop where
  records : st.records = rows
  byId : ∀ x, st.clientsById x = position ClientRecord.clientIdHex rows x
  byName : ∀ x, st.clientsByUsername x = position ClientRecord.username rows x

section
variable {st : Store} {rows : List ClientRecord} {r : ClientRecord}

theorem lists_clear : Lists [] (clearIndex st) := ⟨rfl, fun _ => rfl, fun _ => rfl⟩

theorem update_position {key : ClientRecord → String} (h : key r ∉ rows.map key)
    {index : String → Option ℕ} (hi : ∀ x, index x = position key rows x) (x : String) :
    Function.update index (key r) (some rows.length) x = position key (rows ++ [r]) x := by
  rw [position_append, Function.update_apply, hi]
  by_cases hx : x = key r
  · subst hx
    rw [if_pos rfl, position_none.mpr h]
    simp
  · rw [if_neg hx]
    rcases position key rows x with _ | i
    · simp [Ne.symm hx]
    · rfl

theorem lists_indexPut (h : Lists rows st) (hid : r.clientIdHex ∉ rows.map ClientRecord.clientIdHex)
    (hname : r.username ∉ rows.map ClientRecord.username) :
    Lists (rows ++ [r]) (st.indexPut r) := by
  refine ⟨?_, ?_, ?_⟩
  · change st.records ++ [r] = _
    rw [h.records]
  · intro x
    change Function.update st.clientsById r.clientIdHex (some st.records.length) x = _
    rw [h.records]
    exact update_position hid h.byId x
  · intro x
    change Function.update st.clientsByUsername r.username (some st.records.length) x = _
    rw [h.records]
    exact update_position hname h.byName x

theorem lists_foldl {rest : List ClientRecord} (h : Lists rows st)
    (hids : ((rows ++ rest).map ClientRecord.clientIdHex).Nodup)
    (hnames : ((rows ++ rest).map ClientRecord.username).Nodup) :
    Lists (rows ++ rest) (rest.foldl Store.indexPut st) := by
  induction rest generalizing rows st with
  | nil => rwa [List.append_nil]
  | cons r rest ih =>
      have habsent {key : ClientRecord → String} (hkeys : ((rows ++ r :: rest).map key).Nodup) :
          key r ∉ rows.map key := by
        rw [List.map_append, List.nodup_append] at hkeys
        exact fun hmem => hkeys.2.2 _ hmem _ List.mem_cons_self rfl
      have hput := lists_indexPut h (habsent hids) (habsent hnames)
      rw [← List.singleton_append, ← List.append_assoc] at hids hnames ⊢
      exact ih hput hids hnames

theorem foldl_indexPut_fields (rest : List ClientRecord) (st : Store) :
    (rest.foldl Store.indexPut st).connected = st.connected ∧
      (rest.foldl Store.indexPut st).working = st.working ∧
      (rest.foldl Store.indexPut st).committed = st.committed := by
  induction rest generalizing st with
  | nil => exact ⟨rfl, rfl, rfl⟩
  | cons r rest ih => exact ih (st.indexPut r)

theorem lists_load (st : Store) :
    Lists st.working.clients st.loadClientsIndex ∧
      st.loadClientsIndex.connected = st.connected ∧
      st.loadClientsIndex.working = st.working ∧
      st.loadClientsIndex.committed = st.committed :=
  ⟨lists_foldl lists_clear st.working.ids_unique st.working.usernames_unique,
    foldl_indexPut_fields _ _⟩

/-- A column that is no key, in the table and through the index. -/
theorem lists_update {db : Database} {id : String} {f : ClientField} {ref : ℕ}
    (h : Lists db.clients st) (href : st.clientsById id = some ref) (db' : Database)
    (calls : ℕ) :
    Lists (db.updateClient id f).clients
      { st with calls := calls, working := db', committed := db',
                records := st.records.modify ref (·.set f) } := by
  refine ⟨?_, ?_, ?_⟩
  · change st.records.modify ref _ = _
    rw [h.records]
    rw [h.byId] at href
    exact modify_position _ db.ids_unique href
  · intro x
    rw [position_congr (updateClient_ids db id f)]
    exact h.byId x
  · intro x
    have hnames : (db.updateClient id f).clients.map ClientRecord.username =
        db.clients.map ClientRecord.username := by
      simp only [Database.updateClient, List.map_map]
      apply List.map_congr_left
      intro r _
      simp only [Function.comp]
      split
      · simp
      · rfl
    rw [position_congr hnames]
    exact h.byName x

theorem updateClient_absent {db : Database} {id : String} {f : ClientField}
    (h : db.clientRows id = 0) : (db.updateClient id f).clients = db.clients := by
  apply map_of_absent
  intro hmem
  obtain ⟨r, hr, hid⟩ := List.mem_map.mp hmem
  have hin : r ∈ db.clients.filter fun r => r.clientIdHex = id :=
    List.mem_filter.mpr ⟨hr, by simpa using hid⟩
  rw [List.length_eq_zero_iff.mp h] at hin
  cases hin
end

/-! ### One call -/

/-- Nothing is pending, and an open store's indices list its clients. -/
structure Settled (st : Store) : Prop where
  durable : st.committed = st.working
  lists : st.connected = true → Lists st.working.clients st

/-- A commit fails only if there is nothing to commit: the statement before it has
failed or changed nothing. -/
def Harmless (st : Store) (a : Call) : Prop :=
  a.1.sqlRaises st.calls = false → a.1.sqlRaises (st.calls + 1) = true →
    ∀ db, a.2.statement a.1 st.calls st.working = some db → db = st.working

/-- A call that returns has the effect of its statement on what is durable, and none
without a connection. -/
structure Returned (st : Store) (a : Call) (u : Store) : Prop where
  settled : Settled u
  effect : st.connected = true → a.2.statement a.1 st.calls st.committed = some u.committed
  down : st.connected = false → u.committed = st.committed

/-- A call that raises has none. -/
structure Raised (st : Store) (e : PyError) (u : Store) : Prop where
  settled : Settled u
  sqlite : e = .sqlite
  unchanged : u.committed = st.committed

section
variable {o : Outside} {st u : Store}

theorem settled_calls (h : Settled st) (n : ℕ) : Settled { st with calls := n } :=
  ⟨h.durable, fun hc => ⟨(h.lists hc).records, (h.lists hc).byId, (h.lists hc).byName⟩⟩

theorem raised_calls (h : Settled st) (n : ℕ) : Raised st .sqlite { st with calls := n } :=
  ⟨settled_calls h n, rfl, rfl⟩

/-- A commit that fails with nothing to commit. -/
theorem raised_pending (h : Settled st) {db : Database} (hdb : db = st.working) (n : ℕ) :
    Raised st .sqlite { st with calls := n, working := db } := by
  subst hdb
  exact raised_calls h n

theorem returned_down {a : Call} (h : Settled st) (hc : st.connected = false) :
    Returned st a st := by
  refine ⟨h, fun hc' => ?_, fun _ => rfl⟩
  rw [hc] at hc'
  cases hc'

/-- Rows of the other table change under the indices. -/
theorem settled_uploads (h : Settled st) {db : Database} (hdb : db.clients = st.working.clients)
    (n : ℕ) : Settled { st with calls := n, working := db, committed := db } := by
  refine ⟨rfl, fun hc => ?_⟩
  have hl := h.lists hc
  change Lists db.clients _
  rw [hdb]
  exact ⟨hl.records, hl.byId, hl.byName⟩

theorem clean_setClientField {op : StoreOp} {id : String} {f : ClientField} (h : Settled st)
    (hop : ∀ db, op.statement o st.calls db = some (db.updateClient id f))
    (hh : Harmless st (o, op)) :
    wp (setClientField o id f) (fun _ u => Returned st (o, op) u)
      (fun e u => Raised st e u) st := by
  have heffect : op.statement o st.calls st.committed = some (st.working.updateClient id f) := by
    rw [hop, h.durable]
  simp only [setClientField, wp_bind, wp_fetch, wp_ite, wp_execute, wp_commit, wp_pure,
    Bool.not_eq_true']
  split_ifs with hc hexec hcommit hrows
  · exact returned_down h hc
  · exact raised_calls h _
  · exact raised_pending h (hh (by simpa using hexec) hcommit _ (hop st.working)) _
  · exact ⟨settled_uploads h (updateClient_absent hrows) _, fun _ => heffect,
      fun hc' => absurd hc' hc⟩
  have hl := h.lists (by simpa using hc)
  obtain ⟨r, hr, hid⟩ := clientRows_pos (Nat.pos_of_ne_zero hrows)
  rcases href : st.clientsById id with _ | ref
  · -- a row that the statement has found is in the index
    have hnone := href
    rw [hl.byId, position_none] at hnone
    obtain ⟨r', hr', rfl⟩ := List.mem_map.mp hr
    exact absurd (List.mem_map.mpr ⟨r', hr', hid⟩) hnone
  · simp only [wp_bind, wp_update, wp_pure]
    exact ⟨⟨rfl, fun _ => lists_update hl href _ _⟩, fun _ => heffect, fun hc' => absurd hc' hc⟩

theorem insertClient_clients {db db' : Database} {r : ClientRecord}
    (h : db.insertClient r = some db') : db'.clients = db.clients ++ [r] := by
  unfold Database.insertClient at h
  split_ifs at h
  cases h
  rfl

theorem clean_createClient {name : String} (h : Settled st)
    (hh : Harmless st (o, .createClient name)) :
    wp (createClient o name) (fun _ u => Returned st (o, .createClient name) u)
      (fun e u => Raised st e u) st := by
  simp only [createClient, wp_bind, wp_fetch, wp_ite, wp_execute, wp_commit, wp_pure, wp_update,
    Bool.not_eq_true']
  rcases hi : st.working.insertClient (newClient o st.calls name) with _ | db
  · simp only [Option.map_none]
    split_ifs with hc
    · exact returned_down h hc
    · exact raised_calls h _
    · exact raised_calls h _
  · simp only [Option.map_some]
    split_ifs with hc hexec hcommit
    · exact returned_down h hc
    · exact raised_calls h _
    · exact raised_pending h (hh (by simpa using hexec) hcommit db hi) _
    · obtain ⟨hid, hname, -⟩ := insertClient_some hi
      have hl := h.lists (by simpa using hc)
      refine ⟨⟨rfl, fun _ => ?_⟩, fun _ => ?_, fun hc' => absurd hc' hc⟩
      · change Lists db.clients _
        rw [insertClient_clients hi]
        exact lists_indexPut ⟨hl.records, hl.byId, hl.byName⟩ hid hname
      · change st.committed.insertClient _ = _
        rw [h.durable]
        exact hi

theorem insertUpload_clients {db db' : Database} {r : UploadRow}
    (h : db.insertUpload r = some db') : db'.clients = db.clients := by
  unfold Database.insertUpload at h
  split_ifs at h
  cases h
  rfl

theorem clean_createUploadRecord {id name : String} {orig cipher : ℕ} (h : Settled st)
    (hh : Harmless st (o, .createUploadRecord id name orig cipher)) :
    wp (createUploadRecord o id name orig cipher)
      (fun _ u => Returned st (o, .createUploadRecord id name orig cipher) u)
      (fun e u => Raised st e u) st := by
  simp only [createUploadRecord, wp_bind, wp_fetch, wp_ite, wp_execute, wp_commit, wp_pure,
    Bool.not_eq_true']
  have hstatement : ∀ db : Database, db.insertUpload
      { id := 0, clientIdHex := id, fileName := name, origFileSize := orig, cipherSize := cipher,
        status := .inProgress, createdAt := o.now st.calls } =
      StoreOp.statement o st.calls (.createUploadRecord id name orig cipher) db := fun _ => rfl
  rw [hstatement]
  rcases hi : StoreOp.statement o st.calls (.createUploadRecord id name orig cipher) st.working with
    _ | db
  · simp only [Option.map_none]
    split_ifs with hc
    · exact returned_down h hc
    · exact raised_calls h _
    · exact raised_calls h _
  · simp only [Option.map_some]
    split_ifs with hc hexec hcommit
    · exact returned_down h hc
    · exact raised_calls h _
    · exact raised_pending h (hh (by simpa using hexec) hcommit db hi) _
    · refine ⟨settled_uploads h (insertUpload_clients hi) _, fun _ => ?_, fun hc' => absurd hc' hc⟩
      rw [h.durable]
      exact hi

theorem clean_changeUploadRecord {op : StoreOp} {id : Option ℕ} {c : UploadChange} (h : Settled st)
    (hop : ∀ db, op.statement o st.calls db = some (db.updateUpload id c))
    (hh : Harmless st (o, op)) :
    wp (changeUploadRecord o id c) (fun _ u => Returned st (o, op) u) (fun e u => Raised st e u)
      st := by
  simp only [changeUploadRecord, wp_bind, wp_fetch, wp_ite, wp_execute, wp_commit, wp_pure,
    Bool.not_eq_true']
  split_ifs with hc hexec hcommit
  · exact returned_down h hc
  · exact raised_calls h _
  · exact raised_pending h (hh (by simpa using hexec) hcommit _ (hop st.working)) _
  · have hclients : (st.working.updateUpload id c).clients = st.working.clients := rfl
    refine ⟨settled_uploads h hclients _, fun _ => ?_, fun hc' => absurd hc' hc⟩
    rw [h.durable]
    exact hop st.working

/-! ### Opening and closing, in one call -/

/-- Connected to the database as it is. -/
structure Opened (st u : Store) : Prop where
  connected : u.connected = true
  committed : u.committed = st.committed
  working : u.working = st.committed

/-- The tables stay. -/
def Kept (st u : Store) : Prop := u.committed = st.committed ∧ u.working = st.committed

theorem Opened.kept (h : Opened st u) : Kept st u := ⟨h.committed, h.working⟩

theorem opened_connect (h : Settled st) :
    wp (connect o) (fun _ u => Opened st u) (fun _ u => Kept st u) st := by
  simp only [connect, wp_bind, wp_fetch, wp_update, wp_ite, wp_raise]
  split_ifs
  · exact ⟨rfl, h.durable.symm⟩
  · exact ⟨rfl, rfl, rfl⟩

theorem opened_executeIdle (h : Opened st u) :
    wp (executeIdle o) (fun _ v => Opened st v) (fun _ v => Kept st v) u := by
  simp only [executeIdle, wp_bind, wp_execute, wp_pure]
  split_ifs
  · exact h.kept
  · exact ⟨h.connected, h.committed, h.working⟩

theorem opened_commit (h : Opened st u) :
    wp (commit o) (fun _ v => Opened st v) (fun _ v => Kept st v) u := by
  rw [wp_commit]
  split_ifs
  · exact h.kept
  · exact ⟨h.connected, h.working, h.working⟩

theorem opened_loadIndex (h : Opened st u) :
    wp (loadIndex o) (fun _ v => Opened st v ∧ Lists v.working.clients v) (fun _ v => Kept st v)
      u := by
  have hclear : Opened st (clearIndex u) := ⟨h.connected, h.committed, h.working⟩
  rw [loadIndex, wp_bind, wp_update]
  refine wp_seq (opened_executeIdle hclear) (fun _ v hv => ?_) fun _ _ hv => hv
  rw [wp_update]
  obtain ⟨hlists, hconnected, hworking, hcommitted⟩ := lists_load v
  refine ⟨⟨?_, ?_, ?_⟩, ?_⟩
  · rw [hconnected, hv.connected]
  · rw [hcommitted, hv.committed]
  · rw [hworking, hv.working]
  · rw [hworking]
    exact hlists

theorem opened_openDatabase (h : Settled st) :
    wp (openDatabase o) (fun _ v => Opened st v ∧ Lists v.working.clients v) (fun _ v => Kept st v)
      st := by
  refine wp_seq (opened_connect h) (fun _ a ha => ?_) fun _ _ hv => hv
  refine wp_seq (opened_executeIdle ha) (fun _ b hb => ?_) fun _ _ hv => hv
  refine wp_seq (opened_executeIdle hb) (fun _ c hc => ?_) fun _ _ hv => hv
  refine wp_seq (opened_executeIdle hc) (fun _ d hd => ?_) fun _ _ hv => hv
  refine wp_seq (opened_executeIdle hd) (fun _ e he => ?_) fun _ _ hv => hv
  refine wp_seq (opened_executeIdle he) (fun _ f hf => ?_) fun _ _ hv => hv
  refine wp_seq (opened_commit hf) (fun _ g hg => ?_) fun _ _ hv => hv
  exact opened_loadIndex hg

/-- Whether or not the start succeeds, the tables stay. -/
theorem clean_initializeStore (h : Settled st) :
    wp (initializeStore o) (fun _ u => Returned st (o, .initializeStore) u) (fun _ _ => False)
      st := by
  rw [initializeStore, wp_attempt]
  refine wp_seq (opened_openDatabase h) (fun _ u hu => ?_) fun _ u hu => ?_
  · rw [wp_pure]
    obtain ⟨hopened, hlists⟩ := hu
    exact ⟨⟨hopened.committed.trans hopened.working.symm, fun _ => hlists⟩,
      fun _ => congrArg some hopened.committed.symm, fun _ => hopened.committed⟩
  · rw [wp_bind, wp_update, wp_pure]
    refine ⟨⟨hu.1.trans hu.2.symm, fun hc => ?_⟩, fun _ => congrArg some hu.1.symm, fun _ => hu.1⟩
    cases hc

theorem clean_closeStore (h : Settled st) :
    wp (closeStore o) (fun _ u => Returned st (o, .closeStore) u) (fun _ _ => False) st := by
  have hstays (u : Store) (hu : Settled u) (hsame : u.committed = st.committed) :
      Returned st (o, .closeStore) u := ⟨hu, fun _ => congrArg some hsame.symm, fun _ => hsame⟩
  rw [closeStore, wp_bind, wp_fetch, wp_ite]
  by_cases hc : st.connected = true
  · rw [if_neg (by simp [hc]), wp_attempt, wp_bind, wp_commit]
    have hcommitted : Settled { st with calls := st.calls + 1, committed := st.working } := by
      refine ⟨rfl, fun hc => ?_⟩
      have hl := h.lists hc
      exact ⟨hl.records, hl.byId, hl.byName⟩
    split_ifs
    · rw [wp_pure]
      exact hstays _ (settled_calls h _) rfl
    · simp only [disconnect, wp_bind, wp_fetch, wp_update, wp_ite, wp_raise, wp_pure]
      split_ifs
      · exact hstays _ (settled_calls hcommitted _) h.durable.symm
      · refine hstays _ ⟨rfl, fun hc => ?_⟩ h.durable.symm
        cases hc
  · rw [if_pos (by simp [hc]), wp_pure]
    exact hstays st h rfl

/-- What one call does, when its commit has nothing to lose. -/
theorem clean_call {a : Call} (h : Settled st) (hh : Harmless st a) :
    wp (a.2.run a.1) (fun _ u => Returned st a u) (fun e u => Raised st e u) st := by
  have hdrop {α : Type} {x : StoreProg α} (hx : wp x (fun _ u => Returned st a u)
      (fun e u => Raised st e u) st) : wp (x >>= fun _ => pure ()) (fun _ u => Returned st a u)
      (fun e u => Raised st e u) st :=
    wp_seq hx (fun _ _ hu => (wp_pure _).mpr hu) fun _ _ hu => hu
  have hnever {α : Type} {x : StoreProg α} (hx : wp x (fun _ u => Returned st a u)
      (fun _ _ => False) st) : wp x (fun _ u => Returned st a u) (fun e u => Raised st e u) st :=
    wp_mono hx (fun _ _ hu => hu) fun _ _ hu => hu.elim
  obtain ⟨o, op⟩ := a
  cases op with
  | initializeStore => exact hdrop (hnever (clean_initializeStore h))
  | closeStore => exact hnever (clean_closeStore h)
  | createClient name => exact hdrop (clean_createClient h hh)
  | setClientPublicKey id der => exact hdrop (clean_setClientField h (fun _ => rfl) hh)
  | setClientAesKey id key => exact hdrop (clean_setClientField h (fun _ => rfl) hh)
  | touchClientLastSeen id =>
      refine hdrop ?_
      rw [touchClientLastSeen, wp_bind, wp_fetch]
      exact clean_setClientField h (fun _ => rfl) hh
  | createUploadRecord id name orig cipher => exact hdrop (clean_createUploadRecord h hh)
  | completeUploadRecord id path crc time =>
      exact hdrop (clean_changeUploadRecord h (fun _ => rfl) hh)
  | failUploadRecord id reason status time =>
      exact hdrop (clean_changeUploadRecord h (fun _ => rfl) hh)

end

/-! ### Runs -/

/-- Every call of a run meets a condition on the state before it. -/
def AlongCalls (P : Store → Call → Prop) : Store → List Call → Prop
  | _, [] => True
  | st, a :: as => P st a ∧ AlongCalls P (next st a) as

/-- What a call that returned does to a database; a call that raised, and one without a
connection, does nothing. -/
def effect (st : Store) (a : Call) (db : Database) : Database :=
  match (a.2.run a.1 st).1 with
  | .ok _ => if st.connected then (a.2.statement a.1 st.calls db).getD db else db
  | .error _ => db

/-- The database after the calls that returned, in their order. -/
def replay : Store → List Call → Database → Database
  | _, [], db => db
  | st, a :: as, db => replay (next st a) as (effect st a db)

/-- Both lookups answer from the durable table. -/
def IndexMatches (st : Store) : Prop :=
  (∀ id, st.getClientById id = st.committed.clients.find? fun r => r.clientIdHex = id) ∧
    ∀ name, st.getClientByUsername name = st.committed.clients.find? fun r => r.username = name

section
variable {st : Store} {a : Call} {as pre post : List Call}

theorem alongCalls_left {P : Store → Call → Prop} (h : AlongCalls P st (pre ++ post)) :
    AlongCalls P st pre := by
  induction pre generalizing st with
  | nil => trivial
  | cons a pre ih => exact ⟨h.1, ih h.2⟩

theorem alongCalls_mono {P Q : Store → Call → Prop} (hpq : ∀ st a, P st a → Q st a)
    (h : AlongCalls P st as) : AlongCalls Q st as := by
  induction as generalizing st with
  | nil => trivial
  | cons a as ih => exact ⟨hpq _ _ h.1, ih h.2⟩

theorem settled_created (db : Database) : Settled (createdStore db) := ⟨rfl, nofun⟩

theorem settled_next (h : Settled st) (hh : Harmless st a) :
    Settled (next st a) ∧ (next st a).committed = effect st a st.committed := by
  have hcall := clean_call h hh
  unfold next effect
  rcases hr : a.2.run a.1 st with ⟨e | ⟨⟩, u⟩
  · rw [wp_of_eq_error hr] at hcall
    exact ⟨hcall.settled, hcall.unchanged⟩
  · rw [wp_of_eq_ok hr] at hcall
    refine ⟨hcall.settled, ?_⟩
    rcases hc : st.connected with _ | _
    · exact hcall.down hc
    · dsimp only
      rw [if_pos rfl, hcall.effect hc]
      rfl

theorem settled_run (h : Settled st) (hh : AlongCalls Harmless st as) :
    Settled (runCalls st as) ∧ (runCalls st as).committed = replay st as st.committed := by
  induction as generalizing st with
  | nil => exact ⟨h, rfl⟩
  | cons a as ih =>
      obtain ⟨hnext, heffect⟩ := settled_next h hh.1
      obtain ⟨hrun, hreplay⟩ := ih hnext hh.2
      refine ⟨hrun, hreplay.trans ?_⟩
      rw [heffect]
      rfl

/-- Lookups go through the index to the rows it lists. -/
theorem lookup_of_lists {rows : List ClientRecord} (h : Lists rows st) (hc : st.connected = true) :
    (∀ id, st.getClientById id = rows.find? fun r => r.clientIdHex = id) ∧
      ∀ name, st.getClientByUsername name = rows.find? fun r => r.username = name := by
  constructor
  · intro id
    rw [Store.getClientById, if_pos hc, h.byId, h.records]
    exact position_bind rows id
  · intro name
    rw [Store.getClientByUsername, if_pos hc, h.byName, h.records]
    exact position_bind rows name

/-- Where no commit is lost, the durable tables are those of the calls that returned,
and the indices of an open store answer from them. -/
theorem failed_calls_leave_no_residue (db : Database) (as : List Call)
    (h : AlongCalls Harmless (createdStore db) as) (pre post : List Call)
    (hsplit : as = pre ++ post) :
    (runCalls (createdStore db) pre).committed = replay (createdStore db) pre db ∧
      ((runCalls (createdStore db) pre).connected = true →
        IndexMatches (runCalls (createdStore db) pre)) := by
  subst hsplit
  obtain ⟨hsettled, hreplay⟩ := settled_run (settled_created db) (alongCalls_left h)
  refine ⟨hreplay, fun hc => ?_⟩
  have hlookup := lookup_of_lists (hsettled.lists hc) hc
  rw [← hsettled.durable] at hlookup
  exact hlookup

end

/-- Call 8 is the statement of the first registration after a start. -/
def statementFails : Outside := { calm with sqlRaises := fun n => n = 8 }

/-- A registration whose statement raises, another one, and a third that the unique
name refuses. -/
def refusedCalls : List Call :=
  [(calm, .initializeStore), (statementFails, .createClient "alice"), (calm, .createClient "bob"),
    (calm, .createClient "bob")]

theorem residue_free_run :
    ((StoreOp.createClient "alice").run statementFails
        (runCalls (createdStore Database.empty) (refusedCalls.take 1))).1 = .error .sqlite ∧
      ((StoreOp.createClient "bob").run calm
        (runCalls (createdStore Database.empty) (refusedCalls.take 3))).1 = .error .sqlite ∧
      AlongCalls Harmless (createdStore Database.empty) refusedCalls ∧
      (runCalls (createdStore Database.empty) refusedCalls).committed.clients.map
        ClientRecord.username = ["bob"] ∧
      (runCalls (createdStore Database.empty) refusedCalls).committed =
        replay (createdStore Database.empty) refusedCalls Database.empty ∧
      IndexMatches (runCalls (createdStore Database.empty) refusedCalls) := by
  have hharmless : AlongCalls Harmless (createdStore Database.empty) refusedCalls := by
    refine ⟨?_, ?_, ?_, ?_, trivial⟩
    · intro _ h
      cases h
    · intro h
      cases h
    · intro _ h
      cases h
    · intro _ h
      cases h
  obtain ⟨hreplay, hindex⟩ := failed_calls_leave_no_residue Database.empty refusedCalls hharmless
    refusedCalls [] (List.append_nil _).symm
  exact ⟨by decide +kernel, by decide +kernel, hharmless, by decide +kernel, hreplay,
    hindex (by decide +kernel)⟩

/-! ### No call fails -/

/-- No database call of an operation fails, nor does a constraint. -/
def SqlSucceeds (st : Store) (a : Call) : Prop :=
  a.1.SqlWorks ∧ (a.2.run a.1 st).1 ≠ .error .sqlite

section
variable {o : Outside} {st : Store}

theorem harmless_of_works {a : Call} (h : a.1.SqlWorks) : Harmless st a := by
  intro _ hcommit
  rw [h] at hcommit
  cases hcommit

theorem openDatabase_returns (ho : o.SqlWorks) :
    wp (openDatabase o) (fun _ _ => True) (fun _ _ => False) st := by
  simp only [openDatabase, connect, executeIdle, loadIndex, wp_bind, wp_fetch, wp_update,
    wp_execute, wp_commit, wp_pure, ho _, Bool.false_eq_true, if_false]

/-- A start on a working database opens it with its indices. -/
theorem initializeStore_opens (ho : o.SqlWorks) (h : Settled st) :
    Opened st (initializeStore o st).2 ∧
      Lists (initializeStore o st).2.working.clients (initializeStore o st).2 := by
  have hopen := wp_and (opened_openDatabase (o := o) h) (openDatabase_returns ho)
  have hall : wp (initializeStore o) (fun _ u => Opened st u ∧ Lists u.working.clients u)
      (fun _ u => Opened st u ∧ Lists u.working.clients u) st := by
    rw [initializeStore, wp_attempt]
    refine wp_seq hopen (fun _ u hu => ?_) fun _ _ hu => hu.2.elim
    rw [wp_pure]
    exact hu.1
  exact wp_state.mp hall

/-- Closing and starting again leads to the same table. -/
theorem reopen {o' : Outside} (ho' : o'.SqlWorks) (h : Settled st) :
    let u := (initializeStore o' (closeStore o st).2).2
    u.connected = true ∧ Lists st.working.clients u := by
  have hclose : Returned st (o, .closeStore) (closeStore o st).2 :=
    wp_state.mp (wp_mono (clean_closeStore (o := o) h) (fun _ _ hu => hu) fun _ _ hu => hu.elim)
  obtain ⟨hopened, hlists⟩ := initializeStore_opens ho' hclose.settled
  have hsame : (closeStore o st).2.committed = st.working := by
    rcases hc : st.connected with _ | _
    · exact (hclose.down hc).trans h.durable
    · exact (Option.some.inj (hclose.effect hc)).symm.trans h.durable
  rw [hopened.working, hsame] at hlists
  exact ⟨hopened.connected, hlists⟩

/-- In every state that a run without failing calls reaches with an open connection,
the two indices are the table: same rows under both keys, one record for each, lookups
as after closing and starting again, and no call finds its row missing from the index. -/
theorem index_equals_table (db : Database) (as : List Call)
    (h : AlongCalls SqlSucceeds (createdStore db) as)
    (hopen : (runCalls (createdStore db) as).connected = true) :
    let st := runCalls (createdStore db) as
    (∀ id r, st.getClientById id = some r ↔ r ∈ st.working.clients ∧ r.clientIdHex = id) ∧
    (∀ name r, st.getClientByUsername name = some r ↔ r ∈ st.working.clients ∧ r.username = name) ∧
    (∀ r ∈ st.working.clients, ∃ i, st.clientsById r.clientIdHex = some i ∧
      st.clientsByUsername r.username = some i ∧ st.records[i]? = some r) ∧
    st.committed = st.working ∧
    (st.working.clients.map ClientRecord.clientIdHex).Nodup ∧
    (st.working.clients.map ClientRecord.username).Nodup ∧
    (∀ (a : Call) (e : PyError), a.1.SqlWorks → (a.2.run a.1 st).1 = .error e → e = .sqlite) ∧
    ∀ o o' : Outside, o'.SqlWorks →
      let u := (initializeStore o' (closeStore o st).2).2
      u.connected = true ∧
      (∀ id, u.getClientById id = st.getClientById id) ∧
      (∀ name, u.getClientByUsername name = st.getClientByUsername name) ∧
      (∀ id, clientExistsById u id = clientExistsById st id) ∧
      ∀ name, u.clientExistsByUsername name = st.clientExistsByUsername name := by
  intro st
  have hharmless : AlongCalls Harmless (createdStore db) as :=
    alongCalls_mono (fun _ _ ha => harmless_of_works ha.1) h
  obtain ⟨hsettled, -⟩ := settled_run (settled_created db) hharmless
  change Settled st at hsettled
  have hlists : Lists st.working.clients st := hsettled.lists hopen
  obtain ⟨hid, hname⟩ := lookup_of_lists hlists hopen
  refine ⟨?_, ?_, ?_, hsettled.durable, st.working.ids_unique, st.working.usernames_unique, ?_, ?_⟩
  · intro id r
    rw [hid]
    exact find_key st.working.ids_unique
  · intro name r
    rw [hname]
    exact find_key st.working.usernames_unique
  · intro r hr
    obtain ⟨i, hi⟩ := List.getElem?_of_mem hr
    refine ⟨i, ?_, ?_, ?_⟩
    · rw [hlists.byId, position_key st.working.ids_unique hi]
    · rw [hlists.byName, position_key st.working.usernames_unique hi]
    · rw [hlists.records, hi]
  · intro a e ha he
    have hcall := clean_call hsettled (harmless_of_works ha)
    rcases hr : a.2.run a.1 st with ⟨e' | ⟨⟩, u⟩
    · rw [hr] at he
      cases he
      rw [wp_of_eq_error hr] at hcall
      exact hcall.sqlite
    · rw [hr] at he
      cases he
  · intro o o' ho' u
    obtain ⟨hconnected, hagain⟩ := reopen (o := o) ho' hsettled
    change u.connected = true at hconnected
    change Lists st.working.clients u at hagain
    obtain ⟨hid', hname'⟩ := lookup_of_lists hagain hconnected
    refine ⟨hconnected, ?_, ?_, ?_, ?_⟩
    · intro id
      rw [hid', hid]
    · intro name
      rw [hname', hname]
    · intro id
      rw [clientExistsById, clientExistsById, hconnected, hopen, hagain.byId, hlists.byId]
    · intro name
      rw [Store.clientExistsByUsername, Store.clientExistsByUsername, hconnected, hopen,
        hagain.byName, hlists.byName]

end

/-- A registration, a key, a restart and another registration. -/
def restarted : List Call :=
  [(calm, .initializeStore), (calm, .createClient "alice"),
    (calm, .setClientAesKey (hex (calm.uuid4 8).val) "a2V5"), (calm, .closeStore),
    (calm, .initializeStore), (calm, .createClient "bob")]

theorem restarted_index :
    AlongCalls SqlSucceeds (createdStore Database.empty) restarted ∧
      ∀ name r, (runCalls (createdStore Database.empty) restarted).getClientByUsername
        name = some r ↔
        r ∈ (runCalls (createdStore Database.empty) restarted).working.clients ∧
          r.username = name := by
  have hcalls : AlongCalls SqlSucceeds (createdStore Database.empty) restarted := by
    refine ⟨⟨fun _ => rfl, ?_⟩, ⟨fun _ => rfl, ?_⟩, ⟨fun _ => rfl, ?_⟩, ⟨fun _ => rfl, ?_⟩,
      ⟨fun _ => rfl, ?_⟩, ⟨fun _ => rfl, ?_⟩, trivial⟩ <;> decide +kernel
  exact ⟨hcalls, (index_equals_table Database.empty restarted hcalls (by decide +kernel)).2.1⟩

/-! ### A commit that fails -/

/-- Call 9 is the commit of the first registration after a start. -/
def commitFails : Outside := { calm with sqlRaises := fun n => n = 9 }

/-- A registration whose commit fails, and another one. -/
def lostCommit : List Call :=
  [(calm, .initializeStore), (commitFails, .createClient "alice"), (calm, .createClient "bob")]

/-- The first registration has raised; the second makes its row durable, and the index
does not know it. -/
theorem lost_commit_returns :
    ((StoreOp.createClient "alice").run commitFails
        (runCalls (createdStore Database.empty) [(calm, .initializeStore)])).1 = .error .sqlite ∧
      (runCalls (createdStore Database.empty) lostCommit).committed ≠
        replay (createdStore Database.empty) lostCommit Database.empty ∧
      ¬ IndexMatches (runCalls (createdStore Database.empty) lostCommit) := by
  refine ⟨rfl, fun h => ?_, fun h => ?_⟩
  · have hnames := congrArg (fun db => db.clients.map ClientRecord.username) h
    revert hnames
    decide +kernel
  · have halice := h.2 "alice"
    revert halice
    decide +kernel

end Seftp.StoreRuns
