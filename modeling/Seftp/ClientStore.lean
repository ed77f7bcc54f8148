import Seftp.ExceptState
import Seftp.OutsideWorld
import Seftp.Text
import Mathlib.Data.List.Nodup
import Mathlib.Logic.Function.Basic

/-!
# The store

`Store` writes through to SQLite and answers lookups from two in-memory indices.
A database here cannot violate the table constraints: they are fields of its
type, and a statement that would break one raises instead. The connection sees
its own uncommitted statements (`working`); a commit makes them durable.

The indices of the source are dictionaries from a key to a mutable record that
both share. A dictionary maps to a position of `records`, so an update through
one index is seen through the other.
-/
namespace Seftp.ClientStore
open LittleEndian ExceptState OutsideWorld Text

/-- A row of `Clients`, and the `ClientRecord` object made from it. -/
structure ClientRecord where
  clientIdHex : String
  username : String
  publicKeyDer : Option Bytes
  aesKeyB64 : Option String
  createdAt : String
  lastSeen : String
  deriving DecidableEq, Repr

/-- The values of the `status` column. -/
inductive UploadStatus where
  | inProgress | completed | failed | crcMismatch
  deriving DecidableEq, Repr

/-- A row of `Uploads`. -/
structure UploadRow where
  id : ℕ
  clientIdHex : String
  fileName : String
  storedPath : Option String := none
  origFileSize : ℕ
  cipherSize : ℕ
  serverCrc32 : Option ℕ := none
  status : UploadStatus
  failureReason : Option String := none
  createdAt : String
  completedAt : Option String := none
  deriving DecidableEq, Repr

/-- The column an `UPDATE Clients` sets, with its new value. -/
inductive ClientField where
  | publicKeyDer (der : Bytes)
  | aesKeyB64 (key : String)
  | lastSeen (time : String)

def ClientRecord.set (r : ClientRecord) : ClientField → ClientRecord
  | .publicKeyDer der => { r with publicKeyDer := some der }
  | .aesKeyB64 key => { r with aesKeyB64 := some key }
  | .lastSeen time => { r with lastSeen := time }

@[simp] theorem ClientRecord.set_clientIdHex (r : ClientRecord) (f : ClientField) :
    (r.set f).clientIdHex = r.clientIdHex := by cases f <;> rfl

@[simp] theorem ClientRecord.set_username (r : ClientRecord) (f : ClientField) :
    (r.set f).username = r.username := by cases f <;> rfl

/-- The two updates of an upload row. -/
inductive UploadChange where
  | complete (storedPath : String) (serverCrc32 : ℕ) (completedAt : String)
  | fail (failureReason : String) (status : UploadStatus) (completedAt : String)

def UploadRow.change (r : UploadRow) : UploadChange → UploadRow
  | .complete path crc time =>
      { r with status := .completed, completedAt := some time, storedPath := some path,
               serverCrc32 := some crc }
  | .fail reason status time =>
      { r with status := status, completedAt := some time, failureReason := some reason }

@[simp] theorem UploadRow.change_id (r : UploadRow) (c : UploadChange) :
    (r.change c).id = r.id := by
  cases c <;> rfl

@[simp] theorem UploadRow.change_clientIdHex (r : UploadRow) (c : UploadChange) :
    (r.change c).clientIdHex = r.clientIdHex := by cases c <;> rfl

/-- The two tables with their `UNIQUE`, `PRIMARY KEY` and `FOREIGN KEY`
constraints. -/
structure Database where
  clients : List ClientRecord
  uploads : List UploadRow
  ids_unique : (clients.map ClientRecord.clientIdHex).Nodup
  usernames_unique : (clients.map ClientRecord.username).Nodup
  upload_ids_unique : (uploads.map UploadRow.id).Nodup
  owners_exist : ∀ u ∈ uploads, u.clientIdHex ∈ clients.map ClientRecord.clientIdHex

namespace Database

def empty : Database := ⟨[], [], by simp, by simp, by simp, by simp⟩

/-- `INSERT INTO Clients`; `none` is a violated `UNIQUE`. -/
def insertClient (db : Database) (r : ClientRecord) : Option Database :=
  if h : r.clientIdHex ∉ db.clients.map ClientRecord.clientIdHex ∧
      r.username ∉ db.clients.map ClientRecord.username then
    some
      { db with
        clients := db.clients ++ [r]
        ids_unique := by
          rw [List.map_append, List.map_singleton]
          exact List.nodup_append_comm.mp (List.nodup_cons.mpr ⟨h.1, db.ids_unique⟩)
        usernames_unique := by
          rw [List.map_append, List.map_singleton]
          exact List.nodup_append_comm.mp (List.nodup_cons.mpr ⟨h.2, db.usernames_unique⟩)
        owners_exist := fun u hu => by
          rw [List.map_append]
          exact List.mem_append_left _ (db.owners_exist u hu) }
  else none

/-- `UPDATE Clients SET … WHERE client_id_hex = ?`. -/
def updateClient (db : Database) (id : String) (f : ClientField) : Database :=
  have hid : (db.clients.map fun r => if r.clientIdHex = id then r.set f else r).map
      ClientRecord.clientIdHex = db.clients.map ClientRecord.clientIdHex := by
    rw [List.map_map]
    exact List.map_congr_left fun r _ => by dsimp only [Function.comp]; split <;> simp
  have hname : (db.clients.map fun r => if r.clientIdHex = id then r.set f else r).map
      ClientRecord.username = db.clients.map ClientRecord.username := by
    rw [List.map_map]
    exact List.map_congr_left fun r _ => by dsimp only [Function.comp]; split <;> simp
  { db with
    clients := db.clients.map fun r => if r.clientIdHex = id then r.set f else r
    ids_unique := hid ▸ db.ids_unique
    usernames_unique := hname ▸ db.usernames_unique
    owners_exist := fun u hu => hid ▸ db.owners_exist u hu }

/-- `cursor.rowcount` of that update. -/
def clientRows (db : Database) (id : String) : ℕ :=
  (db.clients.filter fun r => r.clientIdHex = id).length

/-- The row id SQLite gives to the next row: one above the largest. -/
def nextUploadId (db : Database) : ℕ := (db.uploads.map UploadRow.id).foldr max 0 + 1

theorem lt_nextUploadId (db : Database) {u : UploadRow} (h : u ∈ db.uploads) :
    u.id < db.nextUploadId := by
  have hm : ∀ (l : List ℕ) {n : ℕ}, n ∈ l → n ≤ l.foldr max 0 := by
    intro l
    induction l with
    | nil => simp
    | cons a l ih =>
        intro n hn
        rw [List.foldr_cons]
        rcases List.mem_cons.mp hn with rfl | hn
        · exact le_max_left _ _
        · exact (ih hn).trans (le_max_right _ _)
  exact Nat.lt_succ_of_le (hm _ (List.mem_map_of_mem h))

/-- `INSERT INTO Uploads`; `none` is a violated `FOREIGN KEY`. -/
def insertUpload (db : Database) (r : UploadRow) : Option Database :=
  if h : r.clientIdHex ∈ db.clients.map ClientRecord.clientIdHex then
    some
      { db with
        uploads := db.uploads ++ [{ r with id := db.nextUploadId }]
        upload_ids_unique := by
          rw [List.map_append, List.map_singleton]
          refine List.nodup_append_comm.mp (List.nodup_cons.mpr ⟨?_, db.upload_ids_unique⟩)
          intro hmem
          obtain ⟨u, hu, he⟩ := List.mem_map.mp hmem
          exact (db.lt_nextUploadId hu).ne he
        owners_exist := fun u hu => by
          rcases List.mem_append.mp hu with hu | hu
          · exact db.owners_exist u hu
          · rw [List.mem_singleton.mp hu]
            exact h }
  else none

/-- `UPDATE Uploads SET … WHERE id = ?`; a null id matches no row. -/
def updateUpload (db : Database) (id : Option ℕ) (c : UploadChange) : Database :=
  have hid : (db.uploads.map fun r => if some r.id = id then r.change c else r).map
      UploadRow.id = db.uploads.map UploadRow.id := by
    rw [List.map_map]
    exact List.map_congr_left fun r _ => by dsimp only [Function.comp]; split <;> simp
  { db with
    uploads := db.uploads.map fun r => if some r.id = id then r.change c else r
    upload_ids_unique := hid ▸ db.upload_ids_unique
    owners_exist := fun u hu => by
      obtain ⟨r, hr, rfl⟩ := List.mem_map.mp hu
      have h := db.owners_exist r hr
      split
      · simpa using h
      · exact h }

def uploadRows (db : Database) (id : Option ℕ) : ℕ :=
  (db.uploads.filter fun r => some r.id = id).length

end Database

/-- The recent log is keyed by client id or, before one is known, by name. -/
inductive LogKey where
  | clientId (id : Bytes)
  | name (name : String)
  deriving DecidableEq, Repr

structure Store where
  connected : Bool
  committed : Database
  working : Database
  records : List ClientRecord
  clientsById : String → Option ℕ
  clientsByUsername : String → Option ℕ
  recentLog : LogKey → Option (List (String × String))
  /-- SQL calls made so far. -/
  calls : ℕ

abbrev StoreProg := Prog Store PyError

/-! ### The indices -/

/-- `_index_put` of a new record object. -/
def Store.indexPut (st : Store) (r : ClientRecord) : Store :=
  { st with
    records := st.records ++ [r]
    clientsById := Function.update st.clientsById r.clientIdHex (some st.records.length)
    clientsByUsername := Function.update st.clientsByUsername r.username (some st.records.length) }

/-- `_load_clients_index`. -/
def Store.loadClientsIndex (st : Store) : Store :=
  st.working.clients.foldl Store.indexPut
    { st with records := [], clientsById := fun _ => none, clientsByUsername := fun _ => none }

/-- The store after a successful `initialize` on an existing database. -/
def Store.initialized (db : Database) : Store :=
  Store.loadClientsIndex
    { connected := true, committed := db, working := db, records := [],
      clientsById := fun _ => none, clientsByUsername := fun _ => none,
      recentLog := fun _ => none, calls := 0 }

def Store.getClientById (st : Store) (id : String) : Option ClientRecord :=
  if st.connected then (st.clientsById id).bind (st.records[·]?) else none

def Store.getClientByUsername (st : Store) (name : String) : Option ClientRecord :=
  if st.connected then (st.clientsByUsername name).bind (st.records[·]?) else none

def Store.clientExistsByUsername (st : Store) (name : String) : Bool :=
  st.connected && (st.clientsByUsername name).isSome

/-- `clients_recent_log[key].append([event, now])` on a default dictionary. -/
def Store.appendLog (st : Store) (key : LogKey) (event time : String) : Store :=
  { st with
    recentLog := Function.update st.recentLog key
      (some ((st.recentLog key).getD [] ++ [(event, time)])) }

/-! ### SQL calls -/

/-- One statement. A failing statement has no effect of its own. -/
def execute (o : Outside) (f : Database → Option (Database × ℕ)) : StoreProg ℕ := do
  let st ← fetch
  update fun st => { st with calls := st.calls + 1 }
  if o.sqlRaises st.calls then raise .sqlite
  else
    match f st.working with
    | none => raise .sqlite
    | some (db, rowcount) => do
        update fun st => { st with working := db }
        pure rowcount

/-- A failing commit leaves the transaction open. -/
def commit (o : Outside) : StoreProg Unit := do
  let st ← fetch
  update fun st => { st with calls := st.calls + 1 }
  if o.sqlRaises st.calls then raise .sqlite
  else update fun st => { st with committed := st.working }

/-- The common body of the three single-column updates: the row, then the record
object the index holds. -/
def setClientField (o : Outside) (id : String) (f : ClientField) : StoreProg Bool := do
  let st ← fetch
  if !st.connected then pure false
  else do
    let rowcount ← execute o fun db => some (db.updateClient id f, db.clientRows id)
    commit o
    if rowcount = 0 then pure false
    else
      match st.clientsById id with
      | none => raise (.runtime ("Store index inconsistency: client_id " ++ id ++
          " exists in DB flow but missing from in-memory index"))
      | some ref => do
          update fun st => { st with records := st.records.modify ref (·.set f) }
          pure true

def setClientPublicKey (o : Outside) (id : String) (der : Bytes) : StoreProg Bool :=
  setClientField o id (.publicKeyDer der)

def setClientAesKey (o : Outside) (id aesKeyB64 : String) : StoreProg Bool :=
  setClientField o id (.aesKeyB64 aesKeyB64)

def touchClientLastSeen (o : Outside) (id : String) : StoreProg Bool := do
  let st ← fetch
  setClientField o id (.lastSeen (o.now st.calls))

/-- The row and record of a new client. -/
def newClient (o : Outside) (calls : ℕ) (username : String) : ClientRecord :=
  { clientIdHex := hex (o.uuid4 calls).val, username, publicKeyDer := none, aesKeyB64 := none,
    createdAt := o.now calls, lastSeen := o.now calls }

def createClient (o : Outside) (username : String) : StoreProg (Option ClientRecord) := do
  let st ← fetch
  if !st.connected then pure none
  else do
    let r := newClient o st.calls username
    let _ ← execute o fun db => (db.insertClient r).map (·, 1)
    commit o
    update fun st => st.indexPut r
    pure (some r)

def createUploadRecord (o : Outside) (clientIdHex fileName : String)
    (origFileSize cipherSize : ℕ) : StoreProg (Option ℕ) := do
  let st ← fetch
  if !st.connected then pure none
  else do
    let r : UploadRow :=
      { id := 0, clientIdHex, fileName, origFileSize, cipherSize, status := .inProgress,
        createdAt := o.now st.calls }
    let lastrowid ← execute o fun db => (db.insertUpload r).map (·, db.nextUploadId)
    commit o
    pure (some lastrowid)

/-- The common body of the two updates of an upload row. -/
def changeUploadRecord (o : Outside) (id : Option ℕ) (c : UploadChange) : StoreProg Bool := do
  let st ← fetch
  if !st.connected then pure false
  else do
    let rowcount ← execute o fun db => some (db.updateUpload id c, db.uploadRows id)
    commit o
    pure (0 < rowcount)

def completeUploadRecord (o : Outside) (id : Option ℕ) (storedPath : String) (serverCrc32 : ℕ)
    (completedAt : String) : StoreProg Bool :=
  changeUploadRecord o id (.complete storedPath serverCrc32 completedAt)

def failUploadRecord (o : Outside) (id : Option ℕ) (failureReason : String)
    (status : UploadStatus) (completedAt : String) : StoreProg Bool :=
  changeUploadRecord o id (.fail failureReason status completedAt)

end Seftp.ClientStore
