import Seftp.ClientStore

/-!
# What the store's operations change

Most requests touch `last_seen` and the recent log and nothing else. `Store.core`
forgets these two, and the operations are described by what they do to the rest.
Every description covers the runs that raise: a statement takes effect before its
commit, so a raising operation may have changed the connection's own view.
-/
namespace Seftp.StoreFrames
open LittleEndian ExceptState OutsideWorld Text ClientStore

/-- A client without the time it was last seen. -/
def forgetSeen (r : ClientRecord) : ClientRecord := { r with lastSeen := "" }

/-- The store without `last_seen`, the recent log and the transaction. -/
structure Core where
  connected : Bool
  clientsById : String → Option ℕ
  clientsByUsername : String → Option ℕ
  records : List ClientRecord
  clients : List ClientRecord
  uploads : List UploadRow

def core (st : Store) : Core :=
  { connected := st.connected
    clientsById := st.clientsById
    clientsByUsername := st.clientsByUsername
    records := st.records.map forgetSeen
    clients := st.working.clients.map forgetSeen
    uploads := st.working.uploads }

/-- Two databases that differ in `last_seen` only. -/
def SameButSeen (db db' : Database) : Prop :=
  db'.clients.map forgetSeen = db.clients.map forgetSeen ∧ db'.uploads = db.uploads

theorem SameButSeen.refl (db : Database) : SameButSeen db db := ⟨rfl, rfl⟩

theorem SameButSeen.trans {a b c : Database} (h : SameButSeen a b) (h' : SameButSeen b c) :
    SameButSeen a c := ⟨h'.1.trans h.1, h'.2.trans h.2⟩

/-- Only `last_seen` and the recent log change. What is durable is what was
durable or what the connection saw. -/
structure SeenOnly (st st' : Store) : Prop where
  core_eq : core st' = core st
  committed : SameButSeen st.committed st'.committed ∨ SameButSeen st.working st'.committed

theorem sameButSeen_working {st st' : Store} (h : core st' = core st) :
    SameButSeen st.working st'.working :=
  ⟨congrArg Core.clients h, congrArg Core.uploads h⟩

instance : Std.Refl SeenOnly := ⟨fun _ => ⟨rfl, .inl (.refl _)⟩⟩

instance : IsTrans Store SeenOnly where
  trans a b c h h' := by
    refine ⟨h'.core_eq.trans h.core_eq, ?_⟩
    rcases h'.committed with hc | hc
    · rcases h.committed with hb | hb
      · exact .inl (hb.trans hc)
      · exact .inr (hb.trans hc)
    · exact .inr ((sameButSeen_working h.core_eq).trans hc)

/-! ### Statements and commits -/

section
variable {o : Outside} {st : Store}

/-- A statement counts, may raise with nothing changed, and else replaces the
connection's view. -/
theorem wp_execute {f : Database → Option (Database × ℕ)} {Q : ℕ → Store → Prop}
    {E : PyError → Store → Prop} :
    wp (execute o f) Q E st ↔
      if o.sqlRaises st.calls then E .sqlite { st with calls := st.calls + 1 }
      else
        match f st.working with
        | none => E .sqlite { st with calls := st.calls + 1 }
        | some (db, n) => Q n { st with calls := st.calls + 1, working := db } := by
  simp only [execute, wp_bind, wp_fetch, wp_update, wp_ite, wp_raise]
  split
  · rfl
  · rcases f st.working with _ | ⟨db, n⟩ <;> simp

theorem wp_commit {Q : Unit → Store → Prop} {E : PyError → Store → Prop} :
    wp (commit o) Q E st ↔
      if o.sqlRaises st.calls then E .sqlite { st with calls := st.calls + 1 }
      else Q () { st with calls := st.calls + 1, committed := st.working } := by
  simp only [commit, wp_bind, wp_fetch, wp_update, wp_ite, wp_raise]

/-- A single-column update, up to the raises. -/
theorem wp_setClientField {id : String} {f : ClientField} {Q : Bool → Store → Prop}
    {E : PyError → Store → Prop}
    (hdown : st.connected = false → Q false st)
    (hexec : E .sqlite { st with calls := st.calls + 1 })
    (hcommit : E .sqlite { st with calls := st.calls + 2, working := st.working.updateClient id f })
    (hmiss : st.working.clientRows id = 0 → Q false
      { st with calls := st.calls + 2, working := st.working.updateClient id f,
                committed := st.working.updateClient id f })
    (hindex : st.clientsById id = none → 0 < st.working.clientRows id → E (.runtime
        ("Store index inconsistency: client_id " ++ id ++
          " exists in DB flow but missing from in-memory index"))
      { st with calls := st.calls + 2, working := st.working.updateClient id f,
                committed := st.working.updateClient id f })
    (hdone : ∀ ref, st.clientsById id = some ref → 0 < st.working.clientRows id → Q true
      { st with calls := st.calls + 2, working := st.working.updateClient id f,
                committed := st.working.updateClient id f,
                records := st.records.modify ref (·.set f) }) :
    wp (setClientField o id f) Q E st := by
  simp only [setClientField, wp_bind, wp_fetch, wp_ite, wp_execute, wp_commit, wp_pure,
    Bool.not_eq_true']
  split_ifs with hc _ _ hrows
  · exact hdown hc
  · exact hexec
  · exact hcommit
  · exact hmiss hrows
  rcases hr : st.clientsById id with _ | ref
  · rw [wp_raise]
    exact hindex hr (by omega)
  · simp only [wp_bind, wp_update, wp_pure]
    exact hdone ref hr (by omega)

/-- A registration, up to the raises. -/
theorem wp_createClient {name : String} {Q : Option ClientRecord → Store → Prop}
    {E : PyError → Store → Prop}
    (hdown : st.connected = false → Q none st)
    (hexec : E .sqlite { st with calls := st.calls + 1 })
    (hcommit : ∀ db, st.working.insertClient (newClient o st.calls name) = some db →
      E .sqlite { st with calls := st.calls + 2, working := db })
    (hdone : ∀ db, st.working.insertClient (newClient o st.calls name) = some db →
      Q (some (newClient o st.calls name))
        (Store.indexPut { st with calls := st.calls + 2, working := db, committed := db }
          (newClient o st.calls name))) :
    wp (createClient o name) Q E st := by
  simp only [createClient, wp_bind, wp_fetch, wp_ite, wp_execute, wp_commit, wp_pure, wp_update,
    Bool.not_eq_true']
  rcases hi : st.working.insertClient (newClient o st.calls name) with _ | db
  · simp only [Option.map_none]
    split_ifs with hc
    · exact hdown hc
    · exact hexec
    · exact hexec
  · simp only [Option.map_some]
    split_ifs with hc
    · exact hdown hc
    · exact hexec
    · exact hcommit db hi
    · exact hdone db hi

theorem insertClient_some {db db' : Database} {r : ClientRecord}
    (h : db.insertClient r = some db') :
    r.clientIdHex ∉ db.clients.map ClientRecord.clientIdHex ∧
      r.username ∉ db.clients.map ClientRecord.username ∧
      db'.clients = db.clients ++ [r] ∧ db'.uploads = db.uploads := by
  unfold Database.insertClient at h
  split_ifs at h with hn
  cases h
  exact ⟨hn.1, hn.2, rfl, rfl⟩

end

/-! ### Refreshing `last_seen` -/

section
variable {o : Outside} {id : String}

@[simp] theorem forgetSeen_set_lastSeen (r : ClientRecord) (time : String) :
    forgetSeen (r.set (.lastSeen time)) = forgetSeen r := rfl

theorem map_forgetSeen_modify (l : List ClientRecord) (i : ℕ) (time : String) :
    (l.modify i (·.set (.lastSeen time))).map forgetSeen = l.map forgetSeen := by
  apply List.ext_getElem?
  intro n
  simp only [List.getElem?_map, List.getElem?_modify]
  rcases l[n]? with _ | r
  · rfl
  · simp only [Option.map_some, Option.map_eq_map]
    split <;> simp

theorem sameButSeen_touch (db : Database) (id time : String) :
    SameButSeen db (db.updateClient id (.lastSeen time)) := by
  refine ⟨?_, rfl⟩
  simp only [Database.updateClient, List.map_map]
  refine List.map_congr_left fun r _ => ?_
  simp only [Function.comp]
  split <;> simp

theorem touch_seenOnly : Keeps SeenOnly (touchClientLastSeen o id) := by
  apply keeps_of_wp
  intro st
  simp only [touchClientLastSeen, wp_bind, wp_fetch]
  have hsame := sameButSeen_touch st.working id (o.now st.calls)
  refine wp_setClientField (fun _ => refl_of SeenOnly st) ⟨rfl, .inl (.refl _)⟩ ⟨?_, .inl (.refl _)⟩
    (fun _ => ⟨?_, .inr hsame⟩) (fun _ _ => ⟨?_, .inr hsame⟩) (fun ref _ _ => ⟨?_, .inr hsame⟩)
  · simp only [core, hsame.1, hsame.2]
  · simp only [core, hsame.1, hsame.2]
  · simp only [core, hsame.1, hsame.2]
  · simp only [core, hsame.1, hsame.2, map_forgetSeen_modify]

/-- Every client of the table has a record in the index. -/
def Core.Indexed (c : Core) : Prop :=
  ∀ r ∈ c.clients, (c.clientsById r.clientIdHex).isSome

theorem clientRows_pos {db : Database} (h : 0 < db.clientRows id) :
    ∃ r ∈ db.clients.map forgetSeen, r.clientIdHex = id := by
  obtain ⟨r, hr⟩ := List.exists_mem_of_length_pos h
  rw [List.mem_filter] at hr
  exact ⟨forgetSeen r, List.mem_map_of_mem hr.1, by simpa [forgetSeen] using hr.2⟩

/-- A single-column update does not raise while the database works and the index
is complete. -/
theorem setClientField_returns {f : ClientField} {st : Store} (ho : o.SqlWorks)
    (hi : (core st).Indexed) :
    wp (setClientField o id f) (fun _ _ => True) (fun _ _ => False) st := by
  simp only [setClientField, wp_bind, wp_fetch, wp_ite, wp_execute, wp_commit, ho _, wp_pure,
    Bool.false_eq_true, if_false]
  split
  · trivial
  split
  · trivial
  have hpos : 0 < st.working.clientRows id := by omega
  obtain ⟨r, hr, rfl⟩ := clientRows_pos hpos
  have := hi r hr
  rcases hf : st.clientsById r.clientIdHex with _ | ref
  · simp [core, hf] at this
  · simp

theorem touch_returns {st : Store} (ho : o.SqlWorks) (hi : (core st).Indexed) :
    wp (touchClientLastSeen o id) (fun _ _ => True) (fun _ _ => False) st := by
  rw [touchClientLastSeen, wp_bind, wp_fetch]
  exact setClientField_returns ho hi

theorem indexed_iff {st : Store} : (core st).Indexed ↔
    ∀ id ∈ st.working.clients.map ClientRecord.clientIdHex, (st.clientsById id).isSome := by
  simp only [Core.Indexed, core, List.forall_mem_map]
  rfl

@[simp] theorem updateClient_ids (db : Database) (id : String) (f : ClientField) :
    (db.updateClient id f).clients.map ClientRecord.clientIdHex =
      db.clients.map ClientRecord.clientIdHex := by
  simp only [Database.updateClient, List.map_map]
  apply List.map_congr_left
  intro r _
  simp only [Function.comp]
  split
  · simp
  · rfl

/-- A single-column update keeps the index complete. -/
theorem indexed_setClientField {f : ClientField} :
    Keeps (fun st st' => (core st).Indexed → (core st').Indexed) (setClientField o id f) := by
  apply keeps_of_wp
  intro st
  have hkept {st' : Store} (hdb : st'.working = st.working.updateClient id f)
      (hindex : st'.clientsById = st.clientsById) (h : (core st).Indexed) : (core st').Indexed := by
    rw [indexed_iff] at h ⊢
    rwa [hdb, hindex, updateClient_ids]
  exact wp_setClientField (fun _ h => h) (fun h => h) (hkept rfl rfl) (fun _ => hkept rfl rfl)
    (fun _ _ => hkept rfl rfl) (fun _ _ _ => hkept rfl rfl)

end

/-! ### Upload rows -/

section
variable {o : Outside} {st : Store}

/-- The row an upload starts with. -/
def newRow (clientIdHex fileName : String) (origFileSize cipherSize : ℕ) (time : String)
    (id : ℕ) : UploadRow :=
  { id, clientIdHex, fileName, origFileSize, cipherSize, status := .inProgress, createdAt := time }

/-- A row is appended under the next id, or nothing happens. -/
def Appended (row : ℕ → UploadRow) (st st' : Store) : Prop :=
  core st' = { core st with uploads := st.working.uploads ++ [row st.working.nextUploadId] }

theorem wp_createUploadRecord {clientIdHex fileName : String} {orig cipher : ℕ} :
    wp (createUploadRecord o clientIdHex fileName orig cipher)
      (fun r st' => (r = none ∧ st.connected = false ∧ st' = st) ∨
        (r = some st.working.nextUploadId ∧ st.connected = true ∧
          Appended (newRow clientIdHex fileName orig cipher (o.now st.calls)) st st'))
      (fun _ st' => core st' = core st ∨
        Appended (newRow clientIdHex fileName orig cipher (o.now st.calls)) st st') st := by
  by_cases hk : clientIdHex ∈ st.working.clients.map ClientRecord.clientIdHex
  · simp only [createUploadRecord, wp_bind, wp_fetch, wp_ite, wp_execute, wp_commit, wp_pure,
      Bool.not_eq_true', Database.insertUpload, hk, dif_pos, Option.map_some]
    split_ifs with hc
    · simp [hc]
    · exact .inl rfl
    · exact .inr rfl
    · exact .inr ⟨trivial, by simpa using hc, rfl⟩
  · simp only [createUploadRecord, wp_bind, wp_fetch, wp_ite, wp_execute, wp_commit, wp_pure,
      Bool.not_eq_true', Database.insertUpload, hk, dif_neg, not_false_eq_true, Option.map_none]
    split_ifs with hc
    · simp [hc]
    · exact .inl rfl
    · exact .inl rfl

theorem createUploadRecord_returns {clientIdHex fileName : String} {orig cipher : ℕ}
    (ho : o.SqlWorks)
    (hk : st.connected = true → clientIdHex ∈ st.working.clients.map ClientRecord.clientIdHex) :
    wp (createUploadRecord o clientIdHex fileName orig cipher) (fun _ _ => True)
      (fun _ _ => False) st := by
  simp only [createUploadRecord, wp_bind, wp_fetch, wp_ite, wp_execute, wp_commit, wp_pure, ho _,
    Bool.false_eq_true, if_false, Bool.not_eq_true']
  split_ifs with hc
  have hin := hk (by simpa using hc)
  simp [Database.insertUpload, hin]

/-- The rows named `id` take the change. -/
def changeRows (id : Option ℕ) (c : UploadChange) (rows : List UploadRow) : List UploadRow :=
  rows.map fun r => if some r.id = id then r.change c else r

/-- The change of the rows named `id`. -/
def Changed (id : Option ℕ) (c : UploadChange) (st st' : Store) : Prop :=
  core st' = { core st with uploads := changeRows id c st.working.uploads }

theorem wp_changeUploadRecord {id : Option ℕ} {c : UploadChange} :
    wp (changeUploadRecord o id c)
      (fun b st' => (b = false ∧ st.connected = false ∧ st' = st) ∨
        (b = decide (0 < st.working.uploadRows id) ∧ st.connected = true ∧ Changed id c st st'))
      (fun _ st' => core st' = core st ∨ Changed id c st st') st := by
  simp only [changeUploadRecord, wp_bind, wp_fetch, wp_ite, wp_execute, wp_commit, wp_pure,
    Bool.not_eq_true']
  split_ifs with hc
  · simp [hc]
  · exact .inl rfl
  · exact .inr rfl
  · exact .inr ⟨trivial, by simpa using hc, rfl⟩

theorem changeUploadRecord_returns {id : Option ℕ} {c : UploadChange} (ho : o.SqlWorks) :
    wp (changeUploadRecord o id c) (fun _ _ => True) (fun _ _ => False) st := by
  simp only [changeUploadRecord, wp_bind, wp_fetch, wp_ite, wp_execute, wp_commit, wp_pure, ho _,
    Bool.false_eq_true, if_false]
  split <;> trivial

end

end Seftp.StoreFrames
