import Seftp.KeySteps

/-!
# Identities and keys across connections

Any number of sessions work on one store, and a frame of one of them is handled to
its end before the next. A name is announced once and keeps its id; a public key
once bound stays; the AES key of a client changes only with a relogin or an
unfinished enrolment; and a key response wraps the keys the store holds.
-/
namespace Seftp.KeyBinding
open LittleEndian ExceptState OutsideWorld Text Protocol ClientStore StoreFrames ServerSession
open Answers SessionFrames AccountHandlers HandlerFrames Router KeySteps

/-! ### The index after start-up -/

/-- The first rows of a table have been indexed. -/
structure Loaded (db : Database) (done : List ClientRecord) (st : Store) : Prop where
  working : st.working = db
  connected : st.connected = true
  indices : (book st).Linked
  ids : ∀ x, (st.clientsById x).isSome ↔ x ∈ done.map ClientRecord.clientIdHex
  names : ∀ x, (st.clientsByUsername x).isSome ↔ x ∈ done.map ClientRecord.username

section
variable {db : Database}

/-- A key that points to the end of the list after an update. -/
theorem isSome_update {f : String → Option ℕ} {key x : String} {n : ℕ} :
    (Function.update f key (some n) x).isSome ↔ (f x).isSome ∨ x = key := by
  rw [Function.update_apply]
  split_ifs with h
  · simp [h]
  · simp [h]

theorem loaded_indexPut {done : List ClientRecord} {r : ClientRecord} {st : Store}
    (h : Loaded db done st) (hid : r.clientIdHex ∉ done.map ClientRecord.clientIdHex)
    (hname : r.username ∉ done.map ClientRecord.username) :
    Loaded db (done ++ [r]) (st.indexPut r) := by
  have hbook : book (st.indexPut r) = (book st).put (forgetSeen r) := by
    simp only [book, Book.put, Store.indexPut, List.map_append, List.map_singleton, List.length_map]
    rfl
  have hnoId : (book st).byId r.clientIdHex = none :=
    Option.not_isSome_iff_eq_none.mp (mt (h.ids _).mp hid)
  have hnoName : (book st).byName r.username = none :=
    Option.not_isSome_iff_eq_none.mp (mt (h.names _).mp hname)
  refine ⟨h.working, h.connected, ?_, fun x => ?_, fun x => ?_⟩
  · rw [hbook]
    exact Book.linked_put h.indices hnoId hnoName
  · change (Function.update st.clientsById _ _ x).isSome ↔ _
    rw [isSome_update, h.ids]
    simp
  · change (Function.update st.clientsByUsername _ _ x).isSome ↔ _
    rw [isSome_update, h.names]
    simp

theorem loaded_foldl {rest done : List ClientRecord} {st : Store} (h : Loaded db done st)
    (hids : ((done ++ rest).map ClientRecord.clientIdHex).Nodup)
    (hnames : ((done ++ rest).map ClientRecord.username).Nodup) :
    Loaded db (done ++ rest) (rest.foldl Store.indexPut st) := by
  induction rest generalizing done st with
  | nil => rwa [List.append_nil]
  | cons r rest ih =>
      have hsplit : done ++ r :: rest = (done ++ [r]) ++ rest := by simp
      rw [hsplit] at hids hnames ⊢
      have hid : r.clientIdHex ∉ done.map ClientRecord.clientIdHex := by
        rw [List.map_append, List.nodup_append] at hids
        have := hids.1
        rw [List.map_append, List.nodup_append] at this
        exact fun hmem => this.2.2 _ hmem _ (List.mem_singleton.mpr rfl) rfl
      have hname : r.username ∉ done.map ClientRecord.username := by
        rw [List.map_append, List.nodup_append] at hnames
        have := hnames.1
        rw [List.map_append, List.nodup_append] at this
        exact fun hmem => this.2.2 _ hmem _ (List.mem_singleton.mpr rfl) rfl
      exact ih (loaded_indexPut h hid hname) hids hnames

theorem loaded_initialized (db : Database) : Loaded db db.clients (Store.initialized db) := by
  have hempty : Loaded db []
      { connected := true, committed := db, working := db, records := [],
        clientsById := fun _ => none, clientsByUsername := fun _ => none,
        recentLog := fun _ => none, calls := 0 } := by
    refine ⟨rfl, rfl, ⟨fun _ _ h => ?_, fun _ _ h => ?_⟩, by simp, by simp⟩
    · cases h
    · cases h
  exact loaded_foldl hempty db.ids_unique db.usernames_unique

theorem linked_initialized (db : Database) : Linked (Store.initialized db) := by
  have h := loaded_initialized db
  refine ⟨h.indices, fun x hx => ?_, fun x hx => ?_⟩
  · rw [rowIds, h.working]
    exact (h.ids x).mp hx
  · rw [rowNames, h.working]
    exact (h.names x).mp hx

theorem indexed_initialized (db : Database) :
    (StoreFrames.core (Store.initialized db)).Indexed := by
  have h := loaded_initialized db
  rw [indexed_iff]
  intro x hx
  rw [h.working] at hx
  exact (h.ids x).mpr hx

end

/-! ### What a frame leaves of a record -/

/-- The public key the store holds for an id. -/
def publicKeyOf (st : Store) (idHex : String) : Option Bytes :=
  (st.getClientById idHex).bind ClientRecord.publicKeyDer

/-- The AES key the store holds for an id, in Base64. -/
def aesKeyOf (st : Store) (idHex : String) : Option String :=
  (st.getClientById idHex).bind ClientRecord.aesKeyB64

section
variable {ctx : Ctx} {r : Request} {raised : Prop} {w w' : World} {st : Store} {b : Book}
  {idHex : String} {fs : List ClientField} {record : ClientRecord}

theorem publicKeyOf_book (st : Store) (idHex : String) :
    publicKeyOf st idHex = ((book st).find idHex).bind ClientRecord.publicKeyDer := by
  rw [find_book, publicKeyOf]
  rcases st.getClientById idHex with _ | r
  · rfl
  · rfl

theorem aesKeyOf_book (st : Store) (idHex : String) :
    aesKeyOf st idHex = ((book st).find idHex).bind ClientRecord.aesKeyB64 := by
  rw [find_book, aesKeyOf]
  rcases st.getClientById idHex with _ | r
  · rfl
  · rfl

theorem linked_setAll (h : b.Linked) : (b.setAll idHex fs).Linked := by
  induction fs generalizing b with
  | nil => exact h
  | cons f fs ih => exact ih (Book.linked_set h)

theorem find_setAll (h : b.Linked) (x : String) :
    (b.setAll idHex fs).find x = (b.find x).map fun r => if x = idHex then setAll fs r else r := by
  induction fs generalizing b with
  | nil =>
      rcases hf : b.find x with _ | r
      · simpa [Book.setAll] using hf
      · simpa [Book.setAll, setAll] using hf
  | cons f fs ih =>
      have hrest := ih (b := b.set idHex f) (Book.linked_set h)
      rw [Book.find_set h] at hrest
      refine hrest.trans ?_
      rcases b.find x with _ | r
      · rfl
      · by_cases hx : x = idHex
        · simp [hx, setAll]
        · simp [hx]

theorem byId_setAll : (b.setAll idHex fs).byId = b.byId := by
  induction fs generalizing b with
  | nil => rfl
  | cons f fs ih => exact ih.trans Book.set_byId

theorem byName_setAll : (b.setAll idHex fs).byName = b.byName := by
  induction fs generalizing b with
  | nil => rfl
  | cons f fs ih => exact ih.trans Book.set_byName

/-- Every frame keeps the indices consistent. -/
theorem linked_step (h : Linked w.store) (hs : KeyStep ctx r raised w w') : Linked w'.store := by
  cases hs with
  | quiet ms hacts hm => exact linked_same h hacts.changes
  | registered name uid record ms hcode hname huid husername hid hpub haes hup hnewId hnewName
      hrowId hrowName hacts hann hm =>
      exact linked_register h hnewId (husername ▸ hnewName) hrowId (husername ▸ hrowName)
        hacts.changes
  | keyed record fs ms hfound hgrants hacts hm hanswer =>
      apply linked_of_changes h hacts.changes (linked_setAll h.indices)
      · exact fun x hx => .inl (by rwa [byId_setAll] at hx)
      · exact fun x hx => .inl (by rwa [byName_setAll] at hx)

/-- An id without a row is in no index. -/
theorem find_none (h : Linked st) (hx : idHex ∉ rowIds st) : (book st).find idHex = none := by
  rcases hf : (book st).find idHex with _ | r
  · rfl
  · obtain ⟨-, i, hi, -⟩ := Book.find_eq_some.mp hf
    have hindex : st.clientsById idHex = some i := hi
    exact (hx (h.ids idHex (by rw [hindex]; rfl))).elim

/-- What the fields a request sets leave alone. -/
theorem grants_setAll {env : Env} (hg : Grants env b r record fs) :
    (setAll fs record).username = record.username ∧
      ∀ der, record.publicKeyDer = some der → (setAll fs record).publicKeyDer = some der := by
  cases hg with
  | none => exact ⟨rfl, fun _ h => h⟩
  | bind hcode hpub der => exact ⟨rfl, fun _ h => by rw [hpub] at h; cases h⟩
  | enrol hcode hpub der b64 => exact ⟨rfl, fun _ h => by rw [hpub] at h; cases h⟩
  | complete hcode haes b64 => exact ⟨rfl, fun _ h => h⟩
  | relogin hcode hrelogs b64 => exact ⟨rfl, fun _ h => h⟩

/-- A record keeps its name and its bound public key. -/
theorem record_step (h : Linked w.store) (hs : KeyStep ctx r raised w w')
    (hf : (book w.store).find idHex = some record) :
    ∃ record', (book w'.store).find idHex = some record' ∧ record'.username = record.username ∧
      ∀ der, record.publicKeyDer = some der → record'.publicKeyDer = some der := by
  cases hs with
  | quiet ms hacts hm =>
      exact ⟨record, by rw [hacts.changes.book_eq]; exact hf, rfl, fun _ h => h⟩
  | registered name uid new ms hcode hname huid husername hid hpub haes hup hnewId hnewName
      hrowId hrowName hacts hann hm =>
      have hne : idHex ≠ new.clientIdHex := by
        rintro rfl
        rw [find_none h hnewId] at hf
        cases hf
      refine ⟨record, ?_, rfl, fun _ h => h⟩
      rw [hacts.changes.book_eq, Book.find_put h.indices hup, if_neg hne, hf]
  | keyed old fs ms hfound hgrants hacts hm hanswer =>
      rw [hacts.changes.book_eq, find_setAll h.indices, hf]
      by_cases hx : idHex = hex r.clientId
      · subst hx
        obtain rfl : old = record := Option.some.inj (hfound.symm.trans hf)
        obtain ⟨hname, hpub⟩ := grants_setAll hgrants
        exact ⟨setAll fs old, by simp, hname, hpub⟩
      · exact ⟨record, by simp [hx], rfl, fun _ h => h⟩

/-- The reasons for a change of a client's AES key. -/
inductive Rekeys (ctx : Ctx) (frame : Bytes) (w : World) (idHex : String) (ms : List Bytes) : Prop
  | relogin (hid : hex (parseFrame frame).clientId = idHex) (hcode : (parseFrame frame).code = 827)
      (hrelogs : Relogs ctx.env (book w.store) (parseFrame frame))
      (hanswer : Raises ctx frame w ∨ ∃ m ∈ ms, Coded .reloginOk m)
  | enrolment (hid : hex (parseFrame frame).clientId = idHex)
      (hcode : (parseFrame frame).code = 826)
      (hmissing : publicKeyOf w.store idHex = none ∨ aesKeyOf w.store idHex = none)

/-- The messages handed over between two states of a session. -/
def newSent (w w' : World) : List Bytes := w'.session.sent.drop w.session.sent.length

theorem newSent_eq {ms : List Bytes} (h : w'.session.sent = w.session.sent ++ ms) :
    newSent w w' = ms := by
  rw [newSent, h, List.drop_left]

theorem aesKey_step {frame : Bytes} (h : Linked w.store)
    (hs : KeyStep ctx (parseFrame frame) (Raises ctx frame w) w w')
    (hne : aesKeyOf w'.store idHex ≠ aesKeyOf w.store idHex) :
    Rekeys ctx frame w idHex (newSent w w') := by
  rw [aesKeyOf_book, aesKeyOf_book] at hne
  cases hs with
  | quiet ms hacts hm =>
      rw [hacts.changes.book_eq] at hne
      exact (hne rfl).elim
  | registered name uid new ms hcode hname huid husername hid hpub haes hup hnewId hnewName
      hrowId hrowName hacts hann hm =>
      rw [hacts.changes.book_eq, Book.find_put h.indices hup] at hne
      split_ifs at hne with hx
      · rw [hx, find_none h hnewId] at hne
        exact (hne haes).elim
      · exact (hne rfl).elim
  | keyed old fs ms hfound hgrants hacts hm hanswer =>
      rw [newSent_eq hacts.sent]
      rw [hacts.changes.book_eq, find_setAll h.indices] at hne
      have hid : hex (parseFrame frame).clientId = idHex := by
        by_contra hx
        rcases hf : (book w.store).find idHex with _ | record
        · rw [hf] at hne
          exact hne rfl
        · rw [hf, Option.map_some, if_neg fun h => hx h.symm] at hne
          exact hne rfl
      subst hid
      rw [hfound] at hne
      have hpublic : publicKeyOf w.store (hex (parseFrame frame).clientId) = old.publicKeyDer := by
        rw [publicKeyOf_book, hfound]
        rfl
      have hsecret : aesKeyOf w.store (hex (parseFrame frame).clientId) = old.aesKeyB64 := by
        rw [aesKeyOf_book, hfound]
        rfl
      cases hgrants with
      | none => exact (hne (by simp [setAll])).elim
      | bind hcode hpub der => exact (hne (by simp [setAll, ClientRecord.set])).elim
      | enrol hcode hpub der b64 => exact .enrolment rfl hcode (.inl (hpublic.trans hpub))
      | complete hcode haes b64 => exact .enrolment rfl hcode (.inr (hsecret.trans haes))
      | relogin hcode hrelogs b64 => exact .relogin rfl hcode hrelogs (hanswer hcode (by simp))

/-- A key response wraps the keys that the store holds when the frame is done. -/
theorem wraps_step (h : Linked w.store) (hs : KeyStep ctx r raised w w') {m : Bytes}
    (hmem : m ∈ newSent w w') (hc : Coded .aesKey m ∨ Coded .reloginOk m) :
    ∃ record, w'.store.getClientById (hex r.clientId) = some record ∧
      Wraps ctx.env r.clientId record m := by
  cases hs with
  | quiet ms hacts hm =>
      rw [newSent_eq hacts.sent] at hmem
      exact (hc.elim (hm m hmem).aesKey (hm m hmem).reloginOk).elim
  | registered name uid new ms hcode hname huid husername hid hpub haes hup hnewId hnewName
      hrowId hrowName hacts hann hm =>
      rw [newSent_eq hacts.sent] at hmem
      exact (hc.elim (hm m hmem).1 (hm m hmem).2).elim
  | keyed old fs ms hfound hgrants hacts hm hanswer =>
      rw [newSent_eq hacts.sent] at hmem
      have hwraps := (hm m hmem).2 hc
      have hf : (book w'.store).find (hex r.clientId) = some (setAll fs old) := by
        rw [hacts.changes.book_eq, find_setAll h.indices, hfound]
        simp
      rw [find_book] at hf
      obtain ⟨record, hrecord, hsame⟩ := Option.map_eq_some_iff.mp hf
      refine ⟨record, hrecord, ?_⟩
      rw [← hsame] at hwraps
      exact hwraps

/-- A frame announces at most one id, for a name that had no row. -/
theorem announced_step (h : Linked w.store) (hs : KeyStep ctx r raised w w') :
    announced (newSent w w') = [] ∨
      ∃ name uid record, utf8Decode (rstripNul r.payload) = some name ∧
        announced (newSent w w') = [idMessage r.version uid] ∧ r.version.length = 1 ∧
        name ∉ rowNames w.store ∧ (book w'.store).find (hex uid) = some record ∧
        record.username = name := by
  cases hs with
  | quiet ms hacts hm =>
      rw [newSent_eq hacts.sent]
      exact .inl (announced_tame hm)
  | registered name uid record ms hcode hname huid husername hid hpub haes hup hnewId hnewName
      hrowId hrowName hacts hann hm =>
      rw [newSent_eq hacts.sent]
      rcases hann with hann | ⟨hann, hver⟩
      · exact .inl hann
      · refine .inr ⟨name, uid, record, hname, hann, hver, hnewName, ?_, husername⟩
        rw [hacts.changes.book_eq, Book.find_put h.indices hup, if_pos hid.symm]
  | keyed old fs ms hfound hgrants hacts hm hanswer =>
      rw [newSent_eq hacts.sent]
      refine .inl (List.filter_eq_nil_iff.mpr fun m hmem => ?_)
      simpa using (hm m hmem).1

end

/-! ### Any number of sessions -/

structure System where
  sessions : ℕ → Session
  store : Store
  files : FileSystem
  limiter : UploadLimiter

/-- A frame of one connection, with the outside world it meets. -/
structure Arrival where
  connection : ℕ
  out : Outside
  frame : Bytes

namespace System

def world (s : System) (i : ℕ) : World :=
  { session := s.sessions i, store := s.store, files := s.files, limiter := s.limiter }

def put (s : System) (i : ℕ) (w : World) : System :=
  { sessions := Function.update s.sessions i w.session
    store := w.store, files := w.files, limiter := w.limiter }

def step (env : Env) (s : System) (a : Arrival) : System :=
  s.put a.connection (handleFrame ⟨env, a.out⟩ a.frame (s.world a.connection)).2

def run (env : Env) (s : System) (as : List Arrival) : System := as.foldl (step env) s

/-- The messages a frame makes its session send. -/
def sentBy (env : Env) (s : System) (a : Arrival) : List Bytes :=
  newSent (s.world a.connection) ((s.step env a).world a.connection)

/-- A server that has just been started on a database. -/
def start (db : Database) (sessions : ℕ → Session) (files : FileSystem) (limiter : UploadLimiter) :
    System := { sessions, store := Store.initialized db, files, limiter }

/-- The ids announced so far, with the name in the request that each answers. -/
def registrations (env : Env) : System → List Arrival → List (Option String × Bytes)
  | _, [] => []
  | s, a :: as =>
      (announced (s.sentBy env a)).map (fun m =>
        (utf8Decode (rstripNul (parseFrame a.frame).payload), m.drop 7)) ++
        registrations env (s.step env a) as

end System

section
variable {env : Env} {s : System} {as : List Arrival} {a : Arrival}

theorem run_snoc (s : System) (as : List Arrival) (a : Arrival) :
    s.run env (as ++ [a]) = (s.run env as).step env a := List.foldl_concat ..

theorem run_append (s : System) (as bs : List Arrival) :
    s.run env (as ++ bs) = (s.run env as).run env bs := List.foldl_append ..

theorem registrations_snoc (s : System) (as : List Arrival) (a : Arrival) :
    s.registrations env (as ++ [a]) = s.registrations env as ++
      (announced ((s.run env as).sentBy env a)).map (fun m =>
        (utf8Decode (rstripNul (parseFrame a.frame).payload), m.drop 7)) := by
  induction as generalizing s with
  | nil => simp [System.registrations, System.run]
  | cons b as ih =>
      rw [List.cons_append, System.registrations, ih, System.registrations, List.append_assoc]
      rfl

/-- A frame, on the world of its session. -/
theorem step_world (env : Env) (h : Linked s.store) (a : Arrival) :
    KeyStep ⟨env, a.out⟩ (parseFrame a.frame) (Raises ⟨env, a.out⟩ a.frame (s.world a.connection))
      (s.world a.connection) ((s.step env a).world a.connection) := by
  have hstep : KeyStep ⟨env, a.out⟩ _ _ (s.world a.connection) _ := step_handleFrame h a.frame
  have hworld : (s.step env a).world a.connection =
      (handleFrame ⟨env, a.out⟩ a.frame (s.world a.connection)).2 := by
    simp [System.step, System.put, System.world]
  rwa [hworld]

theorem linked_run (env : Env) (h : Linked s.store) (as : List Arrival) :
    Linked (s.run env as).store := by
  induction as using List.reverseRecOn with
  | nil => exact h
  | append_singleton as a ih =>
      rw [run_snoc]
      have hstep := step_world env ih a
      have hlinked := linked_step (w := (s.run env as).world a.connection) ih hstep
      exact hlinked

/-- A record keeps its name and its bound public key over a run. -/
theorem record_run (env : Env) (h : Linked s.store) {idHex : String} {record : ClientRecord}
    (hf : (book s.store).find idHex = some record) (as : List Arrival) :
    ∃ record', (book (s.run env as).store).find idHex = some record' ∧
      record'.username = record.username ∧
      ∀ der, record.publicKeyDer = some der → record'.publicKeyDer = some der := by
  induction as using List.reverseRecOn with
  | nil => exact ⟨record, hf, rfl, fun _ h => h⟩
  | append_singleton as a ih =>
      obtain ⟨mid, hmid, hname, hpub⟩ := ih
      have hl := linked_run env h as
      obtain ⟨last, hlast, hname', hpub'⟩ := record_step hl (step_world env hl a) hmid
      rw [run_snoc]
      exact ⟨last, hlast, hname'.trans hname, fun der hd => hpub' der (hpub der hd)⟩

theorem idMessage_drop {version uid : Bytes} (h : version.length = 1) :
    (idMessage version uid).drop 7 = uid := by
  have hlen :
      (version ++ leBytes 2 ResCode.registerOk.value ++ leBytes 4 uid.length).length = 7 := by
    simp [h]
  rw [idMessage, message, ← hlen, List.drop_left]

/-- The announced names are distinct, and each is bound to its id. -/
theorem registrations_bound (env : Env) (h : Linked s.store) (as : List Arrival) :
    ((s.registrations env as).map Prod.fst).Nodup ∧
      ∀ p ∈ s.registrations env as, ∃ name record, p.1 = some name ∧
        (book (s.run env as).store).find (hex p.2) = some record ∧ record.username = name := by
  induction as using List.reverseRecOn with
  | nil => exact ⟨List.nodup_nil, by simp [System.registrations]⟩
  | append_singleton as a ih =>
      obtain ⟨hnodup, hbound⟩ := ih
      have hl := linked_run env h as
      have hstep := step_world env hl a
      -- what was bound stays bound
      have hold : ∀ p ∈ s.registrations env as, ∃ name record, p.1 = some name ∧
          (book ((s.run env as).step env a).store).find (hex p.2) = some record ∧
          record.username = name := by
        intro p hp
        obtain ⟨name, record, hname, hf, huser⟩ := hbound p hp
        obtain ⟨record', hf', huser', -⟩ := record_step hl hstep hf
        exact ⟨name, record', hname, hf', huser'.trans huser⟩
      rw [registrations_snoc, run_snoc]
      rcases announced_step hl hstep with hnone | ⟨name, uid, record, hname, hann, hver,
        hfree, hf, huser⟩
      · have : announced ((s.run env as).sentBy env a) = [] := hnone
        rw [this, List.map_nil, List.append_nil]
        exact ⟨hnodup, hold⟩
      · have hsent : announced ((s.run env as).sentBy env a) =
            [idMessage (parseFrame a.frame).version uid] := hann
        rw [hsent, List.map_singleton, idMessage_drop hver, hname]
        constructor
        · -- a name announced before has a row
          rw [List.map_append, List.map_singleton]
          refine List.nodup_append.mpr ⟨hnodup, List.nodup_singleton _, ?_⟩
          intro x hx y hy
          rw [List.mem_singleton.mp hy]
          rintro rfl
          obtain ⟨p, hp, hpx⟩ := List.mem_map.mp hx
          obtain ⟨name', record', hname', hf', huser'⟩ := hbound p hp
          obtain rfl : name' = name := Option.some.inj (hname'.symm.trans hpx)
          have hby := hl.indices.findName_iff.mpr ⟨(hl.indices.find_id hf').symm ▸ hf', huser'⟩
          obtain ⟨-, i, hi, -⟩ := Book.findName_eq_some.mp hby
          have hindex : (s.run env as).store.clientsByUsername name' = some i := hi
          exact hfree (hl.names name' (by rw [hindex]; rfl))
        · intro p hp
          rcases List.mem_append.mp hp with hp | hp
          · exact hold p hp
          · rw [List.mem_singleton.mp hp]
            exact ⟨name, record, rfl, hf, huser⟩

/-- The store's two lookups know a client under its id and its name. -/
def Bound (st : Store) (name : String) (id : Bytes) : Prop :=
  (st.getClientByUsername name).map ClientRecord.clientIdHex = some (hex id) ∧
    (st.getClientById (hex id)).map ClientRecord.username = some name

theorem bound_of_find {st : Store} {record : ClientRecord} {id : Bytes} (h : Linked st)
    (hf : (book st).find (hex id) = some record) : Bound st record.username id := by
  have hid := h.indices.find_id hf
  have hby := h.indices.findName_iff.mpr ⟨hid.symm ▸ hf, rfl⟩
  rw [find_book] at hf
  rw [findName_book] at hby
  obtain ⟨r, hr, rfl⟩ := Option.map_eq_some_iff.mp hf
  obtain ⟨r', hr', hsame⟩ := Option.map_eq_some_iff.mp hby
  constructor
  · rw [hr', Option.map_some]
    have hids : (forgetSeen r').clientIdHex = (forgetSeen r).clientIdHex := by rw [hsame]
    exact congrArg some (hids.trans hid)
  · rw [hr]
    rfl

end

end Seftp.KeyBinding
