import Seftp.Confirmations

/-!
# Where uploads are written

The final and the temporary path of an upload are made of the client's id and the
base name of the file. Every path that an operation on the disk names is such a path of
one of the session's 828 frames, also when a frame removes again what it has opened.
Three base names are special to `normpath`: the empty one and `.` make
it drop the last component and `..` makes it drop two, so with these neither path
lies in the client's directory; with every other base name both do.
-/
namespace Seftp.UploadPaths
open LittleEndian ExceptState OutsideWorld Text Protocol ClientStore ServerSession Answers
open SessionFrames UploadHandlers UploadSteps ChunkSteps Router HandshakeGate UploadStages FileMoves
open UploadSlot KeyBinding RowSteps
open Confirmations (aliceBoot onConnection)

/-- The directory of a client's uploads. -/
def clientDir (clientId : Bytes) : String := "data/uploads/" ++ hex clientId

/-- A name that is one component of a path and denotes neither its directory nor
the parent. -/
structure Component (n : List Char) : Prop where
  nonempty : n ≠ []
  plain : '/' ∉ n
  not_dot : n ≠ ['.']
  not_dotdot : n ≠ ['.', '.']

/-- A path to a file directly inside a directory. -/
def DirectlyIn (dir path : String) : Prop :=
  ∃ n, Component n ∧ path.toList = dir.toList ++ '/' :: n

/-- The base names that are no names of files. -/
def special : List String := ["", ".", ".."]

section
variable {n : String} {clientId : Bytes} {connectionId : String}

theorem component_iff (hn : '/' ∉ n.toList) : Component n.toList ↔ n ∉ special := by
  have hlist {a b : String} : a.toList = b.toList ↔ a = b := String.toList_inj
  constructor
  · rintro ⟨h₁, -, h₂, h₃⟩ hmem
    simp only [special, List.mem_cons, List.not_mem_nil, or_false] at hmem
    rcases hmem with rfl | rfl | rfl
    · exact h₁ rfl
    · exact h₂ rfl
    · exact h₃ rfl
  · intro hno
    simp only [special, List.mem_cons, List.not_mem_nil, or_false, not_or] at hno
    exact ⟨fun h => hno.1 (hlist.mp h), hn, fun h => hno.2.1 (hlist.mp h),
      fun h => hno.2.2 (hlist.mp h)⟩

theorem mem_hexChars {bs : Bytes} {c : Char} (h : c ∈ hexChars bs) : ∃ v < 16, c = hexDigit v := by
  induction bs with
  | nil => cases h
  | cons b bs ih =>
      have hb := b.toNat_lt
      rcases List.mem_cons.mp h with rfl | h
      · exact ⟨_, by omega, rfl⟩
      · rcases List.mem_cons.mp h with rfl | h
        · exact ⟨_, by omega, rfl⟩
        · exact ih h

theorem hexDigit_plain {v : ℕ} (h : v < 16) : hexDigit v ≠ '/' ∧ hexDigit v ≠ '.' := by
  have : ∀ w : Fin 16, hexDigit w ≠ '/' ∧ hexDigit w ≠ '.' := by decide
  exact this ⟨v, h⟩

theorem component_hex (h : clientId ≠ []) : Component (hex clientId).toList := by
  have hmem {c : Char} (hc : c ∈ (hex clientId).toList) : c ≠ '/' ∧ c ≠ '.' := by
    rw [hex, String.toList_ofList] at hc
    obtain ⟨v, hv, rfl⟩ := mem_hexChars hc
    exact hexDigit_plain hv
  refine ⟨?_, fun hc => (hmem hc).1 rfl, ?_, ?_⟩
  · obtain ⟨b, bs, rfl⟩ := List.exists_cons_of_ne_nil h
    simp [hex, hexChars]
  · intro he
    exact (hmem (he ▸ List.mem_singleton.mpr rfl)).2 rfl
  · intro he
    exact (hmem (he ▸ List.mem_cons_self)).2 rfl

/-! ### The paths -/

/-- Four components, before `normpath`. -/
theorem join_toList {h : String} (hh : Component h.toList) (hn : '/' ∉ n.toList) :
    (joinPath (joinPath "data/uploads" h) n).toList =
      "data".toList ++ '/' :: ("uploads".toList ++ '/' :: (h.toList ++ '/' :: n.toList)) := by
  have hhead {m : String} (hm : '/' ∉ m.toList) : m.toList.head? ≠ some '/' := by
    intro he
    exact hm (List.mem_of_mem_head? he)
  have hdir : joinPath "data/uploads" h = "data/uploads" ++ "/" ++ h := by
    rw [joinPath, if_neg (hhead hh.plain), if_neg (by decide)]
  have hlist : ("data/uploads" ++ "/" ++ h).toList = "data/uploads/".toList ++ h.toList := by
    rw [String.toList_append, String.toList_append]
    rfl
  have hlast : ¬ (("data/uploads" ++ "/" ++ h) = "" ∨
      ("data/uploads" ++ "/" ++ h).toList.getLast? = some '/') := by
    rw [hlist, not_or]
    constructor
    · intro he
      have := congrArg String.toList he
      rw [hlist] at this
      simp at this
    · rw [List.getLast?_append_of_ne_nil _ hh.nonempty]
      intro he
      exact hh.plain (List.mem_of_getLast? he)
  rw [hdir, joinPath, if_neg (hhead hn), if_neg hlast, String.toList_append, String.toList_append,
    hlist]
  simp

theorem outPath_eq {h : String} (hh : Component h.toList) (hn : '/' ∉ n.toList) :
    outPath h n = if n = "" ∨ n = "." then "data/uploads/" ++ h
      else if n = ".." then "data/uploads" else "data/uploads/" ++ h ++ "/" ++ n := by
  have hjoin := join_toList hh hn
  have hne : joinPath (joinPath "data/uploads" h) n ≠ "" := by
    intro he
    rw [he] at hjoin
    simp at hjoin
  have hsplit : (joinPath (joinPath "data/uploads" h) n).toList.splitOn '/' =
      ["data".toList, "uploads".toList, h.toList, n.toList] := by
    rw [hjoin, List.splitOn_append_cons_self_of_not_mem (by decide),
      List.splitOn_append_cons_self_of_not_mem (by decide),
      List.splitOn_append_cons_self_of_not_mem hh.plain, List.splitOn_eq_singleton hn]
  have hslashes : leadingSlashes (joinPath (joinPath "data/uploads" h) n).toList = 0 := by
    rw [hjoin]
    rfl
  have hdata : pushComponent 0 (pushComponent 0 [] "data".toList) "uploads".toList =
      ["uploads".toList, "data".toList] := by decide
  have hclient : pushComponent 0 ["uploads".toList, "data".toList] h.toList =
      [h.toList, "uploads".toList, "data".toList] := by
    rw [pushComponent, if_neg (by simp [hh.nonempty, hh.not_dot]), if_pos (.inl hh.not_dotdot)]
  have hnorm : outPath h n = String.ofList (['/'].intercalate
      (pushComponent 0 [h.toList, "uploads".toList, "data".toList] n.toList).reverse) := by
    rw [outPath, normPath, if_neg hne]
    dsimp only
    rw [hslashes, hsplit, List.foldl_cons, List.foldl_cons, hdata, List.foldl_cons, hclient,
      List.foldl_cons, List.foldl_nil, List.replicate_zero, List.nil_append, if_neg]
    unfold pushComponent
    split_ifs <;> simp [List.intercalate]
  rw [hnorm]
  apply String.toList_injective
  rw [String.toList_ofList]
  by_cases hblank : n = "" ∨ n = "."
  · rw [if_pos hblank, pushComponent, if_pos (by rcases hblank with rfl | rfl <;> decide)]
    simp [List.intercalate]
  rw [if_neg hblank, pushComponent, if_neg]
  · by_cases hup : n = ".."
    · subst hup
      rw [if_pos rfl, if_neg (by simp [hh.not_dotdot])]
      simp [List.intercalate]
    · rw [if_neg hup, if_pos (.inl fun he => hup (String.toList_injective he))]
      simp [List.intercalate]
  · rintro (he | he)
    · exact hblank (.inl (String.toList_injective he))
    · exact hblank (.inr (String.toList_injective he))

theorem clientDir_toList : (clientDir clientId).toList =
    "data/uploads/".toList ++ (hex clientId).toList := by
  rw [clientDir, String.toList_append]

theorem tmpPath_toList {h : String} : (tmpPath h n connectionId).toList =
    (outPath h n).toList ++ (".tmp.".toList ++ connectionId.toList) := by
  rw [tmpPath, String.toList_append, String.toList_append, List.append_assoc]

/-- The final path lies in the client's directory unless the base name is
special. -/
theorem outPath_directlyIn_iff (hid : clientId ≠ []) (hn : '/' ∉ n.toList) :
    DirectlyIn (clientDir clientId) (outPath (hex clientId) n) ↔ n ∉ special := by
  rw [← component_iff hn, outPath_eq (component_hex hid) hn]
  constructor
  · rintro ⟨m, hm, hpath⟩
    rw [clientDir_toList] at hpath
    split_ifs at hpath with h₁ h₂
    · rw [String.toList_append] at hpath
      exact absurd (congrArg List.length hpath) (by simp)
    · exact absurd (congrArg List.length hpath) (by simp)
    · rw [String.toList_append, String.toList_append, String.toList_append,
        List.append_assoc] at hpath
      have := List.append_cancel_left hpath
      simp only [String.reduceToList, List.singleton_append, List.cons.injEq, true_and] at this
      exact this ▸ hm
  · intro hc
    have hno := (component_iff hn).mp hc
    simp only [special, List.mem_cons, List.not_mem_nil, or_false, not_or] at hno
    rw [if_neg (by tauto), if_neg hno.2.2]
    refine ⟨n.toList, hc, ?_⟩
    rw [clientDir_toList, String.toList_append, String.toList_append, String.toList_append]
    simp

/-- So does the temporary path. -/
theorem tmpPath_directlyIn_iff (hid : clientId ≠ []) (hn : '/' ∉ n.toList)
    (hconn : '/' ∉ connectionId.toList) :
    DirectlyIn (clientDir clientId) (tmpPath (hex clientId) n connectionId) ↔ n ∉ special := by
  constructor
  · rintro ⟨m, hm, hpath⟩
    by_contra hspecial
    rw [tmpPath_toList, outPath_eq (component_hex hid) hn, clientDir_toList] at hpath
    simp only [special, List.mem_cons, List.not_mem_nil, or_false] at hspecial
    by_cases hup : n = ".."
    · subst hup
      rw [if_neg (by decide), if_pos rfl] at hpath
      simp at hpath
    · rw [if_pos (by tauto), String.toList_append] at hpath
      have := List.append_cancel_left hpath
      simp at this
  · intro hno
    obtain ⟨m, hm, hpath⟩ := (outPath_directlyIn_iff hid hn).mpr hno
    refine ⟨m ++ (".tmp.".toList ++ connectionId.toList), ⟨?_, ?_, ?_, ?_⟩, ?_⟩
    · simp
    · simp only [List.mem_append, not_or]
      exact ⟨hm.plain, by decide, hconn⟩
    · intro he
      have := congrArg List.length he
      simp at this
      omega
    · intro he
      have := congrArg List.length he
      simp at this
      omega
    · rw [tmpPath_toList, hpath]
      simp

/-- A path lies directly in one directory only. -/
theorem directlyIn_unique {dir dir' path : String} (h : DirectlyIn dir path)
    (h' : DirectlyIn dir' path) : dir = dir' := by
  obtain ⟨m, hm, hpath⟩ := h
  obtain ⟨m', hm', hpath'⟩ := h'
  have hlast {d k : List Char} (hk : '/' ∉ k) : (d ++ '/' :: k).rtakeWhile (· ≠ '/') = k := by
    have hall : ∀ c ∈ k.reverse, decide (c ≠ '/') = true := by
      intro c hc
      have hne : c ≠ '/' := fun he => hk (he ▸ List.mem_reverse.mp hc)
      simpa using hne
    rw [List.rtakeWhile, List.reverse_append, List.reverse_cons, List.append_assoc,
      List.takeWhile_append_of_pos hall]
    simp
  have hsame : m = m' := by
    have := congrArg (List.rtakeWhile fun c => decide (c ≠ '/')) (hpath.symm.trans hpath')
    rwa [hlast hm.plain, hlast hm'.plain] at this
  subst hsame
  exact String.toList_injective (List.append_cancel_right (hpath.symm.trans hpath'))

end

/-! ### The paths of operations -/

/-- The frame is an 828 of the client for a file of that base name. -/
structure Names (frame clientId : Bytes) (name : String) : Prop where
  form : wellFormed frame = true
  code : (parseFrame frame).code = 828
  client : clientId = (parseFrame frame).clientId
  parses : ∃ p, parse828 (parseFrame frame).payload = .ok p ∧ p.fileName = name

/-- One of the two paths of an upload. -/
def PathOf (clientId : Bytes) (name connectionId q : String) : Prop :=
  q = outPath (hex clientId) name ∨ q = tmpPath (hex clientId) name connectionId

/-- An upload's temporary file is opened, takes its final name or is removed. -/
def Serves (clientId : Bytes) (name connectionId : String) : PathOp → Prop
  | .opened path => path = tmpPath (hex clientId) name connectionId
  | .replaced source target =>
      source = tmpPath (hex clientId) name connectionId ∧ target = outPath (hex clientId) name
  | .removed path => path = tmpPath (hex clientId) name connectionId

/-- The operations that named paths between two states of the disk. -/
def newOps (fs fs' : FileSystem) : List PathOp := fs'.journal.drop fs.journal.length

/-- An operation names a path. -/
def Mentions (q : String) : PathOp → Prop
  | .opened path => q = path
  | .replaced source target => q = source ∨ q = target
  | .removed path => q = path

section
variable {U : Bytes → String → Prop} {g : Reasons} {v v' : FileView}

/-- The session's paths, if it has any, are those of one of the uploads `U`. -/
def Aimed (U : Bytes → String → Prop) (v : FileView) : Prop :=
  (v.tmpPath = none ∧ v.path = none) ∨ ∃ clientId name, U clientId name ∧
    v.path = some (outPath (hex clientId) name) ∧
    ∀ t ∈ v.tmpPath, t = tmpPath (hex clientId) name v.connectionId

/-- The operations between two views serve the uploads `U`, and no path that they do not
name has changed. -/
structure Logged (U : Bytes → String → Prop) (v v' : FileView) : Prop where
  connection : v'.connectionId = v.connectionId
  ops : ∃ ops, v'.files.journal = v.files.journal ++ ops ∧
    (∀ op ∈ ops, ∃ clientId name, U clientId name ∧ Serves clientId name v.connectionId op) ∧
    ∀ q, v'.files.entry q ≠ v.files.entry q → ∃ op ∈ ops, Mentions q op

theorem logged_same (hconn : v'.connectionId = v.connectionId)
    (hjournal : v'.files.journal = v.files.journal) (hentry : v'.files.entry = v.files.entry) :
    Logged U v v' :=
  ⟨hconn, [], by rw [hjournal, List.append_nil], fun _ h => absurd h List.not_mem_nil,
    fun _ h => absurd (congrFun hentry _) h⟩

theorem logged_one {clientId : Bytes} {name : String} (op : PathOp) (hu : U clientId name)
    (hserves : Serves clientId name v.connectionId op) (hconn : v'.connectionId = v.connectionId)
    (hjournal : v'.files.journal = v.files.journal ++ [op])
    (hentry : ∀ q, ¬ Mentions q op → v'.files.entry q = v.files.entry q) : Logged U v v' := by
  refine ⟨hconn, [op], hjournal, fun o ho => ?_, fun q hq => ?_⟩
  · rw [List.mem_singleton.mp ho]
    exact ⟨clientId, name, hu, hserves⟩
  · refine ⟨op, List.mem_singleton.mpr rfl, ?_⟩
    by_contra hno
    exact hq (hentry q hno)

theorem Logged.trans {u : FileView} (h : Logged U v u) (h' : Logged U u v') : Logged U v v' := by
  obtain ⟨hconn, ops, hops, hserve, hentry⟩ := h
  obtain ⟨hconn', ops', hops', hserve', hentry'⟩ := h'
  refine ⟨hconn'.trans hconn, ops ++ ops', by rw [hops', hops, List.append_assoc], ?_, ?_⟩
  · intro op hop
    rcases List.mem_append.mp hop with hop | hop
    · exact hserve op hop
    · rw [← hconn]
      exact hserve' op hop
  · intro q hq
    by_cases hsame : u.files.entry q = v.files.entry q
    · rw [← hsame] at hq
      obtain ⟨op, hop, hm⟩ := hentry' q hq
      exact ⟨op, List.mem_append_right _ hop, hm⟩
    · obtain ⟨op, hop, hm⟩ := hentry q hsame
      exact ⟨op, List.mem_append_left _ hop, hm⟩

theorem create_journal (fs : FileSystem) (path : String) :
    (fs.create path).2.journal = fs.journal ++ [.opened path] := by
  unfold FileSystem.create
  split
  · rfl
  · rfl

/-- The paths of a tracked temporary file and its target. -/
theorem Aimed.tracked (h : Aimed U v) {tmp : String} (htmp : v.tmpPath = some tmp) :
    ∃ clientId name, U clientId name ∧ tmp = tmpPath (hex clientId) name v.connectionId ∧
      v.path = some (outPath (hex clientId) name) := by
  rcases h with ⟨hnone, -⟩ | ⟨clientId, name, hu, hpath, hall⟩
  · cases hnone.symm.trans htmp
  · exact ⟨clientId, name, hu, hall tmp htmp, hpath⟩

/-- One move: the operations name the session's paths, and these stay paths of `U`. -/
theorem logged_move (h : Move g v v') (ha : Aimed U v)
    (hopens : ∀ clientId p, g.opens clientId p → U clientId p.fileName) :
    Aimed U v' ∧ Logged U v v' := by
  cases h with
  | bound id hid => exact ⟨ha, logged_same rfl rfl rfl⟩
  | activated => exact ⟨ha, logged_same rfl rfl rfl⟩
  | aimed clientId p hop hactive hclient =>
      refine ⟨.inr ⟨clientId, p.fileName, hopens clientId p hop, rfl, fun t ht => ?_⟩,
        logged_same rfl rfl rfl⟩
      cases ht
      rfl
  | opened clientId p hop tmp hname hthere =>
      refine ⟨ha, logged_one (.opened tmp) (hopens clientId p hop) hname rfl
        (create_journal v.files tmp) fun q hq => create_entry_ne hq⟩
  | written i data hi => exact ⟨ha, logged_same rfl rfl rfl⟩
  | closed => exact ⟨ha, logged_same rfl rfl rfl⟩
  | renamed tmp path hstore hthere hfinal =>
      obtain ⟨clientId, name, hu, htmp, hpath⟩ := ha.tracked hthere
      refine ⟨.inr ⟨clientId, name, hu, hpath, fun t ht => by cases ht⟩, ?_⟩
      refine logged_one (.replaced tmp path) hu
        ⟨htmp, Option.some.inj (hfinal.symm.trans hpath)⟩ rfl rfl fun q hq => ?_
      exact rename_entry_ne (fun he => hq (.inl he)) fun he => hq (.inr he)
  | reset fs hfs =>
      refine ⟨.inl ⟨rfl, rfl⟩, ?_⟩
      cases hfs with
      | kept _ => exact logged_same rfl rfl rfl
      | gone t hthere =>
          obtain ⟨clientId, name, hu, htmp, -⟩ := ha.tracked hthere
          exact logged_one (.removed t) hu htmp rfl rfl fun q hq => unlink_entry_ne hq

theorem logged_moves (h : Relation.ReflTransGen (Move g) v v') (ha : Aimed U v)
    (hopens : ∀ clientId p, g.opens clientId p → U clientId p.fileName) :
    Aimed U v' ∧ Logged U v v' := by
  induction h with
  | refl => exact ⟨ha, logged_same rfl rfl rfl⟩
  | tail _ hmove ih =>
      obtain ⟨hnext, hlog⟩ := logged_move hmove ih.1 hopens
      exact ⟨hnext, ih.2.trans hlog⟩

end

/-- Base names have no slash. -/
theorem fileName_plain {payload : Bytes} {p : Packet} (h : parse828 payload = .ok p) :
    '/' ∉ p.fileName.toList := by
  unfold parse828 at h
  split at h
  · cases h
  · split at h
    · cases h
    · cases h
      rw [basename, String.toList_ofList]
      intro hmem
      simpa using List.mem_rtakeWhile_imp hmem

theorem clientId_length {frame : Bytes} (h : wellFormed frame = true) :
    (parseFrame frame).clientId.length = 16 := by
  simp only [wellFormed, Bool.and_eq_true, decide_eq_true_eq] at h
  rw [parseFrame, List.length_take]
  omega

/-! ### The sessions of a server -/

/-- An upload that one of the frames of a connection asks for. -/
def Asked (i : ℕ) (as : List Arrival) (clientId : Bytes) (name : String) : Prop :=
  ∃ x ∈ as, x.connection = i ∧ Names x.frame clientId name

section
variable {env : Env} {s : System} {as : List Arrival} {a : Arrival} {i : ℕ}

theorem Aimed.mono {U U' : Bytes → String → Prop} {v : FileView} (h : Aimed U v)
    (hsub : ∀ clientId name, U clientId name → U' clientId name) : Aimed U' v :=
  h.imp id fun ⟨clientId, name, hu, hrest⟩ => ⟨clientId, name, hsub _ _ hu, hrest⟩

/-- The frame of a session, on its paths and on the disk. -/
theorem logged_step (env : Env) (h : Aimed (Asked a.connection as) (view (s.world a.connection))) :
    Aimed (Asked a.connection (as ++ [a])) (view ((s.step env a).world a.connection)) ∧
      Logged (Asked a.connection (as ++ [a])) (view (s.world a.connection))
        (view ((s.step env a).world a.connection)) := by
  rw [world_step]
  refine logged_moves (moves_handleFrame ⟨env, a.out⟩ a.frame (s.world a.connection)) (h.mono ?_) ?_
  · rintro clientId name ⟨x, hx, hrest⟩
    exact ⟨x, List.mem_append_left _ hx, hrest⟩
  · rintro clientId p ⟨hform, hcode, hclient, t, hbegins⟩
    exact ⟨a, List.mem_append_right _ List.mem_cons_self, rfl, hform, hcode, hclient, p,
      hbegins.parses, rfl⟩

/-- After any frames the paths of each session are those of an upload that one of its
own frames asked for. -/
theorem aimed_run (env : Env) (b : Boot) (as : List Arrival) (i : ℕ) :
    ((b.system.run env as).sessions i).connectionId = b.connectionIds i ∧
      Aimed (Asked i as) (view ((b.system.run env as).world i)) := by
  induction as using List.reverseRecOn generalizing i with
  | nil => exact ⟨rfl, .inl ⟨rfl, rfl⟩⟩
  | append_singleton as a ih =>
      rw [run_snoc]
      by_cases hi : i = a.connection
      · subst hi
        obtain ⟨haimed, hlog⟩ := logged_step env (ih a.connection).2
        exact ⟨hlog.connection.trans (ih a.connection).1, haimed⟩
      · have hsame := sessions_step env (s := b.system.run env as) hi
        obtain ⟨hconn, haimed⟩ := ih i
        refine ⟨(congrArg Session.connectionId hsame).trans hconn, ?_⟩
        have hview : (view (((b.system.run env as).step env a).world i)).tmpPath =
            (view ((b.system.run env as).world i)).tmpPath ∧
            (view (((b.system.run env as).step env a).world i)).path =
              (view ((b.system.run env as).world i)).path ∧
            (view (((b.system.run env as).step env a).world i)).connectionId =
              (view ((b.system.run env as).world i)).connectionId := by
          simp only [view, viewOf, SessionFrames.core, System.world, hsame, and_self]
        have hmore : Aimed (Asked i (as ++ [a])) (view ((b.system.run env as).world i)) :=
          haimed.mono (by
            rintro clientId name ⟨x, hx, hrest⟩
            exact ⟨x, List.mem_append_left _ hx, hrest⟩)
        unfold Aimed at hmore ⊢
        rwa [hview.1, hview.2.1, hview.2.2]

end

/-- Both paths of an upload lie directly in the directory of the client, and in no other
client's, exactly when the base name is not special. -/
structure Placed (clientId : Bytes) (name connectionId : String) : Prop where
  inside : ∀ q, PathOf clientId name connectionId q →
    (DirectlyIn (clientDir clientId) q ↔ name ∉ special)
  alone : ∀ q, PathOf clientId name connectionId q → DirectlyIn (clientDir clientId) q →
    ∀ other, DirectlyIn (clientDir other) q → other = clientId

theorem placed_of_names {frame clientId : Bytes} {name connectionId : String}
    (h : Names frame clientId name) (hconn : '/' ∉ connectionId.toList) :
    Placed clientId name connectionId := by
  have hlen : clientId.length = 16 := by
    rw [h.client]
    exact clientId_length h.form
  have hne : clientId ≠ [] := by
    rintro rfl
    cases hlen
  obtain ⟨p, hp, hname⟩ := h.parses
  have hplain : '/' ∉ name.toList := hname ▸ fileName_plain hp
  constructor
  · rintro q (rfl | rfl)
    · exact outPath_directlyIn_iff hne hplain
    · exact tmpPath_directlyIn_iff hne hplain hconn
  · intro q _ hin other hother
    have hdir := directlyIn_unique hother hin
    apply hex_injective
    apply String.toList_injective
    have := congrArg String.toList hdir
    rw [clientDir_toList, clientDir_toList] at this
    exact List.append_cancel_left this

/-- Whatever frames any number of sessions have handled: every operation by which the next
frame opens, renames or removes a file serves an upload that an 828 frame of its session
asked for; the two paths of that upload lie directly in the directory of the frame's
client, and in no other client's, exactly when its base name is not special; and no
directory entry changes but by such an operation. -/
theorem path_confinement_iff (env : Env) (b : Boot)
    (hconn : ∀ i, '/' ∉ (b.connectionIds i).toList) (as : List Arrival) (a : Arrival) :
    let fs := (b.system.run env as).files
    let fs' := (b.system.run env (as ++ [a])).files
    (∀ op ∈ newOps fs fs', ∃ x ∈ as ++ [a], ∃ clientId name, x.connection = a.connection ∧
      Names x.frame clientId name ∧ Serves clientId name (b.connectionIds a.connection) op ∧
      Placed clientId name (b.connectionIds a.connection)) ∧
    ∀ q, fs'.entry q ≠ fs.entry q → ∃ op ∈ newOps fs fs', Mentions q op := by
  intro fs fs'
  obtain ⟨hid, haimed⟩ := aimed_run env b as a.connection
  obtain ⟨-, -, ops, hops, hserve, hentry⟩ := logged_step env haimed
  have hstep : fs' = ((b.system.run env as).step env a).files :=
    congrArg System.files (run_snoc _ _ _)
  have hnew : newOps fs fs' = ops := by
    rw [newOps, hstep]
    exact (congrArg (List.drop _) hops).trans List.drop_left
  rw [hnew]
  constructor
  · intro op hop
    obtain ⟨clientId, name, ⟨x, hx, hi, hnames⟩, hserves⟩ := hserve op hop
    refine ⟨x, hx, clientId, name, hi, hnames, ?_, placed_of_names hnames (hconn a.connection)⟩
    rw [← hid]
    exact hserves
  · intro q hq
    rw [hstep] at hq
    exact hentry q hq

/-- A first packet for a base name, after the handshake and the vector. -/
def firstNamed (name : String) (chunk : Bytes) : Arrival :=
  onConnection 0 (aliceRequest 828 (leBytes 4 32 ++ leBytes 4 17 ++ leBytes 2 1 ++ leBytes 2 2 ++
    utf8Encode name ++ [0] ++ chunk))

def announcedUpload : List Arrival := (aliceUpload.take 3).map (onConnection 0)

/-- A chunk that is too long: the frame opens the temporary file and removes it again. -/
theorem path_confinement_iff_alice :
    let tmp := tmpPath (hex aliceId) "f" "c1"
    let fs := (aliceBoot.system.run plainEnv announcedUpload).files
    let fs' := (aliceBoot.system.run plainEnv
      (announcedUpload ++ [firstNamed "f" (List.replicate 48 65)])).files
    newOps fs fs' = [.opened tmp, .removed tmp] ∧
      ∀ op ∈ newOps fs fs', ∃ x ∈ announcedUpload ++ [firstNamed "f" (List.replicate 48 65)],
        ∃ clientId name, x.connection = 0 ∧ Names x.frame clientId name ∧
          Serves clientId name "c1" op ∧ Placed clientId name "c1" := by
  intro tmp fs fs'
  have hconn : ∀ i, '/' ∉ (aliceBoot.connectionIds i).toList := by
    intro i
    change '/' ∉ "c1".toList
    decide
  exact ⟨by decide +kernel, (path_confinement_iff plainEnv aliceBoot hconn announcedUpload
    (firstNamed "f" (List.replicate 48 65))).1⟩

/-- With the base name `..` the temporary file is created beside the directory of
all uploads. -/
theorem dotdot_leaves_directory :
    newOps (aliceBoot.system.run plainEnv announcedUpload).files
        (aliceBoot.system.run plainEnv
          (announcedUpload ++ [firstNamed ".." (List.replicate 16 65)])).files =
      [.opened "data/uploads.tmp.c1"] ∧
    ¬ DirectlyIn (clientDir aliceId) "data/uploads.tmp.c1" := by
  refine ⟨by decide +kernel, fun h => ?_⟩
  have htmp : tmpPath (hex aliceId) ".." "c1" = "data/uploads.tmp.c1" := by decide +kernel
  rw [← htmp, tmpPath_directlyIn_iff (by decide) (by decide) (by decide)] at h
  exact h (by decide)

end Seftp.UploadPaths
