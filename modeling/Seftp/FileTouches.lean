import Seftp.TemporaryFiles

/-!
# The paths a frame touches

A frame touches the tracked temporary path, the temporary path it opens and, if it
brings a complete last packet, the final path. A file at any other path keeps its
name and its content, as long as no file has two names and the open file of the
session is not the one in question.

What a frame does to paths stands in the journal of the file system. A path that none
of its operations mentions keeps its file as well, whether or not the session tracks
it.
-/
namespace Seftp.FileTouches
open LittleEndian ExceptState OutsideWorld Text Protocol ClientStore ServerSession SessionFrames
open UploadHandlers Router HandshakeGate UploadStages FileMoves TemporaryFiles
open UploadPaths (newOps Mentions create_journal)

/-- No file has two names, and inodes in use are below the next one. -/
structure FileSystem.Plain (fs : FileSystem) : Prop where
  bounded : FileSystem.Bounded fs
  distinct : ∀ q r i, fs.entry q = some i → fs.entry r = some i → q = r

/-- The file at `q` is the same file with the same content. -/
def SameAt (q : String) (fs fs' : FileSystem) : Prop :=
  fs'.entry q = fs.entry q ∧ ∀ i, fs.entry q = some i → fs'.content i = fs.content i

section
variable {q : String} {fs fs' : FileSystem}

theorem SameAt.trans {fs'' : FileSystem} (h : SameAt q fs fs') (h' : SameAt q fs' fs'') :
    SameAt q fs fs'' := by
  refine ⟨h'.1.trans h.1, fun i hi => ?_⟩
  have hi' : fs'.entry q = some i := h.1.trans hi
  exact (h'.2 i hi').trans (h.2 i hi)

theorem SameAt.read_eq (h : SameAt q fs fs') : fs'.read q = fs.read q := by
  rw [FileSystem.read, FileSystem.read, h.1]
  rcases hq : fs.entry q with _ | i
  · rfl
  · rw [Option.map_some, Option.map_some, h.2 i hq]

theorem sameAt_of_entry (h : fs'.entry q = fs.entry q) (hc : fs'.content = fs.content) :
    SameAt q fs fs' := ⟨h, fun _ _ => by rw [hc]⟩

/-! ### Operations on files -/

theorem plain_create (h : FileSystem.Plain fs) (path : String) :
    FileSystem.Plain (fs.create path).2 := by
  constructor
  · intro r i hr
    rcases create_entries hr with hr | ⟨-, rfl, hsucc⟩
    · exact (h.bounded r i hr).trans_le (nextInode_create path)
    · exact hsucc ▸ Nat.lt_succ_self _
  · intro r s i hr hs
    rcases create_entries hr with hr' | ⟨hrp, hi, -⟩
    · rcases create_entries hs with hs' | ⟨-, hi, -⟩
      · exact h.distinct r s i hr' hs'
      · exact absurd (hi ▸ h.bounded r i hr') (lt_irrefl _)
    · rcases create_entries hs with hs' | ⟨hsp, -, -⟩
      · exact absurd (hi ▸ h.bounded s i hs') (lt_irrefl _)
      · exact hrp.trans hsp.symm

/-- The open file has the name it was opened under. -/
theorem create_handle (path : String) :
    (fs.create path).2.entry path = some (fs.create path).1 := by
  rcases hp : fs.entry path with _ | i
  · rw [create_none hp]
    exact Function.update_self ..
  · rw [create_some hp]
    exact hp

theorem sameAt_create (h : FileSystem.Plain fs) {path : String} (hq : q ≠ path) :
    SameAt q fs (fs.create path).2 := by
  refine ⟨create_entry_ne hq, fun i hi => ?_⟩
  rcases hp : fs.entry path with _ | j
  · rw [create_none hp]
    exact Function.update_of_ne (h.bounded q i hi).ne _ _
  · rw [create_some hp]
    apply Function.update_of_ne
    rintro rfl
    exact hq (h.distinct q path i hi hp)

theorem plain_rename (h : FileSystem.Plain fs) (source target : String) :
    FileSystem.Plain (fs.rename source target) := by
  constructor
  · intro r i hr
    rcases rename_entry hr with ⟨-, ⟨-, hr⟩ | hr⟩
    · exact h.bounded source i hr
    · exact h.bounded r i hr
  · intro r s i hr hs
    obtain ⟨hrs, hr⟩ := rename_entry hr
    obtain ⟨hss, hs⟩ := rename_entry hs
    rcases hr with ⟨hrt, hr⟩ | hr
    · rcases hs with ⟨hst, -⟩ | hs
      · exact hrt.trans hst.symm
      · exact (hss (h.distinct s source i hs hr)).elim
    · rcases hs with ⟨-, hs⟩ | hs
      · exact (hrs (h.distinct r source i hr hs)).elim
      · exact h.distinct r s i hr hs

theorem plain_unlink (h : FileSystem.Plain fs) (path : String) :
    FileSystem.Plain (fs.unlink path) :=
  ⟨fun r i hr => h.bounded r i (unlink_entry hr).2,
    fun r s i hr hs => h.distinct r s i (unlink_entry hr).2 (unlink_entry hs).2⟩

end

/-! ### The operations of moves -/

section
variable {fs fs' fs'' : FileSystem} {op : PathOp}

theorem newOps_append {ops : List PathOp} (h : fs'.journal = fs.journal ++ ops) :
    newOps fs fs' = ops := by
  rw [newOps, h, List.drop_left]

theorem newOps_same (h : fs'.journal = fs.journal) : newOps fs fs' = [] :=
  newOps_append (by rw [h, List.append_nil])

theorem newOps_trans (h : fs.journal <+: fs'.journal) (h' : fs'.journal <+: fs''.journal) :
    newOps fs fs'' = newOps fs fs' ++ newOps fs' fs'' := by
  obtain ⟨ops, hops⟩ := h
  obtain ⟨ops', hops'⟩ := h'
  rw [newOps_append hops.symm, newOps_append hops'.symm]
  apply newOps_append
  rw [← hops', ← hops, List.append_assoc]

end

section
variable {g : Reasons} {v v' : FileView}

/-- A move adds operations on the tracked temporary path and, if it stores the file, on
the final path. -/
theorem ops_move (h : Move g v v') : v.files.journal <+: v'.files.journal ∧
    ∀ op ∈ newOps v.files v'.files, ∀ q, Mentions q op →
      v.tmpPath = some q ∨ (g.stores ∧ v.path = some q) := by
  have hnone {fs : FileSystem} (hsame : fs.journal = v.files.journal) :
      v.files.journal <+: fs.journal ∧ ∀ op ∈ newOps v.files fs, ∀ q, Mentions q op →
        v.tmpPath = some q ∨ (g.stores ∧ v.path = some q) := by
    rw [newOps_same hsame, hsame]
    exact ⟨List.prefix_rfl, fun op hop => absurd hop List.not_mem_nil⟩
  have hone (fs : FileSystem) {op : PathOp} (hnew : fs.journal = v.files.journal ++ [op])
      (hnames : ∀ q, Mentions q op → v.tmpPath = some q ∨ (g.stores ∧ v.path = some q)) :
      v.files.journal <+: fs.journal ∧ ∀ op ∈ newOps v.files fs, ∀ q, Mentions q op →
        v.tmpPath = some q ∨ (g.stores ∧ v.path = some q) := by
    rw [newOps_append hnew, hnew]
    refine ⟨List.prefix_append .., fun o ho => ?_⟩
    rw [List.mem_singleton.mp ho]
    exact hnames
  cases h with
  | bound id hid => exact hnone rfl
  | activated => exact hnone rfl
  | aimed clientId p hop hactive hclient => exact hnone rfl
  | written i data hi => exact hnone rfl
  | closed => exact hnone rfl
  | opened clientId p hop tmp hname hthere =>
      apply hone _ (create_journal v.files tmp)
      rintro q rfl
      exact .inl hthere
  | renamed tmp path hstore hthere hfinal =>
      apply hone (bare (v.files.rename tmp path)) rfl
      rintro q (rfl | rfl)
      · exact .inl hthere
      · exact .inr ⟨hstore, hfinal⟩
  | reset fs hfs =>
      cases hfs with
      | kept _ => exact hnone rfl
      | gone t hthere =>
          apply hone (v.files.unlink t) rfl
          rintro q rfl
          exact .inl hthere

theorem journal_moves (h : Relation.ReflTransGen (Move g) v v') :
    v.files.journal <+: v'.files.journal := by
  induction h with
  | refl => exact List.prefix_rfl
  | tail _ hmove ih => exact ih.trans (ops_move hmove).1

end

/-! ### Files that no operation names -/

/-- An open file is in use and at none of the paths `N`. -/
def Elsewhere (N : String → Prop) (fs : FileSystem) (file : Option ℕ) : Prop :=
  ∀ i ∈ file, i < fs.nextInode ∧ ∀ q, N q → fs.entry q ≠ some i

/-- The files at the paths `N` are as before. -/
structure Spared (N : String → Prop) (v v' : FileView) : Prop where
  plain : FileSystem.Plain v'.files
  next : v.files.nextInode ≤ v'.files.nextInode
  handle : Elsewhere N v'.files v'.tmpFile
  same : ∀ q, N q → SameAt q v.files v'.files

section
variable {N : String → Prop} {g : Reasons} {v v' : FileView}

/-- A move that names none of the paths, with the open file elsewhere. -/
theorem spared_move (h : Move g v v') (hplain : FileSystem.Plain v.files)
    (hhandle : Elsewhere N v.files v.tmpFile)
    (hops : ∀ op ∈ newOps v.files v'.files, ∀ q, N q → ¬ Mentions q op) : Spared N v v' := by
  have hstay : ∀ q, N q → SameAt q v.files v.files := fun q _ => sameAt_of_entry rfl rfl
  cases h with
  | bound id hid => exact ⟨hplain, le_rfl, hhandle, hstay⟩
  | activated => exact ⟨hplain, le_rfl, hhandle, hstay⟩
  | aimed clientId p hop hactive hclient => exact ⟨hplain, le_rfl, hhandle, hstay⟩
  | closed => exact ⟨hplain, le_rfl, (fun i hi => by cases hi), hstay⟩
  | opened clientId p hop tmp hname hthere =>
      have hne (q : String) (hq : N q) : q ≠ tmp := by
        have hnew : newOps v.files (bare (v.files.create tmp).2) = [.opened tmp] :=
          newOps_append (create_journal v.files tmp)
        exact hops (.opened tmp) (hnew ▸ List.mem_singleton_self _) q hq
      have hcreated := plain_create hplain tmp
      have hentry : (v.files.create tmp).2.entry tmp = some (v.files.create tmp).1 :=
        create_handle tmp
      refine ⟨⟨hcreated.bounded, hcreated.distinct⟩, nextInode_create tmp, fun i hi => ?_,
        fun q hq => sameAt_create hplain (hne q hq)⟩
      rw [← Option.some.inj hi]
      refine ⟨hcreated.bounded tmp _ hentry, fun q hq hsame => ?_⟩
      exact hne q hq (hcreated.distinct q tmp _ hsame hentry)
  | written i data hi =>
      refine ⟨⟨hplain.bounded, hplain.distinct⟩, le_rfl, hhandle, fun q hq => ⟨rfl, fun j hj => ?_⟩⟩
      apply Function.update_of_ne
      rintro rfl
      exact (hhandle j hi).2 q hq hj
  | renamed tmp path hstore hthere hfinal =>
      have hsame (q : String) (hq : N q) :
          (v.files.rename tmp path).entry q = v.files.entry q := by
        have hnew : newOps v.files (bare (v.files.rename tmp path)) = [.replaced tmp path] :=
          newOps_append rfl
        have hnot := hops (.replaced tmp path) (hnew ▸ List.mem_singleton_self _) q hq
        exact rename_entry_ne (fun he => hnot (.inl he)) fun he => hnot (.inr he)
      have hrenamed := plain_rename hplain tmp path
      refine ⟨⟨hrenamed.bounded, hrenamed.distinct⟩, le_rfl,
        fun i hi => ⟨(hhandle i hi).1, fun q hq => ?_⟩, fun q hq =>
          sameAt_of_entry (hsame q hq) rfl⟩
      change (v.files.rename tmp path).entry q ≠ some i
      rw [hsame q hq]
      exact (hhandle i hi).2 q hq
  | reset fs hfs =>
      cases hfs with
      | kept _ => exact ⟨hplain, le_rfl, (fun i hi => by cases hi), hstay⟩
      | gone t hthere =>
          refine ⟨plain_unlink hplain t, le_rfl, (fun i hi => by cases hi), fun q hq =>
            sameAt_of_entry (unlink_entry_ne ?_) rfl⟩
          have hnew : newOps v.files (v.files.unlink t) = [.removed t] := newOps_append rfl
          exact hops (.removed t) (hnew ▸ List.mem_singleton_self _) q hq

/-- Any number of moves. -/
theorem spared_moves (h : Relation.ReflTransGen (Move g) v v') (hplain : FileSystem.Plain v.files)
    (hhandle : Elsewhere N v.files v.tmpFile)
    (hops : ∀ op ∈ newOps v.files v'.files, ∀ q, N q → ¬ Mentions q op) : Spared N v v' := by
  induction h with
  | refl => exact ⟨hplain, le_rfl, hhandle, fun q _ => sameAt_of_entry rfl rfl⟩
  | tail hmoves hmove ih =>
      have hall := newOps_trans (journal_moves hmoves) (ops_move hmove).1
      have hfirst := ih fun op hop => hops op (hall ▸ List.mem_append_left _ hop)
      have hlast := spared_move hmove hfirst.plain hfirst.handle fun op hop =>
        hops op (hall ▸ List.mem_append_right _ hop)
      exact ⟨hlast.plain, hfirst.next.trans hlast.next, hlast.handle,
        fun q hq => (hfirst.same q hq).trans (hlast.same q hq)⟩

/-! ### Files at paths that the session does not have -/

/-- The session has none of the paths `N`. -/
structure Away (N : String → Prop) (stores : Prop) (v : FileView) : Prop where
  tmp : ∀ t ∈ v.tmpPath, ¬ N t
  final : stores → ∀ p ∈ v.path, ¬ N p

/-- One move of a session that has none of the paths. -/
theorem away_move (h : Move g v v') (haway : Away N g.stores v)
    (hopens : ∀ clientId p, g.opens clientId p →
      ¬ N (tmpPath (hex clientId) p.fileName v.connectionId) ∧
        (g.stores → ¬ N (outPath (hex clientId) p.fileName))) :
    v'.connectionId = v.connectionId ∧ Away N g.stores v' := by
  cases h with
  | bound id hid => exact ⟨rfl, haway.tmp, haway.final⟩
  | activated => exact ⟨rfl, haway.tmp, haway.final⟩
  | opened clientId p hop tmp hname hthere => exact ⟨rfl, haway.tmp, haway.final⟩
  | written i data hi => exact ⟨rfl, haway.tmp, haway.final⟩
  | closed => exact ⟨rfl, haway.tmp, haway.final⟩
  | aimed clientId p hop hactive hclient =>
      obtain ⟨htmp, hfinal⟩ := hopens clientId p hop
      refine ⟨rfl, fun t ht => ?_, fun hstores q hq => ?_⟩
      · rw [← Option.some.inj ht]
        exact htmp
      · rw [← Option.some.inj hq]
        exact hfinal hstores
  | renamed tmp path hstore hthere hfinal => exact ⟨rfl, (fun t ht => by cases ht), haway.final⟩
  | reset fs hfs => exact ⟨rfl, (fun t ht => by cases ht), fun _ p hp => by cases hp⟩

/-- The moves of such a session name none of the paths. -/
theorem away_moves (h : Relation.ReflTransGen (Move g) v v') (haway : Away N g.stores v)
    (hopens : ∀ clientId p, g.opens clientId p →
      ¬ N (tmpPath (hex clientId) p.fileName v.connectionId) ∧
        (g.stores → ¬ N (outPath (hex clientId) p.fileName))) :
    v'.connectionId = v.connectionId ∧ Away N g.stores v' ∧
      ∀ op ∈ newOps v.files v'.files, ∀ q, N q → ¬ Mentions q op := by
  induction h with
  | refl => exact ⟨rfl, haway, fun op hop => by rw [newOps_same rfl] at hop; cases hop⟩
  | @tail b c hmoves hmove ih =>
      obtain ⟨hconn, hstill, hnone⟩ := ih
      have hopens' : ∀ clientId p, g.opens clientId p →
          ¬ N (tmpPath (hex clientId) p.fileName b.connectionId) ∧
            (g.stores → ¬ N (outPath (hex clientId) p.fileName)) := by
        rw [hconn]
        exact hopens
      obtain ⟨hconn', hstill'⟩ := away_move hmove hstill hopens'
      refine ⟨hconn'.trans hconn, hstill', fun op hop q hN hm => ?_⟩
      rw [newOps_trans (journal_moves hmoves) (ops_move hmove).1] at hop
      rcases List.mem_append.mp hop with hop | hop
      · exact hnone op hop q hN hm
      · rcases (ops_move hmove).2 op hop q hm with ht | ⟨hs, hp⟩
        · exact hstill.tmp q ht hN
        · exact hstill.final hs q hp hN

end

/-- The paths whose files moves may create, write, replace or remove, from the
state before them. -/
inductive Touches (g : Reasons) (v : FileView) (q : String) : Prop
  | tracked (h : v.tmpPath = some q)
  | opens (clientId : Bytes) (p : Packet) (h : g.opens clientId p)
      (hq : q = tmpPath (hex clientId) p.fileName v.connectionId)
  | stores (h : g.stores) (hq : v.path = some q)
  | storesAtOnce (h : g.stores) (clientId : Bytes) (p : Packet) (hopens : g.opens clientId p)
      (hq : q = outPath (hex clientId) p.fileName)

/-- The open file of the session is at none of the paths `N`. -/
def HandleAway (N : String → Prop) (w : World) : Prop :=
  Elsewhere N w.files w.session.transfer.uploadTmpFile

section
variable {N : String → Prop} {g : Reasons} {w w' : World}

/-- Moves that name none of the paths `N` leave their files. -/
theorem unnamed_moves (h : Moves g w w') (hplain : FileSystem.Plain w.files)
    (hhandle : HandleAway N w)
    (hops : ∀ op ∈ newOps w.files w'.files, ∀ q, N q → ¬ Mentions q op) :
    FileSystem.Plain w'.files ∧ w.files.nextInode ≤ w'.files.nextInode ∧ HandleAway N w' ∧
      ∀ q, N q → SameAt q w.files w'.files := by
  obtain ⟨hfine, hnext, hstill, hsame⟩ :=
    spared_moves h ⟨hplain.bounded, hplain.distinct⟩ hhandle hops
  exact ⟨⟨hfine.bounded, hfine.distinct⟩, hnext, hstill, hsame⟩

/-- So do moves that touch none of them. -/
theorem untouched_moves (h : Moves g w w') (hplain : FileSystem.Plain w.files)
    (hhandle : HandleAway N w) (hclear : ∀ q, N q → ¬ Touches g (view w) q) :
    FileSystem.Plain w'.files ∧ w.files.nextInode ≤ w'.files.nextInode ∧ HandleAway N w' ∧
      ∀ q, N q → SameAt q w.files w'.files := by
  have haway : Away N g.stores (view w) :=
    ⟨fun t ht hN => hclear t hN (.tracked ht),
      fun hstores p hp hN => hclear p hN (.stores hstores hp)⟩
  have hopens : ∀ clientId p, g.opens clientId p →
      ¬ N (tmpPath (hex clientId) p.fileName (view w).connectionId) ∧
        (g.stores → ¬ N (outPath (hex clientId) p.fileName)) := by
    intro clientId p hop
    constructor
    · intro hN
      exact hclear _ hN (.opens clientId p hop rfl)
    · intro hstores hN
      exact hclear _ hN (.storesAtOnce hstores clientId p hop rfl)
  obtain ⟨-, -, hnone⟩ := away_moves h haway hopens
  exact unnamed_moves h hplain hhandle hnone

end

end Seftp.FileTouches
