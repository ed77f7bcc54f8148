import Seftp.SlotAccounting
import Mathlib.Data.List.AList

/-!
# Admission of connections

`ConnectionLimiter` and the two ends of `handle_client`. A connection is admitted when
neither the total nor the count of its address has reached its limit; the `finally`
clause gives the place back only if it was given. The limiter's lock is held over no
suspension, so that asking and noting the answer are one step, and so is the clause.

The counts are integers and the counts by address a dictionary, as in the source.
-/
namespace Seftp.ConnectionAdmission
open ServerSession ClientStore KeyBinding ConnectionLoop SlotAccounting

/-! ### The limiter -/

/-- `dict[str, int]`. -/
abbrev Counts := AList fun _ : String => ℤ

/-- `active_by_ip.get(ip, 0)`. -/
def Counts.get (d : Counts) (ip : String) : ℤ := (d.lookup ip).getD 0

/-- The sum of all counts. -/
def Counts.sum (d : Counts) : ℤ := (d.entries.map Sigma.snd).sum

/-- The constructor refuses limits that are not positive and a limit by address above
the total. -/
structure ConnectionLimiter where
  maxConnections : ℕ
  maxConnectionsPerIp : ℕ
  positive : 0 < maxConnections
  positivePerIp : 0 < maxConnectionsPerIp
  within : maxConnectionsPerIp ≤ maxConnections
  activeTotal : ℤ := 0
  activeByIp : Counts := ∅

namespace ConnectionLimiter

def tryAcquire (l : ConnectionLimiter) (peerIp : String) :
    (Bool × Option String) × ConnectionLimiter :=
  if (l.maxConnections : ℤ) ≤ l.activeTotal then ((false, some "server_full"), l)
  else if (l.maxConnectionsPerIp : ℤ) ≤ l.activeByIp.get peerIp then
    ((false, some "per_ip_limit"), l)
  else ((true, none), { l with
    activeTotal := l.activeTotal + 1
    activeByIp := l.activeByIp.insert peerIp (l.activeByIp.get peerIp + 1) })

def release (l : ConnectionLimiter) (peerIp : String) : ConnectionLimiter :=
  let count := l.activeByIp.get peerIp
  if count ≤ 0 then l
  else { l with
    activeTotal := l.activeTotal - 1
    activeByIp :=
      if count = 1 then l.activeByIp.erase peerIp else l.activeByIp.insert peerIp (count - 1) }

end ConnectionLimiter

/-! ### The dictionary -/

section
variable {d : Counts} {ip other : String} {n : ℤ}

theorem get_insert : Counts.get (d.insert ip n) ip = n := by
  rw [Counts.get, AList.lookup_insert]
  rfl

theorem get_insert_ne (h : other ≠ ip) : Counts.get (d.insert ip n) other = d.get other := by
  rw [Counts.get, Counts.get, AList.lookup_insert_ne h]

theorem get_erase : Counts.get (d.erase ip) ip = 0 := by
  rw [Counts.get, AList.lookup_erase]
  rfl

theorem get_erase_ne (h : other ≠ ip) : Counts.get (d.erase ip) other = d.get other := by
  rw [Counts.get, Counts.get, AList.lookup_erase_ne h]

theorem sum_kerase (entries : List (Σ _ : String, ℤ)) (ip : String) :
    (entries.map Sigma.snd).sum =
      (entries.dlookup ip).getD 0 + ((entries.kerase ip).map Sigma.snd).sum := by
  induction entries with
  | nil => rfl
  | cons e entries ih =>
      obtain ⟨name, n⟩ := e
      by_cases h : ip = name
      · subst h
        have hkerase : List.kerase ip (⟨ip, n⟩ :: entries) = entries := List.kerase_cons_eq rfl
        rw [List.dlookup_cons_eq, hkerase]
        rfl
      · rw [List.dlookup_cons_ne _ _ h, List.kerase_cons_ne h, List.map_cons, List.map_cons,
          List.sum_cons, List.sum_cons, ih]
        ring

theorem sum_erase (d : Counts) (ip : String) : Counts.sum (d.erase ip) = d.sum - d.get ip := by
  have h := sum_kerase d.entries ip
  change ((d.entries.kerase ip).map Sigma.snd).sum = (d.entries.map Sigma.snd).sum - _
  rw [h]
  change _ = (d.entries.dlookup ip).getD 0 + _ - (d.entries.dlookup ip).getD 0
  ring

theorem sum_insert (d : Counts) (ip : String) (n : ℤ) :
    Counts.sum (d.insert ip n) = d.sum - d.get ip + n := by
  rw [← sum_erase, Counts.sum, AList.entries_insert, List.map_cons, List.sum_cons, add_comm]
  rfl

theorem mem_entries {e : Σ _ : String, ℤ} (h : e ∈ d.entries) : d.lookup e.1 = some e.2 :=
  AList.mem_lookup_iff.mpr h
end

/-! ### The handlers of all connections -/

/-- Where a run of `handle_client` stands; `served` is `connection_acquired`. -/
inductive Phase where
  | waiting
  | served (peerIp : String)
  | ended
  deriving DecidableEq

structure Gate where
  host : Host
  limiter : ConnectionLimiter
  phase : ℕ → Phase

inductive GateEvent where
  /-- `handle_client` starts for a connection from an address. -/
  | start (k : ℕ) (peerIp : String)
  | session (k : ℕ) (e : SessionEvent)

namespace Gate

/-- A refused connection ends without giving anything back. -/
def refuse (g : Gate) (k : ℕ) : Gate :=
  let w := g.host.system.world k
  { g with
    host :=
      { system := g.host.system.put k
          (w.setSession { w.session with disconnectReason := "connection_rejected" })
        isOpen := Function.update g.host.isOpen k false }
    phase := Function.update g.phase k .ended }

def letIn (g : Gate) (k : ℕ) (peerIp : String) : Gate :=
  let answer := g.limiter.tryAcquire peerIp
  if answer.1.1 then
    { g with limiter := answer.2, phase := Function.update g.phase k (.served peerIp) }
  else { g with limiter := answer.2 }.refuse k

/-- The end of the loop is followed by the `finally` clause. -/
def serve (env : Env) (g : Gate) (k : ℕ) (peerIp : String) (e : SessionEvent) : Gate :=
  let host := g.host.step env (k, e)
  if host.isOpen k then { g with host := host }
  else
    { host := host
      limiter := g.limiter.release peerIp
      phase := Function.update g.phase k .ended }

def step (env : Env) (g : Gate) : GateEvent → Gate
  | .start k peerIp =>
      match g.phase k with
      | .waiting => g.letIn k peerIp
      | _ => g
  | .session k e =>
      match g.phase k with
      | .served peerIp => g.serve env k peerIp e
      | _ => g

def run (env : Env) (g : Gate) (es : List GateEvent) : Gate := es.foldl (step env) g

/-- The connections from an address that were admitted and whose handler has not
finished. -/
def live (g : Gate) (peerIp : String) : Set ℕ := { k | g.phase k = .served peerIp }

/-- All of them. -/
def allLive (g : Gate) : Set ℕ := { k | ∃ peerIp, g.phase k = .served peerIp }

/-- A started server. -/
def initial (host : Host) (limiter : ConnectionLimiter) : Gate :=
  { host, limiter := { limiter with activeTotal := 0, activeByIp := ∅ },
    phase := fun _ => .waiting }

end Gate

/-! ### The books -/

/-- The connections that are served, with their addresses, and the counts of them. -/
structure Booked (l : ConnectionLimiter) (phase : ℕ → Phase) (served : Finset ℕ) : Prop where
  member : ∀ k, k ∈ served ↔ ∃ ip, phase k = .served ip
  total : l.activeTotal = served.card
  sum : l.activeByIp.sum = l.activeTotal
  count : ∀ ip, l.activeByIp.get ip = (served.filter fun k => phase k = .served ip).card
  entry : ∀ ip n, l.activeByIp.lookup ip = some n → 1 ≤ n
  boundedTotal : l.activeTotal ≤ l.maxConnections
  bounded : ∀ ip, l.activeByIp.get ip ≤ l.maxConnectionsPerIp

section
variable {l : ConnectionLimiter} {phase : ℕ → Phase} {served : Finset ℕ} {k : ℕ} {ip : String}

theorem filter_insert (phase : ℕ → Phase) (hk : k ∉ served) (ip other : String) :
    ((insert k served).filter fun j => Function.update phase k (.served ip) j =
      .served other).card =
      (served.filter fun j => phase j = .served other).card + if ip = other then 1 else 0 := by
  have hrest : (served.filter fun j => Function.update phase k (.served ip) j = .served other) =
      served.filter fun j => phase j = .served other := by
    apply Finset.filter_congr
    intro j hj
    have hjk : j ≠ k := fun he => hk (he ▸ hj)
    rw [Function.update_of_ne hjk]
  rw [Finset.filter_insert, hrest, Function.update_self]
  by_cases h : ip = other
  · subst h
    rw [if_pos rfl, if_pos rfl, Finset.card_insert_of_notMem]
    exact fun hin => hk (Finset.mem_filter.mp hin).1
  · rw [if_neg (by simpa using h), if_neg h, Nat.add_zero]

theorem filter_erase (hk : k ∈ served) (hphase : phase k = .served ip) (other : String) :
    ((served.erase k).filter fun j => Function.update phase k .ended j = .served other).card +
        (if ip = other then 1 else 0) =
      (served.filter fun j => phase j = .served other).card := by
  have hrest : ((served.erase k).filter fun j => Function.update phase k .ended j = .served other) =
      (served.filter fun j => phase j = .served other).erase k := by
    ext j
    rw [Finset.mem_filter, Finset.mem_erase, Finset.mem_erase, Finset.mem_filter]
    by_cases hj : j = k
    · simp [hj]
    · rw [Function.update_of_ne hj]
      tauto
  rw [hrest]
  by_cases h : ip = other
  · subst h
    rw [if_pos rfl]
    exact Finset.card_erase_add_one (Finset.mem_filter.mpr ⟨hk, hphase⟩)
  · rw [if_neg h, Nat.add_zero, Finset.erase_eq_of_notMem]
    rw [Finset.mem_filter, hphase]
    simp [h]

/-- An admission enters one more connection. -/
theorem booked_acquire (h : Booked l phase served) (hk : k ∉ served)
    (htotal : l.activeTotal < l.maxConnections)
    (hip : l.activeByIp.get ip < l.maxConnectionsPerIp) :
    Booked
      { l with
        activeTotal := l.activeTotal + 1
        activeByIp := l.activeByIp.insert ip (l.activeByIp.get ip + 1) }
      (Function.update phase k (.served ip)) (insert k served) := by
  have hzero : 0 ≤ l.activeByIp.get ip := by
    rw [h.count]
    exact Int.natCast_nonneg _
  refine ⟨?_, ?_, ?_, ?_, ?_, ?_, ?_⟩
  · intro j
    rw [Finset.mem_insert]
    by_cases hj : j = k
    · subst hj
      simp
    · rw [Function.update_of_ne hj, ← h.member j]
      simp [hj]
  · change l.activeTotal + 1 = _
    rw [Finset.card_insert_of_notMem hk, h.total]
    push_cast
    rfl
  · change Counts.sum (l.activeByIp.insert ip _) = l.activeTotal + 1
    rw [sum_insert, h.sum]
    ring
  · intro other
    change Counts.get (l.activeByIp.insert ip _) other = _
    rw [filter_insert phase hk]
    by_cases ho : other = ip
    · subst ho
      rw [get_insert, if_pos rfl, h.count]
      push_cast
      rfl
    · rw [get_insert_ne ho, if_neg (Ne.symm ho), h.count]
      rfl
  · intro other n hn
    change AList.lookup other (l.activeByIp.insert ip _) = some n at hn
    by_cases ho : other = ip
    · subst ho
      rw [AList.lookup_insert, Option.some.injEq] at hn
      omega
    · rw [AList.lookup_insert_ne ho] at hn
      exact h.entry other n hn
  · change l.activeTotal + 1 ≤ l.maxConnections
    omega
  · intro other
    change Counts.get (l.activeByIp.insert ip _) other ≤ l.maxConnectionsPerIp
    by_cases ho : other = ip
    · subst ho
      rw [get_insert]
      omega
    · rw [get_insert_ne ho]
      exact h.bounded other

/-- The end of a served connection takes it out again. -/
theorem booked_release (h : Booked l phase served) (hphase : phase k = .served ip) :
    Booked (l.release ip) (Function.update phase k .ended) (served.erase k) := by
  have hk : k ∈ served := (h.member k).mpr ⟨ip, hphase⟩
  have hcount := h.count ip
  have hself := filter_erase hk hphase ip
  rw [if_pos rfl] at hself
  have hcard := Finset.card_erase_add_one hk
  have htotal := h.total
  have hmax := h.boundedTotal
  have hpos : 1 ≤ l.activeByIp.get ip := by omega
  have hrelease : l.release ip = { l with
      activeTotal := l.activeTotal - 1
      activeByIp :=
        if l.activeByIp.get ip = 1 then l.activeByIp.erase ip
        else l.activeByIp.insert ip (l.activeByIp.get ip - 1) } := by
    rw [ConnectionLimiter.release, if_neg (by omega)]
  have hget : ∀ other, (l.release ip).activeByIp.get other =
      l.activeByIp.get other - if ip = other then 1 else 0 := by
    intro other
    rw [hrelease]
    dsimp only
    by_cases ho : other = ip
    · subst ho
      rw [if_pos rfl]
      split_ifs with hone
      · rw [get_erase]
        omega
      · rw [get_insert]
    · rw [if_neg (Ne.symm ho)]
      split_ifs with hone
      · rw [get_erase_ne ho]
        ring
      · rw [get_insert_ne ho]
        ring
  refine ⟨?_, ?_, ?_, ?_, ?_, ?_, ?_⟩
  · intro j
    rw [Finset.mem_erase]
    by_cases hj : j = k
    · subst hj
      simp
    · rw [Function.update_of_ne hj, ← h.member j]
      simp [hj]
  · rw [hrelease]
    change l.activeTotal - 1 = _
    omega
  · rw [hrelease]
    dsimp only
    have hsum := h.sum
    split_ifs with hone
    · rw [sum_erase]
      omega
    · rw [sum_insert]
      omega
  · intro other
    have hother := filter_erase hk hphase other
    have hbefore := h.count other
    rw [hget other]
    split_ifs at hother ⊢ with heq
    · omega
    · omega
  · intro other n hn
    rw [hrelease] at hn
    dsimp only at hn
    by_cases ho : other = ip
    · subst ho
      split_ifs at hn with hone
      · rw [AList.lookup_erase] at hn
        cases hn
      · rw [AList.lookup_insert, Option.some.injEq] at hn
        omega
    · split_ifs at hn with hone
      · rw [AList.lookup_erase_ne ho] at hn
        exact h.entry other n hn
      · rw [AList.lookup_insert_ne ho] at hn
        exact h.entry other n hn
  · rw [hrelease]
    change l.activeTotal - 1 ≤ l.maxConnections
    omega
  · intro other
    have hb := h.bounded other
    rw [hget other]
    have hmaxIp : (l.release ip).maxConnectionsPerIp = l.maxConnectionsPerIp := by rw [hrelease]
    rw [hmaxIp]
    split_ifs
    · omega
    · omega

/-- A connection that was not served may end without a change of the counts. -/
theorem booked_ended (h : Booked l phase served) (hk : k ∉ served) :
    Booked l (Function.update phase k .ended) served := by
  have hsame : ∀ j ∈ served, Function.update phase k .ended j = phase j := by
    intro j hj
    have hjk : j ≠ k := fun he => hk (he ▸ hj)
    exact Function.update_of_ne hjk _ _
  refine ⟨?_, h.total, h.sum, ?_, h.entry, h.boundedTotal, h.bounded⟩
  · intro j
    by_cases hj : j = k
    · subst hj
      simp [hk]
    · rw [Function.update_of_ne hj]
      exact h.member j
  · intro other
    rw [h.count other]
    congr 2
    apply Finset.filter_congr
    intro j hj
    rw [hsame j hj]

end

/-! ### Runs -/

/-- The limits never change, and there is a set of served connections that the counts
count. -/
structure Gate.Counted (g : Gate) (limiter : ConnectionLimiter) : Prop where
  maxConnections : g.limiter.maxConnections = limiter.maxConnections
  maxConnectionsPerIp : g.limiter.maxConnectionsPerIp = limiter.maxConnectionsPerIp
  booked : ∃ served, Booked g.limiter g.phase served

section
variable {g : Gate} {limiter : ConnectionLimiter} {env : Env}

theorem counted_initial (host : Host) (limiter : ConnectionLimiter) :
    (Gate.initial host limiter).Counted limiter := by
  refine ⟨rfl, rfl, ∅, ?_, rfl, rfl, fun _ => rfl, ?_, ?_, ?_⟩
  · exact fun k => ⟨fun h => absurd h (Finset.notMem_empty k), fun ⟨_, h⟩ => by cases h⟩
  · exact fun ip n h => by cases h
  · exact Int.natCast_nonneg _
  · exact fun ip => Int.natCast_nonneg _

theorem counted_letIn (h : g.Counted limiter) {k : ℕ} (hk : g.phase k = .waiting) (ip : String) :
    (g.letIn k ip).Counted limiter := by
  obtain ⟨served, hb⟩ := h.booked
  have hnot : k ∉ served := by
    rw [hb.member, hk]
    exact nofun
  unfold Gate.letIn ConnectionLimiter.tryAcquire
  by_cases hfull : (g.limiter.maxConnections : ℤ) ≤ g.limiter.activeTotal
  · rw [if_pos hfull]
    exact ⟨h.maxConnections, h.maxConnectionsPerIp, served, booked_ended hb hnot⟩
  by_cases hip : (g.limiter.maxConnectionsPerIp : ℤ) ≤ g.limiter.activeByIp.get ip
  · rw [if_neg hfull, if_pos hip]
    exact ⟨h.maxConnections, h.maxConnectionsPerIp, served, booked_ended hb hnot⟩
  · rw [if_neg hfull, if_neg hip]
    exact ⟨h.maxConnections, h.maxConnectionsPerIp, insert k served,
      booked_acquire hb hnot (by omega) (by omega)⟩

theorem release_limits (l : ConnectionLimiter) (ip : String) :
    (l.release ip).maxConnections = l.maxConnections ∧
      (l.release ip).maxConnectionsPerIp = l.maxConnectionsPerIp := by
  unfold ConnectionLimiter.release
  dsimp only
  split <;> exact ⟨rfl, rfl⟩

theorem counted_step (h : g.Counted limiter) (e : GateEvent) : (g.step env e).Counted limiter := by
  cases e with
  | start k ip =>
      rcases hk : g.phase k with _ | ip' | _
      · simp only [Gate.step, hk]
        exact counted_letIn h hk ip
      · simp only [Gate.step, hk]
        exact h
      · simp only [Gate.step, hk]
        exact h
  | session k e =>
      rcases hk : g.phase k with _ | ip | _
      · simp only [Gate.step, hk]
        exact h
      · simp only [Gate.step, hk, Gate.serve]
        split
        · exact ⟨h.maxConnections, h.maxConnectionsPerIp, h.booked⟩
        · obtain ⟨served, hb⟩ := h.booked
          obtain ⟨h₁, h₂⟩ := release_limits g.limiter ip
          exact ⟨h₁.trans h.maxConnections, h₂.trans h.maxConnectionsPerIp, served.erase k,
            booked_release hb hk⟩
      · simp only [Gate.step, hk]
        exact h

theorem counted_run (h : g.Counted limiter) (es : List GateEvent) :
    (g.run env es).Counted limiter := by
  induction es generalizing g with
  | nil => exact h
  | cons e es ih => exact ih (counted_step h e)

theorem live_eq {served : Finset ℕ} (h : Booked g.limiter g.phase served) (ip : String) :
    g.live ip = ↑(served.filter fun k => g.phase k = .served ip) := by
  ext k
  rw [Finset.mem_coe, Finset.mem_filter, h.member]
  exact ⟨fun hk => ⟨⟨ip, hk⟩, hk⟩, fun hk => hk.2⟩

theorem allLive_eq {served : Finset ℕ} (h : Booked g.limiter g.phase served) :
    g.allLive = ↑served := by
  ext k
  rw [Finset.mem_coe, h.member]
  rfl

/-- A refusal reads one of the two counts at its limit. -/
theorem tryAcquire_refuses (l : ConnectionLimiter) (ip : String) :
    (l.tryAcquire ip).1.1 = false ↔
      (l.maxConnections : ℤ) ≤ l.activeTotal ∨
        (l.maxConnectionsPerIp : ℤ) ≤ l.activeByIp.get ip := by
  unfold ConnectionLimiter.tryAcquire
  split_ifs with hfull hip
  · simp [hfull]
  · simp [hip]
  · simp [hfull, hip]

/-- A connection that starts is served or has ended, by the answer of the limiter. -/
theorem start_ended {k : ℕ} (hk : g.phase k = .waiting) (ip : String) :
    (g.step env (.start k ip)).phase k = .ended ↔ (g.limiter.tryAcquire ip).1.1 = false := by
  simp only [Gate.step, hk, Gate.letIn]
  split_ifs with hallowed
  · simp [hallowed]
  · simp [hallowed, Gate.refuse]

theorem start_served {k : ℕ} (hk : g.phase k = .waiting) (ip : String) :
    (g.step env (.start k ip)).phase k = .served ip ↔
      (g.limiter.tryAcquire ip).1.1 = true := by
  simp only [Gate.step, hk, Gate.letIn]
  split_ifs with hallowed
  · simp [hallowed]
  · simp [hallowed, Gate.refuse]

end

end Seftp.ConnectionAdmission
