import Pontus.Proxy.CancelRegistry

/-!
# Where the registry points

The registry is kept by process id alone.  It points every live session at the
backend that issued its key just as long as a session that opens shares its
process id with sessions of its own backend at most, and one that closes with
none.
-/

namespace Pontus.Proxy

open Lib Protocol CancelRegistry

namespace CancelRegistry

variable {r : CancelRegistry} {key addr : Bytes} {pid p : Nat}

theorem remember_of_pid (h : pidOf key addr = some pid) :
    r.remember key addr = (⟨r.byPID.insert pid addr⟩, pid) := by
  simp [remember, h]

theorem remember_of_none (h : pidOf key addr = none) : r.remember key addr = (r, 0) := by
  simp [remember, h]

theorem addrFor_remember (h : pidOf key addr = some pid) :
    (r.remember key addr).1.addrFor p = if p = pid then some addr else r.addrFor p := by
  rw [remember_of_pid h]
  by_cases hp : p = pid
  · subst hp
    simp [addrFor]
  · simp [addrFor, hp, AList.lookup_insert_ne hp]

theorem addrFor_forget :
    (r.forget pid).addrFor p = if pid ≠ 0 ∧ p = pid then none else r.addrFor p := by
  unfold forget
  by_cases hzero : pid = 0
  · simp [hzero]
  · by_cases hp : p = pid
    · subst hp
      simp [hzero, addrFor]
    · simp [hzero, hp, addrFor, AList.lookup_erase_ne hp]

end CancelRegistry

namespace CancelSessions

variable {s s' : CancelSessions} {i : Nat} {key addr : Bytes}

def Points (s : CancelSessions) : Prop :=
  ∀ i r pid, s.live.lookup i = some r → r.pid = some pid → s.registry.addrFor pid = some r.addr

/-- A session that opens shares its process id with sessions of its own backend
at most, and one that closes with none. -/
def keepsEntries (s : CancelSessions) : CancelEvent → Bool
  | .opened _ key addr =>
    s.live.entries.all fun e =>
      e.2.pid.isNone || e.2.pid != CancelRegistry.pidOf key addr || e.2.addr == addr
  | .closed i =>
    (s.live.lookup i).all fun r =>
      r.cancelPID == 0 || s.live.entries.all fun e => e.1 == i || e.2.pid != some r.cancelPID

theorem keepsEntries_opened :
    s.keepsEntries (.opened i key addr) ↔ ∀ j r pid, s.live.lookup j = some r →
      r.pid = some pid → CancelRegistry.pidOf key addr = some pid → r.addr = addr := by
  simp only [keepsEntries, all_eq_true, or_eq_true, isNone_iff_eq_none, bne_iff_ne, beq_iff_eq]
  constructor
  · intro h j r pid hj hr hpid
    rcases h ⟨j, r⟩ (AList.mem_lookup_iff.1 hj) with (hnone | hne) | heq
    · simp [hr] at hnone
    · exact absurd (hr.trans hpid.symm) hne
    · exact heq
  · intro h e he
    cases hr : e.2.pid with
    | none => exact .inl (.inl rfl)
    | some pid =>
      by_cases hpid : CancelRegistry.pidOf key addr = some pid
      · exact .inr (h e.1 e.2 pid (AList.mem_lookup_iff.2 he) hr hpid)
      · exact .inl (.inr fun heq => hpid heq.symm)

theorem keepsEntries_closed (h : s.live.lookup i = some r) :
    s.keepsEntries (.closed i) ↔ r.cancelPID = 0 ∨
      ∀ j r', s.live.lookup j = some r' → j ≠ i → r'.pid ≠ some r.cancelPID := by
  simp only [keepsEntries, h, all_some, or_eq_true, beq_iff_eq, all_eq_true, bne_iff_ne]
  refine or_congr_right ?_
  constructor
  · intro hall j r' hj hne
    exact (hall ⟨j, r'⟩ (AList.mem_lookup_iff.1 hj)).resolve_left hne
  · intro hall e he
    by_cases hi : e.1 = i
    · exact .inl hi
    · exact .inr (hall e.1 e.2 (AList.mem_lookup_iff.2 he) hi)

/-! ### Opening -/

theorem lookup_opened (j : Nat) : (s.opened i key addr).live.lookup j =
    if j = i then some ⟨key, addr, (s.registry.remember key addr).2⟩ else s.live.lookup j := by
  by_cases hj : j = i
  · subst hj
    simp [opened]
  · simp [opened, hj, AList.lookup_insert_ne hj]

theorem registry_opened : (s.opened i key addr).registry = (s.registry.remember key addr).1 := rfl

theorem points_opened (hs : s.Points) (hi : i ∉ s.live) :
    (s.opened i key addr).Points ↔ s.keepsEntries (.opened i key addr) := by
  rw [keepsEntries_opened]
  constructor
  · intro hs' j r pid hj hr hpid
    have hne : j ≠ i := by
      rintro rfl
      exact hi (AList.lookup_isSome.1 (by rw [hj]; rfl))
    have hpoints := hs' j r pid (by rw [lookup_opened, if_neg hne]; exact hj) hr
    rw [registry_opened, addrFor_remember hpid, if_pos rfl] at hpoints
    exact (Option.some.inj hpoints).symm
  · intro hshared j r pid hj hr
    rw [registry_opened]
    rw [lookup_opened] at hj
    split at hj
    · cases hj
      rw [addrFor_remember hr, if_pos rfl]
    · have hpoints := hs j r pid hj hr
      cases hnew : CancelRegistry.pidOf key addr with
      | none =>
        rw [remember_of_none hnew]
        exact hpoints
      | some =>
        rw [addrFor_remember hnew]
        split
        · rename_i heq
          subst heq
          rw [hshared j r pid hj hr hnew]
        · exact hpoints

/-! ### Closing -/

theorem points_closed (hs : s.Points) (hi : s.live.lookup i = some r) :
    (s.closed i).Points ↔ s.keepsEntries (.closed i) := by
  have hclosed : s.closed i = ⟨s.registry.forget r.cancelPID, s.live.erase i⟩ := by
    simp [closed, hi]
  rw [keepsEntries_closed hi, hclosed]
  constructor
  · intro hs'
    by_cases hzero : r.cancelPID = 0
    · exact .inl hzero
    · refine .inr fun j r' hj hne hr' => ?_
      have hpoints := hs' j r' _ ((AList.lookup_erase_ne hne).trans hj) hr'
      rw [addrFor_forget, if_pos ⟨hzero, rfl⟩] at hpoints
      simp at hpoints
  · intro halone j r' pid hj hr'
    have hne : j ≠ i := by
      rintro rfl
      simp [AList.lookup_erase] at hj
    rw [AList.lookup_erase_ne hne] at hj
    rw [addrFor_forget, if_neg]
    · exact hs j r' pid hj hr'
    · rintro ⟨hzero, rfl⟩
      exact halone.resolve_left hzero j r' hj hne hr'

/-- **One step** keeps the entries of the others just if it is allowed. -/
theorem points_step (hs : s.Points) (hstep : s.step e = some s') :
    s'.Points ↔ s.keepsEntries e := by
  cases e with
  | opened =>
    simp only [step] at hstep
    split at hstep
    · simp at hstep
    · rename_i hi
      cases hstep
      exact points_opened hs hi
  | closed =>
    simp only [step] at hstep
    split at hstep
    · rename_i hi
      cases hstep
      obtain ⟨_, hr⟩ := isSome_iff_exists.1 (AList.lookup_isSome.2 hi)
      exact points_closed hs hr
    · simp at hstep

theorem points_init : init.Points := by
  intro _ _ _ hi
  simp [init] at hi

end CancelSessions

/-- **The registry points at live sessions** just as long as no session opens
with the process id of a live session on another backend, or closes with that
of a live session at all. -/
theorem registry_points_at_live_sessions {events : List CancelEvent} {s : CancelSessions}
    (hrun : run CancelSessions.step .init events = some s) :
    Along CancelSessions.step (fun s e => s.keepsEntries e = true) .init events ↔
      ∀ k t, run CancelSessions.step .init (events.take k) = some t →
        ∀ i r pid, t.live.lookup i = some r → r.pid = some pid →
          t.registry.addrFor pid = some r.addr :=
  along_iff_forall_take (fun _ _ _ hs hstep => CancelSessions.points_step hs hstep)
    CancelSessions.points_init hrun

def backendKey (pid secret : Nat) : Bytes := putU32 pid ++ putU32 secret

def apartSessions : List CancelEvent :=
  [.opened 0 (backendKey 7 1) (ascii "db1"), .opened 1 (backendKey 8 2) (ascii "db2"), .closed 0]

theorem apart_sessions_pointed_at :
    ∃ s, run CancelSessions.step .init apartSessions = some s ∧
      s.live.lookup 1 = some ⟨backendKey 8 2, ascii "db2", 8⟩ ∧
      s.registry.addrFor 8 = some (ascii "db2") := by
  have hkeeps : Along CancelSessions.step (fun s e => s.keepsEntries e = true) .init
      apartSessions := by
    decide +kernel
  obtain ⟨s, hrun, hlive⟩ := exists_run (show (run CancelSessions.step .init apartSessions).any
    (fun s => s.live.lookup 1 == some ⟨backendKey 8 2, ascii "db2", 8⟩) = true by decide +kernel)
  have hlive := eq_of_beq hlive
  exact ⟨s, hrun, hlive,
    (registry_points_at_live_sessions hrun).1 hkeeps 3 s hrun 1 _ 8 hlive (by decide +kernel)⟩

def coincidingSessions : List CancelEvent :=
  [.opened 0 (backendKey 7 1) (ascii "db1"), .opened 1 (backendKey 7 2) (ascii "db2")]

def sharingSessions : List CancelEvent :=
  [.opened 0 (backendKey 7 1) (ascii "db1"), .opened 1 (backendKey 7 1) (ascii "db1"), .closed 0]

theorem live_session_redirected_or_dropped :
    (∃ s, run CancelSessions.step .init coincidingSessions = some s ∧
      s.live.lookup 0 = some ⟨backendKey 7 1, ascii "db1", 7⟩ ∧
      s.registry.addrFor 7 = some (ascii "db2")) ∧
    ∃ s, run CancelSessions.step .init sharingSessions = some s ∧
      s.live.lookup 1 = some ⟨backendKey 7 1, ascii "db1", 7⟩ ∧ s.registry.addrFor 7 = none := by
  constructor
  · obtain ⟨s, hrun, h⟩ := exists_run (show (run CancelSessions.step .init
      coincidingSessions).any (fun s =>
        s.live.lookup 0 == some ⟨backendKey 7 1, ascii "db1", 7⟩ &&
          s.registry.addrFor 7 == some (ascii "db2")) = true by decide +kernel)
    rw [and_eq_true] at h
    exact ⟨s, hrun, eq_of_beq h.1, eq_of_beq h.2⟩
  · obtain ⟨s, hrun, h⟩ := exists_run (show (run CancelSessions.step .init
      sharingSessions).any (fun s =>
        s.live.lookup 1 == some ⟨backendKey 7 1, ascii "db1", 7⟩ &&
          s.registry.addrFor 7 == none) = true by decide +kernel)
    rw [and_eq_true] at h
    exact ⟨s, hrun, eq_of_beq h.1, eq_of_beq h.2⟩

end Pontus.Proxy
