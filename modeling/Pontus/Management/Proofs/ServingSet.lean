import Pontus.Management.Proofs.Manager

/-!
# Who serves, and who is asked

A proxy's backends are looked at from four places: the gateway's balancer and
the health monitor, which have lists of their own, and the failover manager and
the administration console, which read the slice the proxy was created with.
Adding or removing a backend tells none of them.
-/

namespace Pontus.Management

open Lib Pool Arrays

variable {ps : Proxy} {r : Registry} {p : Project}

structure Proxy.Serves (ps : Proxy) : Prop where
  once : ps.serving.Nodup
  balancer : ps.balancer.Perm ps.serving
  monitor : ps.monitor.Perm ps.serving
  supplied : ps.supplied.Perm ps.serving

instance (ps : Proxy) : Decidable ps.Serves :=
  decidable_of_iff (ps.serving.Nodup ∧ ps.balancer.Perm ps.serving ∧
      ps.monitor.Perm ps.serving ∧ ps.supplied.Perm ps.serving)
    ⟨fun ⟨honce, hbalancer, hmonitor, hsupplied⟩ => ⟨honce, hbalancer, hmonitor, hsupplied⟩,
      fun h => ⟨h.1, h.2, h.3, h.4⟩⟩

/-! ## The list of backends -/

structure Proxy.Formed (ps : Proxy) : Prop where
  backends : ps.backends.Valid ps.arrays
  once : ps.serving.Nodup
  made : ∀ n ∈ ps.serving, n < ps.servers.length

namespace Proxy

variable {ps : Proxy}

theorem addServer_serving (h : ps.Formed) (server : Server) (grown : Nat) :
    (ps.addServer server grown).serving = ps.serving ++ [ps.servers.length] :=
  read_push _ _ h.backends

theorem length_addServer (ps : Proxy) (server : Server) (grown : Nat) :
    (ps.addServer server grown).servers.length = ps.servers.length + 1 := by
  simp [Proxy.addServer]

theorem dropServer_serving (hvalid : ps.backends.Valid ps.arrays) :
    ps.dropServer.serving = ps.serving.dropLast := by
  have hlen := length_read hvalid
  unfold Proxy.serving Proxy.dropServer Arrays.read at *
  rw [List.dropLast_eq_take, hlen, List.take_take, Nat.min_eq_left (Nat.sub_le _ _)]

variable (h : ps.Formed)
include h

theorem undone_serving (server : Server) (grown : Nat) :
    (ps.undone server grown).serving = ps.serving := by
  have hserving := addServer_serving h server grown
  rw [Proxy.undone, dropServer_serving]
  · change (ps.addServer server grown).serving.dropLast = ps.serving
    rw [hserving, List.dropLast_concat]
  · exact valid_push _ _ h.backends

theorem removeServer_serving (hindex : idx < ps.serving.length) :
    (ps.removeServer idx).serving = ps.serving.eraseIdx idx :=
  read_removeAt h.backends (by rw [← length_read h.backends]; exact hindex)

theorem Formed.setServer (n : Nat) (f : Server → Server) : (ps.setServer n f).Formed :=
  { h with
    made := by
      intro m hm
      rw [Proxy.setServer, List.length_modify]
      exact h.made m hm }

theorem Formed.addServer (server : Server) (grown : Nat) : (ps.addServer server grown).Formed := by
  have hserving := addServer_serving h server grown
  refine ⟨valid_push _ _ h.backends, ?_, ?_⟩
  · rw [hserving, List.nodup_append]
    refine ⟨h.once, List.nodup_singleton _, ?_⟩
    intro n hn m hm hsame
    rw [mem_singleton.1 hm] at hsame
    have hlt := h.made n hn
    omega
  · intro n hn
    rw [hserving, mem_append, mem_singleton] at hn
    rw [length_addServer]
    rcases hn with hn | rfl
    · exact Nat.lt_succ_of_lt (h.made n hn)
    · exact Nat.lt_succ_self _

theorem Formed.undone (server : Server) (grown : Nat) : (ps.undone server grown).Formed := by
  have hserving := undone_serving h server grown
  have hadded := (h.addServer server grown).setServer ps.servers.length Server.close
  refine ⟨⟨hadded.backends.array, (Nat.sub_le _ _).trans hadded.backends.len⟩, ?_, ?_⟩
  · rw [hserving]
    exact h.once
  · intro n hn
    rw [hserving] at hn
    apply hadded.made
    change n ∈ (ps.addServer server grown).serving
    rw [addServer_serving h]
    exact mem_append_left _ hn

theorem Formed.removeServer (hindex : idx < ps.serving.length) : (ps.removeServer idx).Formed := by
  have hserving := removeServer_serving h hindex
  have hlen : idx < ps.backends.len := by
    rw [← length_read h.backends]
    exact hindex
  refine ⟨valid_removeAt h.backends hlen, ?_, ?_⟩
  · rw [hserving]
    exact h.once.sublist (List.eraseIdx_sublist _ _)
  · intro n hn
    rw [hserving] at hn
    exact h.made n (List.eraseIdx_subset hn)

end Proxy

/-- A proxy that has just been created: the balancer and the monitor were given
the servers it has. -/
structure Proxy.Fresh (ref : Nat) (ps : Proxy) : Prop where
  formed : ps.Formed
  captured : ps.captured = ps.backends
  balancer : ps.balancer = ps.serving
  monitor : ps.monitor = ps.serving
  config : ps.config = ref
  running : ps.stopped = false

theorem fresh_createProxyState (h : r.createProxyState ref cfg listens = some ps) :
    ps.Fresh ref := by
  unfold Registry.createProxyState at h
  split at h
  · cases h
  rw [some_inj] at h
  subst h
  have hread := read_make [] (List.range (cfg.backends.filterMap
    (r.createBackend cfg.maxConns)).length) cfg.backends.length
  refine ⟨⟨valid_make _ _ _, ?_, ?_⟩, rfl, hread.symm, hread.symm, rfl, rfl⟩
  · unfold Proxy.serving
    rw [hread]
    exact List.nodup_range
  · intro n hn
    unfold Proxy.serving at hn
    rw [hread] at hn
    exact List.mem_range.1 hn

/-! ## The slice and what was captured of it -/

structure Proxy.Descends (created : List Nat) (ps : Proxy) : Prop extends ps.Formed where
  captured : ps.captured.Valid ps.arrays
  balancer : ps.balancer = created
  monitor : ps.monitor = created
  createdMade : ∀ n ∈ created, n < ps.servers.length
  -- either they are all still there, and the captured slice has not been
  -- touched, or one of them is gone for good
  kept : created <+: ps.serving ∧ ps.supplied = created ∨ ∃ n ∈ created, n ∉ ps.serving

namespace Proxy

variable {created : List Nat} {ps : Proxy}

variable (h : ps.Descends created)
include h

theorem Descends.serves_iff : ps.Serves ↔ ps.serving = created := by
  constructor
  · intro hserves
    have hperm : created.Perm ps.serving := by
      have := hserves.balancer
      rwa [h.balancer] at this
    rcases h.kept with ⟨hfront, -⟩ | ⟨n, hn, hgone⟩
    · exact (hfront.eq_of_length hperm.length_eq).symm
    · exact absurd (hperm.mem_iff.1 hn) hgone
  · intro hsame
    refine ⟨h.once, ?_, ?_, ?_⟩
    · rw [h.balancer, hsame]
    · rw [h.monitor, hsame]
    · rcases h.kept with ⟨-, hsupplied⟩ | ⟨n, hn, hgone⟩
      · rw [hsupplied, hsame]
      · rw [hsame] at hgone
        exact absurd hn hgone

theorem Descends.setServer (n : Nat) (f : Server → Server) : (ps.setServer n f).Descends created :=
  { h with
    toFormed := h.toFormed.setServer n f
    createdMade := by
      intro m hm
      rw [Proxy.setServer, List.length_modify]
      exact h.createdMade m hm }

theorem Descends.addServer (server : Server) (grown : Nat) :
    (ps.addServer server grown).Descends created := by
  have hserving := addServer_serving h.toFormed server grown
  refine ⟨h.toFormed.addServer server grown, valid_of_push _ _ h.backends h.captured,
    h.balancer, h.monitor, ?_, ?_⟩
  · intro n hn
    rw [length_addServer]
    exact Nat.lt_succ_of_lt (h.createdMade n hn)
  · rcases h.kept with ⟨hfront, hsupplied⟩ | ⟨n, hn, hgone⟩
    · refine .inl ⟨?_, ?_⟩
      · rw [hserving]
        exact hfront.trans (prefix_append _ _)
      · rw [← hsupplied]
        apply read_push_of_le _ _ h.backends h.captured
        intro _
        -- the captured slice is no longer than the list that begins with it
        rw [← length_read h.captured, ← length_read h.backends]
        have hlen := hfront.length_le
        rw [← hsupplied] at hlen
        exact hlen
    · refine .inr ⟨n, hn, ?_⟩
      rw [hserving, mem_append, mem_singleton, not_or]
      exact ⟨hgone, Nat.ne_of_lt (h.createdMade n hn)⟩

theorem Descends.undone (server : Server) (grown : Nat) :
    (ps.undone server grown).Descends created := by
  have hserving := undone_serving h.toFormed server grown
  have hadded := (h.addServer server grown).setServer ps.servers.length Server.close
  refine { hadded with toFormed := h.toFormed.undone server grown, kept := ?_ }
  rw [hserving]
  rcases h.kept with ⟨hfront, -⟩ | hgone
  · rcases hadded.kept with ⟨-, hsupplied⟩ | ⟨n, hn, hgone⟩
    · exact .inl ⟨hfront, hsupplied⟩
    · refine absurd ?_ hgone
      change n ∈ (ps.addServer server grown).serving
      rw [addServer_serving h.toFormed]
      exact mem_append_left _ (hfront.subset hn)
  · exact .inr hgone

theorem Descends.removeServer (hindex : idx < ps.serving.length) :
    (ps.removeServer idx).Descends created := by
  have hserving := removeServer_serving h.toFormed hindex
  have hlen : idx < ps.backends.len := by
    rw [← length_read h.backends]
    exact hindex
  refine ⟨h.toFormed.removeServer hindex, valid_of_removeAt h.backends hlen h.captured,
    h.balancer, h.monitor, h.createdMade, ?_⟩
  rcases h.kept with ⟨hfront, hsupplied⟩ | ⟨n, hn, hgone⟩
  · by_cases hearly : idx < created.length
    · -- one of the first servers goes
      refine .inr ⟨created[idx], List.getElem_mem hearly, ?_⟩
      have hsame : created[idx] = ps.serving[idx] := hfront.getElem hearly
      rw [hserving, hsame, ← List.Nodup.erase_getElem h.once]
      exact h.once.not_mem_erase
    · refine .inl ⟨?_, ?_⟩
      · rw [hserving]
        obtain ⟨rest, hrest⟩ := hfront
        rw [← hrest, List.eraseIdx_append_of_length_le (by omega)]
        exact prefix_append _ _
      · rw [← hsupplied]
        apply read_removeAt_of_le h.backends hlen
        intro _
        have hlength : ps.supplied.length = ps.captured.len := length_read h.captured
        rw [hsupplied] at hlength
        change ps.captured.len ≤ idx
        omega
  · refine .inr ⟨n, hn, ?_⟩
    rw [hserving]
    exact fun hmem => hgone (List.eraseIdx_subset hmem)

end Proxy

/-! ## Calls -/

def Call.onBackendsOf (id : Bytes) : Call → Bool
  | .addBackend proxyId _ _ => proxyId == id
  | .removeBackend proxyId _ _ => proxyId == id
  | _ => false

def Succeeds (r : Registry) (p : Project) (c : Call) : Prop := (p.call r c).2.isOk = true

instance (r : Registry) (p : Project) (c : Call) : Decidable (Succeeds r p c) :=
  inferInstanceAs (Decidable (_ = true))

@[simp] theorem forgetBackend_proxies (p : Project) (ref : Nat) (address : Bytes) :
    (p.forgetBackend ref address).proxies = p.proxies := by
  unfold Project.forgetBackend
  split <;> rfl

theorem save_proxies (p : Project) (upsert : Bool) : (p.save upsert).1.proxies = p.proxies := by
  cases upsert <;> rfl

/-- **What one call does to the list of a proxy's backends.** -/
theorem serving_call {id : Bytes} {created : List Nat} {c : Call} (hc : c.onBackendsOf id)
    (hproxy : p.proxies id = some ps) (h : ps.Descends created) :
    ∃ ps', (p.call r c).1.proxies id = some ps' ∧ ps'.Descends created ∧
      (ps'.serving = ps.serving ∧ ¬Succeeds r p c ∨
        ps'.serving = ps.serving ++ [ps.servers.length] ∧ Succeeds r p c ∨
        ∃ idx < ps.serving.length, ps'.serving = ps.serving.eraseIdx idx) := by
  have hcalled := called r p c
  unfold Succeeds
  generalize p.call r c = result at hcalled
  cases hcalled with
  | refused => exact ⟨ps, hproxy, h, .inl ⟨rfl, Bool.false_ne_true⟩⟩
  | @backendAdded _ _ _ env _ server hproxy' =>
    have hid := eq_of_beq hc
    subst hid
    rw [hproxy, some_inj] at hproxy'
    subst hproxy'
    refine ⟨ps.addServer server env.grown, ?_, h.addServer server env.grown,
      .inr (.inl ⟨Proxy.addServer_serving h.toFormed server env.grown, rfl⟩)⟩
    exact update_self _ _ _
  | @backendUndone _ _ env _ server hproxy' =>
    have hid := eq_of_beq hc
    subst hid
    rw [hproxy, some_inj] at hproxy'
    subst hproxy'
    exact ⟨ps.undone server env.grown, update_self _ _ _, h.undone server env.grown,
      .inl ⟨Proxy.undone_serving h.toFormed server env.grown, Bool.false_ne_true⟩⟩
  | @backendRemoved _ _ _ _ idx n hproxy' _ hn =>
    have hid := eq_of_beq hc
    subst hid
    rw [hproxy, some_inj] at hproxy'
    subst hproxy'
    obtain ⟨hlt, -⟩ := List.getElem?_eq_some_iff.1 hn
    have hclosed := h.setServer n Server.close
    refine ⟨(ps.setServer n Server.close).removeServer idx, ?_, hclosed.removeServer hlt,
      .inr (.inr ⟨idx, hlt, Proxy.removeServer_serving hclosed.toFormed hlt⟩)⟩
    rw [save_proxies]
    exact update_self _ _ _
  | removalCrashed =>
    refine ⟨ps, ?_, h, .inl ⟨rfl, Bool.false_ne_true⟩⟩
    rw [forgetBackend_proxies]
    exact hproxy
  | _ => cases hc

/-! ## Sequences of calls -/

/-- If the call returns success, the views show the proxy's backends. -/
def ServesAfter (r : Registry) (id : Bytes) (p : Project) (c : Call) : Prop :=
  Succeeds r p c → ∀ ps, (p.call r c).1.proxies id = some ps → ps.Serves

theorem descends_created (h : r.createProxyState ref cfg listens = some ps) :
    ps.Descends ps.serving := by
  obtain ⟨hformed, hcapped, hbalancer, hmonitor, -, -⟩ := fresh_createProxyState h
  refine ⟨hformed, ?_, hbalancer, hmonitor, hformed.made, .inl ⟨List.prefix_rfl, ?_⟩⟩
  · rw [hcapped]
    exact hformed.backends
  · rw [Proxy.supplied, hcapped, Proxy.serving]

section
variable {r : Registry} {id : Bytes} {created : List Nat}

theorem descends_calls {p' : Project} (hcalls : ∀ c ∈ calls, c.onBackendsOf id)
    (hproxy : p.proxies id = some ps) (h : ps.Descends created)
    (hrun : run (Project.step r) p calls = some p') :
    ∃ ps', p'.proxies id = some ps' ∧ ps'.Descends created := by
  induction calls generalizing p ps with
  | nil =>
    rw [run, some_inj] at hrun
    subst hrun
    exact ⟨ps, hproxy, h⟩
  | cons _ _ ih =>
    obtain ⟨q, hq, hrest⟩ := run_cons.1 hrun
    rw [forall_mem_cons] at hcalls
    obtain ⟨ps', hproxy', h', -⟩ := serving_call (r := r) hcalls.1 hproxy h
    rw [Project.step, some_inj] at hq
    rw [hq] at hproxy'
    exact ih hcalls.2 hproxy' h' hrest

theorem along_servesAfter (hcalls : ∀ c ∈ calls, c.onBackendsOf id)
    (hproxy : p.proxies id = some ps)
    (h : ps.Descends created) (hsubset : ps.serving.Sublist created) :
    Along (Project.step r) (ServesAfter r id) p calls ↔
      Along (Project.step r) (fun p c => ¬Succeeds r p c) p calls := by
  induction calls generalizing p ps with
  | nil => exact Iff.rfl
  | cons c calls ih =>
    rw [forall_mem_cons] at hcalls
    obtain ⟨ps', hproxy', h', hserving⟩ := serving_call (r := r) hcalls.1 hproxy h
    have hfails : ServesAfter r id p c → ¬Succeeds r p c := by
      intro hafter hsucceeds
      have hcreated := h'.serves_iff.1 (hafter hsucceeds ps' hproxy')
      rcases hserving with ⟨-, hfail⟩ | ⟨hadded, -⟩ | ⟨idx, hindex, hremoved⟩
      · exact hfail hsucceeds
      · have hmem : ps.servers.length ∈ created := by
          rw [← hcreated, hadded]
          exact mem_append_right _ (List.mem_singleton_self _)
        exact lt_irrefl _ (h.createdMade _ hmem)
      · have hlen := hsubset.length_le
        rw [← hcreated, hremoved, List.length_eraseIdx_of_lt hindex] at hlen
        omega
    have hrest : ¬Succeeds r p c → (Along (Project.step r) (ServesAfter r id) (p.call r c).1 calls ↔
        Along (Project.step r) (fun p c => ¬Succeeds r p c) (p.call r c).1 calls) := by
      intro hfail
      refine ih hcalls.2 hproxy' h' ?_
      rcases hserving with ⟨hsame, -⟩ | ⟨-, hsucceeds⟩ | ⟨idx, -, hremoved⟩
      · rw [hsame]
        exact hsubset
      · exact absurd hsucceeds hfail
      · rw [hremoved]
        exact (List.eraseIdx_sublist _ _).trans hsubset
    constructor
    · rintro ⟨hafter, hnext⟩
      refine ⟨hfails hafter, ?_⟩
      rintro q ⟨⟩
      exact (hrest (hfails hafter)).1 (hnext _ rfl)
    · rintro ⟨hfail, hnext⟩
      refine ⟨fun hsucceeds => absurd hsucceeds hfail, ?_⟩
      rintro q ⟨⟩
      exact (hrest hfail).2 (hnext _ rfl)

end

/-- **The views do not follow the configured set.**  Behind any sequence of
additions and removals they show a proxy's backends just when these are again
the servers it was created with; and so they do behind every call that returned
success just when no call did. -/
theorem serving_set_follows {r : Registry} {ref : Nat} {cfg : ProxyConfig} {ps : Proxy}
    (hcreated : r.createProxyState ref cfg true = some ps) {p : Project} {id : Bytes}
    (hproxy : p.proxies id = some ps) {calls : List Call}
    (hcalls : ∀ c ∈ calls, c.onBackendsOf id = true) :
    (∀ p', run (Project.step r) p calls = some p' →
      ∃ ps', p'.proxies id = some ps' ∧ (ps'.Serves ↔ ps'.serving = ps.serving)) ∧
    (Along (Project.step r) (ServesAfter r id) p calls ↔
      Along (Project.step r) (fun p c => ¬Succeeds r p c) p calls) := by
  have hdescends := descends_created hcreated
  constructor
  · intro p' hrun
    obtain ⟨ps', hproxy', hdescends'⟩ := descends_calls hcalls hproxy hdescends hrun
    exact ⟨ps', hproxy', hdescends'.serves_iff⟩
  · exact along_servesAfter hcalls hproxy hdescends (List.Sublist.refl _)

def backendAt (host : String) : BackendConfig :=
  ⟨ascii host ++ ascii ":5432", [], [], 1, false, [], [], [], [], none⟩

def threeBackends : ProxyConfig :=
  ⟨ascii "main", ascii ":6432", [backendAt "db1", backendAt "db2", backendAt "db3"], [], 10⟩

def plain : Registry := ⟨[], id⟩

def projectWith (cfg : ProxyConfig) : Project :=
  ((⟨fun _ => ⟨[], [], [], [], 0⟩, 0, fun _ => none, [], []⟩ : Project).call plain
    (.addProxy cfg ⟨[], true, true⟩)).1

def addsFourth : Call := .addBackend (ascii "main") (backendAt "db4") ⟨⟨true, none, none⟩, 6, true⟩

def removes (host : String) : Call :=
  .removeBackend (ascii "main") (ascii host ++ ascii ":5432") ⟨true, true⟩

theorem added_and_removed_serves :
    ∃ p ps, run (Project.step plain) (projectWith threeBackends) [addsFourth, removes "db4"] =
        some p ∧ p.proxies (ascii "main") = some ps ∧ ps.Serves := by
  obtain ⟨ps, hcreated⟩ : ∃ ps, plain.createProxyState 0 threeBackends true = some ps :=
    isSome_iff_exists.1 (by decide +kernel)
  have hproxy : (projectWith threeBackends).proxies (ascii "main") = some ps := by
    rw [← hcreated]
    rfl
  obtain ⟨p, hrun⟩ : ∃ p, run (Project.step plain) (projectWith threeBackends)
      [addsFourth, removes "db4"] = some p := ⟨_, rfl⟩
  obtain ⟨ps', hproxy', hserves⟩ := (serving_set_follows hcreated hproxy (by decide)).1 p hrun
  refine ⟨p, ps', hrun, hproxy', hserves.2 ?_⟩
  have hlists : (p.proxies (ascii "main")).map Proxy.serving =
      (plain.createProxyState 0 threeBackends true).map Proxy.serving := by
    cases hrun
    decide +kernel
  rw [hproxy', hcreated] at hlists
  exact Option.some.inj hlists

theorem removed_backend_still_asked :
    ∃ p ps, run (Project.step plain) (projectWith threeBackends) [removes "db1"] = some p ∧
      Succeeds plain (projectWith threeBackends) (removes "db1") ∧
      p.proxies (ascii "main") = some ps ∧ ps.serving = [1, 2] ∧ ps.balancer = [0, 1, 2] ∧
      ps.monitor = [0, 1, 2] ∧ ps.supplied = [1, 2, 2] ∧
      (ps.server 0).map Server.closed = some true ∧ ¬ps.Serves ∧
      Succeeds plain (projectWith threeBackends) addsFourth ∧
      ∃ ps', ((projectWith threeBackends).call plain addsFourth).1.proxies (ascii "main") =
          some ps' ∧ ps'.serving = [0, 1, 2, 3] ∧ ps'.balancer = [0, 1, 2] ∧
        ps'.supplied = [0, 1, 2] ∧ ¬ps'.Serves := by
  refine ⟨_, _, rfl, ?_, rfl, ?_, ?_, ?_, ?_, ?_, ?_, ?_, _, rfl, ?_, ?_, ?_, ?_⟩ <;> decide +kernel

end Pontus.Management
