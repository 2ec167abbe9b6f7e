import Pontus.Management.Proofs.Linked

/-!
# All or nothing

A management call changes what runs, what is configured and what is stored, in
this order.  Only `AddBackend` takes its changes back where the store fails.
-/

namespace Pontus.Management

open Lib Pool
open Function (update)

variable {id : Bytes} {ps ps' : Proxy}

structure ProxyView where
  config : Nat
  backends : List Server
  stopped : Bool

def Proxy.view (ps : Proxy) : ProxyView := ⟨ps.config, ps.nodes, ps.stopped⟩

namespace Project

def view (p : Project) (id : Bytes) : Option ProxyView := (p.proxies id).map Proxy.view

def Runs (p : Project) (id : Bytes) : Prop := ∃ ps, p.proxies id = some ps ∧ ps.stopped = false

structure Unchanged (p p' : Project) : Prop where
  running : ∀ id, p'.view id = p.view id
  configured : p'.configured = p.configured
  stored : p'.stored = p.stored

structure IdsAgree (p : Project) : Prop where
  configured : (p.configured.map ProxyConfig.id).Nodup
  stored : (p.stored.map ProxyConfig.id).Nodup
  running : ∀ id, p.Runs id ↔ id ∈ p.configured.map ProxyConfig.id
  same : ∀ id, id ∈ p.stored.map ProxyConfig.id ↔ id ∈ p.configured.map ProxyConfig.id

end Project

structure AllOrNothing (r : Registry) (p : Project) (c : Call) : Prop where
  failed : ¬Succeeds r p c → p.Unchanged (p.call r c).1
  succeeded : Succeeds r p c → (p.call r c).1.IdsAgree

def Project.stopsUnknown (p : Project) (ref : Nat) (address : Bytes) (env : Project.RemoveEnv) :
    Bool :=
  ((p.configs ref).backends.find? (·.address == address)).any fun c =>
    c.managedByAgent && env.agentConnected && c.agentConfig.isNone

def GoesThrough (p : Project) : Call → Prop
  | .addProxy req env =>
    env.listens = false ∨ env.upsert = true ∧ (p.proxies (named req env).id).isNone = true
  | .removeProxy id upsert => (p.proxies id).isNone = true ∨ upsert = true
  | .updateProxy req env =>
    ∀ ps ∈ p.proxies req.id,
      env.upsert = true ∧ ((p.configs ps.config).address = req.address ∨ env.listens = true)
  | .addBackend _ _ _ => True
  | .removeBackend id address env =>
    ∀ ps ∈ p.proxies id, ps.indexOf address = none ∨
      env.upsert = true ∧ p.stopsUnknown ps.config address env = false
  | .updateBackend id address _ upsert =>
    ∀ ps ∈ p.proxies id, ps.indexOf address = none ∨ upsert = true

instance (p : Project) : ∀ c, Decidable (GoesThrough p c)
  | .addProxy _ _ => inferInstanceAs (Decidable (_ ∨ _ ∧ _))
  | .removeProxy _ _ => inferInstanceAs (Decidable (_ ∨ _))
  | .updateProxy req env =>
    inferInstanceAs (Decidable (∀ ps ∈ p.proxies req.id,
      env.upsert = true ∧ ((p.configs ps.config).address = req.address ∨ env.listens = true)))
  | .addBackend _ _ _ => inferInstanceAs (Decidable True)
  | .removeBackend id address env =>
    inferInstanceAs (Decidable (∀ ps ∈ p.proxies id, ps.indexOf address = none ∨
      env.upsert = true ∧ p.stopsUnknown ps.config address env = false))
  | .updateBackend id address _ upsert =>
    inferInstanceAs (Decidable (∀ ps ∈ p.proxies id, ps.indexOf address = none ∨ upsert = true))

/-! ## What the calls keep -/

structure Project.Sound (p : Project) : Prop extends p.Linked where
  formed : ∀ id ps, p.proxies id = some ps → ps.Formed
  listening : ∀ id ps, p.proxies id = some ps → ps.stopped = false
  started : ∀ ref ∈ p.config, (p.proxies (p.configs ref).id).isSome = true
  once : (p.configured.map ProxyConfig.id).Nodup
  stored : p.stored = p.configured

namespace Project

variable {p q : Project}

theorem Unchanged.rfl : p.Unchanged p := ⟨fun _ => Eq.refl _, Eq.refl _, Eq.refl _⟩

theorem map_id_configured (p : Project) :
    p.configured.map ProxyConfig.id = p.config.map fun ref => (p.configs ref).id := by
  rw [configured, map_map]
  rfl

theorem Sound.idsAgree (h : p.Sound) : p.IdsAgree := by
  refine ⟨h.once, by rw [h.stored]; exact h.once, ?_, fun id => by rw [h.stored]⟩
  intro id
  rw [map_id_configured, mem_map]
  constructor
  · rintro ⟨ps, hproxy, -⟩
    obtain ⟨hmem, hid⟩ := h.linked id ps hproxy
    exact ⟨ps.config, hmem, hid⟩
  · rintro ⟨ref, hmem, rfl⟩
    obtain ⟨ps, hproxy⟩ := isSome_iff_exists.1 (h.started ref hmem)
    exact ⟨ps, hproxy, h.listening _ ps hproxy⟩

theorem Sound.congr (h : p.Sound) (hproxies : q.proxies = p.proxies) (hconfig : q.config = p.config)
    (hids : ∀ ref, (q.configs ref).id = (p.configs ref).id) (hnext : q.nextConfig = p.nextConfig)
    (hstored : q.stored = q.configured) : q.Sound where
  toLinked := h.toLinked.congr hproxies hconfig hids hnext
  formed id ps hproxy := h.formed id ps (hproxies ▸ hproxy)
  listening id ps hproxy := h.listening id ps (hproxies ▸ hproxy)
  started ref hmem := by
    rw [hproxies, hids]
    exact h.started ref (hconfig ▸ hmem)
  once := by
    have honce := h.once
    rw [map_id_configured] at honce ⊢
    rw [hconfig, List.map_congr_left fun ref _ => hids ref]
    exact honce
  stored := hstored

theorem isSome_setProxy {id₁ : Bytes} (ps : Proxy) (h : id₁ ≠ id → (p.proxies id₁).isSome) :
    ((p.setProxy id (some ps)).proxies id₁).isSome := by
  change (update p.proxies id (some ps) id₁).isSome = true
  by_cases hid : id₁ = id
  · rw [hid, update_self]
    rfl
  · rw [update_of_ne hid]
    exact h hid

variable (h : p.Sound)
include h

theorem Sound.setProxy (hproxy : p.proxies id = some ps) (hformed : ps'.Formed)
    (hstopped : ps'.stopped = ps.stopped) (hconfig : ps'.config = ps.config) :
    (p.setProxy id (some ps')).Sound where
  toLinked := h.toLinked.goesOn hproxy hconfig
  formed := forall_setProxy hformed fun id₁ ps₁ _ => h.formed id₁ ps₁
  listening :=
    forall_setProxy (hstopped.trans (h.listening id ps hproxy)) fun id₁ ps₁ _ => h.listening id₁ ps₁
  started ref hmem := isSome_setProxy ps' fun _ => h.started ref hmem
  once := h.once
  stored := h.stored

theorem Sound.map_newConfig (cfg : ProxyConfig) :
    p.config.map (fun ref => ((p.newConfig cfg).configs ref).id) =
      p.config.map fun ref => (p.configs ref).id :=
  List.map_congr_left fun ref hmem => by rw [h.newConfig_of_mem cfg hmem]

/-- What the list refers to runs, but for the new configuration, whose proxy is
put under its id. -/
theorem Sound.started_newConfig (cfg : ProxyConfig) (ps : Proxy)
    (hmem : ref ∈ p.config ∨ ref = p.nextConfig) :
    (((p.newConfig cfg).setProxy cfg.id (some ps)).proxies
      ((p.newConfig cfg).configs ref).id).isSome := by
  apply isSome_setProxy
  intro hne
  rcases hmem with hmem | rfl
  · rw [h.newConfig_of_mem cfg hmem]
    exact h.started ref hmem
  · rw [newConfig_self] at hne
    exact absurd rfl hne

theorem Sound.withProxy {cfg : ProxyConfig} (hfree : p.proxies cfg.id = none) (hformed : ps.Formed)
    (hstopped : ps.stopped = false) (hconfig : ps.config = p.nextConfig) :
    ((p.withProxy cfg ps).save true).1.Sound := by
  refine ⟨(h.toLinked.withProxy cfg hconfig).save true,
    forall_setProxy hformed fun id₁ ps₁ _ => h.formed id₁ ps₁,
    forall_setProxy hstopped fun id₁ ps₁ _ => h.listening id₁ ps₁, ?_, ?_, rfl⟩
  · intro ref hmem
    apply h.started_newConfig cfg ps
    rw [← mem_singleton, ← mem_append]
    exact hmem
  · have hids : (p.withProxy cfg ps).configured.map ProxyConfig.id =
        p.configured.map ProxyConfig.id ++ [cfg.id] := by
      have hlast : [cfg.id] = [p.nextConfig].map fun ref => ((p.newConfig cfg).configs ref).id := by
        rw [List.map_singleton, newConfig_self]
      rw [map_id_configured, map_id_configured, ← h.map_newConfig cfg, hlast]
      exact map_append
    change ((p.withProxy cfg ps).configured.map ProxyConfig.id).Nodup
    rw [hids, List.nodup_append]
    refine ⟨h.once, List.nodup_singleton _, ?_⟩
    -- a proxy of that id would run
    intro id hid id' hid' hsame
    rw [map_id_configured, mem_map] at hid
    obtain ⟨ref, hmem, rfl⟩ := hid
    have hstarted := h.started ref hmem
    rw [hsame, mem_singleton.1 hid', hfree] at hstarted
    cases hstarted

theorem Sound.nodup_ids : (p.config.map fun ref => (p.configs ref).id).Nodup := by
  have honce := h.once
  rw [map_id_configured] at honce
  exact honce

theorem Sound.forgetProxy (hproxy : p.proxies id = some ps) :
    (((p.setProxy id none).forgetProxy id).save true).1.Sound := by
  obtain ⟨i, hindex⟩ := h.exists_configIndex hproxy
  obtain ⟨ref₀, href₀, hid₀⟩ := configIndex_eq_some hindex
  have hq : (p.setProxy id none).forgetProxy id =
      { p.setProxy id none with config := p.config.eraseIdx i } := by
    have hindex' : (p.setProxy id none).configIndex id = some i := hindex
    rw [Project.forgetProxy, hindex']
    rfl
  have hlinked := (h.toLinked.forgetProxy id).save true
  rw [hq] at hlinked ⊢
  refine ⟨hlinked, fun id₁ ps₁ h₁ => h.formed id₁ ps₁ (of_setProxy_none h₁).2,
    fun id₁ ps₁ h₁ => h.listening id₁ ps₁ (of_setProxy_none h₁).2, ?_, ?_, rfl⟩
  · intro ref href
    obtain ⟨j, hne, hj⟩ := List.mem_eraseIdx_iff_getElem?.1 href
    have hmem : ref ∈ p.config := List.mem_of_getElem? hj
    change (update p.proxies id none (p.configs ref).id).isSome = true
    rw [update_of_ne]
    · exact h.started ref hmem
    -- the place that goes is the only one of that id
    intro hid
    apply hne
    have hj' : (p.config.map fun ref => (p.configs ref).id)[j]? = some id := by
      rw [List.getElem?_map, hj, map_some, hid]
    have hi' : (p.config.map fun ref => (p.configs ref).id)[i]? = some id := by
      rw [List.getElem?_map, href₀, map_some, hid₀]
    have hlt := (List.getElem?_eq_some_iff.1 hj').1
    exact (List.getElem?_inj hlt h.nodup_ids).1 (hj'.trans hi'.symm)
  · rw [map_id_configured]
    exact h.nodup_ids.sublist ((List.eraseIdx_sublist _ _).map _)

theorem Sound.replaceProxy {cfg : ProxyConfig} (hproxy : p.proxies cfg.id = some ps)
    (hformed : ps'.Formed) (hstopped : ps'.stopped = false) (hconfig : ps'.config = p.nextConfig) :
    ((((p.newConfig cfg).setProxy cfg.id (some ps')).replaceProxy cfg.id
      p.nextConfig).save true).1.Sound := by
  obtain ⟨i, hindex⟩ : ∃ i, (p.newConfig cfg).configIndex cfg.id = some i :=
    (h.toLinked.newConfig cfg).exists_configIndex hproxy
  obtain ⟨ref₀, href₀, hid₀⟩ := configIndex_eq_some hindex
  have hlinked := (h.toLinked.replaceProxy hproxy hconfig).save true
  rw [replaceProxy_newConfig ps' hindex] at hlinked ⊢
  refine ⟨hlinked, forall_setProxy hformed fun id₁ ps₁ _ => h.formed id₁ ps₁,
    forall_setProxy hstopped fun id₁ ps₁ _ => h.listening id₁ ps₁, ?_, ?_, rfl⟩
  · intro ref hmem
    exact h.started_newConfig cfg ps' (List.mem_or_eq_of_mem_set hmem)
  · have hids : (p.config.set i p.nextConfig).map
        (fun ref => ((p.newConfig cfg).configs ref).id) =
        p.config.map fun ref => (p.configs ref).id := by
      -- the same id stands there already
      obtain ⟨hlt, hget⟩ := List.getElem?_eq_some_iff.1 href₀
      have hlen : i < (p.config.map fun ref => ((p.newConfig cfg).configs ref).id).length := by
        rw [List.length_map]
        exact hlt
      have hsame : (p.config.map fun ref => ((p.newConfig cfg).configs ref).id)[i] = cfg.id := by
        rw [List.getElem_map, ← hid₀, ← hget]
        rfl
      rw [← h.map_newConfig cfg, List.map_set, newConfig_self, ← hsame, List.set_getElem_self]
    rw [map_id_configured]
    change ((p.config.set i p.nextConfig).map (fun ref => ((p.newConfig cfg).configs ref).id)).Nodup
    rw [hids]
    exact h.nodup_ids

end Project

/-! ## A project as it is started -/

section
variable {r : Registry} {listens : Nat → Bool}

theorem isSome_loadLoop {ref : Nat} {cfgs : List ProxyConfig} {proxies : Bytes → Option Proxy}
    (hlistens : ∀ k < cfgs.length, listens (ref + k))
    (h : (proxies id).isSome ∨ id ∈ cfgs.map ProxyConfig.id) :
    (r.loadLoop listens ref cfgs proxies id).isSome := by
  induction cfgs generalizing ref proxies with
  | nil =>
    rcases h with h | h
    · exact h
    · cases h
  | cons cfg cfgs ih =>
    have hnext : ∀ k < cfgs.length, listens (ref + 1 + k) = true := by
      intro k hk
      rw [Nat.add_right_comm, Nat.add_assoc]
      exact hlistens (k + 1) (Nat.succ_lt_succ hk)
    rw [Registry.loadLoop]
    cases hcreated : r.createProxyState ref cfg (listens ref) with
    | none =>
      have hfirst := hlistens 0 (Nat.succ_pos _)
      rw [Nat.add_zero, createProxyState_eq_none.1 hcreated] at hfirst
      cases hfirst
    | some =>
      apply ih hnext
      by_cases hid : id = cfg.id
      · left
        rw [hid, update_self]
        rfl
      · rw [update_of_ne hid]
        rw [map_cons, mem_cons] at h
        rcases h with h | h | h
        · exact .inl h
        · exact absurd h hid
        · exact .inr h

theorem sound_createProjectState {cfgs : List ProxyConfig} (hids : (cfgs.map ProxyConfig.id).Nodup)
    (hlistens : ∀ k < cfgs.length, listens k) : (r.createProjectState cfgs listens).Sound := by
  have hconfigured : (r.createProjectState cfgs listens).configured = cfgs := by
    apply List.ext_getElem
    · simp [Project.configured, Registry.createProjectState]
    · intro k hk hk'
      simp [Project.configured, Registry.createProjectState, List.getElem?_eq_getElem hk']
  refine ⟨linked_createProjectState cfgs, ?_, ?_, ?_, ?_, hconfigured.symm⟩
  · intro id ps hproxy
    obtain ⟨k, cfg, -, -, hcreated⟩ := createProjectState_proxies hproxy
    exact (fresh_createProxyState hcreated).formed
  · intro id ps hproxy
    obtain ⟨k, cfg, -, -, hcreated⟩ := createProjectState_proxies hproxy
    exact (fresh_createProxyState hcreated).running
  · intro ref hmem
    have hlt : ref < cfgs.length := List.mem_range.1 hmem
    apply isSome_loadLoop
    · intro k hk
      rw [Nat.zero_add]
      exact hlistens k hk
    · right
      refine mem_map_of_mem ?_
      change cfgs.getD ref _ ∈ cfgs
      rw [List.getD_eq_getElem?_getD, List.getElem?_eq_getElem hlt, getD_some]
      exact List.getElem_mem hlt
  · rw [hconfigured]
    exact hids

end

/-! ## A call -/

theorem view_undone (h : ps.Formed) (server : Server) (grown : Nat) :
    (ps.undone server grown).view = ps.view := by
  have hnodes : (ps.undone server grown).nodes = ps.nodes := by
    rw [Proxy.nodes, Proxy.undone_serving h]
    apply List.filterMap_congr
    intro n hn
    have hlt := h.made n hn
    change ((ps.servers ++ [server]).modify ps.servers.length Server.close)[n]? = ps.servers[n]?
    rw [List.getElem?_modify_ne _ _ (Nat.ne_of_gt hlt), List.getElem?_append_left hlt]
  unfold Proxy.view
  rw [hnodes]
  rfl

section
variable {r : Registry} {p : Project}

/-- A proxy goes on with other servers, and the backends of its configuration
have changed. -/
theorem Project.Sound.withServers (h : p.Sound) (hproxy : p.proxies id = some ps)
    (hformed : ps'.Formed) (hstopped : ps'.stopped = ps.stopped) (hconfig : ps'.config = ps.config)
    {q : Project} (hproxies : q.proxies = update p.proxies id (some ps'))
    (hlist : q.config = p.config) (hids : ∀ ref, (q.configs ref).id = (p.configs ref).id)
    (hnext : q.nextConfig = p.nextConfig) : (q.save true).1.Sound :=
  (h.setProxy hproxy hformed hstopped hconfig).congr hproxies hlist hids hnext rfl

/-- **One call.**  Where nothing fails under it, a project that is whole stays
whole; and so it does where the call is refused or taken back. -/
theorem call_all_or_nothing {c : Call} (h : p.Sound) (hc : GoesThrough p c) :
    (p.call r c).1.Sound ∧ ((p.call r c).2.isOk = false → p.Unchanged (p.call r c).1) := by
  have hcalled := called r p c
  generalize p.call r c = result at hcalled
  cases hcalled with
  | refused => exact ⟨h, fun _ => .rfl⟩
  | @backendAdded id _ _ env ps server hproxy =>
    refine ⟨?_, fun hfail => by cases hfail⟩
    exact h.withServers hproxy ((h.formed id ps hproxy).addServer server env.grown) rfl rfl rfl rfl
      (Project.setBackends_id _ _ _) rfl
  | @backendUndone id _ env ps server hproxy =>
    have hformed := h.formed id ps hproxy
    refine ⟨h.setProxy hproxy (hformed.undone server env.grown) rfl rfl, fun _ => ⟨?_, rfl, rfl⟩⟩
    intro id'
    change (update p.proxies id (some (ps.undone server env.grown)) id').map Proxy.view =
      (p.proxies id').map Proxy.view
    by_cases hid : id' = id
    · rw [hid, update_self, hproxy, map_some, map_some, view_undone hformed]
    · rw [update_of_ne hid]
  | @backendRemoved id _ _ ps idx n hproxy hindex hn =>
    rcases hc ps hproxy with hnone | ⟨hupsert, -⟩
    · rw [hindex] at hnone
      cases hnone
    · rw [hupsert]
      refine ⟨?_, fun hfail => by cases hfail⟩
      have hlt : idx < ps.serving.length := (List.getElem?_eq_some_iff.1 hn).1
      have hformed := ((h.formed id ps hproxy).setServer n Server.close).removeServer hlt
      refine h.withServers hproxy hformed rfl rfl ?_ (forgetBackend_config _ _ _)
        (Project.forgetBackend_id _ _ _) (forgetBackend_nextConfig _ _ _)
      rw [Project.setProxy, forgetBackend_proxies]
  | @removalCrashed _ _ _ ps _ _ hproxy hindex hfound hmanagers hconnected hnil =>
    rcases hc ps hproxy with hnone | ⟨-, hstops⟩
    · rw [hindex] at hnone
      cases hnone
    · rw [Project.stopsUnknown, hfound, any_some, hmanagers, hconnected, hnil] at hstops
      cases hstops
  | @backendUpdated id _ req _ ps _ n hproxy hindex =>
    rcases hc ps hproxy with hnone | rfl
    · rw [hindex] at hnone
      cases hnone
    · refine ⟨?_, fun hfail => by cases hfail⟩
      have hformed := (h.formed id ps hproxy).setServer n (·.setWeight req.weight)
      exact h.withServers hproxy hformed rfl rfl (replaceBackend_proxies _ _ _ _)
        (replaceBackend_config _ _ _ _) (Project.replaceBackend_id _ _ _ _)
        (replaceBackend_nextConfig _ _ _ _)
  | @proxyAdded _ _ _ hcreated =>
    refine ⟨?_, fun hfail => by cases hfail⟩
    have hfresh := fresh_createProxyState hcreated
    rcases hc with hlistens | ⟨-, hfree⟩
    · rw [createProxyState_eq_none.2 hlistens] at hcreated
      cases hcreated
    · exact h.withProxy (isNone_iff_eq_none.1 hfree) hfresh.formed hfresh.running hfresh.config
  | @proxyForgotten _ _ _ hcreated hupsert =>
    rcases hc with hlistens | ⟨hupsert', -⟩
    · rw [createProxyState_eq_none.2 hlistens] at hcreated
      cases hcreated
    · rw [hupsert] at hupsert'
      cases hupsert'
  | @proxyRemoved _ _ _ hproxy =>
    rcases hc with hnone | rfl
    · rw [hproxy] at hnone
      cases hnone
    · exact ⟨h.forgetProxy hproxy, fun hfail => by cases hfail⟩
  | @proxyStopped _ _ ps hproxy hmoved hlistens =>
    obtain ⟨-, hsame | hlistens'⟩ := hc ps hproxy
    · exact absurd hsame hmoved
    · rw [hlistens] at hlistens'
      cases hlistens'
  | @proxyUpdated _ _ ps _ hproxy hreplaced =>
    obtain ⟨hupsert, -⟩ := hc ps hproxy
    rw [hupsert]
    refine ⟨?_, fun hfail => by cases hfail⟩
    rcases hreplaced with ⟨-, hcreated⟩ | ⟨-, rfl⟩
    · have hfresh := fresh_createProxyState hcreated
      exact h.replaceProxy hproxy hfresh.formed hfresh.running hfresh.config
    · have hformed := h.formed _ ps hproxy
      exact h.replaceProxy hproxy ⟨hformed.backends, hformed.once, hformed.made⟩
        (h.listening _ ps hproxy) rfl

end

/-- **Management is all or nothing where nothing fails behind a change.**  It
starts from a project whose proxies all came up. -/
theorem management_all_or_nothing {r : Registry} {cfgs : List ProxyConfig} {listens : Nat → Bool}
    (hids : (cfgs.map ProxyConfig.id).Nodup) (hlistens : ∀ k < cfgs.length, listens k = true)
    {calls : List Call}
    (hcalls : Along (Project.step r) GoesThrough (r.createProjectState cfgs listens) calls) :
    Along (Project.step r) (AllOrNothing r) (r.createProjectState cfgs listens) calls := by
  refine Along.of_invariant ?_ ?_ (sound_createProjectState hids hlistens) hcalls
  · intro p c h hc
    obtain ⟨hsound, hfailed⟩ := call_all_or_nothing (r := r) h hc
    exact ⟨fun hnot => hfailed (not_eq_true _ ▸ hnot), fun _ => hsound.idsAgree⟩
  · rintro p c q h hc ⟨⟩
    exact (call_all_or_nothing h hc).1

theorem whole_day_all_or_nothing :
    Along (Project.step plain) (AllOrNothing plain)
      (plain.createProjectState [threeBackends] fun _ => true)
      [.addProxy ⟨ascii "second", ascii ":6433", [backendAt "db9"], [], 5⟩ ⟨[], true, true⟩,
        .addBackend (ascii "second") (backendAt "db8") ⟨⟨true, none, none⟩, 4, false⟩,
        .updateProxy ⟨ascii "second", ascii ":6434", [backendAt "db9"], [], 5⟩ ⟨[], true, true⟩,
        removes "db2", .removeProxy (ascii "second") true] :=
  management_all_or_nothing (by decide) (fun _ _ => rfl) (by decide +kernel)

theorem refused_proxy_is_stored :
    ∃ p q, p = plain.createProjectState [threeBackends] (fun _ => true) ∧
      run (Project.step plain) p
        [.addProxy ⟨ascii "second", ascii ":6433", [], [], 5⟩ ⟨[], true, false⟩, removes "db2"] =
          some q ∧
      ¬Succeeds plain p (.addProxy ⟨ascii "second", ascii ":6433", [], [], 5⟩ ⟨[], true, false⟩) ∧
      (q.stored.map ProxyConfig.id) = [ascii "main", ascii "second"] ∧
      (q.proxies (ascii "second")).isNone = true ∧
      ¬Along (Project.step plain) (AllOrNothing plain) p
        [.addProxy ⟨ascii "second", ascii ":6433", [], [], 5⟩ ⟨[], true, false⟩,
          removes "db2"] := by
  refine ⟨_, _, rfl, rfl, by decide +kernel, by decide +kernel, by decide +kernel, ?_⟩
  rintro ⟨hfirst, -⟩
  have hsame := (hfirst.failed (by decide +kernel)).configured
  have hlength := congrArg List.length hsame
  revert hlength
  decide +kernel

end Pontus.Management
