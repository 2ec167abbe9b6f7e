import Pontus.Management.Proofs.ServingSet

/-!
# Proxies and their configuration

Whatever fails, a proxy that is there has a configuration of its own id in the
project's list.
-/

namespace Pontus.Management

open Lib Pool

variable {p : Project}

variable {id : Bytes} {ps : Proxy}

structure Project.Linked (p : Project) : Prop where
  linked : ∀ id ps, p.proxies id = some ps → ps.config ∈ p.config ∧ (p.configs ps.config).id = id
  made : ∀ ref ∈ p.config, ref < p.nextConfig

namespace Project

variable {p q : Project}

theorem forall_setProxy {P : Bytes → Proxy → Prop} (hnew : P id ps)
    (hold : ∀ id₁ ps₁, id₁ ≠ id → p.proxies id₁ = some ps₁ → P id₁ ps₁) (id₁ : Bytes) (ps₁ : Proxy)
    (hproxy : (p.setProxy id (some ps)).proxies id₁ = some ps₁) : P id₁ ps₁ := by
  change Function.update p.proxies id (some ps) id₁ = some ps₁ at hproxy
  by_cases hid : id₁ = id
  · subst hid
    rw [update_self, some_inj] at hproxy
    exact hproxy ▸ hnew
  · rw [update_of_ne hid] at hproxy
    exact hold id₁ ps₁ hid hproxy

theorem of_setProxy_none (hproxy : (p.setProxy id none).proxies id₁ = some ps₁) :
    id₁ ≠ id ∧ p.proxies id₁ = some ps₁ := by
  change Function.update p.proxies id none id₁ = some ps₁ at hproxy
  rw [Function.update_apply] at hproxy
  split at hproxy
  · cases hproxy
  · exact ⟨‹_›, hproxy⟩

theorem setProxy_none_some (p : Project) (id : Bytes) (ps : Option Proxy) :
    (p.setProxy id none).setProxy id ps = p.setProxy id ps := by
  unfold Project.setProxy
  rw [Function.update_idem]

@[simp] theorem setBackends_id (p : Project) (ref : Nat) (backends : List BackendConfig)
    (ref' : Nat) : ((p.setBackends ref backends).configs ref').id = (p.configs ref').id := by
  by_cases href : ref' = ref
  · subst href
    simp [setBackends, setConfig]
  · simp [setBackends, setConfig, href]

@[simp] theorem forgetBackend_id (p : Project) (ref : Nat) (address : Bytes) (ref' : Nat) :
    ((p.forgetBackend ref address).configs ref').id = (p.configs ref').id := by
  unfold forgetBackend
  split
  · rfl
  · exact setBackends_id _ _ _ _

@[simp] theorem replaceBackend_id (p : Project) (ref : Nat) (address : Bytes) (req : BackendConfig)
    (ref' : Nat) : ((p.replaceBackend ref address req).configs ref').id = (p.configs ref').id := by
  unfold replaceBackend
  split
  · rfl
  · exact setBackends_id _ _ _ _

theorem Linked.congr (h : p.Linked) (hproxies : q.proxies = p.proxies)
    (hconfig : q.config = p.config) (hids : ∀ ref, (q.configs ref).id = (p.configs ref).id)
    (hnext : q.nextConfig = p.nextConfig) : q.Linked where
  linked id ps hproxy := by
    rw [hconfig, hids]
    exact h.linked id ps (hproxies ▸ hproxy)
  made ref hmem := by
    rw [hnext]
    exact h.made ref (hconfig ▸ hmem)

theorem Linked.setProxy (h : p.Linked) (hmem : ps.config ∈ p.config)
    (hid : (p.configs ps.config).id = id) : (p.setProxy id (some ps)).Linked where
  linked := forall_setProxy ⟨hmem, hid⟩ fun id₁ ps₁ _ => h.linked id₁ ps₁
  made := h.made

theorem Linked.setProxy_none (h : p.Linked) (id : Bytes) : (p.setProxy id none).Linked where
  linked id₁ ps₁ hproxy := h.linked id₁ ps₁ (of_setProxy_none hproxy).2
  made := h.made

theorem Linked.goesOn (h : p.Linked) (hproxy : p.proxies id = some ps)
    (hconfig : ps'.config = ps.config) : (p.setProxy id (some ps')).Linked := by
  apply h.setProxy
  · rw [hconfig]
    exact (h.linked id ps hproxy).1
  · rw [hconfig]
    exact (h.linked id ps hproxy).2

theorem Linked.newConfig_of_mem (h : p.Linked) (cfg : ProxyConfig) (hmem : ref ∈ p.config) :
    (p.newConfig cfg).configs ref = p.configs ref :=
  update_of_ne (Nat.ne_of_lt (h.made ref hmem)) _ _

@[simp] theorem newConfig_self (p : Project) (cfg : ProxyConfig) :
    (p.newConfig cfg).configs p.nextConfig = cfg :=
  update_self _ _ _

theorem Linked.newConfig (h : p.Linked) (cfg : ProxyConfig) : (p.newConfig cfg).Linked where
  linked id ps hproxy := by
    obtain ⟨hmem, hid⟩ := h.linked id ps hproxy
    rw [h.newConfig_of_mem cfg hmem]
    exact ⟨hmem, hid⟩
  made ref hmem := Nat.lt_succ_of_lt (h.made ref hmem)

theorem Linked.setList (h : p.Linked) {config : List Nat}
    (hlinked : ∀ id ps, p.proxies id = some ps → ps.config ∈ config)
    (hmade : ∀ ref ∈ config, ref ∈ p.config ∨ ref < p.nextConfig) :
    ({ p with config := config } : Project).Linked where
  linked id ps hproxy := ⟨hlinked id ps hproxy, (h.linked id ps hproxy).2⟩
  made ref hmem := (hmade ref hmem).elim (h.made ref) id

theorem Linked.withProxy (h : p.Linked) (cfg : ProxyConfig) (hconfig : ps.config = p.nextConfig) :
    (p.withProxy cfg ps).Linked := by
  have hlist : ({ p.newConfig cfg with config := p.config ++ [p.nextConfig] } :
      Project).Linked := by
    refine (h.newConfig cfg).setList ?_ ?_
    · intro id ps hproxy
      exact mem_append_left _ ((h.newConfig cfg).linked id ps hproxy).1
    · intro ref hmem
      rcases mem_append.1 hmem with hmem | hmem
      · exact .inl hmem
      · exact .inr (by rw [mem_singleton.1 hmem]; exact Nat.lt_succ_self _)
  apply hlist.setProxy
  · rw [hconfig]
    exact mem_append_right _ (List.mem_singleton_self _)
  · rw [hconfig]
    exact congrArg ProxyConfig.id (newConfig_self p cfg)

theorem configIndex_eq_some (h : p.configIndex id = some i) :
    ∃ ref, p.config[i]? = some ref ∧ (p.configs ref).id = id := by
  obtain ⟨hlt, hi, -⟩ := List.findIdx?_eq_some_iff_getElem.1 h
  exact ⟨p.config[i], List.getElem?_eq_getElem hlt, eq_of_beq hi⟩

theorem Linked.exists_configIndex (h : p.Linked) (hproxy : p.proxies id = some ps) :
    ∃ i, p.configIndex id = some i := by
  obtain ⟨hmem, hid⟩ := h.linked id ps hproxy
  rw [← isSome_iff_exists, Project.configIndex, List.findIdx?_isSome, any_eq_true]
  exact ⟨ps.config, hmem, beq_iff_eq.2 hid⟩

theorem Linked.getElem?_ne (h : p.Linked) (hi : p.configIndex id = some i)
    (hproxy : p.proxies id' = some ps) (hj : p.config[j]? = some ps.config) (hne : id' ≠ id) :
    i ≠ j := by
  rintro rfl
  obtain ⟨ref, href, hid⟩ := configIndex_eq_some hi
  rw [hj, some_inj] at href
  rw [← href, (h.linked id' ps hproxy).2] at hid
  exact hne hid

theorem Linked.forgetProxy (h : p.Linked) (id : Bytes) :
    ((p.setProxy id none).forgetProxy id).Linked := by
  unfold Project.forgetProxy
  split
  · exact h.setProxy_none id
  rename_i i hindex
  refine (h.setProxy_none id).setList ?_ fun ref hmem => .inl (List.eraseIdx_subset hmem)
  intro id₁ ps₁ hproxy
  obtain ⟨hne, hproxy⟩ := of_setProxy_none hproxy
  obtain ⟨j, hj⟩ := List.mem_iff_getElem?.1 (h.linked id₁ ps₁ hproxy).1
  exact List.mem_eraseIdx_iff_getElem?.2 ⟨j, (h.getElem?_ne hindex hproxy hj hne).symm, hj⟩

theorem replaceProxy_newConfig {cfg : ProxyConfig} (ps : Proxy)
    (h : (p.newConfig cfg).configIndex cfg.id = some i) :
    ((p.newConfig cfg).setProxy cfg.id (some ps)).replaceProxy cfg.id p.nextConfig =
      { (p.newConfig cfg).setProxy cfg.id (some ps) with
        config := p.config.set i p.nextConfig } := by
  have hindex : ((p.newConfig cfg).setProxy cfg.id (some ps)).configIndex cfg.id = some i := h
  rw [Project.replaceProxy, hindex]
  rfl

theorem Linked.replaceProxy (h : p.Linked) (hproxy : p.proxies cfg.id = some ps)
    (hconfig : ps'.config = p.nextConfig) :
    (((p.newConfig cfg).setProxy cfg.id (some ps')).replaceProxy cfg.id p.nextConfig).Linked := by
  have hnew := h.newConfig cfg
  obtain ⟨i, hindex⟩ : ∃ i, (p.newConfig cfg).configIndex cfg.id = some i :=
    hnew.exists_configIndex hproxy
  have hi : i < p.config.length := by
    obtain ⟨ref, href, -⟩ := configIndex_eq_some hindex
    exact (List.getElem?_eq_some_iff.1 href).1
  -- the old proxy goes first, then its place in the list
  have hlist : ({ (p.newConfig cfg).setProxy cfg.id none with
      config := p.config.set i p.nextConfig } : Project).Linked := by
    refine (hnew.setProxy_none cfg.id).setList ?_ ?_
    · intro id₁ ps₁ hproxy₁
      obtain ⟨hne, hproxy₁⟩ := of_setProxy_none hproxy₁
      obtain ⟨j, hj⟩ := List.mem_iff_getElem?.1 (hnew.linked id₁ ps₁ hproxy₁).1
      refine List.mem_iff_getElem?.2 ⟨j, ?_⟩
      rw [List.getElem?_set_ne (hnew.getElem?_ne hindex hproxy₁ hj hne)]
      exact hj
    · intro ref hmem
      rcases List.mem_or_eq_of_mem_set hmem with hmem | rfl
      · exact .inl hmem
      · exact .inr (Nat.lt_succ_self _)
  have hmem : ps'.config ∈ p.config.set i p.nextConfig := by
    rw [hconfig]
    exact List.mem_set hi _
  have hid : ((p.newConfig cfg).configs ps'.config).id = cfg.id := by rw [hconfig, newConfig_self]
  rw [replaceProxy_newConfig ps' hindex, ← setProxy_none_some]
  exact hlist.setProxy hmem hid

end Project

section
variable {r : Registry} {listens : Nat → Bool}

theorem loadLoop_eq_some (h : r.loadLoop listens ref cfgs proxies id = some ps) :
    proxies id = some ps ∨ ∃ k cfg, cfgs[k]? = some cfg ∧ cfg.id = id ∧
      r.createProxyState (ref + k) cfg (listens (ref + k)) = some ps := by
  induction cfgs generalizing ref proxies with
  | nil => exact .inl h
  | cons cfg cfgs ih =>
    have hbehind : ∀ {proxies}, r.loadLoop listens (ref + 1) cfgs proxies id = some ps →
        proxies id = some ps ∨ ∃ k cfg', (cfg :: cfgs)[k]? = some cfg' ∧ cfg'.id = id ∧
          r.createProxyState (ref + k) cfg' (listens (ref + k)) = some ps := by
      intro proxies h
      rcases ih h with hfirst | ⟨k, cfg', hk, hid, hcreated⟩
      · exact .inl hfirst
      · refine .inr ⟨k + 1, cfg', hk, hid, ?_⟩
        rw [← Nat.add_assoc, Nat.add_right_comm]
        exact hcreated
    rw [Registry.loadLoop] at h
    cases hcreated : r.createProxyState ref cfg (listens ref) with
    | none =>
      rw [hcreated] at h
      exact hbehind h
    | some =>
      rw [hcreated] at h
      rcases hbehind h with hfirst | hlater
      · rw [Function.update_apply] at hfirst
        split at hfirst
        · rename_i hid
          exact .inr ⟨0, cfg, rfl, hid.symm, hfirst ▸ hcreated⟩
        · exact .inl hfirst
      · exact .inr hlater

theorem createProjectState_proxies (h : (r.createProjectState cfgs listens).proxies id = some ps) :
    ∃ k cfg, cfgs[k]? = some cfg ∧ cfg.id = id ∧
      r.createProxyState k cfg (listens k) = some ps := by
  rcases loadLoop_eq_some h with hnone | ⟨k, cfg, hk, hid, hcreated⟩
  · cases hnone
  · rw [Nat.zero_add] at hcreated
    exact ⟨k, cfg, hk, hid, hcreated⟩

theorem linked_createProjectState (cfgs : List ProxyConfig) :
    (r.createProjectState cfgs listens).Linked where
  linked id ps hproxy := by
    obtain ⟨k, cfg, hk, hid, hcreated⟩ := createProjectState_proxies hproxy
    rw [(fresh_createProxyState hcreated).config]
    refine ⟨List.mem_range.2 (List.getElem?_eq_some_iff.1 hk).1, ?_⟩
    change (cfgs.getD k _).id = id
    rw [List.getD_eq_getElem?_getD, hk, getD_some, hid]
  made ref hmem := List.mem_range.1 hmem

end

@[simp] theorem Proxy.stop_config (ps : Proxy) : ps.stop.config = ps.config := by
  have hloop : ∀ (ns : List Nat) (ps : Proxy),
      (ns.foldl (fun ps n => ps.setServer n Server.close) ps).config = ps.config := by
    intro ns
    induction ns with
    | nil => exact fun _ => rfl
    | cons n _ ih => exact fun ps => ih (ps.setServer n Server.close)
  exact hloop ps.serving { ps with stopped := true }

theorem Project.Linked.save (h : p.Linked) (upsert : Bool) : (p.save upsert).1.Linked := by
  cases upsert
  · exact h
  · exact h.congr rfl rfl (fun _ => rfl) rfl

@[simp] theorem forgetBackend_config (p : Project) (ref : Nat) (address : Bytes) :
    (p.forgetBackend ref address).config = p.config := by
  unfold Project.forgetBackend
  split <;> rfl

@[simp] theorem forgetBackend_nextConfig (p : Project) (ref : Nat) (address : Bytes) :
    (p.forgetBackend ref address).nextConfig = p.nextConfig := by
  unfold Project.forgetBackend
  split <;> rfl

section
variable (p : Project) (ref : Nat) (address : Bytes) (req : BackendConfig)

@[simp] theorem replaceBackend_proxies :
    (p.replaceBackend ref address req).proxies = p.proxies := by
  unfold Project.replaceBackend
  split <;> rfl

@[simp] theorem replaceBackend_config : (p.replaceBackend ref address req).config = p.config := by
  unfold Project.replaceBackend
  split <;> rfl

@[simp] theorem replaceBackend_nextConfig :
    (p.replaceBackend ref address req).nextConfig = p.nextConfig := by
  unfold Project.replaceBackend
  split <;> rfl

end

theorem Project.Linked.forgetBackend (h : p.Linked) (ref : Nat) (address : Bytes) :
    (p.forgetBackend ref address).Linked :=
  h.congr (forgetBackend_proxies p ref address) (forgetBackend_config p ref address)
    (Project.forgetBackend_id p ref address) (forgetBackend_nextConfig p ref address)

theorem Project.Linked.replaceBackend (h : p.Linked) (ref : Nat) (address : Bytes)
    (req : BackendConfig) : (p.replaceBackend ref address req).Linked :=
  h.congr (replaceBackend_proxies p ref address req) (replaceBackend_config p ref address req)
    (Project.replaceBackend_id p ref address req) (replaceBackend_nextConfig p ref address req)

/-- **Every call keeps the proxies linked**, whatever fails under it. -/
theorem linked_call (c : Call) (h : p.Linked) : (p.call r c).1.Linked := by
  have hcalled := called r p c
  generalize p.call r c = result at hcalled
  cases hcalled with
  | refused => exact h
  | @backendAdded id _ cfg env ps server hproxy =>
    have hadded : (p.setProxy id (some (ps.addServer server env.grown))).Linked :=
      h.goesOn hproxy rfl
    have hconfigured : (p.withBackend id ps cfg server env.grown).Linked :=
      hadded.congr rfl rfl (Project.setBackends_id _ _ _) rfl
    exact hconfigured.save true
  | backendUndone hproxy => exact h.goesOn hproxy rfl
  | @backendRemoved id address env ps idx n hproxy =>
    have hproxy' : (p.forgetBackend ps.config address).proxies id = some ps := by
      rw [forgetBackend_proxies]
      exact hproxy
    have hremoved : ((p.forgetBackend ps.config address).setProxy id
        (some ((ps.setServer n Server.close).removeServer idx))).Linked :=
      (h.forgetBackend ps.config address).goesOn hproxy' rfl
    exact hremoved.save env.upsert
  | @removalCrashed _ address _ ps => exact h.forgetBackend ps.config address
  | @backendUpdated id address req upsert ps _ n hproxy =>
    have hweighed : (p.setProxy id (some (ps.setServer n (·.setWeight req.weight)))).Linked :=
      h.goesOn hproxy rfl
    exact (hweighed.replaceBackend ps.config address req).save upsert
  | @proxyAdded _ _ _ hcreated =>
    exact (h.withProxy _ (fresh_createProxyState hcreated).config).save true
  | @proxyForgotten _ _ _ hcreated =>
    exact (h.withProxy _ (fresh_createProxyState hcreated).config).setProxy_none _
  | @proxyRemoved id upsert => exact (h.forgetProxy id).save upsert
  | @proxyStopped _ _ ps hproxy => exact h.goesOn hproxy ps.stop_config
  | @proxyUpdated _ env _ _ hproxy hreplaced =>
    refine (h.replaceProxy hproxy ?_).save env.upsert
    rcases hreplaced with ⟨-, hcreated⟩ | ⟨-, rfl⟩
    · exact (fresh_createProxyState hcreated).config
    · rfl

def Project.Reachable (r : Registry) (p : Project) : Prop :=
  ∃ cfgs listens calls, run (Project.step r) (r.createProjectState cfgs listens) calls = some p

theorem Project.Reachable.linked (h : p.Reachable r) : p.Linked := by
  obtain ⟨cfgs, listens, calls, hrun⟩ := h
  have hstep : ∀ q c q', Project.Linked q → True → Project.step r q c = some q' → q'.Linked := by
    rintro q c q' hq - ⟨⟩
    exact linked_call c hq
  exact run_invariant hstep (linked_createProjectState cfgs) (along_of_forall fun _ _ => trivial)
    hrun

/-- **A proxy has a configuration of its own**, whatever calls were made and
whatever failed under them. -/
theorem proxies_have_own_configs (h : p.Reachable r) (hproxy : p.proxies id = some ps) :
    ps.config ∈ p.config ∧ (p.configs ps.config).id = id ∧
      ∀ id' ps', p.proxies id' = some ps' → ps'.config = ps.config → id' = id := by
  obtain ⟨hmem, hown⟩ := h.linked.linked id ps hproxy
  refine ⟨hmem, hown, fun id' ps' hproxy' hsame => ?_⟩
  rw [← (h.linked.linked id' ps' hproxy').2, hsame, hown]

def twoProxies : List Call :=
  let second : ProxyConfig := ⟨ascii "second", ascii ":6433", [backendAt "db9"], [], 5⟩
  [.addProxy second ⟨[], true, true⟩, addsFourth,
    .addBackend (ascii "main") (backendAt "db5") ⟨⟨true, none, none⟩, 6, false⟩,
    .updateProxy { second with address := ascii ":6434" } ⟨[], false, true⟩, removes "db2"]

/-- A second proxy is made; a backend is added that the store does not take, and
an address is changed to one nobody can listen on. -/
theorem second_proxy_has_own_config : ∃ (p : Project) (main second : Proxy),
    p.Reachable plain ∧ p.proxies (ascii "main") = some main ∧
      p.proxies (ascii "second") = some second ∧ main.config ∈ p.config ∧
      second.config ∈ p.config ∧ main.config ≠ second.config := by
  obtain ⟨p, hrun, hp⟩ := exists_run (show (run (Project.step plain)
    (plain.createProjectState [threeBackends] fun _ => true) twoProxies).any (fun p =>
      (p.proxies (ascii "main")).isSome && (p.proxies (ascii "second")).isSome) = true by
        decide +kernel)
  rw [and_eq_true] at hp
  obtain ⟨main, hmain⟩ := isSome_iff_exists.1 hp.1
  obtain ⟨second, hsecond⟩ := isSome_iff_exists.1 hp.2
  have hreachable : p.Reachable plain := ⟨[threeBackends], fun _ => true, twoProxies, hrun⟩
  obtain ⟨hmem, -, hown⟩ := proxies_have_own_configs hreachable hmain
  refine ⟨p, main, second, hreachable, hmain, hsecond, hmem,
    (proxies_have_own_configs hreachable hsecond).1, ?_⟩
  intro hsame
  exact absurd (hown _ _ hsecond hsame.symm) (by decide)

end Pontus.Management
