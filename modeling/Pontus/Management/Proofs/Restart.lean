import Pontus.Management.Proofs.Linked

/-!
# A backend added at run time, and after a restart

`AddBackend` and `CreateProxyState` make servers in two ways.  The first sets no
peer address, no data directory and no database limits, and an update reaches
only the weight of a server that runs while all of its configuration is stored.
-/

namespace Pontus.Management

open Lib Pool
open Function (update)

variable {u : Update} {ps : Proxy} {p : Project}

structure SameServer (s t : Server) : Prop where
  address : s.address = t.address
  agentAddr : s.agentAddr = t.agentAddr
  role : s.role = t.role
  weight : s.weight = t.weight
  peerAddress : s.peerAddress = t.peerAddress
  dataDir : s.dataDir = t.dataDir
  maxConns : s.maxConns = t.maxConns
  coreConfig : s.coreConfig = t.coreConfig
  limits : ∀ database, s.limitFor database = t.limitFor database

/-- Where a backend is to be found: its proxy, its number there, the place of
the proxy in the project and its own place in the proxy's configuration. -/
structure Site where
  proxy : Bytes
  server : Nat
  place : Nat
  entry : Nat

def Site.next (p : Project) (id : Bytes) (ps : Proxy) : Site :=
  ⟨id, ps.servers.length, p.config.idxOf ps.config, (p.configs ps.config).backends.length⟩

def Project.running (p : Project) (w : Site) : Option Server :=
  (p.proxies w.proxy).bind (·.server w.server)

def Site.configIn (w : Site) (cfgs : List ProxyConfig) : Option BackendConfig :=
  cfgs[w.place]?.bind (·.backends[w.entry]?)

def Site.maxConnsIn (w : Site) (cfgs : List ProxyConfig) : Option Int :=
  cfgs[w.place]?.map ProxyConfig.maxConns

def RestartsSame (r : Registry) (w : Site) (p : Project) : Prop :=
  ∃ s c maxConns t, p.running w = some s ∧ w.configIn p.stored = some c ∧
    w.maxConnsIn p.stored = some maxConns ∧ r.createBackend maxConns c = some t ∧ SameServer s t

/-! ## One server -/

def BackendConfig.dataDirectory (c : BackendConfig) : Bytes :=
  (c.agentConfig.map AgentDatabaseConfig.dataDirectory).getD []

/-- A configuration from which a server that has only what `AddBackend` gives it
would be built again. -/
structure Rebuilds (r : Registry) (s : Server) (c : BackendConfig) : Prop where
  addresses : c.inferred = (s.address, s.agentAddr)
  role : c.serverRole = s.role
  weight : c.serverWeight = s.weight
  peerAddress : c.peerAddress = [] ∨ c.peerAddress = s.address
  dataDirectory : c.dataDirectory = []
  limits : ∀ database, r.databases.limit database = 0

structure Bare (r : Registry) (s : Server) : Prop where
  agentAddr : s.agentAddr ≠ []
  peerAddr : s.peerAddr = []
  dataDir : s.dataDir = []
  databaseLimits : s.databaseLimits = none
  coreConfig : s.coreConfig = r.withDefaults ⟨s.maxConns, s.maxConns⟩

section
variable {r : Registry} {maxConns : Int} {c : BackendConfig}

theorem createBackend_eq_none (h : c.inferred.2 = []) : r.createBackend maxConns c = none := by
  unfold Registry.createBackend newServer
  dsimp only
  rw [if_pos h]

theorem createBackend_eq_some (r : Registry) (maxConns : Int) (h : c.inferred.2 ≠ []) :
    ∃ t, r.createBackend maxConns c = some t ∧ t.address = c.inferred.1 ∧
      t.agentAddr = c.inferred.2 ∧ t.role = c.serverRole ∧ t.weight = c.serverWeight ∧
      t.peerAddr = c.peerAddress ∧ t.dataDir = c.dataDirectory ∧ t.maxConns = maxConns ∧
      t.coreConfig = r.withDefaults ⟨maxConns, maxConns⟩ ∧
      ∀ database, t.limitFor database = r.databases.limit database := by
  unfold Registry.createBackend newServer BackendConfig.dataDirectory
  dsimp only
  rw [if_neg h]
  refine ⟨_, rfl, ?_⟩
  cases c.agentConfig with
  | none | some agent =>
    split
    · rename_i hnil
      exact ⟨rfl, rfl, rfl, rfl, rfl, rfl, rfl, rfl, fun database => by rw [hnil]; rfl⟩
    · exact ⟨rfl, rfl, rfl, rfl, rfl, rfl, rfl, rfl, fun database => rfl⟩

theorem rebuilds_iff (hbare : Bare r s) :
    (∃ t, r.createBackend s.maxConns c = some t ∧ SameServer s t) ↔ Rebuilds r s c := by
  have hpeer : s.peerAddress = s.address := by rw [Server.peerAddress, if_pos hbare.peerAddr]
  have hlimits : ∀ database, s.limitFor database = 0 := by
    intro database
    rw [Server.limitFor, hbare.databaseLimits]
  by_cases hnil : c.inferred.2 = []
  · constructor
    · rintro ⟨t, ht, -⟩
      rw [createBackend_eq_none hnil] at ht
      cases ht
    · intro h
      rw [h.addresses] at hnil
      exact absurd hnil hbare.agentAddr
  obtain ⟨t, ht, haddress, hagentAddr, hrole, hweight, hpeerAddr, hdataDir, hmax, hcore,
    hlimit⟩ := createBackend_eq_some r s.maxConns hnil
  constructor
  · rintro ⟨t', ht', hsame⟩
    rw [ht, some_inj] at ht'
    subst ht'
    refine ⟨?_, by rw [hsame.role, hrole], by rw [hsame.weight, hweight], ?_, ?_, ?_⟩
    · rw [hsame.address, hsame.agentAddr, haddress, hagentAddr]
    · have hpeers := hsame.peerAddress
      rw [hpeer, Server.peerAddress, hpeerAddr] at hpeers
      split at hpeers
      · exact .inl ‹_›
      · exact .inr hpeers.symm
    · rw [← hdataDir, ← hsame.dataDir, hbare.dataDir]
    · intro database
      rw [← hlimit, ← hsame.limits, hlimits]
  · intro h
    have haddresses := h.addresses
    rw [Prod.ext_iff] at haddresses
    refine ⟨t, ht, ?_⟩
    refine ⟨by rw [haddress, haddresses.1], by rw [hagentAddr, haddresses.2], by rw [hrole, h.role],
      by rw [hweight, h.weight], ?_, by rw [hdataDir, h.dataDirectory, hbare.dataDir],
      hmax.symm, by rw [hcore, hbare.coreConfig], ?_⟩
    · rw [hpeer, Server.peerAddress, hpeerAddr, haddress, haddresses.1]
      rcases h.peerAddress with hpeers | hpeers
      · rw [if_pos hpeers]
      · rw [hpeers]
        split <;> rfl
    · intro database
      rw [hlimits, hlimit, h.limits]

end

/-! ## Updates -/

structure Update where
  proxy : Bytes
  address : Bytes
  config : BackendConfig
  upsert : Bool

def Update.call (u : Update) : Call := .updateBackend u.proxy u.address u.config u.upsert

def Project.find (p : Project) (id address : Bytes) : Option (Proxy × Nat) :=
  (p.proxies id).bind fun ps =>
    (ps.indexOf address).bind fun idx => ps.serving[idx]?.map fun n => (ps, n)

def ProxyConfig.replaced (cfg : ProxyConfig) (address : Bytes) (req : BackendConfig) :
    List BackendConfig :=
  match cfg.indexOf address with
  | none => cfg.backends
  | some i => cfg.backends.set i req

section
variable {r : Registry}

theorem replaceBackend_eq (p : Project) (ref : Nat) (address : Bytes) (req : BackendConfig) :
    p.replaceBackend ref address req =
      p.setBackends ref ((p.configs ref).replaced address req) := by
  unfold Project.replaceBackend ProxyConfig.replaced
  cases (p.configs ref).indexOf address with
  | none =>
    change p = { p with configs := update p.configs ref (p.configs ref) }
    rw [Function.update_eq_self]
  | some => rfl

theorem replaced_getElem? (cfg : ProxyConfig) (address : Bytes) (req : BackendConfig) (m : Nat) :
    (cfg.replaced address req)[m]? =
      if cfg.indexOf address = some m then some req else cfg.backends[m]? := by
  unfold ProxyConfig.replaced
  cases hindex : cfg.indexOf address with
  | none => rfl
  | some i =>
    have hlt : i < cfg.backends.length := (List.findIdx?_eq_some_iff_getElem.1 hindex).1
    simp only [List.getElem?_set, some_inj]
    rw [if_pos hlt]

theorem updateBackend_of_none (h : p.find u.proxy u.address = none) : (p.call r u.call).1 = p := by
  change (p.updateBackend u.proxy u.address u.config u.upsert).1 = p
  unfold Project.updateBackend
  unfold Project.find at h
  split
  · rfl
  rename_i ps hproxy
  rw [hproxy, bind_some] at h
  split
  · rfl
  rename_i idx hindex
  obtain ⟨n, hn⟩ := indexOf_serving hindex
  rw [hindex, bind_some, hn] at h
  cases h

/-- The project behind an update that found its backend, before it is saved. -/
def Update.applied (u : Update) (p : Project) (ps : Proxy) (n : Nat) : Project :=
  (p.setProxy u.proxy (some (ps.setServer n (·.setWeight u.config.weight)))).setBackends ps.config
    ((p.configs ps.config).replaced u.address u.config)

theorem Update.linked_applied (h : p.Linked) (hproxy : p.proxies u.proxy = some ps) (n : Nat) :
    (u.applied p ps n).Linked := by
  have hlinked : (p.setProxy u.proxy (some
      (ps.setServer n (·.setWeight u.config.weight)))).Linked :=
    h.goesOn hproxy rfl
  exact hlinked.congr rfl rfl (Project.setBackends_id _ _ _) rfl

theorem updateBackend_of_some (h : p.find u.proxy u.address = some (ps, n)) :
    p.proxies u.proxy = some ps ∧
      (p.call r u.call).1 = ((u.applied p ps n).save u.upsert).1 := by
  obtain ⟨ps', hproxy, h⟩ := bind_eq_some_iff.1 h
  obtain ⟨idx, hindex, h⟩ := bind_eq_some_iff.1 h
  obtain ⟨n', hn, hpair⟩ := map_eq_some_iff.1 h
  cases hpair
  refine ⟨hproxy, ?_⟩
  change (p.updateBackend u.proxy u.address u.config u.upsert).1 = _
  unfold Project.updateBackend
  rw [hproxy]
  dsimp only
  rw [hindex]
  dsimp only
  rw [hn, replaceBackend_eq]
  rfl

end

namespace Update

variable (u : Update) (w : Site) (p : Project)

def FindsServer : Prop :=
  u.proxy = w.proxy ∧ (p.find u.proxy u.address).map Prod.snd = some w.server

def FindsConfig : Prop :=
  u.proxy = w.proxy ∧ ((p.find u.proxy u.address).bind fun (ps, _) =>
    (p.configs ps.config).indexOf u.address) = some w.entry

instance : Decidable (u.FindsServer w p) := inferInstanceAs (Decidable (_ ∧ _))

instance : Decidable (u.FindsConfig w p) := inferInstanceAs (Decidable (_ ∧ _))

def stores : Bool := (p.find u.proxy u.address).isSome && u.upsert

def serverAfter (s : Server) : Server :=
  if u.FindsServer w p then s.setWeight u.config.weight else s

def configAfter (c : BackendConfig) : BackendConfig := if u.FindsConfig w p then u.config else c

def storedAfter (c d : BackendConfig) : BackendConfig :=
  if u.stores p then u.configAfter w p c else d

def Keeps (r : Registry) (w : Site) (p : Project) (u : Update) : Prop :=
  ∃ s c d, p.running w = some s ∧ w.configIn p.configured = some c ∧ w.configIn p.stored = some d ∧
    Rebuilds r (u.serverAfter w p s) (u.storedAfter w p c d)

end Update

structure Placed (r : Registry) (w : Site) (p : Project) (s : Server) (c d : BackendConfig) :
    Prop where
  linked : p.Linked
  proxy : ∃ ps, p.proxies w.proxy = some ps ∧ p.config[w.place]? = some ps.config ∧
    ps.server w.server = some s
  bare : Bare r s
  config : w.configIn p.configured = some c
  maxConns : w.maxConnsIn p.configured = some s.maxConns
  stored : w.configIn p.stored = some d
  storedMaxConns : w.maxConnsIn p.stored = some s.maxConns

section
variable {r : Registry} {w : Site} {p : Project} {s : Server} {c d : BackendConfig}

theorem Placed.running (h : Placed r w p s c d) : p.running w = some s := by
  obtain ⟨ps, hproxy, -, hserver⟩ := h.proxy
  rw [Project.running, hproxy, bind_some, hserver]

theorem Placed.restartsSame_iff (h : Placed r w p s c d) : RestartsSame r w p ↔ Rebuilds r s d := by
  rw [← rebuilds_iff h.bare]
  constructor
  · rintro ⟨s', d', maxConns, t, hs, hd, hmax, ht, hsame⟩
    rw [h.running, some_inj] at hs
    rw [h.stored, some_inj] at hd
    rw [h.storedMaxConns, some_inj] at hmax
    subst hs hd hmax
    exact ⟨t, ht, hsame⟩
  · rintro ⟨t, ht, hsame⟩
    exact ⟨s, d, s.maxConns, t, h.running, h.stored, h.storedMaxConns, ht, hsame⟩

theorem Bare.setWeight (h : Bare r s) (weight : Int) : Bare r (s.setWeight weight) :=
  ⟨h.1, h.2, h.3, h.4, h.5⟩

theorem Placed.save (h : Placed r w p s c d) (upsert : Bool) :
    Placed r w (p.save upsert).1 s c (if upsert then c else d) := by
  cases upsert
  · exact h
  · exact ⟨h.linked.save true, h.proxy, h.bare, h.config, h.maxConns, h.config, h.maxConns⟩

theorem configIn_map (configs : Nat → ProxyConfig) {config : List Nat}
    (h : config[w.place]? = some ref) :
    w.configIn (config.map configs) = (configs ref).backends[w.entry]? := by
  rw [Site.configIn, List.getElem?_map, h, map_some, bind_some]

theorem maxConnsIn_map (configs : Nat → ProxyConfig) {config : List Nat}
    (h : config[w.place]? = some ref) :
    w.maxConnsIn (config.map configs) = some (configs ref).maxConns := by
  rw [Site.maxConnsIn, List.getElem?_map, h, map_some, map_some]

theorem Update.serverAfter_eq (hfind : p.find u.proxy u.address = some (ps, n))
    (hsame : u.proxy = w.proxy) (s : Server) :
    u.serverAfter w p s = if n = w.server then s.setWeight u.config.weight else s := by
  have hiff : u.FindsServer w p ↔ n = w.server := by simp [Update.FindsServer, hsame, hsame ▸ hfind]
  simp only [Update.serverAfter, hiff]

theorem Update.configAfter_eq (hfind : p.find u.proxy u.address = some (ps, n))
    (hsame : u.proxy = w.proxy) (c : BackendConfig) :
    u.configAfter w p c =
      if (p.configs ps.config).indexOf u.address = some w.entry then u.config else c := by
  have hiff : u.FindsConfig w p ↔ (p.configs ps.config).indexOf u.address = some w.entry := by
    simp [Update.FindsConfig, hsame, hsame ▸ hfind]
  simp only [Update.configAfter, hiff]

theorem Placed.weigh (h : Placed r w p s c d) (hfind : p.find u.proxy u.address = some (ps, n))
    (hproxy : p.proxies u.proxy = some ps) (hsame : u.proxy = w.proxy) :
    Placed r w (u.applied p ps n) (u.serverAfter w p s) (u.configAfter w p c) d := by
  obtain ⟨ps', hproxy', hplace, hserver⟩ := h.proxy
  rw [← hsame, hproxy, some_inj] at hproxy'
  subst hproxy'
  have hmaxConns : (u.serverAfter w p s).maxConns = s.maxConns := by
    unfold Update.serverAfter
    split <;> rfl
  have hconfig := h.config
  have hmax := h.maxConns
  rw [Project.configured, configIn_map _ hplace] at hconfig
  rw [Project.configured, maxConnsIn_map _ hplace] at hmax
  refine ⟨Update.linked_applied h.linked hproxy n,
    ⟨ps.setServer n (·.setWeight u.config.weight), ?_, hplace, ?_⟩, ?_, ?_, ?_, h.stored, ?_⟩
  · rw [← hsame]
    exact update_self _ _ _
  · change (ps.servers.modify n (·.setWeight u.config.weight))[w.server]? = _
    rw [List.getElem?_modify, show ps.servers[w.server]? = some s from hserver,
      Update.serverAfter_eq hfind hsame]
    rfl
  · unfold Update.serverAfter
    split
    · exact h.bare.setWeight _
    · exact h.bare
  · change w.configIn (p.config.map (update p.configs ps.config _)) = _
    rw [configIn_map _ hplace, update_self]
    rw [replaced_getElem?, hconfig, Update.configAfter_eq hfind hsame]
    split <;> rfl
  · change w.maxConnsIn (p.config.map (update p.configs ps.config _)) = _
    rw [maxConnsIn_map _ hplace, update_self, hmaxConns]
    exact hmax
  · rw [hmaxConns]
    exact h.storedMaxConns

theorem Placed.weigh_other (h : Placed r w p s c d) (hproxy : p.proxies u.proxy = some ps)
    (hother : u.proxy ≠ w.proxy) : Placed r w (u.applied p ps n) s c d := by
  obtain ⟨ps', hproxy', hplace, hserver⟩ := h.proxy
  -- its configuration is another one
  have hrefs : ps'.config ≠ ps.config := by
    intro hsame
    have hid := (h.linked.linked _ ps' hproxy').2
    rw [hsame, (h.linked.linked _ ps hproxy).2] at hid
    exact hother hid
  have hconfig := h.config
  have hmax := h.maxConns
  rw [Project.configured, configIn_map _ hplace] at hconfig
  rw [Project.configured, maxConnsIn_map _ hplace] at hmax
  refine ⟨Update.linked_applied h.linked hproxy n, ⟨ps', ?_, hplace, hserver⟩, h.bare, ?_, ?_,
    h.stored,
    h.storedMaxConns⟩
  · change update p.proxies u.proxy _ w.proxy = some ps'
    rw [update_of_ne hother.symm]
    exact hproxy'
  · change w.configIn (p.config.map (update p.configs ps.config _)) = _
    rw [configIn_map _ hplace, update_of_ne hrefs]
    exact hconfig
  · change w.maxConnsIn (p.config.map (update p.configs ps.config _)) = _
    rw [maxConnsIn_map _ hplace, update_of_ne hrefs]
    exact hmax

/-- **One update.** -/
theorem Placed.update (h : Placed r w p s c d) (u : Update) :
    Placed r w (p.call r u.call).1 (u.serverAfter w p s) (u.configAfter w p c)
      (u.storedAfter w p c d) := by
  cases hfind : p.find u.proxy u.address with
  | none =>
    have hserver : ¬u.FindsServer w p := by simp [Update.FindsServer, hfind]
    have hconfig : ¬u.FindsConfig w p := by simp [Update.FindsConfig, hfind]
    rw [updateBackend_of_none hfind, Update.serverAfter, if_neg hserver, Update.configAfter,
      if_neg hconfig, Update.storedAfter, Update.stores, hfind]
    exact h
  | some found =>
    obtain ⟨ps, n⟩ := found
    obtain ⟨hproxy, hcall⟩ := updateBackend_of_some (r := r) hfind
    have hstored : u.storedAfter w p c d = if u.upsert then u.configAfter w p c else d := by
      rw [Update.storedAfter, Update.stores, hfind, Option.isSome_some, Bool.true_and]
    rw [hcall, hstored]
    apply Placed.save
    by_cases hsame : u.proxy = w.proxy
    · exact h.weigh hfind hproxy hsame
    · rw [Update.serverAfter, if_neg fun hserver => hsame hserver.1, Update.configAfter,
        if_neg fun hconfig => hsame hconfig.1]
      exact h.weigh_other hproxy hsame

end

/-! ## The addition -/

theorem completed_addresses {req c : BackendConfig} (h : req.completed = .ok c) :
    c.address ≠ [] ∧ c.agentAddress ≠ [] := by
  unfold BackendConfig.completed at h
  split at h
  · split at h
    · cases h
    · rename_i haddress
      cases h
      exact ⟨haddress, joinHostPort_ne_nil _ _⟩
  · rename_i hagent
    split at h
    · cases h
      exact ⟨joinHostPort_ne_nil _ _, hagent⟩
    · rename_i haddress
      cases h
      exact ⟨haddress, hagent⟩

theorem addedBackend_eq {r : Registry} {c : BackendConfig} {s : Server}
    (h : r.addedBackend maxConns c = .ok s) :
    Bare r s ∧ s.maxConns = maxConns ∧ s.address = c.address ∧ s.agentAddr = c.agentAddress ∧
      s.role = c.serverRole ∧ s.weight = c.serverWeight := by
  unfold Registry.addedBackend newServer at h
  split at h
  · cases h
  · rename_i hagent
    cases h
    exact ⟨⟨hagent, rfl, rfl, rfl, rfl⟩, rfl, rfl, rfl, rfl, rfl⟩

section
variable {r : Registry} {p : Project} {id : Bytes} {ps : Proxy} {req c : BackendConfig}
  {env : AddEnv}

theorem addBackend_placed (hlinked : p.Linked) (hproxy : p.proxies id = some ps)
    (hcompleted : req.completed = .ok c) (hadded : Succeeds r p (.addBackend id req env)) :
    ∃ s, Placed r (Site.next p id ps) (p.call r (.addBackend id req env)).1 s c c ∧
      s.address = c.address ∧ s.agentAddr = c.agentAddress ∧ s.role = c.serverRole ∧
      s.weight = c.serverWeight := by
  have hcalled := called r p (.addBackend id req env)
  have hlinked' := linked_call (r := r) (.addBackend id req env) hlinked
  unfold Succeeds at hadded
  generalize p.call r (.addBackend id req env) = result at hcalled hadded hlinked'
  cases hcalled with
  | refused | backendUndone => cases hadded
  | @backendAdded _ _ _ _ _ s hproxy' hcompleted' hserver =>
    rw [hproxy, some_inj] at hproxy'
    rw [hcompleted, Except.ok.injEq] at hcompleted'
    subst hproxy' hcompleted'
    obtain ⟨hbare, hmaxConns, hsame⟩ := addedBackend_eq hserver
    refine ⟨s, ?_, hsame⟩
    have hplace : p.config[(Site.next p id ps).place]? = some ps.config :=
      List.getElem?_idxOf (hlinked.linked id ps hproxy).1
    -- what is configured is stored
    have hconfig : (Site.next p id ps).configIn
        (p.withBackend id ps c s env.grown).configured = some c := by
      change Site.configIn _ (p.config.map (update p.configs ps.config _)) = _
      rw [configIn_map _ hplace, update_self]
      exact List.getElem?_concat_length
    have hmax : (Site.next p id ps).maxConnsIn
        (p.withBackend id ps c s env.grown).configured = some s.maxConns := by
      change Site.maxConnsIn _ (p.config.map (update p.configs ps.config _)) = _
      rw [maxConnsIn_map _ hplace, update_self, hmaxConns]
      rfl
    refine ⟨hlinked', ⟨ps.addServer s env.grown, update_self _ _ _, hplace, ?_⟩, hbare,
      hconfig, hmax, hconfig, hmax⟩
    exact List.getElem?_concat_length

theorem rebuilds_added {s : Server} (hcompleted : req.completed = .ok c)
    (haddress : s.address = c.address) (hagentAddr : s.agentAddr = c.agentAddress)
    (hrole : s.role = c.serverRole) (hweight : s.weight = c.serverWeight) :
    Rebuilds r s c ↔ (c.peerAddress = [] ∨ c.peerAddress = c.address) ∧ c.dataDirectory = [] ∧
      ∀ database, r.databases.limit database = 0 := by
  obtain ⟨haddress', hagent'⟩ := completed_addresses hcompleted
  have hinferred : c.inferred = (s.address, s.agentAddr) := by
    rw [BackendConfig.inferred, if_neg fun h => hagent' h.1, if_neg fun h => haddress' h.2,
      haddress, hagentAddr]
  constructor
  · intro h
    have hpeer := h.peerAddress
    rw [haddress] at hpeer
    exact ⟨hpeer, h.dataDirectory, h.limits⟩
  · rintro ⟨hpeer, hdirectory, hlimits⟩
    rw [← haddress] at hpeer
    exact ⟨hinferred, hrole.symm, hweight.symm, hpeer, hdirectory, hlimits⟩

end

def Project.updateStep (r : Registry) (p : Project) (u : Update) : Option Project := p.step r u.call

/-- **When a backend added at run time behaves as after a restart.**  The
request has no peer address of its own and no data directory and there are no
database limits; and what each update leaves in the store describes the server
as the update leaves it. -/
theorem restart_equivalent {r : Registry} {p : Project} (hreachable : p.Reachable r) {id : Bytes}
    {ps : Proxy} (hproxy : p.proxies id = some ps) {req c : BackendConfig} {env : AddEnv}
    (hcompleted : req.completed = .ok c) (hadded : Succeeds r p (.addBackend id req env))
    {updates : List Update} {p' : Project}
    (hrun : run (Project.updateStep r) (p.call r (.addBackend id req env)).1 updates = some p') :
    (∀ k q, run (Project.updateStep r) (p.call r (.addBackend id req env)).1 (updates.take k) =
        some q → RestartsSame r (Site.next p id ps) q) ↔
      ((c.peerAddress = [] ∨ c.peerAddress = c.address) ∧ c.dataDirectory = [] ∧
        ∀ database, r.databases.limit database = 0) ∧
      Along (Project.updateStep r) (Update.Keeps r (Site.next p id ps))
        (p.call r (.addBackend id req env)).1 updates := by
  obtain ⟨s, hplaced, haddress, hagentAddr, hrole, hweight⟩ :=
    addBackend_placed hreachable.linked hproxy hcompleted hadded
  rw [← rebuilds_added hcompleted haddress hagentAddr hrole hweight, ← hplaced.restartsSame_iff]
  generalize Site.next p id ps = w at *
  generalize (p.call r (.addBackend id req env)).1 = p₁ at *
  -- where the backend is in its place, an update keeps it there
  have hstep : ∀ q u q', (∃ s c d, Placed r w q s c d) ∧ RestartsSame r w q →
      Project.updateStep r q u = some q' →
      ((∃ s c d, Placed r w q' s c d) ∧ RestartsSame r w q' ↔ Update.Keeps r w q u) := by
    rintro q u q' ⟨⟨s, c, d, hq⟩, -⟩ ⟨⟩
    have hq' := hq.update u
    rw [hq'.restartsSame_iff]
    constructor
    · rintro ⟨-, hrebuilds⟩
      exact ⟨s, c, d, hq.running, hq.config, hq.stored, hrebuilds⟩
    · rintro ⟨s', c', d', hs, hc, hd, hrebuilds⟩
      rw [hq.running, some_inj] at hs
      rw [hq.config, some_inj] at hc
      rw [hq.stored, some_inj] at hd
      subst hs hc hd
      exact ⟨⟨_, _, _, hq'⟩, hrebuilds⟩
  have hstays : ∀ (updates : List Update) q q', (∃ s c d, Placed r w q s c d) →
      run (Project.updateStep r) q updates = some q' → ∃ s c d, Placed r w q' s c d := by
    intro updates q q' hq hrun
    have hkeeps : ∀ q u q', (∃ s c d, Placed r w q s c d) → True →
        Project.updateStep r q u = some q' → ∃ s c d, Placed r w q' s c d := by
      rintro q u q' ⟨s, c, d, hq⟩ - ⟨⟩
      exact ⟨_, _, _, hq.update u⟩
    exact run_invariant hkeeps hq (along_of_forall fun _ _ => trivial) hrun
  constructor
  · intro h
    have hfirst := h 0 p₁ rfl
    refine ⟨hfirst, ?_⟩
    rw [along_iff_forall_take hstep ⟨⟨_, _, _, hplaced⟩, hfirst⟩ hrun]
    exact fun k q hq => ⟨hstays _ _ _ ⟨_, _, _, hplaced⟩ hq, h k q hq⟩
  · rintro ⟨hfirst, hkeeps⟩ k q hq
    rw [along_iff_forall_take hstep ⟨⟨_, _, _, hplaced⟩, hfirst⟩ hrun] at hkeeps
    exact (hkeeps k q hq).2

def started : Project := plain.createProjectState [threeBackends] fun _ => true

def fourth : Site := ⟨ascii "main", 3, 0, 3⟩

def weighsFourth (weight : Int) : Update :=
  ⟨ascii "main", ascii "db4:5432", { backendAt "db4" with weight := weight }, true⟩

theorem weighed_fourth_restarts :
    ∃ ps q, started.proxies (ascii "main") = some ps ∧
      Site.next started (ascii "main") ps = fourth ∧
      run (Project.updateStep plain) (started.call plain addsFourth).1 [weighsFourth 5] = some q ∧
      RestartsSame plain fourth q := by
  obtain ⟨ps, hproxy⟩ : ∃ ps, started.proxies (ascii "main") = some ps :=
    isSome_iff_exists.1 (by decide +kernel)
  have hsite : Site.next started (ascii "main") ps = fourth := by
    have hsites : (started.proxies (ascii "main")).map (Site.next started (ascii "main")) =
        some fourth := by rfl
    rw [hproxy, map_some, some_inj] at hsites
    exact hsites
  have hreachable : started.Reachable plain := ⟨_, _, [], rfl⟩
  have hcompleted : (backendAt "db4").completed =
      .ok { backendAt "db4" with agentAddress := ascii "db4:9091" } := rfl
  have hadded : Succeeds plain started addsFourth := by decide +kernel
  have hrun : run (Project.updateStep plain) (started.call plain addsFourth).1 [weighsFourth 5] =
      some _ := rfl
  have hboth := restart_equivalent hreachable hproxy hcompleted hadded hrun
  rw [hsite] at hboth
  refine ⟨ps, _, hproxy, hsite, hrun,
    hboth.2 ⟨⟨.inl rfl, rfl, fun _ => rfl⟩, ?_, fun _ _ => trivial⟩ 1 _ hrun⟩
  refine ⟨_, _, _, rfl, rfl, rfl, ?_⟩
  exact ⟨by decide +kernel, by decide +kernel, by decide +kernel, .inl rfl, rfl, fun _ => rfl⟩

theorem added_backend_differs_from_restart :
    ∃ p s c t, p = (started.call plain (.addBackend (ascii "main")
        { backendAt "db4" with
          peerAddress := ascii "10.1.0.4:5432", agentConfig := some ⟨ascii "/srv/pg", false⟩ }
        ⟨⟨true, none, none⟩, 6, true⟩)).1 ∧
      p.running fourth = some s ∧ fourth.configIn p.stored = some c ∧
      fourth.maxConnsIn p.stored = some 10 ∧ plain.createBackend 10 c = some t ∧
      s.peerAddress = ascii "db4:5432" ∧ t.peerAddress = ascii "10.1.0.4:5432" ∧
      s.dataDir = [] ∧ t.dataDir = ascii "/srv/pg" ∧ ¬RestartsSame plain fourth p ∧
      ∃ q s' c' t', run (Project.updateStep plain) (started.call plain addsFourth).1
          [weighsFourth 0] = some q ∧ q.running fourth = some s' ∧
        fourth.configIn q.stored = some c' ∧ plain.createBackend 10 c' = some t' ∧
        s'.weight = 0 ∧ t'.weight = 1 := by
  refine ⟨_, _, _, _, rfl, rfl, rfl, rfl, rfl, by decide +kernel, by decide +kernel,
    by decide +kernel, by decide +kernel, ?_, _, _, _, _, rfl, rfl, rfl, rfl, by decide +kernel,
    by decide +kernel⟩
  rintro ⟨s, c, maxConns, t, hs, hc, hmaxConns, ht, hsame⟩
  have hdirs : (plain.createBackend maxConns c).map Server.dataDir = some [] := by
    rw [ht, map_some, ← hsame.dataDir]
    cases hs
    rfl
  cases hc
  cases hmaxConns
  revert hdirs
  decide +kernel

end Pontus.Management
