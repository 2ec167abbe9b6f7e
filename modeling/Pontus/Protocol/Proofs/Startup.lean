import Mathlib.Data.List.Induction
import Pontus.Protocol.Startup

/-!
# Whom a startup packet names

A packet written from parameters without zero bytes is read back as those
parameters, so the backend sees the user and the database Pontus meant.
-/

namespace Pontus.Protocol

open Lib Pool

variable {user database raw : Bytes} {fuel : Nat} {p : Param} {params : List Param}

/-! ## Reading back -/

structure Param.WellFormed (p : Param) : Prop where
  named : p.1 ≠ []
  key : 0 ∉ p.1
  value : 0 ∉ p.2

theorem wellFormed_user (huser : 0 ∉ user) :
    Param.WellFormed (ascii "user", user) where
  named := show ascii "user" ≠ [] by decide
  key := show 0 ∉ ascii "user" by decide
  value := huser

theorem wellFormed_database (hdatabase : 0 ∉ database) :
    Param.WellFormed (ascii "database", database) where
  named := show ascii "database" ≠ [] by decide
  key := show 0 ∉ ascii "database" by decide
  value := hdatabase

theorem paramLoop_wellFormed (hp : p ∈ paramLoop fuel payload) : p.WellFormed := by
  induction fuel generalizing payload with
  | zero => cases hp
  | succ _ ih =>
    unfold paramLoop at hp
    split at hp
    · cases hp
    · cases hp
    · rename_i key rest hne hkey
      split at hp
      · cases hp
      · rename_i value rest' hvalue
        rcases mem_cons.1 hp with rfl | hp
        · exact ⟨hne, (cutAt_eq_some hkey).2, (cutAt_eq_some hvalue).2⟩
        · exact ih hp

theorem startupParams_wellFormed (hp : p ∈ startupParams packet) : p.WellFormed :=
  paramLoop_wellFormed hp

theorem cutAt_paramBytes (hp : p.WellFormed) (rest : Bytes) :
    cutAt 0 (paramBytes p ++ rest) = some (p.1, p.2 ++ 0 :: rest) ∧
      cutAt 0 (p.2 ++ 0 :: rest) = some (p.2, rest) := by
  have hbytes : paramBytes p ++ rest = p.1 ++ 0 :: (p.2 ++ 0 :: rest) := by simp [paramBytes]
  rw [hbytes, cutAt_append _ hp.key]
  exact ⟨rfl, cutAt_append _ hp.value⟩

theorem paramLoop_paramBytes (hp : p.WellFormed) (fuel : Nat) (rest : Bytes) :
    paramLoop (fuel + 1) (paramBytes p ++ rest) = p :: paramLoop fuel rest := by
  obtain ⟨hkey, hvalue⟩ := cutAt_paramBytes hp rest
  conv_lhs => unfold paramLoop
  rw [hkey]
  split
  · rename_i h
    cases h
  · rename_i h
    rw [some_inj, Prod.mk.injEq] at h
    exact absurd h.1 hp.named
  · rename_i h
    cases h
    rw [hvalue]

theorem paramLoop_flatMap (hparams : ∀ p ∈ params, p.WellFormed) (hfuel : params.length ≤ fuel) :
    paramLoop fuel (params.flatMap paramBytes ++ [0]) = params := by
  induction params generalizing fuel with
  | nil =>
    cases fuel with
    | zero | succ fuel => rfl
  | cons p _ ih =>
    cases fuel with
    | zero => exact absurd hfuel (by simp)
    | succ =>
      rw [flatMap_cons, append_assoc, paramLoop_paramBytes (hparams p (by simp)),
        ih (fun q hq => hparams q (mem_cons_of_mem _ hq)) (Nat.le_of_succ_le_succ hfuel)]

theorem length_flatMap_paramBytes (params : List Param) :
    params.length ≤ (params.flatMap paramBytes).length := by
  induction params with
  | nil => exact le_rfl
  | cons p =>
    have hp : 1 ≤ (paramBytes p).length := by simp [paramBytes]; omega
    rw [flatMap_cons, length_append, length_cons]
    omega

theorem drop_startupPacket (hversion : version.length = 4) :
    (startupPacket version params).drop 8 = params.flatMap paramBytes ++ [0] := by
  unfold startupPacket
  rw [← append_assoc, List.drop_append_of_le_length (by simp [hversion]),
    List.drop_of_length_le (by simp [hversion]), nil_append]

theorem front_startupPacket (hversion : version.length = 4) (params : List Param) :
    (startupPacket version params).take 4 = putU32 (startupPacket version params).length ∧
      ((startupPacket version params).drop 4).take 4 = version := by
  unfold startupPacket
  rw [List.take_left' (length_putU32 _), List.drop_left' (length_putU32 _),
    List.take_left' hversion]
  simp only [length_append, length_putU32]
  exact ⟨by rw [Nat.add_comm], trivial⟩

theorem length_le_startupPacket (hversion : version.length = 4) :
    params.length ≤ ((startupPacket version params).drop 8).length := by
  have hlen := length_flatMap_paramBytes params
  rw [drop_startupPacket hversion, length_append]
  omega

/-- **A packet is read back as it was written.** -/
theorem startupParams_startupPacket (hversion : version.length = 4)
    (hparams : ∀ p ∈ params, p.WellFormed) :
    startupParams (startupPacket version params) = params := by
  have hlen : params.length ≤ _ := length_le_startupPacket hversion
  unfold startupParams
  rw [drop_startupPacket hversion] at hlen ⊢
  exact paramLoop_flatMap hparams hlen

/-! ## Values -/

theorem lastValue_append_singleton (params : List Param) (p : Param) (key : Bytes) :
    lastValue (params ++ [p]) key = if p.1 = key then p.2 else lastValue params key := by
  unfold lastValue
  rw [filter_append]
  by_cases hkey : p.1 = key
  · rw [if_pos hkey, filter_cons_of_pos (by simpa using hkey), List.filter_nil,
      List.getLast?_concat]
    rfl
  · rw [if_neg hkey, filter_cons_of_neg (by simpa using hkey), List.filter_nil, append_nil]

theorem lastValue_wellFormed (hparams : ∀ p ∈ params, p.WellFormed) (key : Bytes) :
    0 ∉ lastValue params key := by
  induction params using List.reverseRecOn with
  | nil => exact not_mem_nil
  | append_singleton _ p ih =>
    rw [lastValue_append_singleton]
    split
    · exact (hparams p (by simp)).value
    · exact ih (fun q hq => hparams q (mem_append_left _ hq))

theorem extractStartupParams_eq (packet : Bytes) :
    extractStartupParams packet =
      (lastValue (startupParams packet) (ascii "user"),
        lastValue (startupParams packet) (ascii "database"),
        lastValue (startupParams packet) (ascii "replication")) := by
  unfold extractStartupParams
  induction startupParams packet using List.reverseRecOn with
  | nil => rfl
  | append_singleton _ p ih =>
    obtain ⟨key, _⟩ := p
    rw [foldl_append, ih]
    simp only [foldl_cons, foldl_nil, lastValue_append_singleton]
    have huserDatabase : ascii "user" ≠ ascii "database" := by decide
    have huserReplication : ascii "user" ≠ ascii "replication" := by decide
    have hdatabaseReplication : ascii "database" ≠ ascii "replication" := by decide
    by_cases huser : key = ascii "user"
    · rw [huser, if_pos rfl, if_pos rfl, if_neg huserDatabase, if_neg huserReplication]
    by_cases hdatabase : key = ascii "database"
    · rw [hdatabase, if_neg huserDatabase.symm, if_pos rfl, if_neg huserDatabase.symm, if_pos rfl,
        if_neg hdatabaseReplication]
    by_cases hreplication : key = ascii "replication"
    · rw [hreplication, if_neg huserReplication.symm, if_neg hdatabaseReplication.symm, if_pos rfl,
        if_neg huserReplication.symm,
        if_neg hdatabaseReplication.symm, if_pos rfl]
    · rw [if_neg huser, if_neg hdatabase, if_neg hreplication, if_neg huser, if_neg hdatabase,
        if_neg hreplication]

/-! ## The client's packet -/

/-- The parsed fields of a request say what a backend takes from its packet. -/
structure StartupRequest.Faithful (req : StartupRequest) : Prop where
  identity : startupIdentity req.raw = ⟨req.user, req.database⟩
  user : 0 ∉ req.user
  database : 0 ∉ req.database
  unnamed : req.database = [] → req.user = []

theorem readStartup_faithful (h : readStartup u packet = some req) :
    req.Faithful ∧ req.raw = packet := by
  have hvalues : ∀ key, 0 ∉ lastValue (startupParams packet) key :=
    lastValue_wellFormed (fun p hp => startupParams_wellFormed hp)
  unfold readStartup at h
  split at h
  · cases h
  · rw [extractStartupParams_eq] at h
    dsimp only at h
    split at h
    · cases h
    · cases h
      refine ⟨⟨rfl, hvalues _, ?_, ?_⟩, rfl⟩
      · split <;> exact hvalues _
      · intro hnil
        split at hnil
        · exact hnil
        · rename_i hne
          exact absurd hnil hne

/-! ## Rewriting -/

def Param.withDatabase (database : Bytes) (p : Param) : Param :=
  (p.1, if p.1 = ascii "database" then database else p.2)

theorem rewriteLoop_eq (h : rewriteLoop database fuel payload = some params) :
    params = (paramLoop fuel payload).map (Param.withDatabase database) := by
  induction fuel generalizing payload params with
  | zero =>
    cases h
    rfl
  | succ _ ih =>
    unfold rewriteLoop at h
    unfold paramLoop
    split at h
    · cases h
      rfl
    · cases h
      rfl
    · split at h
      · cases h
      · obtain ⟨_, hrest, rfl⟩ := map_eq_some_iff.1 h
        rw [ih hrest]
        rfl

theorem withDatabase_wellFormed (hdatabase : 0 ∉ database) (hp : p.WellFormed) :
    (p.withDatabase database).WellFormed := by
  refine ⟨hp.named, hp.key, ?_⟩
  unfold Param.withDatabase
  split
  · exact hdatabase
  · exact hp.value

theorem filter_withDatabase_of_ne (params : List Param) (database : Bytes)
    (hkey : key ≠ ascii "database") :
    (params.map (Param.withDatabase database)).filter (·.1 = key) = params.filter (·.1 = key) := by
  induction params with
  | nil => rfl
  | cons p _ ih =>
    rw [map_cons]
    by_cases hp : p.1 = key
    · have hne : p.1 ≠ ascii "database" := by
        rw [hp]
        exact hkey
      have hsame : p.withDatabase database = p := by
        unfold Param.withDatabase
        rw [if_neg hne]
      rw [hsame, filter_cons_of_pos (by simpa using hp), filter_cons_of_pos (by simpa using hp), ih]
    · rw [filter_cons_of_neg (by simp [Param.withDatabase, hp]),
        filter_cons_of_neg (by simpa using hp), ih]

theorem lastValue_withDatabase_of_ne (params : List Param) (database : Bytes)
    (hkey : key ≠ ascii "database") :
    lastValue (params.map (Param.withDatabase database)) key = lastValue params key := by
  unfold lastValue
  rw [filter_withDatabase_of_ne params database hkey]

theorem lastValue_withDatabase (params : List Param) (database : Bytes)
    (h : ∃ p ∈ params, p.1 = ascii "database") :
    lastValue (params.map (Param.withDatabase database)) (ascii "database") = database := by
  induction params using List.reverseRecOn with
  | nil =>
    obtain ⟨p, hp, -⟩ := h
    cases hp
  | append_singleton _ p ih =>
    rw [map_append, List.map_singleton, lastValue_append_singleton]
    by_cases hp : p.1 = ascii "database"
    · simp only [Param.withDatabase, hp, if_true]
    · rw [if_neg (show (p.withDatabase database).1 ≠ ascii "database" from hp)]
      apply ih
      obtain ⟨q, hq, hkey⟩ := h
      rcases mem_append.1 hq with hq | hq
      · exact ⟨q, hq, hkey⟩
      · rw [mem_singleton.1 hq] at hkey
        exact absurd hkey hp

theorem rewriteLoop_flatMap (hparams : ∀ p ∈ params, p.WellFormed) (hfuel : params.length ≤ fuel) :
    rewriteLoop database fuel (params.flatMap paramBytes ++ [0]) =
      some (params.map (Param.withDatabase database)) := by
  induction params generalizing fuel with
  | nil =>
    cases fuel with
    | zero | succ fuel => rfl
  | cons p params ih =>
    cases fuel with
    | zero => exact absurd hfuel (by simp)
    | succ fuel =>
      rw [forall_mem_cons] at hparams
      obtain ⟨hkey, hvalue⟩ := cutAt_paramBytes hparams.1 (params.flatMap paramBytes ++ [0])
      rw [flatMap_cons, append_assoc, rewriteLoop.eq_def]
      dsimp only
      rw [hkey]
      have hnamed := hparams.1.named
      cases hp : p.1 with
      | nil => exact absurd hp hnamed
      | cons => simp [hvalue, ih hparams.2 (Nat.le_of_succ_le_succ hfuel), Param.withDatabase, hp]

section
variable (hdatabase : 0 ∉ database) (h : rewriteStartupDatabase raw database = some packet)
include hdatabase h

/-- The packet that a rewriting makes. -/
theorem rewritten_packet :
    ∃ params, packet = startupPacket ((raw.drop 4).take 4) params ∧
      ((raw.drop 4).take 4).length = 4 ∧ (∀ p ∈ params, p.WellFormed) ∧
      ((∃ p ∈ startupParams raw, p.1 = ascii "database") ∧
          params = (startupParams raw).map (Param.withDatabase database) ∨
        params = (startupParams raw).map (Param.withDatabase database) ++
          [(ascii "database", database)]) := by
  unfold rewriteStartupDatabase at h
  split at h
  · cases h
  obtain ⟨params, hparams, hpacket⟩ := map_eq_some_iff.1 h
  have hparams : params = (startupParams raw).map (Param.withDatabase database) :=
    rewriteLoop_eq hparams
  have hwell : ∀ p ∈ params, p.WellFormed := by
    intro p hp
    rw [hparams] at hp
    obtain ⟨q, hq, rfl⟩ := mem_map.1 hp
    exact withDatabase_wellFormed hdatabase (startupParams_wellFormed hq)
  have hversion : ((raw.drop 4).take 4).length = 4 := by
    rw [length_take, length_drop]
    omega
  refine ⟨_, hpacket.symm, hversion, ?_⟩
  by_cases hreplaced : params.any (·.1 == ascii "database") = true
  · rw [if_pos hreplaced]
    refine ⟨hwell, .inl ⟨?_, hparams⟩⟩
    obtain ⟨p, hp, hkey⟩ := any_eq_true.1 hreplaced
    rw [hparams] at hp
    obtain ⟨q, hq, rfl⟩ := mem_map.1 hp
    exact ⟨q, hq, eq_of_beq hkey⟩
  · rw [if_neg hreplaced]
    refine ⟨?_, .inr (by rw [hparams])⟩
    intro p hp
    rcases mem_append.1 hp with hp | hp
    · exact hwell p hp
    · rw [mem_singleton.1 hp]
      exact wellFormed_database hdatabase

theorem startupParams_rewrite :
    (∃ p ∈ startupParams raw, p.1 = ascii "database") ∧
        startupParams packet = (startupParams raw).map (Param.withDatabase database) ∨
      startupParams packet = (startupParams raw).map (Param.withDatabase database) ++
        [(ascii "database", database)] := by
  obtain ⟨params, rfl, hversion, hwell, hparams⟩ := rewritten_packet hdatabase h
  rw [startupParams_startupPacket hversion hwell]
  exact hparams

theorem lastValue_rewrite_of_ne (hkey : key ≠ ascii "database") :
    lastValue (startupParams packet) key = lastValue (startupParams raw) key := by
  rcases startupParams_rewrite hdatabase h with ⟨-, hparams⟩ | hparams
  · rw [hparams, lastValue_withDatabase_of_ne _ _ hkey]
  · rw [hparams, lastValue_append_singleton, if_neg hkey.symm,
      lastValue_withDatabase_of_ne _ _ hkey]

theorem lastValue_rewrite : lastValue (startupParams packet) (ascii "database") = database := by
  rcases startupParams_rewrite hdatabase h with ⟨hreplaced, hparams⟩ | hparams
  · rw [hparams, lastValue_withDatabase _ _ hreplaced]
  · rw [hparams, lastValue_append_singleton, if_pos rfl]

end

/-- **Rewriting changes the identity's database**, when the new name has no zero
byte. -/
theorem startupIdentity_rewrite (hne : database ≠ []) (hdatabase : 0 ∉ database)
    (h : rewriteStartupDatabase raw database = some packet) :
    startupIdentity packet = ⟨(startupIdentity raw).user, database⟩ := by
  unfold startupIdentity
  dsimp only
  rw [lastValue_rewrite hdatabase h, lastValue_rewrite_of_ne hdatabase h (by decide), if_neg hne]

theorem filter_withDatabase (params : List Param) (database : Bytes) :
    (params.map (Param.withDatabase database)).filter (·.1 ≠ ascii "database") =
      params.filter (·.1 ≠ ascii "database") := by
  induction params with
  | nil => rfl
  | cons p _ ih => by_cases hp : p.1 = ascii "database" <;> simpa [Param.withDatabase, hp] using ih

theorem map_withDatabase_twice (database : Bytes) (params : List Param) :
    (params.map (Param.withDatabase database)).map (Param.withDatabase database) =
      params.map (Param.withDatabase database) := by
  rw [map_map]
  refine List.map_congr_left fun p _ => ?_
  simp only [Function.comp_apply, Param.withDatabase]
  split <;> rfl

/-- **Rewriting again changes nothing.** -/
theorem rewrite_rewrite (hdatabase : 0 ∉ database)
    (h : rewriteStartupDatabase raw database = some packet) :
    rewriteStartupDatabase packet database = some packet := by
  obtain ⟨params, rfl, hversion, hwell, hparams⟩ := rewritten_packet hdatabase h
  have hlen : params.length ≤ _ := length_le_startupPacket hversion
  have hfixed : params.map (Param.withDatabase database) = params := by
    rcases hparams with ⟨-, rfl⟩ | rfl
    · exact map_withDatabase_twice database _
    · rw [map_append, map_withDatabase_twice]
      simp [Param.withDatabase]
  have hreplaced : params.any (·.1 == ascii "database") = true := by
    rcases hparams with ⟨⟨p, hp, hkey⟩, rfl⟩ | rfl
    · exact any_eq_true.2 ⟨_, mem_map_of_mem hp, beq_iff_eq.2 hkey⟩
    · simp
  have hshort : ¬(startupPacket ((raw.drop 4).take 4) params).length ≤ 8 := by
    simp [startupPacket, hversion]
    omega
  rw [drop_startupPacket hversion] at hlen
  rw [rewriteStartupDatabase, if_neg hshort, drop_startupPacket hversion,
    rewriteLoop_flatMap hwell hlen, map_some, hfixed]
  dsimp only
  rw [if_pos hreplaced, (front_startupPacket hversion params).2]

/-- **Only the database changes.** -/
theorem rewrite_changes_database_only {database raw packet : Bytes} (hdatabase : 0 ∉ database)
    (h : rewriteStartupDatabase raw database = some packet) :
    packet.take 4 = putU32 packet.length ∧ (packet.drop 4).take 4 = (raw.drop 4).take 4 ∧
      extractStartupParams packet =
        ((extractStartupParams raw).1, database, (extractStartupParams raw).2.2) ∧
      (startupParams packet).filter (·.1 ≠ ascii "database") =
        (startupParams raw).filter (·.1 ≠ ascii "database") ∧
      rewriteStartupDatabase packet database = some packet := by
  have hfront : packet.take 4 = putU32 packet.length ∧
      (packet.drop 4).take 4 = (raw.drop 4).take 4 := by
    obtain ⟨params, rfl, hversion, -⟩ := rewritten_packet hdatabase h
    exact front_startupPacket hversion params
  refine ⟨hfront.1, hfront.2, ?_, ?_, rewrite_rewrite hdatabase h⟩
  · rw [extractStartupParams_eq, extractStartupParams_eq, lastValue_rewrite hdatabase h,
      lastValue_rewrite_of_ne hdatabase h (by decide),
      lastValue_rewrite_of_ne hdatabase h (by decide)]
  · rcases startupParams_rewrite hdatabase h with ⟨-, hparams⟩ | hparams
    · rw [hparams, filter_withDatabase]
    · rw [hparams, filter_append, filter_withDatabase]
      simp

theorem aliased_packet_settled :
    rewriteStartupDatabase (writeStartup (ascii "u") (ascii "b")) (ascii "b") =
      some (writeStartup (ascii "u") (ascii "b")) :=
  (rewrite_changes_database_only (by decide)
    (show rewriteStartupDatabase (writeStartup (ascii "u") (ascii "a")) (ascii "b") = _ by
      decide +kernel)).2.2.2.2

/-! ## Pontus's own packet -/

theorem startupParams_writeStartup (huser : 0 ∉ user) (hdatabase : 0 ∉ database) :
    startupParams (writeStartup user database) =
      [(ascii "user", user)] ++ if database = [] then [] else [(ascii "database", database)] := by
  apply startupParams_startupPacket rfl
  rw [forall_mem_cons]
  refine ⟨wellFormed_user huser, ?_⟩
  split
  · exact forall_mem_nil _
  · exact List.forall_mem_singleton.2 (wellFormed_database hdatabase)

theorem startupIdentity_writeStartup (huser : 0 ∉ user)
    (hdatabase : 0 ∉ database) (hunnamed : database = [] → user = []) :
    startupIdentity (writeStartup user database) = ⟨user, database⟩ := by
  have huserDatabase : ascii "user" ≠ ascii "database" := by decide
  unfold startupIdentity
  rw [startupParams_writeStartup huser hdatabase]
  dsimp only
  by_cases hne : database = []
  · rw [if_pos hne, hunnamed hne, hne]
    decide
  · rw [if_neg hne, lastValue_append_singleton, lastValue_append_singleton,
      if_neg huserDatabase.symm,
      if_pos rfl, if_neg hne]
    rw [show [(ascii "user", user)] = [] ++ [(ascii "user", user)] from rfl,
      lastValue_append_singleton, if_pos rfl]

/-! ## Run-time parameters -/

namespace SameParams

variable {packet packet' packet'' : Bytes}

theorem refl (packet : Bytes) : SameParams packet packet := fun _ _ => rfl

theorem symm (h : SameParams packet packet') : SameParams packet' packet :=
  fun name hname => (h name hname).symm

theorem trans (h : SameParams packet packet') (h' : SameParams packet' packet'') :
    SameParams packet packet'' :=
  fun name hname => (h name hname).trans (h' name hname)

end SameParams

theorem paramValue_eq_none (hname : name ∉ reservedNames) (h : name ∉ runtimeNames packet) :
    paramValue packet name = none := by
  have hnone : (startupParams packet).filter (·.1 = name) = [] := by
    rw [List.filter_eq_nil_iff]
    intro p hp hkey
    apply h
    unfold runtimeNames
    rw [mem_filter, mem_map]
    exact ⟨⟨p, hp, of_decide_eq_true hkey⟩, decide_eq_true hname⟩
  unfold paramValue
  rw [hnone]
  rfl

theorem sameParams_iff :
    SameParams packet packet' ↔
      ∀ name ∈ runtimeNames packet ++ runtimeNames packet',
        paramValue packet name = paramValue packet' name := by
  constructor
  · intro h name hname
    apply h
    rcases mem_append.1 hname with hname | hname
    · exact of_decide_eq_true (mem_filter.1 hname).2
    · exact of_decide_eq_true (mem_filter.1 hname).2
  · intro h name hname
    by_cases hin : name ∈ runtimeNames packet ++ runtimeNames packet'
    · exact h name hin
    · rw [mem_append, not_or] at hin
      rw [paramValue_eq_none hname hin.1, paramValue_eq_none hname hin.2]

instance (packet packet' : Bytes) : Decidable (SameParams packet packet') :=
  decidable_of_iff _ sameParams_iff.symm

theorem sameParams_of_nil (h : runtimeNames packet = []) (h' : runtimeNames packet' = []) :
    SameParams packet packet' := by
  rw [sameParams_iff, h, h']
  exact forall_mem_nil _

theorem runtimeNames_writeStartup (huser : 0 ∉ user) (hdatabase : 0 ∉ database)
    : runtimeNames (writeStartup user database) = [] := by
  unfold runtimeNames
  rw [startupParams_writeStartup huser hdatabase]
  split <;> simp [reservedNames]

theorem sameParams_rewrite (hdatabase : 0 ∉ database)
    (h : rewriteStartupDatabase raw database = some packet) : SameParams packet raw := by
  intro name hname
  have hne : name ≠ ascii "database" := by
    rintro rfl
    exact hname (by decide)
  unfold paramValue
  rcases startupParams_rewrite hdatabase h with ⟨-, hparams⟩ | hparams
  · rw [hparams, filter_withDatabase_of_ne _ _ hne]
  · have hlast : [(ascii "database", database)].filter (fun p : Param => p.1 = name) = [] := by
      rw [filter_cons_of_neg (by simpa using hne.symm), List.filter_nil]
    rw [hparams, filter_append, hlast, append_nil, filter_withDatabase_of_ne _ _ hne]

end Pontus.Protocol
