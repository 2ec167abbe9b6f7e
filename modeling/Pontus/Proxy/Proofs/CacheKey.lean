import Pontus.Proxy.Session

/-!
# What the cache key separates

The text that is hashed is a list of strings, each behind its length, and can
be cut into them again; where the settings end is known from the last string.
-/

namespace Pontus.Proxy

open Lib Protocol

theorem putU64_inj (hn : n < 2 ^ 64) (hm : m < 2 ^ 64) (h : putU64 n = putU64 m) : n = m := by
  obtain ⟨hhigh, hlow⟩ := List.append_inj h (by simp)
  have hhigh := putU32_mod hhigh
  have hlow := putU32_mod hlow
  omega

theorem keyPart_append_inj (hpart : part.length < 2 ^ 64) (hpart' : part'.length < 2 ^ 64)
    (h : keyPart part ++ rest = keyPart part' ++ rest') : part = part' ∧ rest = rest' := by
  unfold keyPart at h
  rw [append_assoc, append_assoc] at h
  obtain ⟨hlen, h⟩ := List.append_inj h (by simp [putU64])
  exact List.append_inj h (putU64_inj hpart hpart' hlen)

theorem flatMap_keyPart_inj {ps qs : List Bytes} (hps : ∀ p ∈ ps, p.length < 2 ^ 64)
    (hqs : ∀ q ∈ qs, q.length < 2 ^ 64) (h : ps.flatMap keyPart = qs.flatMap keyPart) :
    ps = qs := by
  induction ps generalizing qs with
  | nil =>
    cases qs with
    | nil => rfl
    | cons => simp [keyPart, putU64, putU32] at h
  | cons p ps ih =>
    cases qs with
    | nil => simp [keyPart, putU64, putU32] at h
    | cons q qs =>
      rw [forall_mem_cons] at hps hqs
      obtain ⟨rfl, hrest⟩ := keyPart_append_inj hps.1 hqs.1 h
      rw [ih hps.2 hqs.2 hrest]

def settingParts (names : List Bytes) (value : Bytes → Bytes) : List Bytes :=
  names.flatMap fun name => [name, value name]

theorem settingParts_inj (h : settingParts names value = settingParts names' value') :
    names = names' ∧ ∀ name ∈ names, value name = value' name := by
  induction names generalizing names' with
  | nil =>
    cases names' with
    | nil => exact ⟨rfl, forall_mem_nil _⟩
    | cons => cases h
  | cons name names ih =>
    cases names' with
    | nil => cases h
    | cons name' names' =>
      simp only [settingParts, flatMap_cons, cons_append, nil_append, List.cons.injEq] at h
      obtain ⟨rfl, hvalue, hrest⟩ := h
      obtain ⟨rfl, hvalues⟩ := ih hrest
      exact ⟨rfl, forall_mem_cons.2 ⟨hvalue, hvalues⟩⟩

def sortedNames (s : Session) : List Bytes := s.state.vars.keys.insertionSort (· ≤ ·)

def settingOf (s : Session) (name : Bytes) : Bytes := (s.state.vars.lookup name).getD []

/-- The strings the key is made of. -/
def cacheKeyParts (s : Session) : List Bytes :=
  s.backend.getD [] :: s.state.database :: s.state.user ::
    (settingParts (sortedNames s) (settingOf s) ++ [s.data])

theorem cacheKeyText_eq (s : Session) : cacheKeyText s = (cacheKeyParts s).flatMap keyPart := by
  simp [cacheKeyText, cacheKeyParts, settingParts, sortedNames, settingOf, List.flatMap_assoc]

theorem mem_sortedNames : name ∈ sortedNames s ↔ (s.state.vars.lookup name).isSome := by
  rw [sortedNames, List.mem_insertionSort, AList.lookup_isSome, AList.mem_keys]

theorem lookup_eq (s : Session) (name : Bytes) :
    s.state.vars.lookup name = if name ∈ sortedNames s then some (settingOf s name) else none := by
  simp only [mem_sortedNames, settingOf]
  cases s.state.vars.lookup name <;> rfl

theorem sortedNames_eq {s s' : Session}
    (h : ∀ name, s.state.vars.lookup name = s'.state.vars.lookup name) :
    sortedNames s = sortedNames s' := by
  have hkeys : s.state.vars.keys.Perm s'.state.vars.keys :=
    (List.perm_ext_iff_of_nodup (AList.keys_nodup _) (AList.keys_nodup _)).2 fun name => by
      rw [← AList.mem_keys, ← AList.mem_keys, ← AList.lookup_isSome, ← AList.lookup_isSome, h name]
  have hperm := ((List.perm_insertionSort (· ≤ ·) _).trans hkeys).trans
    (List.perm_insertionSort (· ≤ ·) _).symm
  exact hperm.eq_of_pairwise (fun _ _ _ _ => List.le_antisymm) (List.pairwise_insertionSort _ _)
    (List.pairwise_insertionSort _ _)

/-- **The key separates what can change an answer, and nothing else.** -/
theorem cacheKeyText_eq_iff (s s' : Session) (hs : ∀ part ∈ cacheKeyParts s, part.length < 2 ^ 63)
    (hs' : ∀ part ∈ cacheKeyParts s', part.length < 2 ^ 63) :
    cacheKeyText s = cacheKeyText s' ↔
      s.backend.getD [] = s'.backend.getD [] ∧ s.state.database = s'.state.database ∧
      s.state.user = s'.state.user ∧
      (∀ name, s.state.vars.lookup name = s'.state.vars.lookup name) ∧ s.data = s'.data := by
  rw [cacheKeyText_eq, cacheKeyText_eq]
  constructor
  · intro h
    have hparts := flatMap_keyPart_inj (fun p hp => (hs p hp).trans (by decide))
      (fun p hp => (hs' p hp).trans (by decide)) h
    simp only [cacheKeyParts, List.cons.injEq] at hparts
    obtain ⟨hback, hdatabase, huser, hrest⟩ := hparts
    obtain ⟨hsettings, hdata⟩ := List.append_inj' hrest rfl
    obtain ⟨hnames, hvalues⟩ := settingParts_inj hsettings
    refine ⟨hback, hdatabase, huser, fun name => ?_, List.singleton_inj.1 hdata⟩
    rw [lookup_eq s, lookup_eq s', ← hnames]
    split
    · rename_i hmem
      rw [hvalues name hmem]
    · rfl
  · rintro ⟨hback, hdatabase, huser, hvars, hdata⟩
    have hvalue : settingOf s = settingOf s' := funext fun name => by
      rw [settingOf, hvars name, settingOf]
    rw [cacheKeyParts, hback, hdatabase, huser, sortedNames_eq hvars, hvalue, hdata, cacheKeyParts]

def askedBy (user : Bytes) (settings : List (Bytes × Bytes)) : Session :=
  let vars := (settings.map fun p => (⟨p.1, p.2⟩ : Σ _ : Bytes, Bytes)).toAList
  { Session.new with
    state := { SessionState.empty with user := user, database := ascii "app", vars := vars }
    backend := some (ascii "db1:5432")
    data := ascii "Q" ++ putU32 20 ++ ascii "SELECT * FROM t" ++ [0] }

/-- The order in which the settings were made does not count; a user or a value
does. -/
theorem users_have_keys_apart :
    let path := (ascii "search_path", ascii "acme")
    let zone := (ascii "timezone", ascii "UTC")
    cacheKeyText (askedBy (ascii "ann") [path, zone]) =
        cacheKeyText (askedBy (ascii "ann") [zone, path]) ∧
      cacheKeyText (askedBy (ascii "ann") [path, zone]) ≠
        cacheKeyText (askedBy (ascii "bob") [path, zone]) ∧
      cacheKeyText (askedBy (ascii "ann") [path, zone]) ≠
        cacheKeyText (askedBy (ascii "ann") [(ascii "search_path", ascii "acme2"), zone]) := by
  intro path zone
  refine ⟨(cacheKeyText_eq_iff _ _ (by decide +kernel) (by decide +kernel)).2
    ⟨rfl, rfl, rfl, ?_, rfl⟩, ?_, ?_⟩
  · intro name
    have hperm : (askedBy (ascii "ann") [path, zone]).state.vars.entries.Perm
        (askedBy (ascii "ann") [zone, path]).state.vars.entries := by
      decide +kernel
    exact AList.perm_lookup hperm
  · intro h
    have hiff := cacheKeyText_eq_iff (askedBy (ascii "ann") [path, zone])
      (askedBy (ascii "bob") [path, zone]) (by decide +kernel) (by decide +kernel)
    exact absurd (hiff.1 h).2.2.1 (by decide)
  · intro h
    have hiff := cacheKeyText_eq_iff (askedBy (ascii "ann") [path, zone])
      (askedBy (ascii "ann") [(ascii "search_path", ascii "acme2"), zone]) (by decide +kernel)
      (by decide +kernel)
    exact absurd ((hiff.1 h).2.2.2.1 (ascii "search_path")) (by decide +kernel)

end Pontus.Proxy
