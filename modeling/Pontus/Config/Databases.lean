import Pontus.Protocol.Tokenizer

/-!
# The routing table

Which database a client-visible name stands for.  A name no rule lists stands
for itself.
-/

namespace Pontus.Config

open Lib Protocol

variable {routes : Databases} {name : Bytes} {d : Database}

def wildcardDatabase : Bytes := ascii "*"

structure Database where
  name : Bytes
  /-- the real name on the backend; empty means `name` -/
  database : Bytes
  maxConns : Int
  deriving DecidableEq

structure Route where
  database : Bytes
  maxConns : Int
  deriving DecidableEq

def Database.route (d : Database) (requested : Bytes) : Route :=
  ⟨if d.database = [] then requested else d.database, d.maxConns⟩

abbrev Databases := List Database

namespace Databases

def resolveLoop (name : Bytes) : Databases → Option Database → Route
  -- The wildcard carries limits only and never rewrites.
  | [], some wildcard => ⟨name, wildcard.maxConns⟩
  | [], none => ⟨name, 0⟩
  | d :: rest, wildcard =>
    if d.name = name then d.route name
    else if d.name = wildcardDatabase then resolveLoop name rest (some d)
    else resolveLoop name rest wildcard

def resolve (routes : Databases) (name : Bytes) : Route := resolveLoop name routes none

def limit (routes : Databases) (name : Bytes) : Int := (routes.resolve name).maxConns

inductive ValidationError
  | noName
  | duplicateDatabase (name : Bytes)
  | wildcardRewrites (database : Bytes)
  | negativeMaxConns (name : Bytes) (maxConns : Int)
  deriving DecidableEq

def trimSpace (u : UnicodeTables) (text : Bytes) : Bytes :=
  let front := (spanRunes (isSpaceRune u) text.length text).2
  let behind := (decodeRunes front).reverse.takeWhile (isSpaceRune u)
  front.take (front.length - (encodeRunes behind).length)

def validateLoop (u : UnicodeTables) : List Bytes → Databases → Option ValidationError
  | _, [] => none
  | seen, entry :: rest =>
    let name := trimSpace u entry.name
    if name = [] then some .noName
    else if name ∈ seen then some (.duplicateDatabase name)
    else if name = wildcardDatabase ∧ entry.database ≠ [] then
      some (.wildcardRewrites entry.database)
    else if entry.maxConns < 0 then some (.negativeMaxConns name entry.maxConns)
    else validateLoop u (name :: seen) rest

def validate (u : UnicodeTables) (routes : Databases) : Option ValidationError :=
  validateLoop u [] routes

theorem resolve_database (routes : Databases) (name : Bytes) :
    (routes.resolve name).database = name ∨
      ∃ d ∈ routes, d.name = name ∧ d.database ≠ [] ∧
        (routes.resolve name).database = d.database := by
  have hloop : ∀ wildcard, (resolveLoop name routes wildcard).database = name ∨
      ∃ d ∈ routes, d.name = name ∧ d.database ≠ [] ∧
        (resolveLoop name routes wildcard).database = d.database := by
    induction routes with
    | nil =>
      intro wildcard
      cases wildcard <;> exact Or.inl rfl
    | cons d rest ih =>
      intro wildcard
      unfold resolveLoop
      by_cases hname : d.name = name
      · rw [if_pos hname]
        unfold Database.route
        by_cases hempty : d.database = []
        · exact Or.inl (if_pos hempty)
        · exact Or.inr ⟨d, by simp, hname, hempty, if_neg hempty⟩
      · have hrest : ∀ wildcard, (resolveLoop name rest wildcard).database = name ∨
            ∃ e ∈ d :: rest, e.name = name ∧ e.database ≠ [] ∧
              (resolveLoop name rest wildcard).database = e.database := by
          intro wildcard
          rcases ih wildcard with h | ⟨e, he, hrule⟩
          · exact Or.inl h
          · exact Or.inr ⟨e, mem_cons_of_mem _ he, hrule⟩
        rw [if_neg hname]
        split <;> exact hrest _
  exact hloop none

def ruleLoop (name : Bytes) : Databases → Option Database → Option Database
  | [], wildcard => wildcard
  | d :: rest, wildcard =>
    if d.name = name then some d
    else if d.name = wildcardDatabase then ruleLoop name rest (some d)
    else ruleLoop name rest wildcard

/-- The rule a name takes its route from: the one that lists it, or else the
last wildcard. -/
def rule (routes : Databases) (name : Bytes) : Option Database := ruleLoop name routes none

def ruled (name : Bytes) : Option Database → Route
  | none => ⟨name, 0⟩
  | some d => if d.name = name then d.route name else ⟨name, d.maxConns⟩

theorem resolve_eq_ruled (routes : Databases) (name : Bytes) :
    routes.resolve name = ruled name (routes.rule name) := by
  have hloop : ∀ wildcard : Option Database, (∀ d, wildcard = some d → d.name ≠ name) →
      resolveLoop name routes wildcard = ruled name (ruleLoop name routes wildcard) := by
    induction routes with
    | nil =>
      intro wildcard hwildcard
      cases wildcard with
      | none => rfl
      | some d =>
        simp only [resolveLoop, ruleLoop, ruled]
        rw [if_neg (hwildcard d rfl)]
    | cons d _ ih =>
      intro wildcard hwildcard
      unfold resolveLoop ruleLoop
      by_cases hname : d.name = name
      · rw [if_pos hname, if_pos hname, ruled]
        simp only [hname, if_true]
      · rw [if_neg hname, if_neg hname]
        split
        · apply ih
          intro _ he
          cases he
          exact hname
        · exact ih wildcard hwildcard
  apply hloop
  intro _ hd
  cases hd

theorem ruleLoop_spec (h : ruleLoop name routes wildcard = some d) :
    wildcard = some d ∨ d ∈ routes ∧ (d.name = name ∨ d.name = wildcardDatabase) := by
  induction routes generalizing wildcard with
  | nil => exact Or.inl h
  | cons e rest ih =>
    have hrest : d ∈ rest ∧ (d.name = name ∨ d.name = wildcardDatabase) →
        d ∈ e :: rest ∧ (d.name = name ∨ d.name = wildcardDatabase) :=
      fun ⟨hmem, hname⟩ => ⟨mem_cons_of_mem _ hmem, hname⟩
    unfold ruleLoop at h
    split at h
    · rename_i hname
      cases h
      exact Or.inr ⟨by simp, Or.inl hname⟩
    · split at h
      · rename_i hwild
        rcases ih h with hsame | hfound
        · cases hsame
          exact Or.inr ⟨by simp, Or.inr hwild⟩
        · exact Or.inr (hrest hfound)
      · rcases ih h with hsame | hfound
        · exact Or.inl hsame
        · exact Or.inr (hrest hfound)

theorem rule_spec (h : routes.rule name = some d) :
    d ∈ routes ∧ (d.name = name ∨ d.name = wildcardDatabase) := by
  rcases ruleLoop_spec h with hsame | hfound
  · cases hsame
  · exact hfound

theorem limit_eq_rule (routes : Databases) (name : Bytes) :
    routes.limit name = ((routes.rule name).map Database.maxConns).getD 0 := by
  rw [limit, resolve_eq_ruled]
  cases routes.rule name with
  | none => rfl
  | some =>
    simp only [ruled, map_some, getD_some]
    split <;> rfl

theorem rule_of_rewritten (h : (routes.resolve name).database ≠ name) :
    ∃ d, routes.rule name = some d ∧ d.name = name ∧ d.database ≠ [] := by
  rw [resolve_eq_ruled] at h
  cases hrule : routes.rule name with
  | none =>
    rw [hrule] at h
    exact absurd rfl h
  | some d =>
    rw [hrule] at h
    simp only [ruled] at h
    by_cases hname : d.name = name
    · refine ⟨d, rfl, hname, ?_⟩
      intro hempty
      simp [hname, Database.route, hempty] at h
    · simp [hname] at h

theorem trimSpace_wildcard (u : UnicodeTables) :
    trimSpace u wildcardDatabase = wildcardDatabase := rfl

theorem wildcard_of_validateLoop (h : validateLoop u seen routes = none) (hd : d ∈ routes)
    (hname : d.name = wildcardDatabase) : d.database = [] := by
  induction routes generalizing seen with
  | nil => exact absurd hd not_mem_nil
  | cons _ _ ih =>
    simp only [validateLoop] at h
    split at h
    · cases h
    split at h
    · cases h
    split at h
    · cases h
    rename_i hrewrites
    split at h
    · cases h
    rcases mem_cons.1 hd with rfl | hd
    · by_contra hdatabase
      rw [hname, trimSpace_wildcard] at hrewrites
      exact hrewrites ⟨rfl, hdatabase⟩
    · exact ih h hd

end Databases

end Pontus.Config
