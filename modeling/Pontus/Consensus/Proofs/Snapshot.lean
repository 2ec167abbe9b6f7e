import Pontus.Consensus.Node
import Pontus.Lib.Run

/-!
# A snapshot stands for the entries before it

What an entry does is to overwrite some fields, whatever they held; a log does
what its entries do one after another.  A snapshot keeps every field but the
address of the primary, whose invalid UTF-8 it replaces.
-/

namespace Pontus.Consensus

open Lib

variable {β : Type}

def effect (j : Json β) (data : Bytes) : Document β :=
  match j.unmarshalCommand data with
  | .error _ => ⟨none, none, none⟩
  | .ok cmd =>
    if cmd.op = cmdSyncBackends then
      match j.unmarshalBackends (cmd.data.getD []) with
      | .error _ => ⟨none, none, none⟩
      | .ok backends => ⟨some backends, none, none⟩
    else if cmd.op = cmdUpdateConfig then ⟨none, some cmd.data, none⟩
    else if cmd.op = cmdSetPrimary then ⟨none, none, some (cmd.data.getD [])⟩
    else ⟨none, none, none⟩

def result (j : Json β) (data : Bytes) : Option Bytes := (apply j .zero data).2

theorem apply_eq (j : Json β) (s : ClusterState β) (data : Bytes) :
    apply j s data = ((effect j data).into s, result j data) := by
  unfold result apply effect
  cases j.unmarshalCommand data with
  | error => rfl
  | ok cmd =>
    dsimp only
    split_ifs
    · cases j.unmarshalBackends (cmd.data.getD []) <;> rfl
    all_goals rfl

/-- **An entry that is refused leaves the state as it is.** -/
theorem apply_of_error (h : (apply j s data).2 = some e) : (apply j s data).1 = s := by
  unfold apply at h ⊢
  cases hcommand : j.unmarshalCommand data with
  | error => rfl
  | ok cmd =>
    simp only [hcommand] at h ⊢
    split_ifs at h ⊢ <;> try rfl
    cases hbacks : j.unmarshalBackends (cmd.data.getD []) with
    | error => rfl
    | ok => simp [hbacks] at h

def Document.andThen (d d' : Document β) : Document β :=
  ⟨d'.backends.or d.backends, d'.config.or d.config, d'.primary.or d.primary⟩

theorem Document.into_andThen (d d' : Document β) (s : ClusterState β) :
    (d.andThen d').into s = d'.into (d.into s) := by
  ext1 <;> simp [Document.andThen, Document.into, Option.getD_or]

def effects (j : Json β) : List Bytes → Document β
  | [] => ⟨none, none, none⟩
  | data :: log => (effect j data).andThen (effects j log)

theorem applyAll_eq (j : Json β) (s : ClusterState β) (log : List Bytes) :
    applyAll j s log = ((effects j log).into s, log.map (result j)) := by
  induction log generalizing s with
  | nil => rfl
  | cons _ _ ih =>
    rw [applyAll, apply_eq]
    simp [ih, effects, Document.into_andThen]

theorem applyAll_append (j : Json β) (s : ClusterState β) (front behind : List Bytes) :
    (applyAll j s (front ++ behind)).1 = (effects j behind).into (applyAll j s front).1 := by
  induction front generalizing s with
  | nil => rw [nil_append, applyAll_eq, applyAll]
  | cons data _ ih => exact ih (apply j s data).1

def setsPrimary (j : Json β) (data : Bytes) : Option Bytes :=
  match j.unmarshalCommand data with
  | .error _ => none
  | .ok cmd => if cmd.op = cmdSetPrimary then some (cmd.data.getD []) else none

def lastPrimary (j : Json β) (log : List Bytes) : Option Bytes :=
  (log.filterMap (setsPrimary j)).getLast?

theorem primary_effect (j : Json β) (data : Bytes) :
    (effect j data).primary = setsPrimary j data := by
  unfold effect setsPrimary
  cases j.unmarshalCommand data with
  | error => rfl
  | ok cmd =>
    dsimp only
    by_cases hsync : cmd.op = cmdSyncBackends
    · rw [if_pos hsync, hsync, if_neg (by decide)]
      cases j.unmarshalBackends (cmd.data.getD []) <;> rfl
    by_cases hupdate : cmd.op = cmdUpdateConfig
    · rw [if_neg hsync, if_pos hupdate, hupdate, if_neg (by decide)]
    split_ifs <;> rfl

theorem primary_effects (j : Json β) (log : List Bytes) :
    (effects j log).primary = lastPrimary j log := by
  induction log with
  | nil => rfl
  | cons data log ih =>
    rw [effects, Document.andThen, ih, primary_effect, lastPrimary, lastPrimary]
    cases hdata : setsPrimary j data with
    | none => rw [List.filterMap_cons_none hdata, Option.or_none]
    | some =>
      rw [List.filterMap_cons_some hdata, List.getLast?_cons]
      cases (log.filterMap (setsPrimary j)).getLast? <;> rfl

theorem backends_apply (hs : s.backends.replaceInvalid j.valid = s.backends) (data : Bytes) :
    (apply j s data).1.backends.replaceInvalid j.valid = (apply j s data).1.backends := by
  unfold apply
  cases j.unmarshalCommand data with
  | error => exact hs
  | ok cmd =>
    dsimp only
    split_ifs
    · cases hbacks : j.unmarshalBackends (cmd.data.getD []) with
      | error => exact hs
      | ok => exact j.valid_of_unmarshal hbacks
    all_goals exact hs

theorem backends_applyAll (hs : s.backends.replaceInvalid j.valid = s.backends) (log : List Bytes) :
    (applyAll j s log).1.backends.replaceInvalid j.valid = (applyAll j s log).1.backends := by
  induction log generalizing s with
  | nil => exact hs
  | cons data _ ih => exact ih (backends_apply hs data)

theorem primary_applyAll (j : Json β) (log : List Bytes) :
    (applyAll j .zero log).1.primary = (lastPrimary j log).getD [] := by
  rw [applyAll_eq, ← primary_effects]
  rfl

theorem document_into (valid : β → β) (s : ClusterState β) :
    (s.document.replaceInvalid valid).into .zero =
      ⟨s.backends.replaceInvalid valid, s.config, replaceInvalid s.primary⟩ := by
  ext1
  · cases hbacks : s.backends <;>
      simp [ClusterState.document, Document.replaceInvalid, Document.into, Backends.replaceInvalid,
        ClusterState.zero, hbacks]
  · cases hconfig : s.config <;>
      simp [ClusterState.document, Document.replaceInvalid, Document.into, ClusterState.zero,
        hconfig]
  · by_cases hprimary : s.primary = []
    · simp [ClusterState.document, Document.replaceInvalid, Document.into, ClusterState.zero,
        hprimary]
      rfl
    · simp [ClusterState.document, Document.replaceInvalid, Document.into, hprimary]

theorem persist_eq_ok (h : persist j sink s = .ok b) : j.marshal s.document = .ok b := by
  unfold persist at h
  cases hmarshal : j.marshal s.document with
  | error => simp [hmarshal] at h
  | ok b' =>
    simp only [hmarshal] at h
    cases hwrite : sink.write b' with
    | some => simp [hwrite] at h
    | none =>
      cases hclose : sink.close with
      | some => simp [hwrite, hclose] at h
      | none => simpa [hwrite, hclose] using h

theorem exists_persist (j : Json β) (sink : Sink) (hwrite : ∀ b, sink.write b = none)
    (hclose : sink.close = none) (s : ClusterState β) : ∃ b, persist j sink s = .ok b := by
  obtain ⟨b, hmarshal, -⟩ := j.unmarshal_marshal s.document
  refine ⟨b, ?_⟩
  simp [persist, hmarshal, hwrite b, hclose]

theorem restore_of_persist (h : persist j sink s = .ok b)
    (hs : s.backends.replaceInvalid j.valid = s.backends) (f : ClusterState β) :
    restore j f b = ({ s with primary := replaceInvalid s.primary }, none) := by
  obtain ⟨_, hmarshal, hunmarshal⟩ := j.unmarshal_marshal s.document
  rw [persist_eq_ok h, Except.ok.injEq] at hmarshal
  rw [restore, hmarshal, hunmarshal]
  simp only [document_into, hs]

/-- A node that restores the snapshot taken between two parts of the log, and
then applies the second part, comes to where a node comes that applies both. -/
structure Resumes (j : Json β) (front behind : List Bytes) (f : ClusterState β) (b : Bytes) :
    Prop where
  restored : (restore j f b).2 = none
  state : (applyAll j (restore j f b).1 behind).1 = (applyAll j .zero (front ++ behind)).1
  results : (applyAll j .zero front).2 ++ (applyAll j (restore j f b).1 behind).2 =
    (applyAll j .zero (front ++ behind)).2

structure Survives (j : Json β) (front behind : List Bytes) (f : ClusterState β) : Prop where
  persists : ∀ sink : Sink, (∀ b, sink.write b = none) → sink.close = none →
    ∃ b, persist j sink (applyAll j .zero front).1 = .ok b
  resumes : ∀ sink b, persist j sink (applyAll j .zero front).1 = .ok b → Resumes j front behind f b

theorem into_eq_into_iff (d : Document β) (s : ClusterState β) (primary : Bytes) :
    d.into { s with primary := primary } = d.into s ↔ d.primary ≠ none ∨ primary = s.primary := by
  cases hprimary : d.primary <;> simp [ClusterState.ext_iff, Document.into, hprimary]

theorem resumes_iff (h : persist j sink (applyAll j .zero front).1 = .ok b) (f : ClusterState β) :
    Resumes j front behind f b ↔ lastPrimary j behind ≠ none ∨
      validUtf8 ((lastPrimary j front).getD []) := by
  have hrestore := restore_of_persist h (backends_applyAll rfl front) f
  have hstate : (applyAll j (restore j f b).1 behind).1 = (applyAll j .zero (front ++ behind)).1 ↔
      lastPrimary j behind ≠ none ∨ validUtf8 ((lastPrimary j front).getD []) = true := by
    rw [applyAll_append, applyAll_eq j _ behind, hrestore]
    rw [into_eq_into_iff, primary_effects, replaceInvalid_eq_self_iff, primary_applyAll]
  refine ⟨fun hresumes => hstate.1 hresumes.state, fun hkept => ⟨?_, hstate.2 hkept, ?_⟩⟩
  · rw [hrestore]
  · rw [applyAll_eq, applyAll_eq, applyAll_eq, map_append]

/-- **A snapshot stands for the entries before it** exactly when the address it
keeps is valid UTF-8 or is overwritten later; and an entry that is refused
changes nothing. -/
theorem snapshot_survives_iff (j : Json β) (front behind : List Bytes) (f : ClusterState β) :
    (∀ s data e, (apply j s data).2 = some e → (apply j s data).1 = s) ∧
      (Survives j front behind f ↔
        lastPrimary j behind ≠ none ∨
          ∀ address, lastPrimary j front = some address → validUtf8 address = true) := by
  have hvalid : validUtf8 ((lastPrimary j front).getD []) = true ↔
      ∀ address, lastPrimary j front = some address → validUtf8 address = true := by
    cases lastPrimary j front with
    | none => exact iff_of_true rfl (by simp)
    | some => simp
  refine ⟨fun s data e h => apply_of_error h, ?_⟩
  rw [← hvalid]
  constructor
  · intro hsurvives
    obtain ⟨b, hb⟩ := exists_persist j ⟨fun _ => none, none⟩ (fun _ => rfl) rfl
      (applyAll j .zero front).1
    exact (resumes_iff hb f).1 (hsurvives.resumes _ b hb)
  · intro hkept
    exact ⟨fun sink hwrite hclose => exists_persist j sink hwrite hclose _,
      fun sink b hb => (resumes_iff hb f).2 hkept⟩

def putBytes (bs : Bytes) : Bytes := bs.flatMap (fun b => [1, b]) ++ [0]

def takeBytes : Bytes → Option (Bytes × Bytes)
  | 0 :: rest => some ([], rest)
  | 1 :: b :: rest => (takeBytes rest).map fun (bs, rest) => (b :: bs, rest)
  | _ => none

theorem takeBytes_putBytes (bs rest : Bytes) :
    takeBytes (putBytes bs ++ rest) = some (bs, rest) := by
  induction bs with
  | nil => rfl
  | cons _ bs ih =>
    change (takeBytes (putBytes bs ++ rest)).map _ = _
    rw [ih]
    rfl

def putField : Option (Option Bytes) → Bytes
  | none => [0]
  | some none => [1]
  | some (some bs) => 2 :: putBytes bs

def takeField : Bytes → Option (Option (Option Bytes) × Bytes)
  | 0 :: rest => some (none, rest)
  | 1 :: rest => some (some none, rest)
  | 2 :: rest => (takeBytes rest).map fun (bs, rest) => (some (some bs), rest)
  | _ => none

theorem takeField_putField (field : Option (Option Bytes)) (rest : Bytes) :
    takeField (putField field ++ rest) = some (field, rest) := by
  rcases field with _ | _ | bs
  · rfl
  · rfl
  · change (takeBytes (putBytes bs ++ rest)).map _ = _
    rw [takeBytes_putBytes]
    rfl

/-- Of a backend without fields there is only whether the pointer is nil. -/
def putBackends (bs : Backends Unit) : Option Bytes :=
  bs.map (·.map fun backend => if backend = none then 0 else 1)

def takeBackends (bs : Option Bytes) : Backends Unit :=
  bs.map (·.map fun b => if b = 0 then none else some ())

theorem takeBackends_putBackends (bs : Backends Unit) : takeBackends (putBackends bs) = bs := by
  cases bs with
  | none => rfl
  | some bs =>
    simp only [putBackends, takeBackends, map_some, map_map, some_inj]
    refine List.map_id'' (fun backend => ?_) bs
    cases backend <;> rfl

def putDocument (d : Document Unit) : Bytes :=
  putField (d.backends.map putBackends) ++ (putField d.config ++
    putField (d.primary.map fun primary => some (replaceInvalid primary)))

def takeDocument (b : Bytes) : Option (Document Unit) :=
  (takeField b).bind fun (backends, b) => (takeField b).bind fun (config, b) =>
    (takeField b).map fun (primary, _) => ⟨backends.map takeBackends, config, primary.bind id⟩

theorem takeDocument_putDocument (d : Document Unit) :
    takeDocument (putDocument d) = some (d.replaceInvalid id) := by
  have hlast := takeField_putField (d.primary.map fun primary => some (replaceInvalid primary)) []
  rw [append_nil] at hlast
  simp only [takeDocument, putDocument, takeField_putField, hlast, bind_some, map_some, some_inj]
  ext1
  · cases hbacks : d.backends with
    | none => simp [Document.replaceInvalid, hbacks]
    | some =>
      simp [Document.replaceInvalid, Backends.replaceInvalid, hbacks, takeBackends_putBackends]
  · rfl
  · cases hprimary : d.primary <;> simp [Document.replaceInvalid, hprimary]

def setPrimaryFF : Bytes := ascii "\x7b\"op\":\"set_primary\",\"data\":\"/w==\"\x7d"

def markedJson : Json Unit where
  quote op := [34] ++ op ++ [34]
  unmarshalCommand data :=
    if data = setPrimaryFF then .ok ⟨cmdSetPrimary, some [0xFF]⟩
    else .error (ascii "invalid character")
  unmarshalBackends _ := .error (ascii "invalid character")
  marshal d := .ok (putDocument d)
  unmarshal b :=
    match takeDocument b with
    | none => .error (ascii "unexpected end of JSON input")
    | some d => .ok d
  valid := id
  unmarshal_marshal d := ⟨putDocument d, rfl, by rw [takeDocument_putDocument]⟩
  valid_of_unmarshal h := by cases h

theorem primaries_disagree :
    ∃ b, persist markedJson ⟨fun _ => none, none⟩ (applyAll markedJson .zero [setPrimaryFF]).1 =
        .ok b ∧
      (applyAll markedJson .zero [setPrimaryFF]).1.primary = [0xFF] ∧
      (restore markedJson .zero b).1.primary = [0xEF, 0xBF, 0xBD] ∧
      ¬ Survives markedJson [setPrimaryFF] [] .zero := by
  have hprimary : (applyAll markedJson .zero [setPrimaryFF]).1.primary = [0xFF] := by decide +kernel
  obtain ⟨b, hb⟩ := exists_persist markedJson ⟨fun _ => none, none⟩ (fun _ => rfl) rfl
    (applyAll markedJson .zero [setPrimaryFF]).1
  have hrestored : (restore markedJson .zero b).1.primary = [0xEF, 0xBF, 0xBD] := by
    rw [restore_of_persist hb (backends_applyAll rfl _), hprimary]
    rfl
  refine ⟨b, hb, hprimary, hrestored, ?_⟩
  intro hsurvives
  have hstate := congrArg ClusterState.primary (hsurvives.resumes _ b hb).state
  rw [applyAll, hrestored, append_nil, hprimary] at hstate
  cases hstate

/-- **Entries may come again.**  Neither what is applied twice in a row nor what
is refused leaves a trace in the state. -/
theorem redelivered_entries_harmless (j : Json β) (s : ClusterState β) (front behind : List Bytes) :
    (applyAll j s (front ++ behind ++ behind)).1 = (applyAll j s (front ++ behind)).1 ∧
      (applyAll j s (front.filter fun data => (result j data).isNone)).1 =
        (applyAll j s front).1 := by
  constructor
  · rw [applyAll_append, applyAll_append, ← Document.into_andThen]
    congr 1
    simp [Document.andThen]
  · induction front generalizing s with
    | nil => rfl
    | cons data front ih =>
      have hdata := congrArg Prod.snd (apply_eq j s data)
      cases hresult : result j data with
      | none =>
        rw [filter_cons_of_pos (by simp [hresult])]
        exact ih (apply j s data).1
      | some e =>
        rw [filter_cons_of_neg (by simp [hresult]), ih s]
        exact congrArg (fun s => (applyAll j s front).1) (apply_of_error (hdata.trans hresult)).symm

end Pontus.Consensus
