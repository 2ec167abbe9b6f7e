import Mathlib.Data.List.TakeWhile
import Pontus.Agent.Settings

/-!
# The primary a standby connects to

The connection string goes through two readers: the server takes it out of its
configuration, libpq takes the parameters out of it.  The agent doubles quotes
for the first of them and writes nothing for the second.  A reader never gives
back more than it was given, and less for an escape, a quote or white space, so
the parameters come back exactly where there is none of these in them.
-/

namespace Pontus.Agent

open Lib

variable {text value behind : Bytes} {b : UInt8} {ps : List (Bytes × Bytes)} {r : Request}

/-- What libpq reads as it is written. -/
structure Plain (value : Bytes) : Prop where
  filled : value ≠ []
  start : value.head? ≠ some 39
  bytes : ∀ b ∈ value, isConninfoSpace b = false ∧ b ≠ 92

def Request.params (r : Request) : List (Bytes × Bytes) :=
  [(ascii "host", r.primary), (ascii "port", itoa r.port)] ++
    (if r.user ≠ [] then [(ascii "user", r.user)] else []) ++
    (if r.password ≠ [] then [(ascii "password", r.password)] else [])

def Request.primaryLine (r : Request) : Bytes :=
  settingLine conninfoSetting (inQuotes (doubleQuotes r.conninfo))

def readPrimary (line : Bytes) : Option (List (Bytes × Bytes)) :=
  match readSetting line with
  | some (name, text) =>
    if name = conninfoSetting then parseConninfo (text.length + 1) text else none
  | none => none

/-! ## The server -/

/-- Twice the number of bytes, where a quote counts for half a byte. -/
def quoteWeight (text : Bytes) : Nat := (text.map fun b => if b = 39 then 1 else 2).sum

theorem quoteWeight_cons (b : UInt8) (text : Bytes) :
    quoteWeight (b :: text) = (if b = 39 then 1 else 2) + quoteWeight text := by
  rw [quoteWeight, map_cons, List.sum_cons]
  rfl

theorem quoteWeight_append (x y : Bytes) :
    quoteWeight (x ++ y) = quoteWeight x + quoteWeight y := by
  rw [quoteWeight, map_append, List.sum_append]
  rfl

theorem doubleQuotes_cons (b : UInt8) (text : Bytes) :
    doubleQuotes (b :: text) = (if b = 39 then [39, 39] else [b]) ++ doubleQuotes text := rfl

theorem quoteWeight_doubleQuotes (text : Bytes) :
    quoteWeight (doubleQuotes text) = 2 * text.length := by
  induction text with
  | nil => rfl
  | cons b text ih =>
    rw [doubleQuotes_cons, quoteWeight_append, ih, length_cons]
    by_cases hb : b = 39
    · rw [if_pos hb]
      change 2 + 2 * text.length = 2 * (text.length + 1)
      omega
    · rw [if_neg hb, quoteWeight_cons, if_neg hb]
      change 2 + 2 * text.length = 2 * (text.length + 1)
      omega

theorem quoteWeight_drop_lt (hskip : 0 < skip) (htext : text ≠ []) :
    quoteWeight (text.drop skip) < quoteWeight text := by
  obtain ⟨b, rest, rfl⟩ := exists_cons_of_ne_nil htext
  obtain ⟨skip, rfl⟩ := Nat.exists_eq_succ_of_ne_zero hskip.ne'
  have hsplit := quoteWeight_append (rest.take skip) (rest.drop skip)
  rw [List.take_append_drop] at hsplit
  rw [Nat.succ_eq_add_one, List.drop_succ_cons, quoteWeight_cons, hsplit]
  split <;> omega

theorem escape_taken (text : Bytes) : 0 < (escape text).2 := by
  rw [escape.eq_def]
  dsimp only
  split
  · exact List.length_pos_of_ne_nil ‹_›
  · split <;> exact Nat.one_pos

theorem quoteWeight_escape_lt (h : readQuoted skip input = some (text, after)) :
    quoteWeight (input.drop (escape input).2) < quoteWeight input := by
  apply quoteWeight_drop_lt (escape_taken input)
  rintro rfl
  cases h

theorem readQuoted_length (h : readQuoted skip input = some (text, after)) :
    2 * text.length < quoteWeight (input.drop skip) := by
  induction input generalizing skip text with
  | nil => cases h
  | cons b rest ih =>
    cases skip with
    | succ skip => exact ih h
    | zero =>
      rw [readQuoted] at h
      rw [List.drop_zero, quoteWeight_cons]
      split at h
      · rename_i hb
        rw [if_pos hb]
        split at h
        · -- a doubled quote
          rename_i hrest
          obtain ⟨tail, rfl⟩ := List.head?_eq_some_iff.1 hrest
          obtain ⟨⟨text', after'⟩, hread, heq⟩ := map_eq_some_iff.1 h
          cases heq
          have hlen := ih hread
          rw [List.drop_succ_cons, List.drop_zero] at hlen
          rw [quoteWeight_cons, if_pos rfl, length_cons]
          omega
        · cases h
          rw [length_nil]
          omega
      · rename_i hb
        rw [if_neg hb]
        split at h
        · obtain ⟨⟨text', after'⟩, hread, heq⟩ := map_eq_some_iff.1 h
          cases heq
          have hlen := ih hread
          have hdrop := quoteWeight_escape_lt hread
          rw [length_cons]
          omega
        · obtain ⟨⟨text', after'⟩, hread, heq⟩ := map_eq_some_iff.1 h
          cases heq
          have hlen := ih hread
          rw [List.drop_zero] at hlen
          rw [length_cons]
          omega

theorem readQuoted_doubleQuotes (h : 92 ∉ text) (rest : Bytes) :
    readQuoted 0 (doubleQuotes text ++ rest) =
      (readQuoted 0 rest).map fun (read, after) => (text ++ read, after) := by
  induction text with
  | nil =>
    rw [doubleQuotes, List.flatMap_nil, nil_append]
    exact Option.map_id'.symm
  | cons b text ih =>
    rw [mem_cons, not_or] at h
    rw [doubleQuotes_cons, append_assoc]
    by_cases hb : b = 39
    · rw [if_pos hb, hb]
      change (readQuoted 0 (doubleQuotes text ++ rest)).map _ = _
      rw [ih h.2, Option.map_map]
      rfl
    · rw [if_neg hb, singleton_append, readQuoted, if_neg hb, if_neg (Ne.symm h.1), ih h.2,
        Option.map_map]
      rfl

theorem readSetting_primaryLine (r : Request) :
    readSetting r.primaryLine =
      match readQuoted 0 (doubleQuotes r.conninfo ++ [39]) with
      | some (text, after) =>
        if endsLine after then some (conninfoSetting, text.takeWhile (· ≠ 0)) else none
      | none => none := rfl

theorem conninfo_read (hzero : 0 ∉ r.conninfo) (hescape : 92 ∉ r.conninfo) :
    readSetting r.primaryLine = some (conninfoSetting, r.conninfo) := by
  have htake : r.conninfo.takeWhile (· ≠ 0) = r.conninfo := by
    rw [List.takeWhile_eq_self_iff]
    intro b hb
    exact decide_eq_true fun h => hzero (h ▸ hb)
  rw [readSetting_primaryLine, readQuoted_doubleQuotes hescape]
  change some (conninfoSetting, (r.conninfo ++ []).takeWhile (· ≠ 0)) = _
  rw [append_nil, htake]

/-- An escape makes the string shorter. -/
theorem conninfo_read_length (h : readSetting r.primaryLine = some (name, text)) :
    text.length ≤ r.conninfo.length ∧ (92 ∈ r.conninfo → text.length < r.conninfo.length) := by
  rw [readSetting_primaryLine] at h
  split at h
  · rename_i read after hread
    rw [ite_none_right_eq_some, some_inj, Prod.mk.injEq] at h
    have hshort : text.length ≤ read.length := by
      rw [← h.2.2]
      exact (List.takeWhile_prefix _).length_le
    constructor
    · have hlen := readQuoted_length hread
      rw [List.drop_zero, quoteWeight_append, quoteWeight_doubleQuotes] at hlen
      change 2 * read.length < 2 * r.conninfo.length + 1 at hlen
      omega
    · intro hmem
      obtain ⟨front, rest, hsplit, hfront⟩ := List.eq_append_cons_of_mem hmem
      have hdouble : doubleQuotes r.conninfo ++ [39] =
          doubleQuotes front ++ 92 :: (doubleQuotes rest ++ [39]) := by
        rw [hsplit, doubleQuotes, List.flatMap_append, flatMap_cons]
        simp [doubleQuotes]
      rw [hdouble, readQuoted_doubleQuotes hfront, map_eq_some_iff] at hread
      obtain ⟨⟨tail, after'⟩, htail, heq⟩ := hread
      obtain ⟨⟨tail', after''⟩, hrest, heq'⟩ := map_eq_some_iff.1 htail
      cases heq
      cases heq'
      have hlen := readQuoted_length hrest
      have hdrop := quoteWeight_escape_lt hrest
      rw [quoteWeight_append, quoteWeight_doubleQuotes] at hdrop
      change _ < 2 * rest.length + 1 at hdrop
      rw [hsplit, length_append, length_cons]
      rw [length_append, length_cons] at hshort
      omega
  · cases h

/-! ## libpq -/

theorem bareValue_length (escaped : Bool) (text : Bytes) :
    (bareValue escaped text).1.length + (bareValue escaped text).2.length ≤ text.length ∧
      ((bareValue escaped text).2 ≠ [] →
        (bareValue escaped text).1.length + (bareValue escaped text).2.length < text.length) := by
  induction text generalizing escaped with
  | nil => simp [bareValue]
  | cons b rest ih =>
    rw [bareValue]
    split
    · simp
    · split
      · obtain ⟨hle, hlt⟩ := ih true
        rw [length_cons]
        exact ⟨by omega, fun _ => by omega⟩
      · obtain ⟨hle, hlt⟩ := ih false
        simp only [length_cons]
        refine ⟨by omega, fun hne => ?_⟩
        have hmore := hlt hne
        omega

theorem quotedValue_length (h : quotedValue escaped text = some (value, behind)) :
    value.length + behind.length < text.length := by
  induction text generalizing escaped value with
  | nil => cases h
  | cons b rest ih =>
    rw [quotedValue] at h
    rw [length_cons]
    split at h
    · cases h
      simp
    · split at h
      · have hlen := ih h
        omega
      · obtain ⟨⟨value', behind'⟩, hread, heq⟩ := map_eq_some_iff.1 h
        cases heq
        have hlen := ih hread
        rw [length_cons]
        omega

theorem bareValue_of_notMem (h : 92 ∉ text) :
    bareValue false text = (text.takeWhile (!isConninfoSpace ·),
      (text.dropWhile (!isConninfoSpace ·)).tail) := by
  induction text with
  | nil => rfl
  | cons b text ih =>
    rw [mem_cons, not_or] at h
    have hb : (b == 92) = false := beq_eq_false_iff_ne.2 (Ne.symm h.1)
    cases hspace : isConninfoSpace b with
    | true => simp [bareValue, hspace]
    | false => simp [bareValue, hspace, hb, ih h.2]

section
variable (h : 92 ∉ text) (hread : bareValue false text = (value, behind))
include h hread

theorem bareValue_bytes : ∀ b ∈ value, isConninfoSpace b = false := by
  rw [bareValue_of_notMem h, Prod.mk.injEq] at hread
  intro b hb
  rw [← hread.1] at hb
  simpa using List.mem_takeWhile_imp hb

theorem bareValue_behind : behind ⊆ text := by
  rw [bareValue_of_notMem h, Prod.mk.injEq] at hread
  intro b hb
  rw [← hread.2] at hb
  exact (List.dropWhile_suffix _).subset (List.mem_of_mem_tail hb)

theorem bareValue_head (hhead : value.head? = some b) : text.head? = some b := by
  rw [bareValue_of_notMem h, Prod.mk.injEq] at hread
  obtain ⟨after, hafter⟩ := List.takeWhile_prefix (l := text) (!isConninfoSpace ·)
  obtain ⟨tail, htail⟩ := List.head?_eq_some_iff.1 hhead
  rw [← hafter, hread.1, htail]
  rfl

/-- Only at the end of the string is there nothing to read. -/
theorem bareValue_empty (hstart : ∀ b, text.head? = some b → isConninfoSpace b = false)
    (hempty : value = []) : behind = [] := by
  rw [bareValue_of_notMem h, Prod.mk.injEq, hempty] at hread
  cases text with
  | nil => exact hread.2.symm
  | cons b text => simp [hstart b rfl] at hread

end

/-- One parameter: the value begins at `rest`, which has no white space before
it, and is quoted or not. -/
structure Reads (fuel : Nat) (text : Bytes) (p : Bytes × Bytes) (ps : List (Bytes × Bytes))
    (rest behind : Bytes) : Prop where
  further : parseConninfo fuel behind = some ps
  length : p.1.length + 1 + rest.length ≤ text.length
  suffix : rest <:+ text
  start : ∀ b, rest.head? = some b → isConninfoSpace b = false
  value : (rest.head? ≠ some 39 ∧ bareValue false rest = (p.2, behind)) ∨
    ∃ quoted, rest = 39 :: quoted ∧ quotedValue false quoted = some (p.2, behind)

theorem parseConninfo_eq_some (h : parseConninfo (fuel + 1) text = some ps) :
    ps = [] ∨ ∃ p ps' rest behind, ps = p :: ps' ∧ Reads fuel text p ps' rest behind := by
  simp only [parseConninfo] at h
  split at h
  · cases h
    exact .inl rfl
  · have hstart : (text.dropWhile isConninfoSpace) <:+ text := List.dropWhile_suffix _
    generalize text.dropWhile isConninfoSpace = line at h hstart
    have hsplit : line.takeWhile isKeywordByte ++ line.dropWhile isKeywordByte = line :=
      List.takeWhile_append_dropWhile
    split at h
    · rename_i tail htail
      have hequals : (61 :: tail) <:+ line.dropWhile isKeywordByte :=
        htail ▸ List.dropWhile_suffix _
      split at h
      · rename_i value behind hvalue
        obtain ⟨ps', hfurther, rfl⟩ := map_eq_some_iff.1 h
        refine .inr ⟨_, ps', tail.dropWhile isConninfoSpace, behind, rfl, hfurther, ?_, ?_, ?_, ?_⟩
        · have hlen := congrArg List.length hsplit
          have htaillen := hequals.length_le
          have hspaces := (List.dropWhile_suffix isConninfoSpace (l := tail)).length_le
          have hline := hstart.length_le
          rw [length_append] at hlen
          rw [length_cons] at htaillen
          dsimp only
          omega
        · exact (List.dropWhile_suffix _).trans ((List.suffix_cons 61 tail).trans
            (hequals.trans ((List.dropWhile_suffix _).trans hstart)))
        · intro b hb
          have hdrop := List.head?_dropWhile_not isConninfoSpace tail
          rw [hb] at hdrop
          simpa using hdrop
        · split at hvalue
          · rename_i hquote
            obtain ⟨quoted, hquoted⟩ := List.head?_eq_some_iff.1 hquote
            rw [hquoted] at hvalue
            exact .inr ⟨quoted, hquoted, hvalue⟩
          · rename_i hquote
            exact .inl ⟨hquote, Option.some.inj hvalue⟩
      · cases h
    · cases h

theorem parseConninfo_nil (h : parseConninfo fuel [] = some ps) : ps = [] := by
  cases fuel with
  | zero => cases h
  | succ => exact (Option.some.inj h).symm

/-- The bytes a list of parameters takes, with a space before each. -/
def cost (ps : List (Bytes × Bytes)) : Nat := (ps.map fun p => p.1.length + p.2.length + 2).sum

/-- What is read from a string that has no byte to spare. -/
structure Tight (ps : List (Bytes × Bytes)) : Prop where
  plain : ∀ p ∈ ps, p.2.head? ≠ some 39 ∧ ∀ b ∈ p.2, isConninfoSpace b = false
  filled : ∀ p ps', ps = p :: ps' → p.2 = [] → ps' = []

section
variable {fuel : Nat} {p : Bytes × Bytes} {rest : Bytes} (h : Reads fuel text p ps rest behind)
include h

theorem Reads.cost_le (hps : cost ps ≤ behind.length + 1) :
    cost (p :: ps) ≤ text.length + 1 ∧ (cost (p :: ps) = text.length + 1 →
      (rest.head? ≠ some 39 ∧ bareValue false rest = (p.2, behind)) ∧
        (ps = [] ∨ cost ps = behind.length + 1)) := by
  have hlength := h.length
  have hcost : cost (p :: ps) = p.1.length + p.2.length + 2 + cost ps := by simp [cost]
  rw [hcost]
  rcases h.value with ⟨hquote, hbare⟩ | ⟨quoted, rfl, hquoted⟩
  · have hbounds := bareValue_length false rest
    rw [hbare] at hbounds
    obtain ⟨hle, hlt⟩ := hbounds
    dsimp only at hle hlt
    by_cases hbehind : behind = []
    · -- behind the last parameter there is no space
      have hnil : ps = [] := parseConninfo_nil (hbehind ▸ h.further)
      have hzero : cost ps = 0 := by rw [hnil]; rfl
      exact ⟨by omega, fun _ => ⟨⟨hquote, hbare⟩, .inl hnil⟩⟩
    · have hmore := hlt hbehind
      exact ⟨by omega, fun _ => ⟨⟨hquote, hbare⟩, .inr (by omega)⟩⟩
  · -- the two quotes are lost
    have hbounds := quotedValue_length hquoted
    rw [length_cons] at hlength
    exact ⟨by omega, fun _ => by omega⟩

theorem Reads.tight (hquote : rest.head? ≠ some 39) (hbare : bareValue false rest = (p.2, behind))
    (hescape : 92 ∉ rest) (hps : Tight ps) : Tight (p :: ps) := by
  constructor
  · intro q hq
    rcases mem_cons.1 hq with rfl | hq
    · exact ⟨fun hhead => hquote (bareValue_head hescape hbare hhead),
        bareValue_bytes hescape hbare⟩
    · exact hps.plain q hq
  · rintro _ _ ⟨⟩ hempty
    have hbehind := bareValue_empty hescape hbare h.start hempty
    exact parseConninfo_nil (hbehind ▸ h.further)

end

theorem parseConninfo_cost (h : parseConninfo fuel text = some ps) :
    cost ps ≤ text.length + 1 ∧ (cost ps = text.length + 1 → 92 ∉ text → Tight ps) := by
  induction fuel generalizing text ps with
  | zero => cases h
  | succ fuel ih =>
    rcases parseConninfo_eq_some h with rfl | ⟨p, ps, rest, behind, rfl, hreads⟩
    · exact ⟨Nat.zero_le _, fun _ _ => ⟨nofun, nofun⟩⟩
    · obtain ⟨hps, htight⟩ := ih hreads.further
      obtain ⟨hle, hspare⟩ := hreads.cost_le hps
      refine ⟨hle, fun heq hescape => ?_⟩
      obtain ⟨⟨hquote, hbare⟩, hlast⟩ := hspare heq
      have hrest : 92 ∉ rest := fun hmem => hescape (hreads.suffix.subset hmem)
      apply hreads.tight hquote hbare hrest
      rcases hlast with rfl | hlast
      · exact ⟨nofun, nofun⟩
      · exact htight hlast fun hmem => hrest (bareValue_behind hrest hbare hmem)

/-! ## What the agent writes -/

def keywords : List Bytes := [ascii "host", ascii "port", ascii "user", ascii "password"]

theorem keyword_bytes : ∀ name ∈ keywords, name ≠ [] ∧ ∀ b ∈ name, isKeywordByte b := by
  decide +kernel

def written (p : Bytes × Bytes) : Bytes := p.1 ++ 61 :: p.2

theorem itoa_digits (n : Nat) : ∀ b ∈ itoa n, 48 ≤ b.toNat ∧ b.toNat ≤ 57 := by
  intro b hb
  obtain ⟨c, hc, rfl⟩ := mem_map.1 hb
  have hc := Nat.isDigit_of_mem_toDigits (by decide) (by decide) hc
  rw [Char.isDigit, and_eq_true, decide_eq_true_eq, decide_eq_true_eq] at hc
  have hlow : 48 ≤ c.val.toNat := UInt32.le_iff_toNat_le.1 hc.1
  have hhigh : c.val.toNat ≤ 57 := UInt32.le_iff_toNat_le.1 hc.2
  rw [Char.toUInt8, UInt32.toNat_toUInt8]
  omega

theorem plain_itoa (n : Nat) : Plain (itoa n) := by
  refine ⟨by simp [itoa, Nat.toDigits_ne_nil], ?_, ?_⟩
  · intro hquote
    have hmem := itoa_digits n 39 (List.mem_of_head? hquote)
    exact absurd hmem (by decide)
  · intro b hb
    have hb := itoa_digits n b hb
    simp [isConninfoSpace, ← UInt8.toNat_inj, UInt8.le_iff_toNat_le]
    omega

/-- After a plain value come the end or a space. -/
theorem bareValue_append (hvalue : ∀ b ∈ value, isConninfoSpace b = false ∧ b ≠ 92)
    (htail : ∀ b, tail.head? = some b → b = 32) :
    bareValue false (value ++ tail) = (value, tail.tail) := by
  induction value with
  | nil =>
    cases tail with
    | nil => rfl
    | cons b tail =>
      obtain rfl := htail b rfl
      simp [bareValue, isConninfoSpace]
  | cons b value ih =>
    rw [forall_mem_cons] at hvalue
    have hrest := ih hvalue.2
    simp [bareValue, hvalue.1, hrest]

theorem parseConninfo_written (hname : p.1 ∈ keywords) (hvalue : Plain p.2)
    (htail : ∀ b, tail.head? = some b → b = 32) :
    parseConninfo (fuel + 1) (written p ++ tail) = (parseConninfo fuel tail.tail).map (p :: ·) := by
  obtain ⟨name, value⟩ := p
  obtain ⟨hfilled, hbytes⟩ := keyword_bytes name hname
  obtain ⟨a, name, rfl⟩ := exists_cons_of_ne_nil hfilled
  obtain ⟨b, value, rfl⟩ := exists_cons_of_ne_nil hvalue.filled
  have ha : isConninfoSpace a = false := by
    have ha := hbytes a mem_cons_self
    rw [isKeywordByte, and_eq_true, not_eq_true'] at ha
    exact ha.1
  have hb : isConninfoSpace b = false := (hvalue.bytes b mem_cons_self).1
  have hquote : b ≠ 39 := fun hb => hvalue.start (by rw [hb, List.head?_cons])
  have hbare := bareValue_append hvalue.bytes htail
  have hequals : isKeywordByte 61 = false ∧ isConninfoSpace 61 = false := by decide
  have htext : written (a :: name, b :: value) ++ tail =
      (a :: name) ++ 61 :: (b :: value ++ tail) := by simp [written]
  have hstart : ((a :: name) ++ 61 :: (b :: value ++ tail)).dropWhile isConninfoSpace =
      (a :: name) ++ 61 :: (b :: value ++ tail) := List.dropWhile_cons_of_neg (by simp [ha])
  rw [parseConninfo, htext]
  rw [hstart, List.takeWhile_append_of_pos hbytes, List.dropWhile_append_of_pos hbytes]
  rw [cons_append] at hbare
  simp [hequals, hb, hquote, hbare]

theorem parseConninfo_params (hps : ∀ p ∈ ps, p.1 ∈ keywords ∧ Plain p.2)
    (hfuel : ps.length < fuel) :
    parseConninfo fuel (ps.flatMap fun p => 32 :: written p).tail = some ps := by
  induction ps generalizing fuel with
  | nil =>
    obtain ⟨fuel, rfl⟩ := Nat.exists_eq_succ_of_ne_zero (Nat.ne_zero_of_lt hfuel)
    rfl
  | cons p ps ih =>
    obtain ⟨fuel, rfl⟩ := Nat.exists_eq_succ_of_ne_zero (Nat.ne_zero_of_lt hfuel)
    rw [forall_mem_cons] at hps
    have htail : ∀ b, (ps.flatMap fun p => 32 :: written p).head? = some b → b = 32 := by
      cases ps with
      | nil => nofun
      | cons => exact fun _ h => (Option.some.inj h).symm
    rw [flatMap_cons, cons_append, List.tail_cons,
      parseConninfo_written hps.1.1 hps.1.2 htail, ih hps.2 (Nat.lt_of_succ_lt_succ hfuel)]
    rfl

theorem mem_params : p ∈ r.params ↔
    p = (ascii "host", r.primary) ∨ p = (ascii "port", itoa r.port) ∨
      (r.user ≠ [] ∧ p = (ascii "user", r.user)) ∨
      (r.password ≠ [] ∧ p = (ascii "password", r.password)) := by
  simp [Request.params]

theorem conninfo_eq (r : Request) :
    32 :: r.conninfo = r.params.flatMap fun p => 32 :: written p := by
  have hhost : ascii "host=" = ascii "host" ++ [61] := by decide
  have hport : ascii " port=" = 32 :: (ascii "port" ++ [61]) := by decide
  have huser : ascii " user=" = 32 :: (ascii "user" ++ [61]) := by decide
  have hpassword : ascii " password=" = 32 :: (ascii "password" ++ [61]) := by decide
  rw [Request.conninfo, Request.params, hhost, hport, huser, hpassword]
  split_ifs <;> simp [written]

theorem cost_params (r : Request) : cost r.params = r.conninfo.length + 1 := by
  have hlen : ∀ ps : List (Bytes × Bytes), (ps.flatMap fun p => 32 :: written p).length =
      cost ps := by
    intro ps
    induction ps with
    | nil => rfl
    | cons p ps ih =>
      simp only [cost, flatMap_cons, written, length_append, length_cons, map_cons,
        List.sum_cons] at ih ⊢
      omega
  rw [← hlen, ← conninfo_eq, length_cons]

theorem params_keywords (hp : p ∈ r.params) : p.1 ∈ keywords := by
  rcases mem_params.1 hp with rfl | rfl | ⟨-, rfl⟩ | ⟨-, rfl⟩ <;> simp [keywords]

theorem mem_conninfo_iff (hb : b ≠ 32 ∧ b ≠ 61 ∧ ∀ name ∈ keywords, b ∉ name) :
    b ∈ r.conninfo ↔ ∃ p ∈ r.params, b ∈ p.2 := by
  have hspace : b ∈ r.conninfo ↔ b ∈ 32 :: r.conninfo := by simp [hb.1]
  rw [hspace, conninfo_eq, List.mem_flatMap]
  apply exists_congr
  intro p
  apply and_congr_right
  intro hp
  simp [written, hb.1, hb.2.1, hb.2.2 p.1 (params_keywords hp)]

theorem zero_notMem_conninfo (h : ∀ b ∈ r.primary ++ r.user ++ r.password, b ≠ 0 ∧ b ≠ newline) :
    0 ∉ r.conninfo := by
  rw [mem_conninfo_iff (by decide +kernel)]
  rintro ⟨p, hp, hzero⟩
  rcases mem_params.1 hp with rfl | rfl | ⟨-, rfl⟩ | ⟨-, rfl⟩
  · exact (h 0 (by simp [hzero])).1 rfl
  · exact absurd (itoa_digits r.port 0 hzero) (by decide)
  · exact (h 0 (by simp [hzero])).1 rfl
  · exact (h 0 (by simp [hzero])).1 rfl

theorem params_plain_iff : (∀ p ∈ r.params, Plain p.2) ↔
    Plain r.primary ∧ (r.user = [] ∨ Plain r.user) ∧ (r.password = [] ∨ Plain r.password) := by
  constructor
  · intro h
    refine ⟨h _ (mem_params.2 (.inl rfl)), ?_, ?_⟩
    · rw [or_iff_not_imp_left]
      exact fun hne => h _ (mem_params.2 (.inr (.inr (.inl ⟨hne, rfl⟩))))
    · rw [or_iff_not_imp_left]
      exact fun hne => h _ (mem_params.2 (.inr (.inr (.inr ⟨hne, rfl⟩))))
  · rintro ⟨hhost, huser, hpassword⟩ p hp
    rcases mem_params.1 hp with rfl | rfl | ⟨hne, rfl⟩ | ⟨hne, rfl⟩
    · exact hhost
    · exact plain_itoa r.port
    · exact huser.resolve_left hne
    · exact hpassword.resolve_left hne

theorem params_of_plain (h : ∀ p ∈ r.params, Plain p.2) (hzero : 0 ∉ r.conninfo) :
    readPrimary r.primaryLine = some r.params := by
  have hescape : 92 ∉ r.conninfo := by
    rw [mem_conninfo_iff (by decide +kernel)]
    rintro ⟨p, hp, hbyte⟩
    exact ((h p hp).bytes 92 hbyte).2 rfl
  have hfuel : r.params.length < r.conninfo.length + 1 := by
    have hle : ∀ ps : List (Bytes × Bytes), 2 * ps.length ≤ cost ps := by
      intro ps
      induction ps with
      | nil => exact le_rfl
      | cons p ps ih =>
        simp only [cost, map_cons, List.sum_cons, length_cons] at ih ⊢
        omega
    have hcost := hle r.params
    rw [cost_params] at hcost
    have hpos : 0 < r.params.length := by simp [Request.params]
    omega
  have hread := parseConninfo_params (fun p hp => ⟨params_keywords hp, h p hp⟩) hfuel
  rw [← conninfo_eq, List.tail_cons] at hread
  rw [readPrimary, conninfo_read hzero hescape]
  exact hread

theorem plain_of_params (h : readPrimary r.primaryLine = some r.params)
    (hzero : 0 ∉ r.conninfo) : ∀ p ∈ r.params, Plain p.2 := by
  rw [readPrimary] at h
  split at h
  · rename_i name text hread
    rw [ite_none_right_eq_some] at h
    obtain ⟨hcost, htight⟩ := parseConninfo_cost h.2
    obtain ⟨hle, hshorter⟩ := conninfo_read_length hread
    rw [cost_params] at hcost htight
    -- not a byte was lost, so there was no escape
    have hescape : 92 ∉ r.conninfo := by
      intro hmem
      have hless := hshorter hmem
      omega
    have htext : text = r.conninfo := by
      rw [conninfo_read hzero hescape, some_inj, Prod.mk.injEq] at hread
      exact hread.2.symm
    rw [htext] at htight
    obtain ⟨hplain, hfilled⟩ := htight rfl hescape
    intro p hp
    refine ⟨?_, (hplain p hp).1, fun b hb => ⟨(hplain p hp).2 b hb, ?_⟩⟩
    · rcases mem_params.1 hp with rfl | rfl | ⟨hne, rfl⟩ | ⟨hne, rfl⟩
      · intro hempty
        cases hfilled _ _ rfl hempty
      · exact (plain_itoa r.port).filled
      · exact hne
      · exact hne
    · rintro rfl
      exact hescape ((mem_conninfo_iff (by decide +kernel)).2 ⟨p, hp, hb⟩)
  · cases h

/-- **What a standby reads of its primary.**  It is host, port, user and
password as they were given exactly where none of them has white space or a
backslash in it, or begins with a quote, and a host is given. -/
theorem standby_reads_its_primary (r : Request)
    (hbytes : ∀ b ∈ r.primary ++ r.user ++ r.password, b ≠ 0 ∧ b ≠ newline) :
    readPrimary r.primaryLine = some r.params ↔
      Plain r.primary ∧ (r.user = [] ∨ Plain r.user) ∧ (r.password = [] ∨ Plain r.password) := by
  have hzero := zero_notMem_conninfo hbytes
  rw [← params_plain_iff]
  exact ⟨fun h => plain_of_params h hzero, fun h => params_of_plain h hzero⟩

def passwordRequest (password : Bytes) : Request :=
  ⟨ascii "db1", 5432, ascii "repl", password, [], false⟩

theorem password_with_quote_read :
    readPrimary (passwordRequest (ascii "it's=me")).primaryLine =
      some [(ascii "host", ascii "db1"), (ascii "port", ascii "5432"),
        (ascii "user", ascii "repl"), (ascii "password", ascii "it's=me")] :=
  (standby_reads_its_primary (passwordRequest (ascii "it's=me")) (by decide +kernel)).2
    ⟨⟨by decide, by decide, by decide +kernel⟩, .inr ⟨by decide, by decide, by decide +kernel⟩,
      .inr ⟨by decide, by decide, by decide +kernel⟩⟩

/-- A space in the password ends it, and what follows is no parameter; a
backslash before another byte is lost. -/
theorem password_with_space_refused :
    readPrimary (passwordRequest (ascii "se cret")).primaryLine = none ∧
    readPrimary (passwordRequest (ascii "se\\cret")).primaryLine =
      some [(ascii "host", ascii "db1"), (ascii "port", ascii "5432"),
        (ascii "user", ascii "repl"), (ascii "password", ascii "secret")] := by
  decide +kernel

end Pontus.Agent
