import Pontus.Lib.Sql
import Pontus.Proxy.Proofs.ConsoleSession

/-!
# What the console may say next

The protocol prescribes which messages answer which: a simple query gets one
result and one ReadyForQuery, an error in the extended protocol is reported once
and then nothing is answered until Sync.  `Prescribed` is that grammar, on the
types of the messages, and a session of the console is held against it message
by message.
-/

namespace Pontus.Proxy

open Pontus.Lib Pontus.Protocol

/-! ## Messages -/

def wire (messages : List (UInt8 × Bytes)) : Bytes :=
  messages.flatMap fun m => appendTagged [] m.1 m.2

theorem appendTagged_eq (dst : Bytes) (tag : UInt8) (body : Bytes) :
    appendTagged dst tag body = dst ++ wire [(tag, body)] := by
  simp [wire, appendTagged]

theorem wire_append (xs ys : List (UInt8 × Bytes)) : wire (xs ++ ys) = wire xs ++ wire ys :=
  List.flatMap_append

theorem head_wire (messages : List (UInt8 × Bytes)) :
    (wire messages).head? = (messages.map Prod.fst).head? := by
  cases messages with
  | nil => rfl
  | cons => rfl

theorem types_of_wire (h : wire messages = Frame.encodeAll frames)
    (hsize : (Frame.encodeAll frames).length < 2 ^ 32) :
    messages.map Prod.fst = frames.map Frame.tag := by
  induction messages generalizing frames with
  | nil =>
    rw [Frame.encodeAll_eq_nil.1 h.symm]
    rfl
  | cons m messages ih =>
    have hlen := congrArg List.length h
    simp only [wire, flatMap_cons, appendTagged, length_append, length_cons,
      nil_append, length_putU32] at hlen
    obtain ⟨f, hf⟩ : ∃ f : Frame, (f.tag, f.body) = m := ⟨⟨m.1, m.2, by omega⟩, rfl⟩
    cases hf
    have hencode : f.encode ++ wire messages = Frame.encodeAll frames := by
      rw [← h, Frame.encode, Nat.add_comm]
      rfl
    cases frames with
    | nil => exact absurd (append_eq_nil_iff.1 hencode).1 f.encode_ne_nil
    | cons =>
      obtain ⟨rfl, hrest⟩ := Frame.encode_append_inj hencode
      rw [map_cons, map_cons, ih hrest]
      rw [Frame.encodeAll_cons, length_append] at hsize
      omega

theorem foldl_wire (tag : UInt8) (f : α → Bytes) (xs : List α) (dst : Bytes) :
    xs.foldl (fun dst x => dst ++ wire [(tag, f x)]) dst =
      dst ++ wire (xs.map fun x => (tag, f x)) := by
  induction xs generalizing dst with
  | nil => exact (append_nil dst).symm
  | cons _ _ ih =>
    rw [foldl_cons, ih, append_assoc, ← wire_append]
    rfl

section
variable {r : ResultSet} (h : r.err = none)
include h

theorem sendRows_eq (formats : List UInt16) :
    ∃ messages, r.sendRows formats = .ok (wire messages) ∧ messages.map Prod.fst =
      List.replicate r.rows.length 'D'.toUInt8 ++ ['C'.toUInt8] := by
  simp only [ResultSet.sendRows, h, ResultSet.appendRows, foldl_wire, appendTagged_eq,
    nil_append, ← wire_append]
  exact ⟨_, rfl, by simp [Function.comp_def]⟩

theorem send_eq :
    ∃ messages, r.send = .ok (wire messages) ∧ messages.map Prod.fst =
      'T'.toUInt8 :: (List.replicate r.rows.length 'D'.toUInt8 ++ ['C'.toUInt8]) ++
        ['Z'.toUInt8] := by
  simp only [ResultSet.send, h, ResultSet.appendRowDescription, ResultSet.appendRows,
    foldl_wire, appendTagged_eq, nil_append, ← wire_append]
  exact ⟨_, rfl, by simp [Function.comp_def]⟩

end

/-! ## The grammar -/

inductive QueryResult : Bytes → Prop
  | rows (n : Nat) : QueryResult ('T'.toUInt8 :: (List.replicate n 'D'.toUInt8 ++ ['C'.toUInt8]))
  | complete : QueryResult ['C'.toUInt8]
  | empty : QueryResult ['I'.toUInt8]
  | error : QueryResult ['E'.toUInt8]

/-- The types of the messages that may answer a message, `empty` when the
statement it is about is. -/
inductive Prescribed (empty : Bool) (body : Bytes) : UInt8 → Bytes → Prop
  | query {result : Bytes} (h : QueryResult result) :
    Prescribed empty body 'Q'.toUInt8 (result ++ ['Z'.toUInt8])
  | parse : Prescribed empty body 'P'.toUInt8 [tagParseComplete]
  | bind : Prescribed empty body 'B'.toUInt8 [tagBindComplete]
  | describe (shape : UInt8) (h : shape ∈ ['T'.toUInt8, tagNoData]) :
    Prescribed empty body 'D'.toUInt8
      ((if describeTarget body = 'S'.toUInt8 then ['t'.toUInt8] else []) ++ [shape])
  | execute (h : empty = false) (n : Nat) :
    Prescribed empty body 'E'.toUInt8 (List.replicate n 'D'.toUInt8 ++ ['C'.toUInt8])
  | executeEmpty (h : empty = true) : Prescribed empty body 'E'.toUInt8 ['I'.toUInt8]
  | close : Prescribed empty body 'C'.toUInt8 [tagCloseComplete]
  | flush : Prescribed empty body 'H'.toUInt8 []
  | sync : Prescribed empty body 'S'.toUInt8 ['Z'.toUInt8]
  | terminate : Prescribed empty body 'X'.toUInt8 []
  | error {tag : UInt8} (h : tag ∉ ascii "QHSX") (hexecute : tag = 'E'.toUInt8 → empty = false) :
    Prescribed empty body tag ['E'.toUInt8]

/-! ## Sessions -/

def ConsoleEnv.Recognises (env : ConsoleEnv) (sql : Bytes) : Prop :=
  (env.parseCommand sql).1 ∈ [] :: ConsoleEnv.probes ∨
    (env.parseCommand sql).1 = ascii "SHOW" ∧ (env.parseCommand sql).2 ∈
      [ascii "POOLS", ascii "DATABASES", ascii "CLIENTS", ascii "LISTS", ascii "CONFIG",
        ascii "VERSION", ascii "HELP", [], ascii "STATS", ascii "STATS_TOTALS", ascii "TOTALS",
        ascii "SERVERS"]

/-- A message, with what the console finds when it arrives.  The `SHOW`s give
every row as many values as it has columns. -/
structure Incoming where
  env : ConsoleEnv
  tag : UInt8
  body : Bytes
  shows : ∀ topic, (env.shows topic).err = none

structure ConsoleTalk where
  portal : ExtendedPortal
  reported : Bool

namespace ConsoleTalk

def new : ConsoleTalk := ⟨.new, false⟩

def written (s : ConsoleTalk) (m : Incoming) : Bytes := (serveOne m.env s.portal m.tag m.body).2

def step (s : ConsoleTalk) (m : Incoming) : Option ConsoleTalk :=
  (serveOne m.env s.portal m.tag m.body).1.map fun portal =>
    ⟨portal, m.tag != 'S'.toUInt8 && (s.reported ||
      (m.tag != 'Q'.toUInt8 && (s.written m).head? == some 'E'.toUInt8))⟩

/-- The statement last parsed is empty: there is nothing in it but white space,
comments and semicolons. -/
def isEmpty (s : ConsoleTalk) : Bool := Sql.statements s.portal.query == []

/-- Behind an error nothing is answered until Sync; otherwise the answer is one
that the grammar has. -/
def Grammatical (s : ConsoleTalk) (m : Incoming) : Prop :=
  if s.reported = true ∧ m.tag ≠ 'S'.toUInt8 then s.written m = []
  else ∃ messages, s.written m = wire messages ∧
    Prescribed s.isEmpty m.body m.tag (messages.map Prod.fst)

/-- What the console is asked can be answered: a message that is neither
skipped nor the last fits, a simple query holds a command of the console, the
counts in a Bind are not negative, and the statement an Execute runs is not
empty. -/
def Allowed (s : ConsoleTalk) (m : Incoming) : Prop :=
  m.tag ≠ 'X'.toUInt8 → (s.reported = true → m.tag = 'S'.toUInt8) →
    4 + m.body.length ≤ maxCommandBytes ∧
    (m.tag = 'Q'.toUInt8 → m.env.Recognises (queryText m.body)) ∧
    (m.tag = 'B'.toUInt8 → decodeBindResultFormats m.body ≠ .error .panics) ∧
    (m.tag = 'E'.toUInt8 → s.isEmpty = false)

instance (s : ConsoleTalk) (m : Incoming) : Decidable (s.Allowed m) := by
  unfold Allowed ConsoleEnv.Recognises
  infer_instance

end ConsoleTalk

/-! ## One message -/

def ExtendedPortal.Sound (portal : ExtendedPortal) : Prop :=
  ∀ reply ∈ portal.prepared, ∀ rows ∈ reply.rows, rows.err = none

/-- A message was answered as the grammar has it, and the portal knows of an
error that was reported. -/
def Told (empty : Bool) (tag : UInt8) (body : Bytes) (d : Dispatched) : Prop :=
  d.portal.Sound ∧ ∃ messages, d.written = wire messages ∧
    Prescribed empty body tag (messages.map Prod.fst) ∧
    d.portal.failed = (tag != 'S'.toUInt8 && (tag != 'Q'.toUInt8 &&
      (messages.map Prod.fst).head? == some 'E'.toUInt8))

section
variable {env : ConsoleEnv} {portal : ExtendedPortal} {empty : Bool} {tag : UInt8} {body : Bytes}

theorem told_failExtended (hsound : portal.Sound) (htag : tag ∉ ascii "QHSX")
    (hexecutes : tag = 'E'.toUInt8 → empty = false) (code message : Bytes) :
    Told empty tag body (portal.failExtended code message) := by
  refine ⟨hsound, [('E'.toUInt8, _)], appendTagged_eq [] 'E'.toUInt8 _, .error htag hexecutes, ?_⟩
  have hsync : tag ≠ 'S'.toUInt8 := by
    rintro rfl
    exact htag (by decide)
  have hquery : tag ≠ 'Q'.toUInt8 := by
    rintro rfl
    exact htag (by decide)
  simp [ExtendedPortal.failExtended, ExtendedPortal.answered, hsync, hquery]

theorem told_answered (hsound : portal.Sound) (hpre : Prescribed empty body tag [answer])
    (hanswer : answer ≠ 'E'.toUInt8) (hopen : portal.failed = false) :
    Told empty tag body (portal.answered (appendTagged [] answer content)) := by
  refine ⟨hsound, [(answer, content)], appendTagged_eq [] answer content, hpre, ?_⟩
  simp [ExtendedPortal.answered, hopen, hanswer]

theorem showReply_rows (h : env.showReply what = .ok reply) :
    ∃ topic, reply = env.rowsOf topic := by
  iterate 9
    rcases ite_eq_iff.1 h with ⟨-, h⟩ | ⟨-, h⟩
    · cases h
      exact ⟨_, rfl⟩
  cases h

theorem answer_sound (hshows : ∀ topic, (env.shows topic).err = none)
    (h : env.answer sql = .ok reply) : ∀ rows ∈ reply.rows, rows.err = none := by
  unfold ConsoleEnv.answer at h
  dsimp only at h
  split_ifs at h
  · cases h
    rintro rows ⟨⟩
  · obtain ⟨topic, rfl⟩ := showReply_rows h
    rintro rows ⟨⟩
    exact hshows topic
  · cases h
    rintro rows ⟨⟩

theorem answer_recognised (h : env.Recognises sql) : ∃ reply, env.answer sql = .ok reply := by
  cases hanswer : env.answer sql with
  | ok reply => exact ⟨reply, rfl⟩
  | error =>
    exfalso
    unfold ConsoleEnv.answer at hanswer
    dsimp only at hanswer
    split_ifs at hanswer with hnil hshow hprobe
    · rcases h with hverb | ⟨-, htopic⟩
      · rw [hshow] at hverb
        exact absurd hverb (by decide)
      · iterate 9
          rcases ite_eq_iff.1 hanswer with ⟨-, hanswer⟩ | ⟨_, hanswer⟩
          · cases hanswer
        simp_all
    · rcases h with hverb | ⟨hshow', -⟩
      · rcases mem_cons.1 hverb with hverb | hverb
        · exact hnil hverb
        · exact hprobe hverb
      · exact hshow hshow'

variable (hsound : portal.Sound) (hshows : ∀ topic, (env.shows topic).err = none)
include hsound hshows

theorem prepare_sound (h : portal.prepare env = .ok (reply, portal')) :
    portal'.Sound ∧ portal'.failed = portal.failed ∧ ∀ rows ∈ reply.rows, rows.err = none := by
  unfold ExtendedPortal.prepare at h
  split at h
  · rename_i kept hkept
    cases h
    exact ⟨hsound, rfl, hsound reply hkept⟩
  · split at h
    · cases h
    · rename_i answer hanswer
      cases h
      have hrows := answer_sound hshows hanswer
      refine ⟨?_, rfl, hrows⟩
      rintro _ ⟨⟩
      exact hrows

theorem told_simpleQuery (hopen : portal.failed = false) (h : env.Recognises sql) :
    Told empty 'Q'.toUInt8 body (portal.simpleQuery env sql) := by
  obtain ⟨reply, hreply⟩ := answer_recognised h
  have hrows := answer_sound hshows hreply
  simp only [ExtendedPortal.simpleQuery, hreply]
  cases hsome : reply.rows with
  | none =>
    dsimp only
    split
    · refine ⟨hsound, [('I'.toUInt8, []), ('Z'.toUInt8, [txIdle])], ?_, .query .empty, hopen⟩
      simp [ExtendedPortal.answered, writeEmptyQuery, wire, appendTagged]
    · refine ⟨hsound, [('C'.toUInt8, reply.tag ++ [0]), ('Z'.toUInt8, [txIdle])], ?_,
        .query .complete, hopen⟩
      simp [ExtendedPortal.answered, writeCommandComplete, writeCommandTag, wire, appendTagged]
  | some rows =>
    obtain ⟨messages, hsend, htypes⟩ := send_eq (hrows rows hsome)
    simp only [hsend]
    refine ⟨hsound, messages, rfl, ?_, hopen⟩
    rw [htypes]
    exact .query (.rows rows.rows.length)

theorem told_describe (hopen : portal.failed = false) :
    Told empty 'D'.toUInt8 body (portal.describe env (describeTarget body)) := by
  cases hprepared : portal.prepare env with
  | error =>
    simp only [ExtendedPortal.describe, hprepared]
    exact told_failExtended hsound (by decide) (by rintro ⟨⟩) _ _
  | ok prepared =>
    obtain ⟨reply, portal'⟩ := prepared
    obtain ⟨hsound', hfail, hrows⟩ := prepare_sound hsound hshows hprepared
    have hfront : ∃ front, (if describeTarget body = 'S'.toUInt8 then writeParameterDescription 0
        else []) = wire front ∧ front.map Prod.fst =
          if describeTarget body = 'S'.toUInt8 then ['t'.toUInt8] else [] := by
      split
      · exact ⟨[(_, _)], appendTagged_eq [] 't'.toUInt8 _, rfl⟩
      · exact ⟨[], rfl, rfl⟩
    obtain ⟨front, hwritten, htypes⟩ := hfront
    have htold (shape : UInt8) (content : Bytes) (hshape : shape ∈ ['T'.toUInt8, tagNoData]) :
        Told empty 'D'.toUInt8 body (portal'.answered (wire front ++
          appendTagged [] shape content)) := by
      refine ⟨hsound', front ++ [(shape, content)], ?_, ?_, ?_⟩
      · rw [appendTagged_eq, nil_append, wire_append]
        rfl
      · rw [map_append, htypes]
        exact .describe shape hshape
      · refine (hfail.trans hopen).trans ?_
        rw [map_append, htypes]
        split
        · rfl
        · simp only [mem_cons, not_mem_nil, or_false] at hshape
          rcases hshape with rfl | rfl <;> rfl
    simp only [ExtendedPortal.describe, hprepared, hwritten]
    cases hsome : reply.rows with
    | none => exact htold tagNoData [] (by decide)
    | some rows =>
      simp only [ResultSet.description, hrows rows hsome, ExtendedPortal.sent]
      exact htold 'T'.toUInt8 _ (by decide)

theorem told_execute (hopen : portal.failed = false) (hempty : empty = false) :
    Told empty 'E'.toUInt8 body (portal.execute env) := by
  cases hprepared : portal.prepare env with
  | error =>
    simp only [ExtendedPortal.execute, hprepared]
    exact told_failExtended hsound (by decide) (fun _ => hempty) _ _
  | ok prepared =>
    obtain ⟨reply, portal'⟩ := prepared
    obtain ⟨hsound', hfail, hrows⟩ := prepare_sound hsound hshows hprepared
    simp only [ExtendedPortal.execute, hprepared]
    cases hsome : reply.rows with
    | none => exact told_answered hsound' (.execute hempty 0) (by decide) (hfail.trans hopen)
    | some rows =>
      obtain ⟨messages, hsend, htypes⟩ := sendRows_eq (hrows rows hsome) portal'.formats
      simp only [hsend]
      refine ⟨hsound', messages, rfl, ?_, ?_⟩
      · rw [htypes]
        exact .execute hempty _
      · rw [htypes]
        refine (hfail.trans hopen).trans ?_
        cases rows.rows.length with
        | zero => rfl
        | succ => rfl

theorem told_dispatch (hskipped : portal.failed → tag = 'S'.toUInt8)
    (hquery : tag = 'Q'.toUInt8 → env.Recognises (queryText body))
    (hbind : tag = 'B'.toUInt8 → decodeBindResultFormats body ≠ .error .panics)
    (hexecutes : tag = 'E'.toUInt8 → empty = false) (hterminate : tag ≠ 'X'.toUInt8) :
    Told empty tag body (portal.dispatch env tag body) := by
  have hopen (hsync : tag ≠ 'S'.toUInt8) : portal.failed = false := by
    rw [← not_eq_true]
    exact fun hfail => hsync (hskipped hfail)
  rw [ExtendedPortal.dispatch, if_neg (fun h => h.2 (hskipped h.1))]
  split_ifs with hQ hP hB hD hE hC hH hS
  · subst hQ
    exact told_simpleQuery hsound hshows (hopen (by decide)) (hquery rfl)
  · subst hP
    split
    · exact told_failExtended hsound (by decide) (by rintro ⟨⟩) _ _
    · exact told_answered (by rintro _ ⟨⟩) .parse (by decide) (hopen (by decide))
  · subst hB
    split
    · exact told_failExtended hsound (by decide) (by rintro ⟨⟩) _ _
    · exact absurd ‹_› (hbind rfl)
    · exact told_answered hsound .bind (by decide) (hopen (by decide))
  · subst hD
    exact told_describe hsound hshows (hopen (by decide))
  · subst hE
    exact told_execute hsound hshows (hopen (by decide)) (hexecutes rfl)
  · subst hC
    exact told_answered hsound .close (by decide) (hopen (by decide))
  · subst hH
    exact ⟨hsound, [], rfl, .flush, hopen (by decide)⟩
  · subst hS
    exact ⟨hsound, [('Z'.toUInt8, _)], appendTagged_eq [] 'Z'.toUInt8 _, .sync, rfl⟩
  · apply told_failExtended hsound ?_ (fun h => absurd h hE)
    rw [show ascii "QHSX" = ['Q'.toUInt8, 'H'.toUInt8, 'S'.toUInt8, 'X'.toUInt8] from rfl]
    simp [hQ, hH, hS, hterminate]

end

/-! ## The session -/

namespace ConsoleTalk

variable {s s' : ConsoleTalk} {m : Incoming}

structure Sound (s : ConsoleTalk) : Prop where
  portal : s.portal.Sound
  failed : s.portal.failed = s.reported

theorem serveOne_eq (hfits : 4 + m.body.length ≤ maxCommandBytes)
    (hterminate : m.tag ≠ 'X'.toUInt8) :
    s.written m = (s.portal.dispatch m.env m.tag m.body).written := by
  rw [written, serveOne, if_neg (Nat.not_lt.2 hfits), if_neg hterminate]

theorem dispatch_skipped (hs : s.Sound) (hskip : s.reported ∧ m.tag ≠ 'S'.toUInt8) :
    s.portal.dispatch m.env m.tag m.body = s.portal.answered [] := by
  rw [ExtendedPortal.dispatch, if_pos ⟨hs.failed.trans hskip.1, hskip.2⟩]

section
variable (hs : s.Sound) (hallowed : s.Allowed m)
include hs hallowed

theorem told_of_allowed (hskip : ¬(s.reported ∧ m.tag ≠ 'S'.toUInt8))
    (hterminate : m.tag ≠ 'X'.toUInt8) :
    4 + m.body.length ≤ maxCommandBytes ∧
      Told s.isEmpty m.tag m.body (s.portal.dispatch m.env m.tag m.body) := by
  have hsync (hreported : s.reported = true) : m.tag = 'S'.toUInt8 :=
    not_not.1 fun hne => hskip ⟨hreported, hne⟩
  obtain ⟨hfits, hquery, hbind, hexecutes⟩ := hallowed hterminate hsync
  refine ⟨hfits, told_dispatch hs.portal m.shows ?_ hquery hbind hexecutes hterminate⟩
  rw [hs.failed]
  exact hsync

theorem grammatical_of_allowed : s.Grammatical m := by
  unfold Grammatical
  split_ifs with hskip
  · rw [written, serveOne, dispatch_skipped hs hskip]
    split_ifs <;> rfl
  · by_cases hterminate : m.tag = 'X'.toUInt8
    · refine ⟨[], ?_, ?_⟩
      · rw [written, serveOne, if_pos hterminate]
        split_ifs <;> rfl
      · rw [hterminate]
        exact .terminate
    · obtain ⟨hfits, -, messages, hwritten, hpre, -⟩ := told_of_allowed hs hallowed hskip hterminate
      exact ⟨messages, (serveOne_eq hfits hterminate).trans hwritten, hpre⟩

theorem sound_step (h : s.step m = some s') : s'.Sound := by
  obtain ⟨portal, hportal, rfl⟩ := map_eq_some_iff.1 h
  have hterminate : m.tag ≠ 'X'.toUInt8 := by
    intro htag
    rw [serveOne, if_pos htag] at hportal
    split_ifs at hportal
  rw [serveOne_portal hportal]
  by_cases hskip : s.reported = true ∧ m.tag ≠ 'S'.toUInt8
  · rw [dispatch_skipped hs hskip]
    refine ⟨hs.portal, ?_⟩
    simp [ExtendedPortal.answered, hs.failed, hskip.1, hskip.2]
  · obtain ⟨hfits, hsound, messages, hwritten, -, hfail⟩ :=
      told_of_allowed hs hallowed hskip hterminate
    refine ⟨hsound, ?_⟩
    rw [hfail, serveOne_eq hfits hterminate, hwritten, head_wire]
    by_cases hsync : m.tag = 'S'.toUInt8
    · simp [hsync]
    · have hreported : s.reported = false := by
        rw [← not_eq_true]
        exact fun hreported => hskip ⟨hreported, hsync⟩
      simp [hreported]

end

/-- **The console speaks by the grammar** in every session in which it is asked
what it can answer. -/
theorem console_grammatical {messages : List Incoming} (h : Along step Allowed .new messages) :
    Along step Grammatical .new messages := by
  apply Along.of_invariant (fun _ _ => grammatical_of_allowed) (fun _ _ _ => sound_step) ?_ h
  refine ⟨?_, rfl⟩
  rintro _ ⟨⟩

/-! ### What is said -/

def message (tag : Char) (body : Bytes) : Incoming where
  env := ConsoleSession.found (ascii "7")
  tag := tag.toUInt8
  body := body
  shows topic := by cases topic <;> rfl

def conversation : List Incoming :=
  [message 'Q' (ascii "show version;" ++ [0]),
    message 'P' (0 :: (ascii "show clients" ++ [0, 0, 0])),
    message 'B' [0, 0, 0, 0, 0, 0, 0, 0], message 'D' ['S'.toUInt8, 0], message 'E' [0, 0, 0, 0, 0],
    message 'P' (0 :: (ascii "vacuum" ++ [0, 0, 0])), message 'E' [0, 0, 0, 0, 0],
    message 'Q' (ascii "vacuum"),
    message 'S' [], message 'Q' (ascii " ;;"), message 'X' []]

theorem conversation_grammatical :
    Along step Allowed .new conversation ∧ Along step Grammatical .new conversation ∧
      (run step .new conversation.dropLast).isSome = true := by
  have h : Along step Allowed .new conversation ∧
      (run step .new conversation.dropLast).isSome = true := by decide +kernel
  exact ⟨h.1, console_grammatical h.1, h.2⟩

theorem eq_error_of_result (h : QueryResult result) (herror : result.head? = some 'E'.toUInt8) :
    result = ['E'.toUInt8] := by
  cases h with
  | error => rfl
  | rows n | complete | empty => exact absurd (Option.some.inj herror) (by decide)

theorem query_of_prescribed (h : Prescribed empty body tag types) (htag : tag = 'Q'.toUInt8) :
    ∃ result, QueryResult result ∧ types = result ++ ['Z'.toUInt8] := by
  cases h with
  | query h => exact ⟨_, h, rfl⟩
  | error h =>
    rw [htag] at h
    exact absurd (by decide) h
  | _ => exact absurd htag (by decide)

theorem executeEmpty_of_prescribed (h : Prescribed true body tag types) (htag : tag = 'E'.toUInt8) :
    types = ['I'.toUInt8] := by
  cases h with
  | executeEmpty => rfl
  | execute h => cases h
  | error _ hexecutes => cases hexecutes htag
  | _ => exact absurd htag (by decide)

def refusal : List Frame :=
  [⟨'E'.toUInt8, ascii "SERROR" ++ 0 :: (ascii "VERROR" ++ 0 :: (ascii "C42601" ++ 0 ::
      (ascii "Munrecognised console command: VACUUM; SHOW HELP lists what this console answers" ++
        [0, 0]))), by decide⟩,
    ⟨'C'.toUInt8, ascii "SHOW" ++ [0], by decide⟩, ⟨'Z'.toUInt8, [txIdle], by decide⟩]

def emptyStatement : List Incoming :=
  [message 'P' (0 :: (ascii ";" ++ [0, 0, 0])), message 'B' [0, 0, 0, 0, 0, 0, 0, 0]]

theorem console_ungrammatical :
    ¬Along step Grammatical .new [message 'Q' (ascii "vacuum" ++ [0])] ∧
      ¬Along step Grammatical .new (emptyStatement ++ [message 'E' [0, 0, 0, 0, 0]]) := by
  constructor
  · intro h
    obtain ⟨hwritten, hsize⟩ : new.written (message 'Q' (ascii "vacuum" ++ [0])) =
        Frame.encodeAll refusal ∧ (Frame.encodeAll refusal).length < 2 ^ 32 := by decide +kernel
    have hquery := h.1
    obtain ⟨messages, hmessages, hprescribed⟩ := hquery
    rw [types_of_wire (hmessages.symm.trans hwritten) hsize] at hprescribed
    obtain ⟨result, hresult, htypes⟩ := query_of_prescribed hprescribed rfl
    have hpair : ['E'.toUInt8, 'C'.toUInt8] = result := List.append_cancel_right htypes
    have herror := eq_error_of_result hresult (by rw [← hpair]; rfl)
    rw [← hpair] at herror
    cases herror
  · intro h
    obtain ⟨t, hrun, ht⟩ := exists_run (show (run step .new emptyStatement).any (fun t =>
      t.isEmpty && (!t.reported && (t.written (message 'E' [0, 0, 0, 0, 0])).head? ==
        some 'C'.toUInt8)) = true by decide +kernel)
    simp only [and_eq_true, not_eq_true', beq_iff_eq] at ht
    obtain ⟨hempty, hreported, hhead⟩ := ht
    have hexecute := (h.behind hrun).1
    rw [Grammatical, if_neg (by simp [hreported]), hempty] at hexecute
    obtain ⟨messages, hmessages, hprescribed⟩ := hexecute
    rw [hmessages, head_wire, executeEmpty_of_prescribed hprescribed rfl] at hhead
    cases hhead

end ConsoleTalk

end Pontus.Proxy
