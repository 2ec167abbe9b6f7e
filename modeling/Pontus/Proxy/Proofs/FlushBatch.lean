import Pontus.Protocol.Proofs.Answers
import Pontus.Proxy.Proofs.ReplyBoundary

/-!
# Batches ended by Flush

A batch without Sync has no terminator of its own, so its end is inferred from
the kind of its last answered message: a set of types with no count.  The
inference is right exactly when that kind occurs once, no function call brings a
ReadyForQuery of its own, and the answer's last message has no body to wait for.
-/

namespace Pontus.Proxy

open Lib Protocol Protocol.ReplyScanner Frame
open Protocol.TransactionState

variable {before after : List Frame} {m : Frame} {ending : ResponseEnd}

def AnswerEnd (reply : List Frame) (offset : Nat) : Prop :=
  ∃ before m after, reply = before ++ m :: after ∧ isAsync m = false ∧
    (∀ x ∈ after, isAsync x = true) ∧ offset = (Frame.encodeAll (before ++ [m])).length

def ReportsAnswer (ending : ResponseEnd) (reply : List Frame) : Prop :=
  ∀ d : Delivery, d.frames = reply → ∀ pre chunk post, d.chunks = pre ++ chunk :: post →
    ∀ offset, AnswerEnd reply offset →
      ((feed (feedAll (newReplyScanner ending) pre) chunk).2.1 = true ↔
        pre.flatten.length < offset ∧ offset ≤ pre.flatten.length + chunk.length)

def ReturnsUnread (ending : ResponseEnd) : Prop :=
  ∀ relay capture readOnly, ∃ r, proxyResponse none relay capture readOnly ending [] = some r

def FlushBatchAnswered (request reply : List Frame) : Prop :=
  ((∃ m ∈ request, producesReply m = true) →
      ReportsAnswer (responseEndFor (Frame.encodeAll request)) reply) ∧
    ((∀ m ∈ request, producesReply m = false) →
      ReturnsUnread (responseEndFor (Frame.encodeAll request)))

/-- The last answered message is the only one of its kind, nothing in the batch
is a function call, and the last message of its answer has no body. -/
def LoneBodilessEnd (request reply : List Frame) : Prop :=
  (∃ before last after, request = before ++ last :: after ∧ producesReply last = true ∧
      (∀ m ∈ after, producesReply m = false) ∧ ∀ m ∈ before, m.tag ≠ last.tag) ∧
    (∀ m ∈ request, m.tag ≠ feFunctionCal) ∧
    ∀ before m after, reply = before ++ m :: after → isAsync m = false →
      (∀ x ∈ after, isAsync x = true) → m.body = []

theorem answer_split_unique {before' after' : List Frame} {m' : Frame}
    (hsplit : before ++ m :: after = before' ++ m' :: after') (hm : isAsync m = false)
    (hm' : isAsync m' = false) (hafter : ∀ x ∈ after, isAsync x)
    (hafter' : ∀ x ∈ after', isAsync x) :
    before = before' ∧ m = m' := by
  apply last_split_unique (p := fun m => isAsync m = false) hsplit hm hm'
  · intro z hz
    rw [hafter z hz]
    decide
  · intro z hz
    rw [hafter' z hz]
    decide

theorem signalOf_lt {k : Nat} {sig : Signal} (h : signalOf ending m = some (k, sig)) :
    k < m.encode.length := by
  obtain ⟨hlt, -⟩ := List.getElem?_eq_some_iff.1 (byteSignals_getElem.2 h)
  rwa [length_byteSignals] at hlt

theorem ReportsAnswer.signal_at_end {reply : List Frame} (h : ReportsAnswer ending reply)
    {start k offset : Nat} {sig : Signal} (hstart : Frame.StartsAt reply start m)
    (hsignal : signalOf ending m = some (k, sig)) (hoffset : AnswerEnd reply offset) :
    start + k + 1 = offset := by
  have hget := streamSignals_getElem.2 ⟨start, m, k, hstart, hsignal, rfl⟩
  obtain ⟨hlt, -⟩ := List.getElem?_eq_some_iff.1 hget
  rw [length_streamSignals] at hlt
  -- One byte at a time, the read of the signal's byte is the one reported.
  obtain ⟨pre, chunk, post, hcut, _, _⟩ := Delivery.bytewise_cut reply hlt
  have hdone := (feed_done_iff ((Delivery.bytewise reply).split hcut)).2
    ⟨start, m, k, sig, hstart, hsignal, by omega, by omega⟩
  have hend := (h (Delivery.bytewise reply) rfl pre chunk post hcut offset hoffset).1 hdone
  omega

theorem ReportsAnswer.quiet_before {g : Frame} (h : ReportsAnswer ending (before ++ m :: after))
    (hm : isAsync m = false) (hafter : ∀ x ∈ after, isAsync x) (hg : g ∈ before) :
    signalOf ending g = none := by
  cases hsignal : signalOf ending g with
  | none => rfl
  | some ks =>
    obtain ⟨_, _⟩ := ks
    obtain ⟨xs, ys, rfl⟩ := List.append_of_mem hg
    have hstart : Frame.StartsAt (xs ++ g :: ys ++ m :: after) (Frame.encodeAll xs).length g :=
      ⟨xs, ys ++ m :: after, by simp, rfl⟩
    have hend := h.signal_at_end hstart hsignal ⟨_, m, after, rfl, hm, hafter, rfl⟩
    have hlt := signalOf_lt hsignal
    have hpos := m.length_encode
    simp only [encodeAll_append, encodeAll_cons, encodeAll_nil,
      length_append] at hend
    omega

theorem reportsAnswer_of_signal {f : Frame} (hf : isAsync f = false)
    (hafter : ∀ x ∈ after, isAsync x)
    (hsignal : signalOf ending f = some (4, .ended)) (hbody : f.body = [])
    (hquiet : ∀ g ∈ before ++ after, signalOf ending g = none) :
    ReportsAnswer ending (before ++ f :: after) := by
  intro d hframes _ _ _ hcut _ hoffset
  obtain ⟨_, _, _, hsplit, hm, hafter', rfl⟩ := hoffset
  obtain ⟨rfl, rfl⟩ := answer_split_unique hsplit hf hm hafter hafter'
  have hlen : (Frame.encodeAll (before ++ [f])).length = (Frame.encodeAll before).length + 5 := by
    rw [encodeAll_append, length_append, encodeAll_cons, encodeAll_nil,
      append_nil, length_encode, hbody]
    rfl
  rw [feed_done_iff (d.split hcut), hlen, hframes]
  constructor
  · intro h
    obtain ⟨_, g, _, _, hstart, hg, _, _⟩ := h
    obtain ⟨xs, _, hxs, rfl⟩ := hstart
    have hgf : xs = before ∧ g = f := by
      rcases split_cases hxs with ⟨hb, hg', -⟩ | ⟨_, -, hmid⟩ | ⟨_, hmid, -⟩
      · exact ⟨hb, hg'⟩
      · have hmem : g ∈ before ++ after := by rw [hmid]; simp
        rw [hquiet g hmem] at hg
        exact absurd hg (by simp)
      · have hmem : g ∈ before ++ after := by rw [hmid]; simp
        rw [hquiet g hmem] at hg
        exact absurd hg (by simp)
    obtain ⟨rfl, rfl⟩ := hgf
    rw [hsignal, some_inj, Prod.mk.injEq] at hg
    omega
  · intro _
    exact ⟨_, f, 4, .ended, ⟨before, after, rfl, rfl⟩, hsignal, by omega, by omega⟩

theorem answers_functionCall {q : Frame} (h : Answers q a) (hq : q.tag = feFunctionCal) :
    ∃ value ready, a = [value, ready] ∧ signalOf (batchEnd feFunctionCal) value = some (4, .ended) ∧
      ∀ ending, ∃ st, signalOf ending ready = some (5, .status st) := by
  cases h with
  | functionCall _ hvalue _ hready hstatus =>
    refine ⟨_, _, rfl, ?_, ?_⟩
    · apply signalOf_awaited
      · rw [hvalue]
        decide
      · rfl
      · rw [hvalue]
        decide
    · intro _
      obtain ⟨_, hb⟩ := List.length_eq_one_iff.1 hstatus
      rw [isReadyForQuery, beq_iff_eq] at hready
      rw [signalOf, if_pos hready, hb]
      exact ⟨_, rfl⟩
  | parse htag | bind htag | describeStatement htag | describePortal htag | execute htag
  | close htag | flush htag => rw [htag] at hq; exact absurd hq (by decide)

theorem mem_of_mem_answers (hbefore : before.filter (fun m => !isAsync m) = xs) (hg : g ∈ xs) :
    g ∈ before := by
  rw [← hbefore] at hg
  exact (mem_filter.1 hg).1

theorem not_returnsUnread (ending : ResponseEnd) : ¬ReturnsUnread ending := by
  intro h
  obtain ⟨_, hr⟩ := h none none true
  cases hr

section
variable {before after reply : List Frame} {q : Frame}
variable (hreply : RepliesTo (before ++ q :: after) reply)
variable (hquiet : ∀ m ∈ after, producesReply m = false)
include hreply hquiet

theorem not_functionCall_of_reports (h : ReportsAnswer (batchEnd q.tag) reply) :
    q.tag ≠ feFunctionCal := by
  intro hcall
  obtain ⟨as, _, -, ha, hfilter⟩ := hreply.last_answer hquiet
  obtain ⟨value, ready, rfl, hvalue, -⟩ := answers_functionCall ha hcall
  rw [show as.flatten ++ [value, ready] = (as.flatten ++ [value]) ++ [ready] by simp] at hfilter
  obtain ⟨b, _, rfl, hready, hb, hafter⟩ := filter_concat_split hfilter
  have hmem : value ∈ b := mem_of_mem_answers hb (by simp)
  have hnone := h.quiet_before hready hafter hmem
  rw [hcall, hvalue] at hnone
  exact absurd hnone (by simp)

theorem loneBodilessEnd_of_reports (hq : producesReply q)
    (h : ReportsAnswer (batchEnd q.tag) reply) : LoneBodilessEnd (before ++ q :: after) reply := by
  have hcall := not_functionCall_of_reports hreply hquiet h
  obtain ⟨as, _, has, ha, hfilter⟩ := hreply.last_answer hquiet
  obtain ⟨_, f, rfl, hsignal, -⟩ := ha.final hq hcall
  rw [← append_assoc] at hfilter
  obtain ⟨b, af, rfl, hf, hb, hafter⟩ := filter_concat_split hfilter
  have hsilent : ∀ m ∈ before, ∀ a', Answers m a' → (∀ g ∈ a', g ∈ as.flatten) →
      ∀ g ∈ a', signalOf (batchEnd q.tag) g = none := by
    intro m _ a' _ hsubset g hg
    exact h.quiet_before hf hafter (mem_of_mem_answers hb (mem_append_left _ (hsubset g hg)))
  refine ⟨⟨before, q, after, rfl, hq, hquiet, ?_⟩, ?_, ?_⟩
  · -- An earlier answer of the same kind would be taken for the end.
    intro m hm hsame
    obtain ⟨a', ha', hsubset⟩ := mem_flatten_of_answered has hm
    have hm' : producesReply m := by
      rw [producesReply_iff, hsame, ← producesReply_iff]
      exact hq
    obtain ⟨_, f', rfl, hsignal', -⟩ := ha'.final hm' (by rw [hsame]; exact hcall)
    have hnone := hsilent m hm _ ha' hsubset f' (by simp)
    rw [← hsame, hsignal'] at hnone
    exact absurd hnone (by simp)
  · intro m hm hcallm
    rcases mem_append.1 hm with hm | hm
    · obtain ⟨_, ha', hsubset⟩ := mem_flatten_of_answered has hm
      obtain ⟨_, ready, rfl, -, hready⟩ := answers_functionCall ha' hcallm
      obtain ⟨_, hstate⟩ := hready (batchEnd q.tag)
      have hnone := hsilent m hm _ ha' hsubset ready (by simp)
      rw [hstate] at hnone
      exact absurd hnone (by simp)
    · rcases mem_cons.1 hm with rfl | hm
      · exact hcall hcallm
      · have hproduces : producesReply m := by
          rw [producesReply_iff, hcallm]
          decide
        rw [hquiet m hm] at hproduces
        exact absurd hproduces (by decide)
  · -- The signal is the header's last byte, so nothing may follow the header.
    intro _ _ _ hsplit hm hafter'
    obtain ⟨rfl, rfl⟩ := answer_split_unique hsplit hf hm hafter hafter'
    have hend := h.signal_at_end ⟨b, af, rfl, rfl⟩ hsignal ⟨b, f, af, rfl, hf, hafter, rfl⟩
    rw [encodeAll_append, length_append, encodeAll_cons, encodeAll_nil,
      append_nil, length_encode] at hend
    exact List.eq_nil_of_length_eq_zero (by omega)

theorem reportsAnswer_of_lone (hq : producesReply q) (hlone : ∀ m ∈ before, m.tag ≠ q.tag)
    (hcalls : ∀ m ∈ before ++ q :: after, m.tag ≠ feFunctionCal)
    (hbody : ∀ b m af, reply = b ++ m :: af → isAsync m = false →
      (∀ x ∈ af, isAsync x = true) → m.body = []) : ReportsAnswer (batchEnd q.tag) reply := by
  have hkind := producesReply_iff.1 hq
  obtain ⟨as, _, has, ha, hfilter⟩ := hreply.last_answer hquiet
  obtain ⟨output, f, rfl, hsignal, houtput⟩ := ha.final hq (hcalls q (by simp))
  rw [← append_assoc] at hfilter
  obtain ⟨b, af, rfl, hf, hb, hafter⟩ := filter_concat_split hfilter
  apply reportsAnswer_of_signal hf hafter hsignal (hbody b f af rfl hf hafter)
  intro g hg
  by_cases hasync : isAsync g = true
  · exact signalOf_async hasync hkind
  · have hgb : g ∈ b := by
      rcases mem_append.1 hg with hg | hg
      · exact hg
      · exact absurd (hafter g hg) hasync
    have hgf : g ∈ as.flatten ++ output := by
      rw [← hb]
      exact mem_filter.2 ⟨hgb, by simpa using hasync⟩
    rcases mem_append.1 hgf with hgf | hgf
    · obtain ⟨m, hm, _, ha', hga⟩ := answered_of_mem_flatten has hgf
      exact ha'.signal_other hga hkind (hlone m hm) (hcalls m (by simp [hm]))
    · exact houtput g hgf

end

/-- **When a Flush-terminated batch ends at the right answer.** -/
theorem flush_batch_answered_iff (request reply : List Frame)
    (hextended : ∀ m ∈ request, isExtended m = true) (hreply : RepliesTo request reply) :
    FlushBatchAnswered request reply ↔ LoneBodilessEnd request reply := by
  have hend := responseEndFor_extended hextended
  constructor
  · intro h
    by_cases hany : ∃ m ∈ request, producesReply m = true
    · obtain ⟨before, q, after, rfl, hq, hafter⟩ := exists_last hany
      have hquiet : ∀ m ∈ after, producesReply m = false := fun m hm => by simpa using hafter m hm
      have hreports := h.1 hany
      rw [hend, lastAnswered_split 0 hq hquiet] at hreports
      exact loneBodilessEnd_of_reports hreply hquiet hq hreports
    · have hnone : ∀ m ∈ request, producesReply m = false := by
        intro m hm
        by_contra hm'
        exact hany ⟨m, hm, by simpa using hm'⟩
      exact absurd (h.2 hnone) (not_returnsUnread _)
  · intro h
    obtain ⟨⟨_, q, _, rfl, hq, hquiet, hlone⟩, hcalls, hbody⟩ := h
    constructor
    · intro _
      rw [hend, lastAnswered_split 0 hq hquiet]
      exact reportsAnswer_of_lone hreply hquiet hq hlone hcalls hbody
    · intro hnone
      rw [hnone q (by simp)] at hq
      exact absurd hq (by decide)

def parseEmpty : Frame := ⟨feParse, [0, 0, 0, 0], by decide⟩

def parseComplete : Frame := ⟨'1'.toUInt8, [], Frame.size_nil⟩

theorem parse_flush_answered :
    FlushBatchAnswered [parseEmpty, flush] [parseComplete] := by
  have hreply : RepliesTo [parseEmpty, flush] [parseComplete] :=
    ⟨[[parseComplete], []], .cons (.parse rfl rfl rfl) (.cons (.flush rfl) .nil), rfl⟩
  apply (flush_batch_answered_iff _ _ (by decide) hreply).2
  refine ⟨⟨[], parseEmpty, [flush], rfl, by decide, by decide, by simp⟩, by decide, ?_⟩
  intro _ m _ hsplit _ _
  have hmem : m ∈ [parseComplete] := by rw [hsplit]; simp
  rw [mem_singleton.1 hmem]
  rfl

theorem second_parse_not_awaited :
    RepliesTo [parseEmpty, parseEmpty, flush] [parseComplete, parseComplete] ∧
      (feed (newReplyScanner (responseEndFor (Frame.encodeAll [parseEmpty, parseEmpty, flush])))
        parseComplete.encode).2.1 = true ∧
      ¬FlushBatchAnswered [parseEmpty, parseEmpty, flush] [parseComplete, parseComplete] := by
  have hdone : (feed
      (newReplyScanner (responseEndFor (Frame.encodeAll [parseEmpty, parseEmpty, flush])))
        parseComplete.encode).2.1 = true := by decide
  refine ⟨⟨[[parseComplete], [parseComplete], []], .cons (.parse rfl rfl rfl)
    (.cons (.parse rfl rfl rfl) (.cons (.flush rfl) .nil)), rfl⟩, hdone, ?_⟩
  intro h
  have hreports := h.1 ⟨parseEmpty, by simp, by decide⟩
  let d : Delivery :=
    ⟨[parseComplete, parseComplete], [parseComplete.encode, parseComplete.encode], by decide, rfl⟩
  have hend : AnswerEnd [parseComplete, parseComplete] 10 :=
    ⟨[parseComplete], parseComplete, [], rfl, by decide, by simp, rfl⟩
  have hpos := (hreports d rfl [] parseComplete.encode [parseComplete.encode] rfl 10 hend).1 hdone
  exact absurd hpos.2 (by decide)

end Pontus.Proxy
