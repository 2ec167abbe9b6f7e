import Pontus.Lib.Lists
import Pontus.Protocol.Proofs.ResponseEnd
import Pontus.Protocol.Proofs.ScannerFrames

/-!
# Answers as the scanner sees them

To the scanner an answer is the sequence of its message types.  The types of
different kinds of answers are disjoint, so in the reply to a batch only answers
of the last message's kind, and the ReadyForQuery of a function call, can be
taken for its end.
-/

namespace Pontus.Protocol

open Lib ReplyScanner

variable {q f : Frame} {a qs : List Frame} {as : List (List Frame)}

def answerTags (kind : UInt8) : Bytes :=
  if kind = feParse then ascii "1"
  else if kind = feBind then ascii "2"
  else if kind = feDescribe then ascii "tTn"
  else if kind = feExecute then ascii "DdcHGWCsI"
  else if kind = feClose then ascii "3"
  else if kind = feFunctionCal then ascii "VZ"
  else []

theorem Answers.mem_answerTags (h : Answers q a) (hf : f ∈ a) : f.tag ∈ answerTags q.tag := by
  cases h with
  | parse hq ha _ | bind hq ha _ | close hq ha _ =>
    rw [mem_singleton] at hf
    rw [hq, hf, ha]
    decide
  | describeStatement hq _ hparams _ hrow =>
    simp only [mem_cons, not_mem_nil, or_false] at hf
    rw [hq]
    rcases hf with rfl | rfl
    · rw [hparams]
      decide
    · rcases hrow with ⟨h, -⟩ | ⟨h, -⟩
      · rw [h]
        decide
      · rw [h]
        decide
  | describePortal hq _ hrow =>
    rw [mem_singleton] at hf
    rw [hq, hf]
    rcases hrow with ⟨h, -⟩ | ⟨h, -⟩
    · rw [h]
      decide
    · rw [h]
      decide
  | execute hq houtput hdone =>
    rw [hq]
    rw [mem_append, mem_singleton] at hf
    rcases hf with hf | rfl
    · have hout := houtput f hf
      rw [isExecuteOutput, contains_iff_mem] at hout
      exact mem_append_left (ascii "CsI") hout
    · rcases hdone with ⟨h, -⟩ | ⟨h | h, -⟩
      · rw [h]
        decide
      · rw [h]
        decide
      · rw [h]
        decide
  | functionCall hq hvalue _ hready =>
    simp only [mem_cons, not_mem_nil, or_false] at hf
    rw [hq]
    rcases hf with rfl | rfl
    · rw [hvalue]
      decide
    · rw [isReadyForQuery, beq_iff_eq] at hready
      rw [hready]
      decide
  | flush => simp at hf

def batchEnd (kind : UInt8) : ResponseEnd := ⟨false, terminatorsFor kind 0⟩

theorem signalOf_quiet {ending : ResponseEnd} (hready : f.tag ≠ 'Z'.toUInt8)
    (hawaited : ending.awaited f.tag = false) : signalOf ending f = none := by
  rw [signalOf, if_neg hready, hawaited]
  simp

theorem signalOf_awaited {ending : ResponseEnd} (hready : f.tag ≠ 'Z'.toUInt8)
    (hunit : ending.onReadyForQuery = false) (hawaited : ending.awaited f.tag) :
    signalOf ending f = some (4, .ended) := by
  rw [signalOf, if_neg hready, hawaited, hunit]
  simp

theorem Answers.signal_other (h : Answers q a) (hf : f ∈ a)
    (hkind : kind ∈ [feParse, feBind, feDescribe, feExecute, feClose, feFunctionCal])
    (hother : q.tag ≠ kind) (hcall : q.tag ≠ feFunctionCal) : signalOf (batchEnd kind) f =
    none := by
  have htable : [feParse, feBind, feDescribe, feExecute, feClose, feFunctionCal].all (fun kind =>
      [feParse, feBind, feDescribe, feExecute, feClose].all fun own => own == kind ||
        (answerTags own).all fun tag =>
          tag != 'Z'.toUInt8 && !(batchEnd kind).awaited tag) = true := by
    decide +kernel
  simp only [all_eq_true, or_eq_true, beq_iff_eq, and_eq_true, bne_iff_ne, not_eq_true'] at htable
  have hown : q.tag ∈ [feParse, feBind, feDescribe, feExecute, feClose] := by
    cases h with
    | parse hq | bind hq | describeStatement hq | describePortal hq | execute hq
    | close hq => rw [hq]; decide
    | functionCall hq => exact absurd hq hcall
    | flush => simp at hf
  have hquiet := (htable kind hkind q.tag hown).resolve_left hother f.tag (h.mem_answerTags hf)
  exact signalOf_quiet hquiet.1 hquiet.2

theorem signalOf_async (hasync : isAsync f)
    (hkind : kind ∈ [feParse, feBind, feDescribe, feExecute, feClose, feFunctionCal]) :
    signalOf (batchEnd kind) f = none := by
  have htable : [feParse, feBind, feDescribe, feExecute, feClose, feFunctionCal].all (fun kind =>
      (ascii "NAS").all fun tag => tag != 'Z'.toUInt8 && !(batchEnd kind).awaited tag) = true := by
    decide +kernel
  simp only [all_eq_true, and_eq_true, bne_iff_ne, not_eq_true'] at htable
  have htag : f.tag ∈ ascii "NAS" := by
    simp only [isAsync, or_eq_true, beq_iff_eq] at hasync
    rcases hasync with (h | h) | h
    · rw [h]; decide
    · rw [h]; decide
    · rw [h]; decide
  obtain ⟨hready, hawaited⟩ := htable kind hkind f.tag htag
  exact signalOf_quiet hready hawaited

/-- An answer ends in one message that ends the reply of a batch ended by its
kind, and raises nothing before it. -/
theorem Answers.final (h : Answers q a) (hq : producesReply q)
    (hcall : q.tag ≠ feFunctionCal) :
    ∃ output f, a = output ++ [f] ∧ signalOf (batchEnd q.tag) f = some (4, .ended) ∧
      ∀ g ∈ output, signalOf (batchEnd q.tag) g = none := by
  have hsignal : ∀ {f : Frame} {tag : UInt8}, f.tag = tag → tag ≠ 'Z'.toUInt8 →
      (batchEnd q.tag).awaited tag = true → signalOf (batchEnd q.tag) f = some (4, .ended) := by
    intro _ tag hf hready hawaited
    apply signalOf_awaited
    · rw [hf]
      exact hready
    · rfl
    · rw [hf]
      exact hawaited
  cases h with
  | parse htag ha _ | bind htag ha _ | close htag ha _ =>
    refine ⟨[], _, rfl, hsignal ha (by decide) ?_, by simp⟩
    rw [htag]
    decide
  | describeStatement htag _ hparams _ hrow =>
    refine ⟨[_], _, rfl, ?_, ?_⟩
    · rcases hrow with ⟨h, -⟩ | ⟨h, -⟩
      · refine hsignal h (by decide) ?_
        rw [htag]
        decide
      · refine hsignal h (by decide) ?_
        rw [htag]
        decide
    · intro g hg
      rw [mem_singleton] at hg
      rw [hg, htag]
      apply signalOf_quiet
      · rw [hparams]
        decide
      · rw [hparams]
        decide
  | describePortal htag _ hrow =>
    refine ⟨[], _, rfl, ?_, by simp⟩
    rcases hrow with ⟨h, -⟩ | ⟨h, -⟩
    · refine hsignal h (by decide) ?_
      rw [htag]
      decide
    · refine hsignal h (by decide) ?_
      rw [htag]
      decide
  | execute htag houtput hdone =>
    refine ⟨_, _, rfl, ?_, ?_⟩
    · rcases hdone with ⟨h, -⟩ | ⟨h | h, -⟩
      · refine hsignal h (by decide) ?_
        rw [htag]
        decide
      · refine hsignal h (by decide) ?_
        rw [htag]
        decide
      · refine hsignal h (by decide) ?_
        rw [htag]
        decide
    · intro g hg
      have hout := houtput g hg
      rw [isExecuteOutput, contains_iff_mem] at hout
      have htable : ∀ tag ∈ ascii "DdcHGW",
          tag ≠ 'Z'.toUInt8 ∧ (batchEnd feExecute).awaited tag = false := by
        decide +kernel
      rw [htag]
      exact signalOf_quiet (htable _ hout).1 (htable _ hout).2
  | functionCall htag => exact absurd htag hcall
  | flush htag =>
    rw [producesReply, htag] at hq
    simp at hq

theorem Answers.eq_nil (h : Answers q a) (hq : producesReply q = false) : a = [] := by
  have hcontra : ∀ {kind : UInt8}, q.tag = kind →
      kind ∈ [feParse, feBind, feDescribe, feExecute, feClose, feFunctionCal] → a = [] := by
    intro _ htag hkind
    rw [← htag] at hkind
    rw [producesReply_iff.2 hkind] at hq
    exact absurd hq (by decide)
  cases h with
  | parse htag | bind htag | describeStatement htag | describePortal htag | execute htag
  | close htag | functionCall htag => exact hcontra htag (by decide)
  | flush => rfl

theorem flatten_quiet (h : List.Forall₂ Answers qs as)
    (hquiet : ∀ m ∈ qs, producesReply m = false) :
    as.flatten = [] := by
  induction h with
  | nil => rfl
  | cons hqa _ ih =>
    rw [flatten_cons, hqa.eq_nil (hquiet _ (by simp)),
      ih (fun m hm => hquiet m (by simp [hm]))]
    rfl

theorem RepliesTo.last_answer (h : RepliesTo (before ++ q :: after) reply)
    (hquiet : ∀ m ∈ after, producesReply m = false) :
    ∃ as a, List.Forall₂ Answers before as ∧ Answers q a ∧
      reply.filter (fun m => !isAsync m) = as.flatten ++ a := by
  obtain ⟨_, hanswers, hreply⟩ := h
  obtain ⟨as, a, _, rfl, has, ha, hbs⟩ := forall₂_split hanswers
  refine ⟨as, a, has, ha, ?_⟩
  rw [hreply, List.flatten_append, flatten_cons, flatten_quiet hbs hquiet, append_nil]

theorem filter_concat_split (h : reply.filter (fun m => !isAsync m) = xs ++ [f]) :
    ∃ before after, reply = before ++ f :: after ∧ isAsync f = false ∧
      before.filter (fun m => !isAsync m) = xs ∧ ∀ x ∈ after, isAsync x := by
  obtain ⟨r₁, _, rfl, h₁, h₂⟩ := List.filter_eq_append_iff.1 h
  obtain ⟨l₁, l₂, rfl, hl₁, hf, hl₂⟩ := List.filter_eq_cons_iff.1 h₂
  refine ⟨r₁ ++ l₁, l₂, by simp, by simpa using hf, ?_, ?_⟩
  · rw [filter_append, h₁, List.filter_eq_nil_iff.2 hl₁, append_nil]
  · intro x hx
    have := List.filter_eq_nil_iff.1 hl₂ x hx
    simpa using this

theorem mem_flatten_of_answered (h : List.Forall₂ Answers qs as) (hq : q ∈ qs) :
    ∃ a, Answers q a ∧ ∀ f ∈ a, f ∈ as.flatten := by
  obtain ⟨a, hmem, ha⟩ := forall₂_exists h hq
  exact ⟨a, ha, fun f hf => List.mem_flatten.2 ⟨a, hmem, hf⟩⟩

theorem answered_of_mem_flatten (h : List.Forall₂ Answers qs as) (hf : f ∈ as.flatten) :
    ∃ q ∈ qs, ∃ a, Answers q a ∧ f ∈ a := by
  obtain ⟨a, hmem, hfa⟩ := List.mem_flatten.1 hf
  obtain ⟨q, hq, ha⟩ := forall₂_exists (List.Forall₂.flip (R := flip Answers) h) hmem
  exact ⟨q, hq, a, ha, hfa⟩

end Pontus.Protocol
