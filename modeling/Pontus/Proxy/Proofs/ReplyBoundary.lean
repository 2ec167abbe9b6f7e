import Pontus.Proxy.Proofs.Response

/-!
# Where a reply is left

A connection can be handed on only if the reply was read to the end of a
message.  The scanner reports the end at one byte of the ending message, its
fifth byte or the status byte of a ReadyForQuery, while the rest of the body may
still be on its way; so the reply is left at a boundary exactly when no read
that holds such a byte stops inside a message.
-/

namespace Pontus.Proxy

open Lib Protocol Protocol.ReplyScanner
open Protocol.TransactionState

def bytesRead (passes : List Pass) (r : Response) : Nat :=
  ((passes.take (passes.length - r.unread.length)).map Pass.data).flatten.length

theorem feedAll_filter (s : ReplyScanner) (chunks : List Bytes) :
    feedAll s (chunks.filter (· ≠ [])) = feedAll s chunks := by
  induction chunks generalizing s with
  | nil => rfl
  | cons chunk _ ih =>
    by_cases hchunk : chunk = []
    · subst hchunk
      exact ih s
    · rw [filter_cons_of_pos (by simpa using hchunk), feedAll_cons, feedAll_cons]
      exact ih _

theorem Pass.chunks_split (hp : p.data ≠ []) :
    Pass.chunks (pre ++ p :: post) = Pass.chunks pre ++ p.data :: Pass.chunks post := by
  unfold Pass.chunks
  rw [map_append, filter_append, map_cons, filter_cons_of_pos (by simpa using hp)]

theorem bytesRead_split :
    bytesRead (pre ++ p :: r.unread) r = (pre.map Pass.data).flatten.length + p.data.length := by
  have hlen : (pre ++ p :: r.unread).length - r.unread.length = (pre ++ [p]).length := by
    simp only [length_append, length_cons, length_nil]
    omega
  have hsplit : pre ++ p :: r.unread = (pre ++ [p]) ++ r.unread := by simp
  unfold bytesRead
  rw [hlen, hsplit, take_left]
  simp

theorem proxyResponse_reads {setDeadline relay : Option NetError} {capture : Option ResponseCapture}
    {readOnly : Bool} {ending : ResponseEnd} {passes : List Pass} {r : Response}
    (h : proxyResponse setDeadline relay capture readOnly ending passes = some r)
    (herr : r.err = none) :
    ∃ pre chunk post, Pass.chunks passes = pre ++ chunk :: post ∧
      Unfinished (newReplyScanner ending) pre ∧
      (feed (feedAll (newReplyScanner ending) pre) chunk).2.1 ∧
      r.state = midSequenceState (feed (feedAll (newReplyScanner ending) pre) chunk).2.2 ending ∧
      bytesRead passes r = pre.flatten.length + chunk.length := by
  obtain ⟨pre, p, hsplit, hends⟩ := proxyResponse_success h herr
  have hp : p.data ≠ [] := by
    intro hdata
    have hdone := hends.done
    rw [hdata, feed_nil] at hdone
    simp at hdone
  refine ⟨Pass.chunks pre, p.data, Pass.chunks r.unread, ?_, ?_, ?_, ?_, ?_⟩
  · rw [hsplit]
    exact Pass.chunks_split hp
  · intro pre' chunk _ hcut
    obtain ⟨xs, _, hxs, hpre', hchunk⟩ := List.filter_eq_append_iff.1 hcut
    obtain ⟨zs, ws, rfl, hzs, -, -⟩ := List.filter_eq_cons_iff.1 hchunk
    have hnone : zs.filter (· ≠ []) = [] := by
      rw [List.filter_eq_nil_iff]
      exact hzs
    have hfed : feedAll (newReplyScanner ending) pre' =
        feedAll (newReplyScanner ending) (xs ++ zs) := by
      rw [← feedAll_filter _ (xs ++ zs), filter_append, hpre', hnone, append_nil]
    rw [hfed]
    exact hends.unfinished (xs ++ zs) chunk ws (by rw [hxs]; simp)
  · unfold Pass.chunks
    rw [feedAll_filter]
    exact hends.done
  · unfold Pass.chunks
    rw [feedAll_filter]
    exact hends.state
  · unfold Pass.chunks
    rw [List.flatten_filter_ne_nil, ← bytesRead_split (r := r), ← hsplit]

def EndsAtBoundary (ending : ResponseEnd) (d : Delivery) : Prop :=
  ∀ pre chunk post, d.chunks = pre ++ chunk :: post →
    (feed (feedAll (newReplyScanner ending) pre) chunk).2.1 = true →
      AtRest (feed (feedAll (newReplyScanner ending) pre) chunk).1 ∧
        Frame.Boundary d.frames (pre.flatten.length + chunk.length)

def ReturnsAtBoundary (ending : ResponseEnd) (d : Delivery) : Prop :=
  ∀ setDeadline relay capture readOnly passes r, Pass.chunks passes = d.chunks →
    proxyResponse setDeadline relay capture readOnly ending passes = some r → r.err = none →
      Frame.Boundary d.frames (bytesRead passes r)

/-- No read that holds the byte at which a message ends the reply stops inside
a message. -/
def EndReadsAligned (ending : ResponseEnd) (d : Delivery) : Prop :=
  ∀ pre chunk post, d.chunks = pre ++ chunk :: post →
    ∀ start m k sig, Frame.StartsAt d.frames start m → signalOf ending m = some (k, sig) →
      pre.flatten.length ≤ start + k → start + k < pre.flatten.length + chunk.length →
        Frame.Boundary d.frames (pre.flatten.length + chunk.length)

theorem endsAtBoundary_of_aligned {ending : ResponseEnd} {d : Delivery}
    (h : EndReadsAligned ending d) : EndsAtBoundary ending d := by
  intro pre chunk post hcut hdone
  have hsplit := d.split hcut
  obtain ⟨start, m, k, sig, hstart, hsignal, hlo, hhi⟩ := (feed_done_iff hsplit).1 hdone
  have hboundary := h pre chunk post hcut start m k sig hstart hsignal hlo hhi
  exact ⟨(feed_atRest_iff hsplit).2 hboundary, hboundary⟩

theorem returnsAtBoundary_of_ends {ending : ResponseEnd} {d : Delivery}
    (h : EndsAtBoundary ending d) : ReturnsAtBoundary ending d := by
  intro _ _ _ _ _ _ hchunks hcall herr
  obtain ⟨pre, chunk, post, hcut, -, hdone, -, hread⟩ := proxyResponse_reads hcall herr
  rw [hread]
  exact (h pre chunk post (hchunks.symm.trans hcut) hdone).2

/-- **When a reply is consumed to a message boundary.** -/
theorem reply_ends_at_boundary_iff (ending : ResponseEnd) (d : Delivery) :
    (EndsAtBoundary ending d ∧ ReturnsAtBoundary ending d) ↔ EndReadsAligned ending d := by
  constructor
  · intro h pre chunk post hcut start m k sig hstart hsignal hlo hhi
    have hdone := (feed_done_iff (d.split hcut)).2 ⟨start, m, k, sig, hstart, hsignal, hlo, hhi⟩
    exact (h.1 pre chunk post hcut hdone).2
  · intro h
    have hends := endsAtBoundary_of_aligned h
    exact ⟨hends, returnsAtBoundary_of_ends hends⟩

def describeThenFlush : Bytes := ['D'.toUInt8, 0, 0, 0, 6, 'S'.toUInt8, 0, 'H'.toUInt8, 0, 0, 0, 4]

def splitRowDescription : Delivery where
  frames := [⟨'T'.toUInt8, [0, 0], by decide⟩]
  chunks := [['T'.toUInt8, 0, 0, 0, 6], [0, 0]]
  nonempty := by decide
  whole := by decide

theorem row_description_left_unread :
    ∃ r, proxyResponse none none none true (responseEndFor describeThenFlush)
          [⟨['T'.toUInt8, 0, 0, 0, 6], none, none⟩, ⟨[0, 0], none, none⟩] = some r ∧
      r.err = none ∧ r.unread = [⟨[0, 0], none, none⟩] ∧
      ¬EndsAtBoundary (responseEndFor describeThenFlush) splitRowDescription := by
  refine ⟨_, rfl, rfl, rfl, ?_⟩
  intro h
  have hrest := (h [] ['T'.toUInt8, 0, 0, 0, 6] [[0, 0]] rfl (by decide)).1.1
  exact absurd hrest (by decide)

end Pontus.Proxy
