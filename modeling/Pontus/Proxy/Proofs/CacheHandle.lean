import Pontus.Proxy.Session

/-!
# What `Cache.Handle` makes of a request

The ways through `cacheHandle`, each with what it asks of the request.  The
proofs about lookups, evictions and stored replies go through `CacheHandled` and
do not open the function again.
-/

namespace Pontus.Proxy

open Lib Protocol

def Caching.answerable (enabled : Bool) (session : Session) : Bool :=
  enabled && session.normalized != [] && cacheable session.data && session.queryInfo.readOnly &&
    !(session.queryInfo.inTransaction || inTransaction session)

variable {hash : Bytes → Bytes} {enabled : Bool} {get : Bytes → Option CacheEntry} {s : Session}

variable (hash enabled get s) in
inductive CacheHandled : CacheStep → Prop
  | next : CacheHandled (.next s)
  | write (henabled : enabled = true) (hnormalized : s.normalized ≠ [])
      (hcacheable : cacheable s.data = true) (hwrite : s.queryInfo.readOnly = false) :
      CacheHandled (.write s)
  | hit {entry : CacheEntry} (hanswerable : Caching.answerable enabled s = true)
      (hget : get (cacheKey hash s) = some entry) : CacheHandled (.hit entry)
  | miss (hanswerable : Caching.answerable enabled s = true) (hget : get (cacheKey hash s) = none) :
      CacheHandled (.miss (cacheKey hash s)
        { s with responseCapture := some [], replyFailed := false })

theorem cacheHandled : CacheHandled hash enabled get s (cacheHandle hash enabled get s) := by
  unfold cacheHandle
  split
  · exact .next
  rename_i hon
  rw [not_eq_true, or_eq_false_iff, not_eq_false', beq_eq_false_iff_ne] at hon
  split
  · exact .next
  rename_i hcacheable
  rw [not_eq_true, not_eq_false'] at hcacheable
  split
  · rename_i hwrite
    rw [not_eq_true'] at hwrite
    exact .write hon.1 hon.2 hcacheable hwrite
  rename_i hread
  rw [not_eq_true, not_eq_false'] at hread
  split
  · exact .next
  rename_i houtside
  rw [not_eq_true] at houtside
  have hanswerable : Caching.answerable enabled s := by
    rw [Caching.answerable, hon.1, bne_iff_ne.2 hon.2, hcacheable, hread, houtside]
    rfl
  dsimp only
  split
  · rename_i hget
    exact .hit hanswerable hget
  · rename_i hget
    exact .miss hanswerable hget

theorem handled_of_eq (h : cacheHandle hash enabled get s = step) :
    CacheHandled hash enabled get s step := h ▸ cacheHandled

theorem answerable_of_hit (h : cacheHandle hash enabled get s = .hit entry) :
    Caching.answerable enabled s := by
  cases handled_of_eq h with
  | hit hanswerable => exact hanswerable

theorem get_of_hit (h : cacheHandle hash enabled get s = .hit entry) :
    get (cacheKey hash s) = some entry := by
  cases handled_of_eq h with
  | hit _ hget => exact hget

theorem hit_of_get (hanswerable : Caching.answerable enabled s)
    (h : get (cacheKey hash s) = some entry) : cacheHandle hash enabled get s = .hit entry := by
  simp only [Caching.answerable, and_eq_true, bne_iff_ne, not_eq_true'] at hanswerable
  obtain ⟨⟨⟨⟨henabled, hnormalized⟩, hcacheable⟩, hreadOnly⟩, houtside⟩ := hanswerable
  unfold cacheHandle
  dsimp only
  rw [henabled, hcacheable, hreadOnly, houtside, h, Bool.not_true, Bool.false_or,
    beq_eq_false_iff_ne.2 hnormalized]
  rfl

end Pontus.Proxy
