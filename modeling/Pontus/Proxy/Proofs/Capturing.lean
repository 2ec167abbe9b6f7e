import Pontus.Proxy.Capturing
import Pontus.Proxy.Proofs.Coherence
import Pontus.Proxy.Proofs.Ownership
import Pontus.Proxy.Proofs.Response

/-!
# Whose bytes are captured

The buffer set up by a cache miss stays with the session, and whatever is
executed next writes its reply behind the one that is there; past the bound the
buffer is emptied, and the request after that writes over the slice that was
stored.  A request that is a miss itself, or comes before the first one, has a
buffer of its own, and so has one that finds the buffer empty with nothing
stored of it.
-/

namespace Pontus.Proxy

open Lib Protocol Pool Buffer

/-! ## One reply -/

namespace HeapCapture

structure Ok (h : Heap UInt8) (c : HeapCapture) : Prop where
  valid : c.buffer.Valid h
  bound : c.buffer.length ≤ c.limit
  emptied : c.overflowed = true → c.buffer.length = 0

/-- What writing a reply does: the view changes as `responseCapture` says, and
slices apart from the buffer keep their contents. -/
structure Writes (h : Heap UInt8) (c : HeapCapture) (chunks : List Bytes) (h' : Heap UInt8)
    (c' : HeapCapture) : Prop where
  ok : c'.Ok h'
  view : c'.view h' = chunks.foldl ResponseCapture.write (c.view h)
  heap : h.length ≤ h'.length
  frame : ∀ s : Slice, s.array < h.length → c.buffer.Apart s → s.contents h' = s.contents h
  apart : ∀ s : Slice, s.array < h.length → c.buffer.Apart s →
    c'.overflowed = true ∨ c'.buffer.Apart s

variable {h : Heap UInt8} {c : HeapCapture}

theorem Writes.limit {c' : HeapCapture} (hwrites : Writes h c chunks h' c') :
    c'.limit = c.limit := by
  have hlimit := congrArg ResponseCapture.limit hwrites.view
  rw [foldl_write_limit] at hlimit
  exact hlimit

theorem write_writes (hc : c.Ok h) (chunk : Bytes) (spare : Nat) :
    Writes h c [chunk] (c.write h chunk spare).1 (c.write h chunk spare).2 := by
  have hlen := length_contents hc.valid
  unfold write
  split
  · rename_i hover
    refine ⟨hc, ?_, Nat.le_refl _, fun _ _ _ => rfl, fun _ _ _ => .inl hover⟩
    rw [foldl_cons, foldl_nil, ResponseCapture.write, HeapCapture.view, if_pos hover]
  rename_i hover
  split
  · rename_i hfull
    refine ⟨⟨valid_reset hc.valid, Nat.zero_le _, fun _ => rfl⟩, ?_, Nat.le_refl _,
      fun _ _ _ => rfl, fun _ _ _ => .inl rfl⟩
    rw [foldl_cons, foldl_nil, ResponseCapture.write, HeapCapture.view,
      HeapCapture.view, if_neg hover]
    rw [hlen, if_pos hfull, contents_reset]
  · rename_i hfits
    have happends := write_appends hc.valid chunk spare
    refine ⟨⟨happends.valid, ?_, fun htrue => absurd htrue hover⟩, ?_, happends.heap,
      happends.frame, fun s hs hapart => .inr (happends.apart s hs hapart)⟩
    · dsimp only
      rw [happends.length]
      omega
    · rw [foldl_cons, foldl_nil, ResponseCapture.write, HeapCapture.view,
        HeapCapture.view, if_neg hover]
      rw [hlen, if_neg hfits, happends.contents]

theorem write_overflowed (hover : c.overflowed) (chunk : Bytes) (spare : Nat) :
    c.write h chunk spare = (h, c) := by
  rw [write, if_pos hover]

theorem writeAll_overflowed (hover : c.overflowed) (chunks : List (Bytes × Nat)) :
    c.writeAll h chunks = (h, c) := by
  induction chunks with
  | nil => rfl
  | cons _ _ ih =>
    rw [writeAll, write_overflowed hover]
    exact ih

theorem writeAll_writes (hc : c.Ok h) (chunks : List (Bytes × Nat)) :
    Writes h c (chunks.map Prod.fst) (c.writeAll h chunks).1 (c.writeAll h chunks).2 := by
  induction chunks generalizing h c with
  | nil => exact ⟨hc, rfl, Nat.le_refl _, fun _ _ _ => rfl, fun _ _ hapart => .inr hapart⟩
  | cons first chunks ih =>
    obtain ⟨chunk, spare⟩ := first
    have hone := write_writes hc chunk spare
    have hrest := ih hone.ok
    rw [writeAll]
    -- once it has overflowed nothing is written, so the slices are safe there too
    have hstep : ∀ s : Slice, s.array < h.length → c.buffer.Apart s →
        s.contents ((c.write h chunk spare).2.writeAll (c.write h chunk spare).1 chunks).1 =
          s.contents (c.write h chunk spare).1 ∧
        (((c.write h chunk spare).2.writeAll (c.write h chunk spare).1 chunks).2.overflowed = true ∨
          ((c.write h chunk spare).2.writeAll (c.write h chunk spare).1 chunks).2.buffer.Apart
            s) := by
      intro s hs hapart
      have hs' := Nat.lt_of_lt_of_le hs hone.heap
      rcases hone.apart s hs hapart with hover | hapart'
      · rw [writeAll_overflowed hover]
        exact ⟨rfl, .inl hover⟩
      · exact ⟨hrest.frame s hs' hapart', hrest.apart s hs' hapart'⟩
    refine ⟨hrest.ok, ?_, Nat.le_trans hone.heap hrest.heap, ?_, ?_⟩
    · rw [hrest.view, hone.view]
      rfl
    · intro s hs hapart
      rw [(hstep s hs hapart).1, hone.frame s hs hapart]
    · intro s hs hapart
      exact (hstep s hs hapart).2

end HeapCapture

/-! ## Requests of a session -/

def captureLimit (limit : Int) : Nat := (newResponseCapture [] limit).limit

/-- A request that writes its reply to the session's buffer is a miss, or finds
the buffer empty and nothing stored of it, or overflows it. -/
def ownBuffer (limit : Int) (c : Capturing) (e : Exchange) : Bool :=
  e.step.isHit || e.step.isMiss || e.reply.isNone ||
    c.responseCapture.all fun b =>
      if b.length = 0 then c.stored.all fun stored => b.array != some stored.slice.array
      else decide (captureLimit limit < b.length + e.bytes.length)

namespace Capturing

def UsedOwn (c : Capturing) : Prop :=
  ∀ capture reply, c.used = some (capture, reply) →
    capture.overflowed = true ∧ capture.buffer.contents c.heap = [] ∨
      capture.overflowed = false ∧ capture.buffer.contents c.heap = reply

def Unchanged (c : Capturing) : Prop :=
  ∀ stored ∈ c.stored, stored.slice.contents c.heap = stored.bytes

structure Inv (limit : Int) (c : Capturing) : Prop where
  buffer : ∀ b, c.responseCapture = some b → b.Valid c.heap ∧ b.length ≤ captureLimit limit
  allocated : ∀ stored ∈ c.stored, stored.slice.array < c.heap.length
  unchanged : c.Unchanged
  apart : ∀ b, c.responseCapture = some b → b.length ≠ 0 → ∀ stored ∈ c.stored, b.Apart stored.slice

variable {limit : Int} {c c' : Capturing} {e : Exchange}

structure Ready (limit : Int) (c : Capturing) (e : Exchange) (b : Buffer) : Prop where
  valid : b.Valid c.heap
  bound : b.length ≤ captureLimit limit
  apart : ∀ stored ∈ c.stored, b.Apart stored.slice
  own : b.length = 0 ∨ captureLimit limit < b.length + e.bytes.length

theorem ready_new : Ready limit c e .new :=
  ⟨rfl, Nat.zero_le _, fun _ _ => .inl (by simp [Buffer.new]), .inl rfl⟩

theorem ready_of_captureOf (hinv : c.Inv limit) (hown : ownBuffer limit c e)
    (hhit : e.step.isHit = false) (hreply : e.reply.isNone = false)
    (h : captureOf limit (c.bufferFor e) e.led = some capture) :
    ∃ b, capture = .wrap b limit ∧ Ready limit c e b := by
  unfold captureOf bufferFor at h
  cases hmiss : e.step.isMiss with
  | true =>
    rw [hmiss, if_pos rfl] at h
    cases h
    exact ⟨.new, rfl, ready_new⟩
  | false =>
    rw [hmiss, if_neg Bool.false_ne_true] at h
    rw [ownBuffer, hhit, hmiss, hreply, Bool.false_or, Bool.false_or, Bool.false_or] at hown
    cases hbuffer : c.responseCapture with
    | none =>
      rw [hbuffer] at h
      dsimp only at h
      split at h
      · cases h
        exact ⟨.new, rfl, ready_new⟩
      · cases h
    | some b =>
      rw [hbuffer] at h hown
      cases h
      obtain ⟨hvalid, hbound⟩ := hinv.buffer b hbuffer
      rw [all_some] at hown
      split at hown
      · rename_i hempty
        refine ⟨b, rfl, hvalid, hbound, fun stored hstored => .inl ?_, .inl hempty⟩
        exact bne_iff_ne.1 (all_eq_true.1 hown stored hstored)
      · rename_i hsome
        exact ⟨b, rfl, hvalid, hbound, hinv.apart b hbuffer hsome, .inr (of_decide_eq_true hown)⟩

section
variable {b : Buffer} {chunks : List (Bytes × Nat)} {h' : Heap UInt8} {capture : HeapCapture}

theorem Ready.ok (h : Ready limit c e b) : (HeapCapture.wrap b limit).Ok c.heap :=
  ⟨h.valid, h.bound, nofun⟩

theorem Ready.usedOwn (h : Ready limit c e b) (hreply : e.reply = some chunks)
    (hwrites : HeapCapture.Writes c.heap (.wrap b limit) (chunks.map Prod.fst) h' capture) :
    capture.overflowed ∧ capture.buffer.contents h' = [] ∨
      capture.overflowed = false ∧ capture.buffer.contents h' = e.bytes := by
  have hbytes : (chunks.map Prod.fst).flatten = e.bytes := by
    rw [Exchange.bytes, hreply, getD_some]
  have hview := hwrites.view
  rcases foldl_write_cases (chunks.map Prod.fst)
    (c := (HeapCapture.wrap b limit).view c.heap) rfl with hnothing | ⟨hover, hbuffer⟩
  · rw [← hview] at hnothing
    exact .inl hnothing
  · rw [← hview] at hover hbuffer
    refine .inr ⟨hover, ?_⟩
    have hcontents : capture.buffer.contents h' = b.contents c.heap ++ e.bytes := by
      rw [← hbytes]
      exact hbuffer
    rcases h.own with hempty | _
    · have hnil : b.contents c.heap = [] :=
        List.eq_nil_of_length_eq_zero ((length_contents h.valid).trans hempty)
      rw [hcontents, hnil, nil_append]
    · -- past the bound the capture would have overflowed
      have hlen := length_contents hwrites.ok.valid
      rw [hcontents, length_append, length_contents h.valid] at hlen
      have hbound := hwrites.ok.bound
      have hlimit : capture.limit = captureLimit limit := hwrites.limit
      omega

theorem Ready.unchanged (h : Ready limit c e b) (hinv : c.Inv limit)
    (hwrites : HeapCapture.Writes c.heap (.wrap b limit) (chunks.map Prod.fst) h' capture) :
    ∀ stored ∈ c.stored, stored.slice.contents h' = stored.bytes := by
  intro stored hstored
  rw [hwrites.frame stored.slice (hinv.allocated stored hstored) (h.apart stored hstored)]
  exact hinv.unchanged stored hstored

theorem mem_storeReply {stored : StoredSlice} (h : stored ∈ c.storeReply e h' b) :
    stored ∈ c.stored ∨ b.length ≠ 0 ∧ b.array = some stored.slice.array ∧
      stored.slice.length = b.length ∧ stored.bytes = stored.slice.contents h' := by
  unfold storeReply at h
  split at h
  · rename_i hstores
    rcases mem_append.1 h with hnew | hold
    · rw [Option.mem_toList, map_eq_some_iff] at hnew
      obtain ⟨_, hslice, rfl⟩ := hnew
      obtain ⟨_, ha, rfl⟩ := map_eq_some_iff.1 hslice
      rw [and_eq_true, bne_iff_ne] at hstores
      exact .inr ⟨hstores.2, ha, rfl, rfl⟩
    · exact .inl hold
  · exact .inl h

/-- **A reply written to a buffer that is ready for it** leaves the session in
order. -/
theorem written_inv (hready : Ready limit c e b) (hinv : c.Inv limit)
    (hreply : e.reply = some chunks)
    (hwrites : HeapCapture.Writes c.heap (.wrap b limit) (chunks.map Prod.fst) h' capture) :
    Inv limit ⟨h', (c.bufferFor e).map fun _ => capture.buffer,
        c.storeReply e h' capture.buffer, some (capture, e.bytes)⟩ ∧
      UsedOwn ⟨h', (c.bufferFor e).map fun _ => capture.buffer,
        c.storeReply e h' capture.buffer, some (capture, e.bytes)⟩ := by
  have hvalid := hwrites.ok.valid
  have harray : ∀ {a}, capture.buffer.array = some a → a < h'.length := by
    intro _ ha
    unfold Buffer.Valid at hvalid
    rw [ha] at hvalid
    exact hvalid.1
  refine ⟨⟨?_, ?_, ?_, ?_⟩, ?_⟩
  · intro b' hb'
    obtain ⟨-, -, rfl⟩ := map_eq_some_iff.1 hb'
    exact ⟨hvalid, Nat.le_trans hwrites.ok.bound (Nat.le_of_eq hwrites.limit)⟩
  · intro stored hstored
    rcases mem_storeReply hstored with hold | ⟨-, ha, -⟩
    · exact Nat.lt_of_lt_of_le (hinv.allocated stored hold) hwrites.heap
    · exact harray ha
  · intro stored hstored
    rcases mem_storeReply hstored with hold | ⟨-, -, -, hbytes⟩
    · exact hready.unchanged hinv hwrites stored hold
    · exact hbytes.symm
  · intro _ hb' hsome stored hstored
    obtain ⟨-, -, rfl⟩ := map_eq_some_iff.1 hb'
    rcases mem_storeReply hstored with hold | ⟨-, -, hlen, -⟩
    · rcases hwrites.apart stored.slice (hinv.allocated stored hold) (hready.apart stored hold) with
        hover | hapart
      · exact absurd (hwrites.ok.emptied hover) hsome
      · exact hapart
    · exact .inr (Nat.le_of_eq hlen)
  · intro _ _ hused
    cases hused
    exact hready.usedOwn hreply hwrites

end

/-- **One request keeps its hands off what was stored, and its capture holds its
own reply.** -/
theorem step_own (hinv : c.Inv limit) (hown : ownBuffer limit c e)
    (hstep : c.step limit e = some c') : c'.Inv limit ∧ c'.UsedOwn := by
  unfold step at hstep
  split at hstep
  case isTrue =>
    cases hstep
    exact ⟨⟨hinv.buffer, hinv.allocated, hinv.unchanged, hinv.apart⟩,
      nofun⟩
  case isFalse hhit =>
    rw [not_eq_true] at hhit
    split at hstep
    · rename_i chunks capture hreply hcapture
      cases hstep
      obtain ⟨b, rfl, hready⟩ := ready_of_captureOf hinv hown hhit (by rw [hreply]; rfl) hcapture
      exact written_inv hready hinv hreply (HeapCapture.writeAll_writes hready.ok chunks)
    · cases hstep
      refine ⟨⟨?_, hinv.allocated, hinv.unchanged, ?_⟩, nofun⟩
      · intro b hb
        dsimp only [bufferFor] at hb
        split at hb
        · cases hb
          exact ⟨rfl, Nat.zero_le _⟩
        · exact hinv.buffer b hb
      · intro b hb hsome
        dsimp only [bufferFor] at hb
        split at hb
        · cases hb
          exact absurd rfl hsome
        · exact hinv.apart b hb hsome

theorem start_inv (limit : Int) : start.Inv limit :=
  ⟨nofun, nofun, nofun,
    nofun⟩

/-- **Captured bytes belong to one request, and stored ones stay,** in every run
of requests that write to buffers of their own. -/
theorem captures_own (limit : Int) (exchanges : List Exchange) (c : Capturing)
    (hown : Along (step limit) (fun c e => ownBuffer limit c e = true) start exchanges)
    (hrun : run (step limit) start exchanges = some c) : c.UsedOwn ∧ c.Unchanged := by
  have hinv : c.Inv limit ∧ c.UsedOwn := by
    apply run_invariant _ ⟨start_inv limit, nofun⟩ hown hrun
    intro _ _ _ hc he hstep
    exact step_own hc.1 he hstep
  exact ⟨hinv.2, hinv.1.unchanged⟩

/-! ## A buffer used twice -/

def asked (session : Session) (reply : Bytes) : Exchange :=
  ⟨cacheHandle id true (fun _ => none) session, false, some [(reply, 8)], true⟩

def readThenWrite : List Exchange :=
  [asked Caching.reading (ascii "seven"), asked Caching.writing (ascii "done")]

def usedHolds (bytes : Bytes) (c : Capturing) : Bool :=
  match c.used with
  | some (capture, reply) =>
    !capture.overflowed && capture.buffer.contents c.heap == bytes && reply != bytes
  | none => false

theorem not_usedOwn_of_usedHolds (h : usedHolds bytes c) : ¬ c.UsedOwn := by
  intro hown
  unfold usedHolds at h
  split at h
  · rename_i capture reply hused
    rw [and_eq_true, and_eq_true, not_eq_true', beq_iff_eq, bne_iff_ne] at h
    rcases hown capture reply hused with ⟨hover, -⟩ | ⟨-, hcontents⟩
    · exact nomatch h.1.1.symm.trans hover
    · exact h.2 (hcontents.symm.trans h.1.2)
  · cases h

theorem buffer_shared_by_requests :
    (∃ c, run (step 0) start readThenWrite = some c ∧ ¬ c.UsedOwn) ∧
      ∃ c, run (step 8) start (readThenWrite ++ [asked Caching.writing (ascii "later")]) = some c ∧
        ¬ c.Unchanged := by
  have hboth : (run (step 0) start readThenWrite).any (usedHolds (ascii "sevendone")) = true ∧
      (run (step 8) start (readThenWrite ++ [asked Caching.writing (ascii "later")])).any (fun c =>
        c.stored.any fun stored => stored.slice.contents c.heap != stored.bytes) = true := by
    decide +kernel
  constructor
  · obtain ⟨c, hrun, hc⟩ := exists_run hboth.1
    exact ⟨c, hrun, not_usedOwn_of_usedHolds hc⟩
  · obtain ⟨c, hrun, hc⟩ := exists_run hboth.2
    refine ⟨c, hrun, fun hunchanged => ?_⟩
    obtain ⟨stored, hstored, hne⟩ := any_eq_true.1 hc
    exact bne_iff_ne.1 hne (hunchanged stored hstored)

def writeThenReads : List Exchange :=
  [asked Caching.writing (ascii "done"), asked Caching.reading (ascii "seven"),
    asked Caching.reading (ascii "eight")]

theorem misses_capture_own :
    ∃ c, run (step 0) start writeThenReads = some c ∧ c.stored.length = 2 ∧ c.UsedOwn ∧
      c.Unchanged := by
  obtain ⟨hsteps, c, hrun, hc⟩ := exists_allowed_run (show
    Along (step 0) (fun c e => ownBuffer 0 c e = true) start writeThenReads ∧
    (run (step 0) start writeThenReads).any (fun c => c.stored.length == 2) = true by
    decide +kernel)
  exact ⟨c, hrun, beq_iff_eq.1 hc, captures_own 0 writeThenReads c hsteps hrun⟩

end Capturing

end Pontus.Proxy
