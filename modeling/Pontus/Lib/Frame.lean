import Pontus.Lib.Bytes

/-!
# Length-prefixed frames

A frame is a type byte followed by a four-byte length that counts itself and
the body.  Streams of frames have boundaries, the offsets at which one frame
ends and the next begins; everything a framed protocol promises about where a
reader may stop is a statement about those offsets.
-/

namespace Pontus.Lib

/-- One tagged message.  The size bound is what lets the length field describe
the body. -/
structure Frame where
  tag : UInt8
  body : Bytes
  size : 4 + body.length < 2 ^ 32
  deriving DecidableEq

namespace Frame

theorem size_nil : 4 + ([] : Bytes).length < 2 ^ 32 := by decide

def encode (f : Frame) : Bytes := f.tag :: (putU32 (4 + f.body.length) ++ f.body)

def encodeAll (fs : List Frame) : Bytes := fs.flatMap encode

@[simp] theorem length_encode (f : Frame) : f.encode.length = 5 + f.body.length := by
  simp [encode]
  omega

@[simp] theorem encodeAll_nil : encodeAll [] = [] := rfl

@[simp] theorem encodeAll_cons (f : Frame) (fs : List Frame) :
    encodeAll (f :: fs) = f.encode ++ encodeAll fs := rfl

@[simp] theorem encodeAll_append (fs gs : List Frame) :
    encodeAll (fs ++ gs) = encodeAll fs ++ encodeAll gs := by
  simp [encodeAll]

theorem encode_ne_nil (f : Frame) : f.encode ≠ [] := by simp [encode]

theorem encode_eq (f : Frame) :
    f.encode =
      f.tag :: UInt8.ofNat ((4 + f.body.length) / 2 ^ 24) ::
        UInt8.ofNat ((4 + f.body.length) / 2 ^ 16) ::
        UInt8.ofNat ((4 + f.body.length) / 2 ^ 8) ::
        UInt8.ofNat (4 + f.body.length) :: f.body := rfl

theorem beU32_length (f : Frame) :
    beU32 (UInt8.ofNat ((4 + f.body.length) / 2 ^ 24)) (UInt8.ofNat ((4 + f.body.length) / 2 ^ 16))
      (UInt8.ofNat ((4 + f.body.length) / 2 ^ 8))
      (UInt8.ofNat (4 + f.body.length)) = 4 + f.body.length :=
  beU32_putU32 f.size

/-- The length field says where a frame ends, so a stream is cut into frames in
one way only. -/
theorem encode_append_inj {f g : Frame} (h : f.encode ++ as = g.encode ++ bs) :
    f = g ∧ as = bs := by
  simp only [encode_eq, cons_append, List.cons.injEq] at h
  obtain ⟨htag, h₁, h₂, h₃, h₄, hbodies⟩ := h
  have hlen : 4 + f.body.length = 4 + g.body.length := by
    have hf := beU32_length f
    rw [h₁, h₂, h₃, h₄] at hf
    exact hf.symm.trans (beU32_length g)
  obtain ⟨hbody, hrest⟩ := List.append_inj hbodies (by omega)
  obtain ⟨tag, body, _⟩ := f
  obtain ⟨tag', body', _⟩ := g
  obtain rfl : _ = _ := htag
  obtain rfl : _ = _ := hbody
  exact ⟨rfl, hrest⟩

theorem encodeAll_append_inj {fs gs : List Frame} {as : Bytes}
    (h : encodeAll fs ++ as = encodeAll gs) : ∃ more, gs = fs ++ more ∧ as = encodeAll more := by
  induction fs generalizing gs with
  | nil => exact ⟨gs, rfl, h⟩
  | cons f _ ih =>
    rw [encodeAll_cons, append_assoc] at h
    cases gs with
    | nil => exact absurd (append_eq_nil_iff.1 h).1 f.encode_ne_nil
    | cons =>
      rw [encodeAll_cons] at h
      obtain ⟨rfl, hrest⟩ := encode_append_inj h
      obtain ⟨more, rfl, rfl⟩ := ih hrest
      exact ⟨more, rfl, rfl⟩

theorem encodeAll_eq_nil : encodeAll fs = [] ↔ fs = [] := by
  cases fs with
  | nil => simp
  | cons => simp [encode_ne_nil]

theorem prefix_of_length_le (hfs : fs <+: hs) (hgs : gs <+: hs)
    (hlen : (encodeAll fs).length ≤ (encodeAll gs).length) : fs <+: gs := by
  obtain hle | ⟨more, rfl⟩ := List.prefix_or_prefix_of_prefix hfs hgs
  · exact hle
  · cases more with
    | nil => exact (append_nil gs).symm ▸ List.prefix_rfl
    | cons =>
      simp only [encodeAll_append, encodeAll_cons, length_append, length_encode] at hlen
      omega

/-- `offset` is where some frame of the stream ends, or its very beginning. -/
def Boundary (fs : List Frame) (offset : Nat) : Prop :=
  ∃ done rest, fs = done ++ rest ∧ (encodeAll done).length = offset

theorem boundary_zero (fs : List Frame) : Boundary fs 0 := ⟨[], fs, rfl, rfl⟩

theorem boundary_cons :
    Boundary (f :: fs) offset ↔
      offset = 0 ∨ ∃ rest, offset = f.encode.length + rest ∧ Boundary fs rest := by
  constructor
  · rintro ⟨done, rest, hsplit, hlen⟩
    cases done with
    | nil => exact Or.inl (by simpa using hlen.symm)
    | cons _ done =>
      simp only [cons_append, List.cons.injEq] at hsplit
      obtain ⟨rfl, rfl⟩ := hsplit
      refine Or.inr ⟨(encodeAll done).length, ?_, done, rest, rfl, rfl⟩
      rw [← hlen, encodeAll_cons, length_append]
  · rintro (rfl | ⟨_, rfl, done, tail, rfl, rfl⟩)
    · exact boundary_zero _
    · exact ⟨f :: done, tail, rfl, by rw [encodeAll_cons, length_append]⟩

def StartsAt (fs : List Frame) (offset : Nat) (f : Frame) : Prop :=
  ∃ before after, fs = before ++ f :: after ∧ (encodeAll before).length = offset

theorem startsAt_cons :
    StartsAt (g :: fs) offset f ↔
      (offset = 0 ∧ f = g) ∨ ∃ rest, offset = g.encode.length + rest ∧ StartsAt fs rest f := by
  constructor
  · rintro ⟨before, after, hsplit, hlen⟩
    cases before with
    | nil =>
      simp only [nil_append, List.cons.injEq] at hsplit
      exact Or.inl ⟨by simpa using hlen.symm, hsplit.1.symm⟩
    | cons _ before =>
      simp only [cons_append, List.cons.injEq] at hsplit
      obtain ⟨rfl, rfl⟩ := hsplit
      refine Or.inr ⟨(encodeAll before).length, ?_, before, after, rfl, rfl⟩
      rw [← hlen, encodeAll_cons, length_append]
  · rintro (⟨rfl, rfl⟩ | ⟨_, rfl, before, after, rfl, rfl⟩)
    · exact ⟨[], fs, rfl, rfl⟩
    · exact ⟨g :: before, after, rfl, by rw [encodeAll_cons, length_append]⟩

end Frame

theorem exists_chunk_at (hoffset : offset < chunks.flatten.length) :
    ∃ pre chunk post, chunks = pre ++ chunk :: post ∧ pre.flatten.length ≤ offset ∧
      offset < pre.flatten.length + chunk.length := by
  induction chunks generalizing offset with
  | nil => simp at hoffset
  | cons c chunks ih =>
    rw [flatten_cons, length_append] at hoffset
    by_cases hhere : offset < c.length
    · exact ⟨[], c, chunks, rfl, Nat.zero_le _, by simpa using hhere⟩
    · obtain ⟨pre, chunk, post, hcut, _, _⟩ := @ih (offset - c.length) (by omega)
      refine ⟨c :: pre, chunk, post, by rw [hcut]; rfl, ?_, ?_⟩
      · rw [flatten_cons, length_append]
        omega
      · rw [flatten_cons, length_append]
        omega

theorem chunk_at_unique (hcut : chunks = pre ++ chunk :: post)
    (hcut' : chunks = pre' ++ chunk' :: post') (hlo : pre.flatten.length ≤ offset)
    (hhi : offset < pre.flatten.length + chunk.length) (hlo' : pre'.flatten.length ≤ offset)
    (hhi' : offset < pre'.flatten.length + chunk'.length) : pre = pre' ∧ chunk = chunk' := by
  induction chunks generalizing pre pre' offset with
  | nil => simp at hcut
  | cons c _ ih =>
    cases pre with
    | nil =>
      cases pre' with
      | nil =>
        simp only [nil_append, List.cons.injEq] at hcut hcut'
        exact ⟨rfl, hcut.1.symm.trans hcut'.1⟩
      | cons =>
        simp only [nil_append, cons_append, List.cons.injEq] at hcut hcut'
        rw [flatten_cons, length_append, ← hcut'.1, hcut.1] at hlo'
        simp only [List.flatten_nil, length_nil] at hhi
        omega
    | cons _ pre =>
      cases pre' with
      | nil =>
        simp only [nil_append, cons_append, List.cons.injEq] at hcut hcut'
        rw [flatten_cons, length_append, ← hcut.1, hcut'.1] at hlo
        simp only [List.flatten_nil, length_nil] at hhi'
        omega
      | cons _ pre' =>
        simp only [cons_append, List.cons.injEq] at hcut hcut'
        simp only [flatten_cons, length_append] at hlo hhi hlo' hhi'
        rw [← hcut.1] at hlo hhi
        rw [← hcut'.1] at hlo' hhi'
        obtain ⟨hpre, hchunk⟩ := @ih pre pre' (offset - c.length) hcut.2 hcut'.2
          (by omega) (by omega) (by omega) (by omega)
        exact ⟨by rw [← hcut.1, ← hcut'.1, hpre], hchunk⟩

/-- A stream of frames and one way of cutting it into non-empty reads. -/
structure Delivery where
  frames : List Frame
  chunks : List Bytes
  nonempty : ∀ chunk ∈ chunks, chunk ≠ []
  whole : chunks.flatten = Frame.encodeAll frames

theorem Delivery.split (d : Delivery) (h : d.chunks = pre ++ chunk :: post) :
    Frame.encodeAll d.frames = pre.flatten ++ chunk ++ post.flatten := by
  rw [← d.whole, h, List.flatten_append, flatten_cons, append_assoc]

/-- The cut that delivers a stream one byte at a time. -/
def Delivery.bytewise (frames : List Frame) : Delivery where
  frames := frames
  chunks := (Frame.encodeAll frames).map fun b => [b]
  nonempty := by simp
  whole := by rw [← List.flatMap_def, List.flatMap_singleton']

theorem Delivery.bytewise_cut (frames : List Frame)
    (hoffset : offset < (Frame.encodeAll frames).length) :
    ∃ pre chunk post, (bytewise frames).chunks = pre ++ chunk :: post ∧
      pre.flatten.length = offset ∧ chunk.length = 1 := by
  have hlen : offset < (bytewise frames).chunks.flatten.length := by
    rw [(bytewise frames).whole]
    exact hoffset
  obtain ⟨pre, chunk, post, hcut, _, _⟩ := exists_chunk_at hlen
  have hone : chunk.length = 1 := by
    have hmem : chunk ∈ (bytewise frames).chunks := by rw [hcut]; simp
    obtain ⟨_, -, rfl⟩ := mem_map.1 hmem
    rfl
  exact ⟨pre, chunk, post, hcut, by omega, hone⟩

def Frame.wholeChunks : List Frame → List Bytes → Bool
  | _, [] => true
  | fs, chunk :: chunks =>
    (List.range (fs.length + 1)).any fun n =>
      chunk == Frame.encodeAll (fs.take n) && wholeChunks (fs.drop n) chunks

theorem Frame.exists_groups (h : Frame.wholeChunks fs chunks) :
    ∃ (groups : List (List Frame)) (rest : List Frame),
      fs = groups.flatten ++ rest ∧ chunks = groups.map Frame.encodeAll := by
  induction chunks generalizing fs with
  | nil => exact ⟨[], fs, rfl, rfl⟩
  | cons _ _ ih =>
    rw [Frame.wholeChunks, any_eq_true] at h
    obtain ⟨n, -, hn⟩ := h
    rw [and_eq_true, beq_iff_eq] at hn
    obtain ⟨groups, rest, hrest, hchunks⟩ := ih hn.2
    refine ⟨fs.take n :: groups, rest, ?_, ?_⟩
    · rw [flatten_cons, append_assoc, ← hrest, take_append_drop]
    · rw [map_cons, ← hn.1, hchunks]

theorem Frame.flatten_map_encodeAll (groups : List (List Frame)) :
    (groups.map Frame.encodeAll).flatten = Frame.encodeAll groups.flatten := by
  induction groups with
  | nil => rfl
  | cons _ _ ih => rw [map_cons, flatten_cons, flatten_cons, Frame.encodeAll_append, ih]

end Pontus.Lib
