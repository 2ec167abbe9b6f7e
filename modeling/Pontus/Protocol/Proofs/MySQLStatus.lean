import Pontus.Protocol.MySQL

/-!
# The status of a MySQL reply

`PeekTransactionState` looks at the first byte of each packet and takes the
flags from a fixed place, from the end of an OK packet and from the start of an
EOF packet.  `OKPacket.flagRead` is what stands there in an OK packet of either
header.
-/

namespace Pontus.Protocol.MySQL

open Lib TransactionState

theorem littleEndian_three (h : n < 2 ^ 24) :
    (UInt8.ofNat n).toNat + 256 * (UInt8.ofNat (n / 256)).toNat +
      65536 * (UInt8.ofNat (n / 256 / 256)).toNat = n := by
  simp only [UInt8.toNat_ofNat']
  omega

theorem peekLoop_nil (fuel : Nat) (state : TransactionState) : peekLoop fuel state [] = state := by
  cases fuel with
  | zero | succ => rfl

/-- The loop comes to every packet of the buffer in turn. -/
theorem peekLoop_encodePackets {payloads : List Bytes} (h : ∀ p ∈ payloads, p.length < 2 ^ 24)
    (hfuel : payloads.length ≤ fuel) (sequence : Nat) (state : TransactionState) :
    peekLoop fuel state (encodePackets sequence payloads) = payloads.foldl peekPacket state := by
  induction payloads generalizing fuel sequence state with
  | nil => exact peekLoop_nil fuel state
  | cons payload payloads ih =>
    cases fuel with
    | zero => cases hfuel
    | succ fuel =>
      rw [forall_mem_cons] at h
      have hrest := ih h.2 (Nat.le_of_succ_le_succ hfuel) (sequence + 1) (peekPacket state payload)
      simp only [encodePackets, littleEndian, cons_append, nil_append, peekLoop,
        littleEndian_three h.1, length_append, take_left, drop_left]
      rw [if_neg (by omega), hrest, foldl_cons]

theorem length_le_encodePackets (sequence : Nat) (payloads : List Bytes) :
    payloads.length ≤ (encodePackets sequence payloads).length := by
  induction payloads generalizing sequence with
  | nil => exact le_rfl
  | cons _ _ ih =>
    have hrest := ih (sequence + 1)
    simp only [encodePackets, length_append, length_cons]
    omega

theorem peekTransactionState_encodePackets {payloads : List Bytes}
    (h : ∀ p ∈ payloads, p.length < 2 ^ 24) (sequence : Nat) :
    peekTransactionState (encodePackets sequence payloads) =
      payloads.foldl peekPacket statePartial :=
  peekLoop_encodePackets h (length_le_encodePackets sequence payloads) sequence statePartial

theorem length_littleEndian (width n : Nat) : (littleEndian width n).length = width := by
  induction width generalizing n with
  | zero => rfl
  | succ width ih => rw [littleEndian, length_cons, ih]

theorem length_lengthEncoded (n : Nat) : 1 ≤ (lengthEncoded n).length := by
  unfold lengthEncoded
  split_ifs <;> simp [length_littleEndian]

namespace OKPacket

def counts (p : OKPacket) : Bytes :=
  lengthEncoded p.affectedRows.toNat ++ lengthEncoded p.lastInsertID.toNat

def behindCounts (p : OKPacket) : Bytes :=
  littleEndian 2 p.status.toNat ++ (littleEndian 2 p.warnings.toNat ++ p.info)

/-- The byte that is taken for the first byte of the flags: as far behind it as
the text behind the warnings is long, or the third byte behind the header. -/
def flagRead (header : UInt8) (p : OKPacket) : UInt8 :=
  if header = 0 then p.behindCounts.getD p.info.length 0
  else (p.counts ++ p.behindCounts).getD 2 0

theorem payload_eq (header : UInt8) (p : OKPacket) :
    p.payload header = header :: (p.counts ++ p.behindCounts) := by
  simp [payload, counts, behindCounts]

theorem length_counts (p : OKPacket) : 2 ≤ p.counts.length := by
  have hrows := length_lengthEncoded p.affectedRows.toNat
  have hid := length_lengthEncoded p.lastInsertID.toNat
  rw [counts, length_append]
  omega

theorem length_behindCounts (p : OKPacket) : p.behindCounts.length = 4 + p.info.length := by
  simp only [behindCounts, length_append, length_littleEndian]
  omega

theorem flagRead_of_no_info (h : p.info = []) : flagRead 0 p = UInt8.ofNat p.status.toNat := by
  rw [flagRead, if_pos rfl, h]
  rfl

theorem flagRead_of_small_counts (hrows : p.affectedRows.toNat < 251)
    (hid : p.lastInsertID.toNat < 251) : flagRead 0xfe p = UInt8.ofNat p.status.toNat := by
  rw [flagRead, if_neg (by decide), counts, lengthEncoded, lengthEncoded, if_pos hrows, if_pos hid]
  rfl

end OKPacket

theorem flags_mod_two (low high : UInt8) : (low.toNat + 256 * high.toNat) % 2 = low.toNat % 2 := by
  omega

theorem statusFlags_ok (p : OKPacket) (hheader : header = 0 ∨ header = 0xfe) :
    statusFlags (p.payload header) % 2 = (p.flagRead header).toNat % 2 := by
  have hcounts := p.length_counts
  have hbehind := p.length_behindCounts
  have hlen : (p.payload header).length = p.counts.length + p.info.length + 1 + 4 := by
    rw [p.payload_eq, length_cons, length_append, hbehind]
    omega
  rw [statusFlags, OKPacket.flagRead]
  rcases hheader with rfl | rfl
  · have hplace : (p.payload 0).getD (p.counts.length + p.info.length + 1) 0 =
        p.behindCounts.getD p.info.length 0 := by
      rw [p.payload_eq, List.getD_cons_succ, List.getD_eq_getElem?_getD,
        List.getElem?_append_right (Nat.le_add_right _ _), Nat.add_sub_cancel_left,
        ← List.getD_eq_getElem?_getD]
    rw [if_pos ⟨rfl, by omega⟩, hlen, Nat.add_sub_cancel, flags_mod_two, hplace, if_pos rfl]
  · have hplace : (p.payload 0xfe).getD 3 0 = (p.counts ++ p.behindCounts).getD 2 0 := by
      rw [p.payload_eq, List.getD_cons_succ]
    have hhead : (p.payload 0xfe).head? ≠ some 0 := fun h => nomatch h
    rw [if_neg fun h => hhead h.1, if_pos ⟨rfl, by omega⟩]
    exact (flags_mod_two _ _).trans (by rw [hplace, if_neg (by decide)])

theorem statusFlags_eof (p : EOFPacket) : statusFlags p.payload % 2 = p.status.toNat % 2 := by
  have hlow : (UInt8.ofNat p.status.toNat).toNat % 2 = p.status.toNat % 2 := by
    rw [UInt8.toNat_ofNat']
    omega
  exact (flags_mod_two _ _).trans hlow

theorem peekPacket_eq_inTransaction (state : TransactionState) {payload : Bytes}
    (hhead : payload.head? = some 0 ∨ payload.head? = some 0xfe) :
    peekPacket state payload = stateInTransaction ↔ statusFlags payload % 2 = 1 := by
  rw [peekPacket, if_pos hhead]
  split
  · simp
    omega
  · simp
    omega

/-- Once a packet has been taken for one with flags, the state is known. -/
theorem peekPacket_eq_partial :
    peekPacket state payload = statePartial ↔
      state = statePartial ∧ payload.head? ≠ some 0 ∧ payload.head? ≠ some 0xfe := by
  unfold peekPacket
  split
  · split <;> grind
  · grind

theorem foldl_peekPacket_eq_partial {rows : List Bytes} :
    rows.foldl peekPacket state = statePartial ↔
      state = statePartial ∧ ∀ row ∈ rows, row.head? ≠ some 0 ∧ row.head? ≠ some 0xfe := by
  induction rows generalizing state with
  | nil => simp
  | cons row rows ih => rw [foldl_cons, ih, peekPacket_eq_partial, forall_mem_cons, and_assoc]

/-- **The status of the last packet is read** from every EOF packet, and from
an OK packet exactly where the byte read has the flag's value, as it has where
no text follows or, at the end of a result set, where both counts are small;
rows alone leave it open exactly where none begins with the first byte of either
packet. -/
theorem status_read_from_last_packet (front : List Bytes) (sequence : Nat)
    (hfront : ∀ p ∈ front, p.length < 2 ^ 24) :
    (∀ eof : EOFPacket,
        peekTransactionState (encodePackets sequence (front ++ [eof.payload])) =
          stateInTransaction ↔ eof.status.toNat % 2 = 1) ∧
      (∀ (ok : OKPacket) (header : UInt8), header = 0 ∨ header = 0xfe →
        (ok.payload header).length < 2 ^ 24 →
        ((peekTransactionState (encodePackets sequence (front ++ [ok.payload header])) =
            stateInTransaction ↔ ok.status.toNat % 2 = 1) ↔
          (ok.flagRead header).toNat % 2 = ok.status.toNat % 2)) ∧
      (∀ (ok : OKPacket) (header : UInt8),
        (header = 0 ∧ ok.info = []) ∨
          (header = 0xfe ∧ ok.affectedRows.toNat < 251 ∧ ok.lastInsertID.toNat < 251) →
        ok.flagRead header = UInt8.ofNat ok.status.toNat) ∧
      (peekTransactionState (encodePackets sequence front) = statePartial ↔
        ∀ row ∈ front, row.head? ≠ some 0 ∧ row.head? ≠ some 0xfe) := by
  have hlast {payload : Bytes} (hlen : payload.length < 2 ^ 24) :
      peekTransactionState (encodePackets sequence (front ++ [payload])) =
        peekPacket (front.foldl peekPacket statePartial) payload := by
    have hall : ∀ p ∈ front ++ [payload], p.length < 2 ^ 24 :=
      List.forall_mem_append.2 ⟨hfront, List.forall_mem_singleton.2 hlen⟩
    rw [peekTransactionState_encodePackets hall, foldl_append]
    rfl
  refine ⟨?_, ?_, ?_, ?_⟩
  · intro eof
    rw [hlast (show eof.payload.length < 2 ^ 24 from show 5 < 2 ^ 24 by decide),
      peekPacket_eq_inTransaction _ (.inr rfl), statusFlags_eof]
  · intro ok header hheader hlen
    have hhead : (ok.payload header).head? = some 0 ∨ (ok.payload header).head? = some 0xfe :=
      hheader.imp (congrArg some) (congrArg some)
    rw [hlast hlen, peekPacket_eq_inTransaction _ hhead, statusFlags_ok ok hheader]
    omega
  · rintro ok header (⟨rfl, hinfo⟩ | ⟨rfl, hrows, hid⟩)
    · exact OKPacket.flagRead_of_no_info hinfo
    · exact OKPacket.flagRead_of_small_counts hrows hid
  · rw [peekTransactionState_encodePackets hfront, foldl_peekPacket_eq_partial]
    simp

/-- Two rows, and behind them the end of the result set. -/
theorem status_read_behind_rows :
    (peekTransactionState (encodePackets 3 ([[1, 55], [2, 97, 98]] ++
        [(⟨0, 0, 3, 0, ascii "done"⟩ : OKPacket).payload 0xfe])) = stateInTransaction ↔
      (3 : UInt16).toNat % 2 = 1) ∧
    peekTransactionState (encodePackets 3 [[1, 55], [2, 97, 98]]) = statePartial := by
  have hread := status_read_from_last_packet [[1, 55], [2, 97, 98]] 3 (by decide)
  refine ⟨(hread.2.1 _ _ (.inr rfl) (by decide)).2 ?_, hread.2.2.2.2 (by decide)⟩
  rw [hread.2.2.1 _ _ (.inr ⟨rfl, by decide, by decide⟩)]
  rfl

/-- A text behind the warnings, a count of 300 rows, and a row that begins with an
empty value. -/
theorem info_taken_for_status :
    peekTransactionState (encodePackets 1 [(⟨0, 0, 2, 0, ascii "abcd"⟩ : OKPacket).payload 0]) =
        stateInTransaction ∧
      peekTransactionState (encodePackets 1 [(⟨300, 0, 2, 0, []⟩ : OKPacket).payload 0xfe]) =
        stateInTransaction ∧
      peekTransactionState (encodePackets 1 [[0]]) = stateIdle := by
  decide

end Pontus.Protocol.MySQL
