import SyncScribe.Server.Journal

/-!
What the server sends: the recipients of `syncs_send_event` in terms of the
consumers of the event, and the headers of the list replies.
-/

namespace SyncScribe
open Lib Lib.Bytes Lib.Slots Lib.Keyed

/-! ## Events -/

/-- The loop sends one packet to each consumer it does not leave out, in order. -/
theorem sendEventLoop_out (env : Env) (ev : Event) (flags : UInt32) (p : Packet)
    (is : List (Fin clientMaximum)) (s : Server) :
    (sendEventLoop env ev flags p is s).2 =
      ((is.filterMap ev.consumers).filter (sendsTo ev flags)).map fun c => .send c p := by
  induction is generalizing s with
  | nil => rfl
  | cons i is ih =>
    unfold sendEventLoop
    cases hc : ev.consumers i with
    | none => simp [hc, ih]
    | some c =>
      by_cases hs : sendsTo ev flags c
      · simp [hc, hs, ih]
      · simp [hc, hs, ih]

theorem sendEvent_out (env : Env) (s : Server) (e : EventIx) (flags : UInt32) :
    (sendEvent env s e flags).2 =
      ((entries (s.events e).consumers).filter (sendsTo (s.events e) flags)).map
        fun c => .send c (eventPacket env s (s.events e) flags) :=
  sendEventLoop_out env _ flags _ _ s

/-! ## List replies -/

section Lists

variable {n : Nat} (k : ListKind n) (c : ClientIx)

/-- The header of a packet of the reply: its type, and a size that fits a packet. -/
structure ListHeader (h : Header) : Prop where
  magic : h.magic = packetMagic
  magicData : h.magicData = packetMagicData
  type : h.type = k.msg.code

/-- What holds at every round of the loop. -/
structure ListInv (st : ListState) : Prop where
  header : ListHeader k st.packet.header
  count : st.count < k.perPacket
  out : ∀ o ∈ st.out, ∃ p, o = .send c p ∧ ListHeader k p.header ∧
    p.header.dataSize.toNat ≤ variableSizeMaximum

variable {k c}

/-- The other fields of a header say nothing about its kind. -/
theorem ListHeader.of_eq {h h' : Header} (hh : ListHeader k h) (hm : h'.magic = h.magic)
    (hd : h'.magicData = h.magicData) (ht : h'.type = h.type) : ListHeader k h' :=
  ⟨hm.trans hh.magic, hd.trans hh.magicData, ht.trans hh.type⟩

theorem stampCount_header {p : Packet} (h : ListHeader k p.header) (count : Nat) :
    ListHeader k (stampCount k count p).header :=
  h.of_eq (by simp only [stampCount]) (by simp only [stampCount]) (by simp only [stampCount])

theorem stampCount_size (p : Packet) {count : Nat} (hc : count ≤ k.perPacket) :
    (stampCount k count p).header.dataSize.toNat ≤ variableSizeMaximum := by
  have hle : count * k.entrySize ≤ variableSizeMaximum := by
    refine le_trans (Nat.mul_le_mul_right _ hc) ?_
    exact Nat.div_mul_le_self _ _
  have hmod : (UInt16.ofNat (count * k.entrySize)).toNat ≤ count * k.entrySize := by
    rw [UInt16.toNat_ofNat']
    exact Nat.mod_le _ _
  exact le_trans hmod hle

theorem listStep_inv {st : ListState} (h : ListInv k c st) (i : Fin n) : ListInv k c (listStep k c st i) := by
  unfold listStep
  split
  · simp only
    split
    · rename_i hfull
      have hp : ListHeader k (stampCount k (st.count + 1)
          { st.packet with buffer := k.fill st.server i st.packet.buffer (st.count * k.entrySize) }).header :=
        stampCount_header h.header _
      refine ⟨hp.of_eq (by simp only) (by simp only) (by simp only), ?_, ?_⟩
      · have := h.count
        simp only
        omega
      · intro o ho
        simp only [sendCounted, List.mem_append, List.mem_singleton] at ho
        rcases ho with ho | rfl
        · exact h.out o ho
        · exact ⟨_, rfl, hp, stampCount_size _ h.count⟩
    · rename_i hroom
      exact ⟨h.header, by simpa using hroom, h.out⟩
  · exact h

theorem foldl_listStep_inv (is : List (Fin n)) {st : ListState} (h : ListInv k c st) :
    ListInv k c (is.foldl (listStep k c) st) := by
  induction is generalizing st with
  | nil => exact h
  | cons i is ih => exact ih (listStep_inv h i)

/-- **Every packet of a list reply** goes to the requester and is well formed. -/
theorem sendList_out (env : Env) (hk : 0 < k.perPacket) (s : Server) (sequance : UInt8) (o : Out)
    (ho : o ∈ (sendList env k s c sequance).2) :
    ∃ p, o = .send c p ∧ ListHeader k p.header ∧ p.header.dataSize.toNat ≤ variableSizeMaximum := by
  have hinit : ListInv k c ⟨s, listPacket env k s sequance, 0, []⟩ :=
    ⟨⟨rfl, rfl, rfl⟩, hk, by simp⟩
  have hinv := foldl_listStep_inv (List.finRange n) hinit
  simp only [sendList, sendCounted, List.mem_append, List.mem_singleton] at ho
  rcases ho with ho | rfl
  · exact hinv.out o ho
  · refine ⟨_, rfl, stampCount_header ?_ _, stampCount_size _ (Nat.le_of_lt hinv.count)⟩
    exact hinv.header.of_eq (by simp only) (by simp only) (by simp only)

end Lists

end SyncScribe
