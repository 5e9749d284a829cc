import SyncScribe.Server.Handler

/-!
What sending leaves alone. Sends only move the transmit counters of the clients
(`Quiet`), so a call that ends in a send does to the tables what it did before it.
-/

namespace SyncScribe
open Lib Lib.Bytes

/-- `s'` is `s` up to the transmit counters of the clients. -/
structure Quiet (s s' : Server) : Prop where
  events : s'.events = s.events
  channels : s'.channels = s.channels
  id : s'.id = s.id
  eventCount : s'.eventCount = s.eventCount
  channelCount : s'.channelCount = s.channelCount
  clientCount : s'.clientCount = s.clientCount
  uclientCount : s'.uclientCount = s.uclientCount
  syncOffset : s'.syncOffset = s.syncOffset
  updateCounter : s'.updateCounter = s.updateCounter
  clients : ∀ c, ∃ tx er, s'.clients c = { s.clients c with txEventCount := tx, txError := er }

namespace Quiet

theorem refl (s : Server) : Quiet s s :=
  ⟨rfl, rfl, rfl, rfl, rfl, rfl, rfl, rfl, rfl, fun _ => ⟨_, _, rfl⟩⟩

theorem trans {s t u : Server} (h : Quiet s t) (h' : Quiet t u) : Quiet s u := by
  refine ⟨h'.events.trans h.events, h'.channels.trans h.channels, h'.id.trans h.id,
    h'.eventCount.trans h.eventCount, h'.channelCount.trans h.channelCount,
    h'.clientCount.trans h.clientCount, h'.uclientCount.trans h.uclientCount,
    h'.syncOffset.trans h.syncOffset, h'.updateCounter.trans h.updateCounter, ?_⟩
  intro c
  obtain ⟨tx, er, e⟩ := h.clients c
  obtain ⟨tx', er', e'⟩ := h'.clients c
  exact ⟨tx', er', by rw [e', e]⟩

theorem modify (s : Server) (c : ClientIx) (tx er : Client → UInt32) :
    Quiet s (s.modifyClient c fun cl => { cl with txEventCount := tx cl, txError := er cl }) := by
  refine ⟨rfl, rfl, rfl, rfl, rfl, rfl, rfl, rfl, rfl, ?_⟩
  intro i
  rw [Server.modifyClient_clients]
  split
  · rename_i h
    exact ⟨_, _, by rw [h]⟩
  · exact ⟨_, _, rfl⟩

theorem socketfd {s s' : Server} (h : Quiet s s') (c : ClientIx) :
    (s'.clients c).socketfd = (s.clients c).socketfd := by
  obtain ⟨tx, er, e⟩ := h.clients c
  rw [e]

theorem buffer {s s' : Server} (h : Quiet s s') (c : ClientIx) :
    (s'.clients c).buffer = (s.clients c).buffer := by
  obtain ⟨tx, er, e⟩ := h.clients c
  rw [e]

end Quiet

theorem sendCounted_quiet (s : Server) (c : ClientIx) (p : Packet) : Quiet s (sendCounted s c p).1 :=
  Quiet.modify s c (fun cl => cl.txEventCount + 1) (fun cl => cl.txError)

theorem sendEventLoop_quiet (env : Env) (ev : Event) (flags : UInt32) (p : Packet)
    (is : List (Fin clientMaximum)) (s : Server) :
    Quiet s (sendEventLoop env ev flags p is s).1 := by
  induction is generalizing s with
  | nil => exact Quiet.refl s
  | cons i is ih =>
    unfold sendEventLoop
    split
    · exact ih s
    · rename_i c _
      split
      · have h1 := Quiet.modify s c (fun cl => cl.txEventCount + 1) (fun cl => cl.txError)
        simp only
        split
        · exact (h1.trans (Quiet.modify _ c (fun cl => cl.txEventCount) (fun cl => cl.txError + 1))).trans
            (ih _)
        · exact h1.trans (ih _)
      · exact ih s

theorem sendEvent_quiet (env : Env) (s : Server) (e : EventIx) (flags : UInt32) :
    Quiet s (sendEvent env s e flags).1 :=
  sendEventLoop_quiet env _ flags _ _ s

theorem listStep_quiet {n : Nat} (k : ListKind n) (c : ClientIx) (st : ListState) (i : Fin n) :
    Quiet st.server (listStep k c st i).server := by
  unfold listStep
  split
  · simp only
    split
    · exact sendCounted_quiet st.server c st.packet
    · exact Quiet.refl _
  · exact Quiet.refl _

theorem foldl_listStep_quiet {n : Nat} (k : ListKind n) (c : ClientIx) (is : List (Fin n)) (st : ListState) :
    Quiet st.server (is.foldl (listStep k c) st).server := by
  induction is generalizing st with
  | nil => exact Quiet.refl _
  | cons i is ih => exact (listStep_quiet k c st i).trans (ih _)

theorem sendList_quiet {n : Nat} (env : Env) (k : ListKind n) (s : Server) (c : ClientIx) (sequance : UInt8) :
    Quiet s (sendList env k s c sequance).1 :=
  (foldl_listStep_quiet k c (List.finRange n) ⟨s, listPacket env k s sequance, 0, []⟩).trans
    (sendCounted_quiet _ c (listPacket env k s sequance))

end SyncScribe
