import SyncScribe.Server.Session
import SyncScribe.Client.Process
import SyncScribe.ReceiveBuffer

/-!
The receive buffers of both sides, over whole runs: a slot of the server hands its
buffer, with what is left in it, to the next connection that takes the slot; the
client begins each connection with an empty one. Whatever is received, the calls of
`recv` find room for 32198 bytes at least, so that none of them gives nothing while the
connection is open.
-/

namespace SyncScribe
open Lib Lib.Bytes Lib.Slots

/-! ## The handlers on the array -/

section Handlers

variable {s : Server} {c : ClientIx} {st : Receiver}

theorem Settled.length_buffer (h : Settled s) (c : ClientIx) : (s.clients c).buffer.length ≤ residueMaximum := by
  have hsame : leftover (s.clients c).buffer = packetSettle (s.clients c).buffer := (packets_of_wait (h c)).2
  rw [← length_packetSettle, ← hsame]
  exact leftover_length _

/-- What a read leaves in the buffer of its slot, and the packets it dispatches. -/
theorem handle_buffer (htcp : (s.clients c).tcp = true) (env : Nat → Env) (r : Recv) :
    ((handle s (.tcp env c r)).server.clients c).buffer = r.leaves (s.clients c).buffer ∧
      (handle s (.tcp env c r)).frames = r.yields (s.clients c).buffer := by
  have hclosed : ((closeClientSocket s c).clients c).buffer = (s.clients c).buffer := by
    have h := congrArg Prod.snd (closeClientSocket_conn s c c)
    split at h <;> exact h
  cases r with
  | again => simp only [handle, htcp, ↓reduceIte, clientHandler, Recv.leaves, Recv.yields, and_self]
  | error => simp only [handle, htcp, ↓reduceIte, clientHandler, Recv.leaves, Recv.yields, hclosed, and_self]
  | data bytes =>
    by_cases hlen : bytes.length < headerSize
    · by_cases h0 : bytes.length = 0
      · simp only [handle, htcp, ↓reduceIte, clientHandler, if_pos hlen, if_pos h0, Recv.leaves, Recv.yields,
          hclosed, and_self]
      · simp only [handle, htcp, ↓reduceIte, clientHandler, if_pos hlen, if_neg h0, Recv.leaves, Recv.yields, and_self]
    · have hframes := clientHandler_frames env s c bytes hlen
      simp only [handle, htcp, ↓reduceIte, Recv.leaves, Recv.yields, if_neg hlen, hframes, and_true]
      simp only [clientHandler, if_neg hlen, receive_eq_foldl, Server.modifyClient_clients, ↓reduceIte]

theorem recvStep_buffer (st : Receiver) (r : ClientRead) :
    (recvStep st r).1.buffer = r.result.leaves st.buffer ∧ (recvStep st r).2.2 = r.result.yields st.buffer := by
  cases hr : r.result with
  | again => simp only [recvStep, hr, Recv.leaves, Recv.yields, and_self]
  | error => simp only [recvStep, hr, Recv.leaves, Recv.yields, and_self]
  | data bytes =>
    by_cases hlen : bytes.length < headerSize
    · by_cases h0 : bytes.length = 0
      · simp only [recvStep, hr, if_pos hlen, if_pos h0, Recv.leaves, Recv.yields, and_self]
      · simp only [recvStep, hr, if_pos hlen, if_neg h0, Recv.leaves, Recv.yields, and_self]
    · have hframes := recvStep_frames st r hr hlen
      simp only [Recv.leaves, Recv.yields, if_neg hlen, hframes, and_true]
      simp only [recvStep, hr, if_neg hlen, receive_eq_foldl]

end Handlers

/-! ## Runs -/

/-- A read on the array that holds `kept`: it is offered room, and if it keeps to it, the turn is as it should be and
leaves the bytes `kept'` in the array after dispatching the frames. -/
def SafeRead (kept : List UInt8) (r : Recv) (kept' : List UInt8) (frames : List Packet) : Prop :=
  ∀ b : RecvBuffer, b.Holds kept → 32198 ≤ b.room ∧
    (r.Fits b.room → ∃ rs b', b.TurnSound r rs b' ∧ b'.Holds kept' ∧
      (dispatched rs).map (fun d => d.packet.frame) = frames)

theorem safeRead {kept : List UInt8} (hkept : kept.length ≤ residueMaximum) (r : Recv) :
    SafeRead kept r (r.leaves kept) (r.yields kept) :=
  fun _ hb => ⟨(hb.ok hkept).room.2, fun hfits => hb.turn hkept r hfits⟩

/-- A round of `syncs_recv`, as a step of a run. -/
def receiverStep (st : Receiver) (r : ClientRead) : Receiver × List ClientOut := ((recvStep st r).1, (recvStep st r).2.1)

/-- Less than a packet is kept between the rounds. -/
def Receiver.Kept (st : Receiver) : Prop := st.buffer.length ≤ residueMaximum

theorem Receiver.Kept.step {st : Receiver} (h : st.Kept) (r : ClientRead) : (receiverStep st r).1.Kept := by
  have hbuf : (receiverStep st r).1.buffer = r.result.leaves st.buffer := (recvStep_buffer st r).1
  rw [Receiver.Kept, hbuf]
  exact Recv.leaves_length h r.result

theorem run_kept (cenv : ClientEnv) (s : Connect) (rs : List ClientRead) :
    (run receiverStep (recvStart cenv s).1 rs).1.Kept :=
  run_inductive (fun _ r h => h.step r) rs _ (Nat.zero_le _)

/-- **The receive buffer never fills, overruns or stalls**: over every sequence of reads on one array, which the
connections of a slot share; in every run of the server, for the slot of every connection; and for the client. -/
theorem receive_buffer_safe :
    (∀ (b : RecvBuffer), b.Ok → ∀ rs, Along bufferStep (fun b r => r.Fits b.room) b rs →
      Along bufferStep (fun b r => 32198 ≤ b.room ∧ b.TurnSound r (bufferStep b r).2 (bufferStep b r).1) b rs) ∧
    (∀ (cid : List UInt8) (is : List Input), Throughout handleStep
      (fun s => ∀ (c : ClientIx) (env : Nat → Env) (r : Recv), (s.clients c).tcp = true →
        SafeRead (s.clients c).buffer r ((handle s (.tcp env c r)).server.clients c).buffer
          (handle s (.tcp env c r)).frames) (serverCreate cid) is) ∧
    ∀ (cenv : ClientEnv) (cl : Connect) (rs : List ClientRead), Throughout receiverStep
      (fun st => ∀ r : ClientRead,
        SafeRead st.buffer r.result (recvStep st r).1.buffer (recvStep st r).2.2) (recvStart cenv cl).1 rs := by
  refine ⟨?_, ?_, ?_⟩
  · intro b hb rs hfits
    exact along_of_invariant (fun _ r hok hr => (hok.turn r hr).ok) (fun _ r hok hr => ⟨hok.room.2, hok.turn r hr⟩)
      rs b hb hfits
  · intro cid is pre post _ c env r htcp
    have hkept := (run_settled cid pre).length_buffer c
    obtain ⟨hleaves, hyields⟩ := handle_buffer htcp env r
    rw [hleaves, hyields]
    exact safeRead hkept r
  · intro cenv cl rs pre post _ r
    have hkept := run_kept cenv cl pre
    obtain ⟨hleaves, hyields⟩ := recvStep_buffer (run receiverStep (recvStart cenv cl).1 pre).1 r
    rw [hleaves, hyields]
    exact safeRead hkept r.result

/-- An empty buffer. -/
def emptyBuffer : RecvBuffer := ⟨List.replicate clientBufferSize 0, 0⟩

theorem emptyBuffer_ok : emptyBuffer.Ok := ⟨List.length_replicate, Int.le_refl 0, Int.natCast_nonneg _⟩

theorem receive_buffer_safe_noise :
    Along bufferStep (fun b r => 32198 ≤ b.room ∧ b.TurnSound r (bufferStep b r).2 (bufferStep b r).1) emptyBuffer
      [.data (List.replicate 32768 83), .data []] :=
  receive_buffer_safe.1 emptyBuffer emptyBuffer_ok _
    ⟨Nat.le_of_eq List.length_replicate, Nat.zero_le _, trivial⟩

end SyncScribe
