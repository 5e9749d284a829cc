import SyncScribe.System.FreshReads
import SyncScribe.System.Requests
import SyncScribe.System.StackFields

/-!
What `syncs_read` and its typed variants return once the reply has arrived. The server
answers for a variable it does not have as for an empty one, with
`SYNCS_TYPE_VAR_NOT_DEFINED` in the type; the receive thread takes the reply without a
look at the type, and `syncs_read` shortens its copy to the size received and returns 0.
The typed variants drop that size.
-/

namespace SyncScribe
open Lib Lib.Bytes

/-! ## The calls -/

/-- `syncs_read_int32` -/
def readInt32 (flags : UInt32) (cid : List UInt8) : ReadCall :=
  ⟨cid, flags ||| typeVarInt32, (getSizeByType typeVarInt32).toNat⟩

/-- `syncs_read_int64` -/
def readInt64 (flags : UInt32) (cid : List UInt8) : ReadCall :=
  ⟨cid, flags ||| typeVarInt64, (getSizeByType typeVarInt64).toNat⟩

/-- `syncs_read_float` -/
def readFloat (flags : UInt32) (cid : List UInt8) : ReadCall :=
  ⟨cid, flags ||| typeVarFloat, (getSizeByType typeVarFloat).toNat⟩

/-- `syncs_read_double` -/
def readDouble (flags : UInt32) (cid : List UInt8) : ReadCall :=
  ⟨cid, flags ||| typeVarDouble, (getSizeByType typeVarDouble).toNat⟩

/-- The variants that read a value of a fixed width. -/
def typedReads (flags : UInt32) (cid : List UInt8) : List ReadCall :=
  [readInt32 flags cid, readInt64 flags cid, readFloat flags cid, readDouble flags cid]

/-- What `syncs_read` leaves: its return value, `*data_size` and the bytes stored to `data`. -/
structure ReadResult where
  ret : Int
  dataSize : Nat
  bytes : List UInt8
  deriving DecidableEq

/-- The end of `syncs_read`, after the wait. -/
def readEnd (s : Connect) (size : Nat) : ReadResult :=
  if s.readWait then ⟨-110, size, []⟩
  else ⟨0, min size s.readSize, Lib.Bytes.read s.readData (min size s.readSize)⟩

/-- A call whose request the server processes for the client in `slot`, and whose reply the receive
thread processes. -/
def readDelivered (cenv : ClientEnv) (env : Env) (cl : Connect) (s : Server) (slot : ClientIx) (beyond beyond' : List UInt8)
    (k : ReadCall) : ReadResult :=
  match clientReadCall cenv cl k.flags k.cid with
  | none => ⟨-77, k.size, []⟩
  | some (waiting, out) =>
    let replies := (transmitted out).flatMap fun o =>
      sentTo slot (clientProcessPacket env s slot (o.arrival beyond)).out
    readEnd (replies.foldl (fun cl p => (processPacket cenv cl (p.arrival beyond')).1) waiting) k.size

/-! ## What is asked of a result -/

/-- The size of the value held under an identifier. -/
def heldSize (s : Server) (id : Id) : Nat :=
  match findEvent s id with
  | some e => (s.events e).dataSize.toNat
  | none => 0

/-- A variable that is not there, or shorter than what is read, is refused. -/
def ReadResult.Refuses (r : ReadResult) (s : Server) (k : ReadCall) : Prop :=
  ¬ LiveId s.events (idstr k.cid) ∨ heldSize s (idstr k.cid) < k.size → r.ret ≠ 0

/-- Success stores all that is read, from the reply. -/
def ReadResult.Fills (r : ReadResult) (reply : Packet) (k : ReadCall) : Prop :=
  r.ret = 0 → r.bytes.length = k.size ∧ r.bytes = reply.payload.take k.size

section Reads

variable {cenv : ClientEnv} {env : Env} {cl : Connect} {s : Server} {slot : ClientIx} {beyond beyond' : List UInt8}
  {k : ReadCall} {flags : UInt32} {cid : List UInt8} {id : Id}

theorem readRequest_msg : (readRequest cenv cid flags).packet.header.msg = .read :=
  Msg.ofWord_or .read (and_and_eq_zero flags (by decide))

/-- A READ on the server, and the reply. -/
theorem readRequest_served (hlinked : cl.linked) :
    ((transmitted (connectSend cenv cl (readRequest cenv cid flags)).2).flatMap fun o =>
        sentTo slot (clientProcessPacket env s slot (o.arrival beyond)).out) =
      [(readPacket env s (idstr cid)).frame] := by
  have hframed := (clientSender_framed (.read cenv cid flags)).1
  have harrival := hframed.arrival beyond
  rw [transmitted_connectSend hlinked]
  simp only [List.flatMap_cons, List.flatMap_nil, List.append_nil]
  exact (clientProcessPacket_read env s slot (by rw [harrival]; exact readRequest_msg)).2.trans
    (by rw [harrival]; rfl)

/-- What the receive thread makes of the reply to a waiting call. -/
theorem readReply_taken {waiting : Connect} (hwait : waiting.readWait = true) (hid : waiting.readId = id) :
    processPacket cenv waiting ((readPacket env s id).frame.arrival beyond) =
      ({ waiting with
        readSize := (readPacket env s id).header.masked.dataSize.toNat
        readData := write waiting.readData 0
          (Lib.Bytes.read ((readPacket env s id).frame.arrival beyond).buffer
            (readPacket env s id).header.masked.dataSize.toNat)
        readWait := false }, []) := by
  have hm : ((readPacket env s id).frame.arrival beyond).header.msg = .read := by
    rw [Packet.arrival_msg]
    exact readPacket_msg
  have hown : idcmp ((readPacket env s id).frame.arrival beyond).header.id waiting.readId = true := by
    rw [Packet.arrival_id, hid, idcmp_iff]
    simp only [readPacket, Packet.frame]
    split <;> rfl
  simp only [processPacket, hm, processRead, hwait, hown, Bool.and_self, ↓reduceIte, Packet.arrival_dataSize]
  rfl

/-- The payload of the reply, as far as the receiver reads it. -/
theorem readReply_payload (p : Packet) :
    Lib.Bytes.read (p.frame.arrival beyond).buffer p.header.masked.dataSize.toNat =
      Lib.Bytes.read p.buffer p.header.masked.dataSize.toNat := by
  have h := Packet.arrival_payload p.frame beyond
  rw [Packet.payload, Packet.arrival_dataSize] at h
  have hframe : Lib.Bytes.read p.frame.buffer p.header.masked.dataSize.toNat =
      Lib.Bytes.read p.buffer p.header.masked.dataSize.toNat := by
    rw [Packet.frame, Packet.payload, read_of_le (by rw [length_read]; exact masked_size_le_self _),
      take_read _ (masked_size_le_self _)]
  exact h.trans hframe

/-- **A delivered reply is a success**, of as many bytes as it holds. -/
theorem readDelivered_eq (hopen : 0 ≤ cl.socketfd) (hlinked : cl.linked) :
    readDelivered cenv env cl s slot beyond beyond' k =
      ⟨0, min k.size (readPacket env s (idstr k.cid)).header.masked.dataSize.toNat,
        Lib.Bytes.read (readPacket env s (idstr k.cid)).buffer
          (min k.size (readPacket env s (idstr k.cid)).header.masked.dataSize.toNat)⟩ := by
  have hcall : clientReadCall cenv cl k.flags k.cid =
      some ({ cl with readWait := true, readId := idstr k.cid },
        (connectSend cenv cl (readRequest cenv k.cid k.flags)).2) := by
    rw [clientReadCall, if_neg (Int.not_lt.mpr hopen)]
  simp only [readDelivered, hcall, readRequest_served hlinked, List.foldl_cons, List.foldl_nil]
  rw [readReply_taken rfl rfl, readReply_payload]
  simp only [readEnd, Bool.false_eq_true, ↓reduceIte, read_write_read_le _ _ (Nat.min_le_right _ _)]

/-- The size in a reply: that of the value, in nine bits. -/
theorem readPacket_size :
    (readPacket env s id).header.masked.dataSize.toNat = heldSize s id % 512 := by
  have hmask : ∀ h : Header, h.masked.dataSize.toNat = h.dataSize.toNat % 512 := by
    intro h
    have h511 : (UInt16.ofNat variableSizeMaximum).toNat = 2 ^ 9 - 1 := by decide
    rw [Header.masked, UInt16.toNat_and, h511, Nat.and_two_pow_sub_one_eq_mod]
  rw [hmask]
  unfold heldSize
  cases hf : findEvent s id with
  | some e =>
    simp only [readPacket, hf, UInt32.toNat_toUInt16]
    omega
  | none =>
    simp only [readPacket, hf]
    rfl

end Reads

/-- **Missing and short variables are errors** only where there are none: a typed call is right when the variable is
there and its reply holds all bytes of the type, a call of `syncs_read` when the variable is there and has
the bytes asked for. -/
theorem reads_refuse_iff (cenv : ClientEnv) (env : Env) (cl : Connect) (s : Server) (slot : ClientIx)
    (beyond beyond' : List UInt8) (flags : UInt32) (cid : List UInt8) (hopen : 0 ≤ cl.socketfd) (hlinked : cl.linked) :
    (∀ k ∈ typedReads flags cid,
      ((readDelivered cenv env cl s slot beyond beyond' k).Refuses s k ∧
          (readDelivered cenv env cl s slot beyond beyond' k).Fills (readPacket env s (idstr cid)) k) ↔
        LiveId s.events (idstr cid) ∧ k.size ≤ heldSize s (idstr cid) % 512) ∧
    ∀ size,
      (readDelivered cenv env cl s slot beyond beyond' ⟨cid, flags, size⟩).Refuses s ⟨cid, flags, size⟩ ↔
        LiveId s.events (idstr cid) ∧ size ≤ heldSize s (idstr cid) := by
  have hrefuses : ∀ k : ReadCall, k.cid = cid →
      ((readDelivered cenv env cl s slot beyond beyond' k).Refuses s k ↔
        LiveId s.events (idstr cid) ∧ k.size ≤ heldSize s (idstr cid)) := by
    rintro k rfl
    rw [readDelivered_eq hopen hlinked]
    simp only [ReadResult.Refuses, ne_eq, not_true_eq_false, imp_false, not_or, not_not, Nat.not_lt]
  constructor
  · intro k hk
    have hcid : k.cid = cid := by
      simp only [typedReads, readInt32, readInt64, readFloat, readDouble, List.mem_cons, List.not_mem_nil, or_false] at hk
      rcases hk with rfl | rfl | rfl | rfl <;> rfl
    rw [hrefuses k hcid, readDelivered_eq hopen hlinked, hcid]
    simp only [ReadResult.Fills, readPacket_size, length_read, true_implies]
    constructor
    · rintro ⟨⟨hlive, _⟩, hlen, _⟩
      exact ⟨hlive, hlen ▸ Nat.min_le_right _ _⟩
    · rintro ⟨hlive, hle⟩
      have hmin : min k.size (heldSize s (idstr cid) % 512) = k.size := Nat.min_eq_left hle
      refine ⟨⟨hlive, le_trans hle (Nat.mod_le _ _)⟩, hmin, ?_⟩
      rw [hmin, Packet.payload, take_read]
      have hsize : (readPacket env s (idstr cid)).header.masked.dataSize.toNat = heldSize s (idstr cid) % 512 :=
        readPacket_size
      rw [← hsize] at hle
      exact le_trans hle (masked_size_le_self _)
  · intro size
    exact hrefuses ⟨cid, flags, size⟩ rfl

/-- A connected client, and a server on which `a` is an integer of four bytes. -/
def readingClient : Connect := { connectCreate [99] [] with socketfd := 4 }

def servingServer : Server := (serverDefine (serverCreate [115]) [97] typeVarInt32 (some [7, 0, 0, 0]) 4).server

theorem reads_refuse_defined :
    ((readDelivered .calm .calm readingClient servingServer 0 [] [] (readInt32 0 [97])).Refuses servingServer
          (readInt32 0 [97]) ∧
        (readDelivered .calm .calm readingClient servingServer 0 [] [] (readInt32 0 [97])).Fills
          (readPacket .calm servingServer (idstr [97])) (readInt32 0 [97])) ↔
      LiveId servingServer.events (idstr [97]) ∧
        (readInt32 0 [97]).size ≤ heldSize servingServer (idstr [97]) % 512 :=
  (reads_refuse_iff .calm .calm readingClient servingServer 0 [] [] 0 [97] (by decide) (by decide)).1
    (readInt32 0 [97]) List.mem_cons_self

/-- On a new server `syncs_read_int32` succeeds and stores nothing. -/
theorem readInt32_undefined :
    ¬ ∀ (cenv : ClientEnv) (env : Env) (cl : Connect) (s : Server) (slot : ClientIx) (beyond beyond' : List UInt8)
        (flags : UInt32) (cid : List UInt8), 0 ≤ cl.socketfd → cl.linked → ∀ k ∈ typedReads flags cid,
      (readDelivered cenv env cl s slot beyond beyond' k).Refuses s k ∧
        (readDelivered cenv env cl s slot beyond beyond' k).Fills (readPacket env s (idstr cid)) k := by
  intro h
  have hread := h .calm .calm readingClient (serverCreate [115]) 0 [] [] 0 [97] (by decide) (by decide)
    (readInt32 0 [97]) List.mem_cons_self
  exact hread.1 (Or.inl (by decide)) (by decide)

end SyncScribe
