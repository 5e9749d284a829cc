import SyncScribe.Client.Table
import SyncScribe.Server.WritePaths
import SyncScribe.System.Wire

/-!
What a write of the client delivers. `syncs_write` copies all the bytes it is given
into a packet on its stack and sends as many as the mask 511 leaves of their number:
up to 511 bytes arrive, are stored and read back; above that a call that should
refuse sends what is left, with the return value of the send; and above the 4095
bytes of the packet the copy destroys the frame of the call.
-/

namespace SyncScribe
open Lib Lib.Bytes Lib.Slots

/-! ## Packets of the client, received -/

/-- A packet of the client as the server finds it in its buffer. -/
def Outgoing.arrival (o : Outgoing) (beyond : List UInt8) : Packet :=
  ⟨(Header.decode o.wire).masked, o.wire.drop headerSize ++ beyond⟩

/-- The packets a call transmits, over either transport. -/
def transmitted (out : List ClientOut) : List Outgoing :=
  out.filterMap fun
    | .tcp o => some o
    | .udp o => some o
    | .call .. => none

/-- There is a socket `syncs_connect_send` transmits on. -/
def Connect.linked (s : Connect) : Prop := 0 < s.socketfd ∨ 0 < s.usocketfd

instance (s : Connect) : Decidable s.linked := inferInstanceAs (Decidable (_ ∨ _))

/-- `syncs_write_str`: the terminator is written too, and the size converted to 32 bits. -/
def clientWriteStr (env : ClientEnv) (s : Connect) (flags : UInt32) (cid data : List UInt8) :
    Option (Int × List ClientOut) :=
  clientWriteCall env s (flags ||| typeVarString) cid (some data) (UInt32.ofNat ((cstr data).length + 1))

/-- A call that writes `bytes` to `cid`, with the given result: success means that one packet was sent which carries
the bytes, and that a READ returns them once the server accepts it; bytes that fit no packet are refused. -/
structure WriteDelivered (cid : List UInt8) (r : Int × List ClientOut) (bytes : List UInt8) : Prop where
  carried : r.1 = 0 → ∃ o, transmitted r.2 = [o] ∧ o.packet.header.dataSize.toNat = bytes.length ∧
    o.wire = o.packet.header.encode ++ bytes
  stored : r.1 = 0 → ∀ o ∈ transmitted r.2, ∀ (beyond : List UInt8) (env env' : Env) (s : Server) (c : ClientIx),
    (clientWrite env s c (o.arrival beyond).header.id (o.arrival beyond).header.type (o.arrival beyond).buffer
      (o.arrival beyond).header.dataSize.toUInt32).ret = 0 →
    (readPacket env' (clientProcessPacket env s c (o.arrival beyond)).server (idstr cid)).payload = bytes
  refused : variableSizeMaximum < bytes.length → r.1 ≠ 0 ∧ r.2 = []

/-- The call comes back from its copy and delivers the bytes or reports an error. -/
def CallDelivers (cid : List UInt8) (r : Option (Int × List ClientOut)) (bytes : List UInt8) : Prop :=
  ∃ r', r = some r' ∧ WriteDelivered cid r' bytes

section Requests

variable {env : ClientEnv} {s : Connect} {flags dataSize : UInt32} {cid d : List UInt8} {o : Outgoing}

theorem Framed.arrival (h : Framed o.packet o.wire) (beyond : List UInt8) :
    o.arrival beyond = ⟨o.packet.header, o.packet.payload ++ beyond⟩ := by
  have hdecode := h.decode []
  rw [List.append_nil] at hdecode
  rw [Outgoing.arrival, hdecode, h.masked, h.bytes, ← o.packet.header.length_encode, List.drop_left]

theorem transmitted_connectSend (hup : s.linked) : transmitted (connectSend env s o).2 = [o] := by
  unfold connectSend
  split
  · rfl
  · rw [if_pos (hup.resolve_left ‹_›)]
    rfl

theorem connectSend_unlinked (hdown : ¬ s.linked) : connectSend env s o = (-1, []) := by
  rw [Connect.linked, not_or] at hdown
  rw [connectSend, if_neg hdown.1, if_neg hdown.2]

/-- The packet of `syncs_write` in the words of the server. -/
theorem writeRequest_type (env : ClientEnv) (flags : UInt32) (cid : List UInt8) (data : Option (List UInt8))
    (dataSize : UInt32) :
    (writeRequest env flags cid data dataSize).packet.header.type = Msg.write.code ||| (flags &&& requestMask) ∧
      (writeRequest env flags cid data dataSize).packet.header.id = idstr cid := by
  cases data with
  | none => exact ⟨rfl, rfl⟩
  | some d =>
    simp only [writeRequest]
    split <;> exact ⟨rfl, rfl⟩

theorem writeRequest_msg (env : ClientEnv) (flags : UInt32) (cid : List UInt8) (data : Option (List UInt8))
    (dataSize : UInt32) : (writeRequest env flags cid data dataSize).packet.header.msg = .write := by
  rw [Header.msg, (writeRequest_type env flags cid data dataSize).1]
  exact msg_request .write flags

/-- The mask keeps the sizes up to 511. -/
theorem writeRequest_size :
    (writeRequest env flags cid (some d) dataSize).packet.header.dataSize.toNat =
      (writeSize flags dataSize).toNat % 512 := by
  have hmask : ∀ n : UInt32, (n &&& UInt32.ofNat variableSizeMaximum).toUInt16.toNat = n.toNat % 512 := by
    intro n
    have h511 : (UInt32.ofNat variableSizeMaximum).toNat = 2 ^ 9 - 1 := by decide
    rw [UInt32.toNat_toUInt16, UInt32.toNat_and, h511, Nat.and_two_pow_sub_one_eq_mod]
    omega
  simp only [writeRequest]
  split
  · exact hmask _
  · rename_i hzero
    rw [not_not] at hzero
    simp [hzero]

/-- Whatever the size, what is sent is a packet. -/
theorem writeRequest_framed (env : ClientEnv) (flags : UInt32) (cid : List UInt8) (data : Option (List UInt8))
    (dataSize : UInt32) :
    Framed (writeRequest env flags cid data dataSize).packet (writeRequest env flags cid data dataSize).wire := by
  cases data with
  | none => exact Outgoing.framed rfl rfl (Nat.zero_le _) rfl
  | some d =>
    have hsize : (writeRequest env flags cid (some d) dataSize).packet.header.dataSize.toNat ≤ variableSizeMaximum := by
      rw [writeRequest_size]
      exact Nat.lt_succ_iff.mp (Nat.mod_lt _ (by decide))
    refine Outgoing.framed ?_ ?_ hsize ?_
    all_goals
      simp only [writeRequest]
      split <;> rfl

/-- **A size that fits** arrives whole. -/
theorem writeRequest_fits (h : (writeSize flags dataSize).toNat ≤ variableSizeMaximum) :
    (writeRequest env flags cid (some d) dataSize).packet.header.dataSize.toNat = (writeSize flags dataSize).toNat ∧
      (writeRequest env flags cid (some d) dataSize).packet.payload = read d (writeSize flags dataSize).toNat := by
  have hsize : (writeRequest env flags cid (some d) dataSize).packet.header.dataSize.toNat = _ := writeRequest_size
  have hn : (writeSize flags dataSize).toNat % 512 = (writeSize flags dataSize).toNat := by
    refine Nat.mod_eq_of_lt ?_
    simp only [variableSizeMaximum] at h
    omega
  rw [hn] at hsize
  refine ⟨hsize, ?_⟩
  rw [Packet.payload, hsize]
  simp only [writeRequest]
  split
  · exact read_write_read _ _ _
  · rename_i hzero
    rw [not_not] at hzero
    simp [hzero]

end Requests

/-! ## The server's side -/

/-- A READ after an accepted WRITE returns what was written. -/
theorem read_after_write (env env' : Env) (s : Server) (c : ClientIx) {p : Packet} (hm : p.header.msg = .write)
    (hsize : p.header.dataSize.toNat ≤ variableSizeMaximum)
    (hr : (clientWrite env s c p.header.id p.header.type p.buffer p.header.dataSize.toUInt32).ret = 0) :
    (readPacket env' (clientProcessPacket env s c p).server p.header.id).payload = p.payload := by
  obtain ⟨s', e, ho, _⟩ := clientWrite_accepted hr
  have hev : (clientProcessPacket env s c p).server.events =
      Function.update s'.events e (writeStore s' c (s'.events e) p.buffer p.header.dataSize.toUInt32) := by
    simp only [clientProcessPacket, clientDispatch, hm, Server.modifyClient_events]
    exact clientWrite_events ho hr
  have hfound : findEvent (clientProcessPacket env s c p).server p.header.id = some e := by
    rw [findEvent_update hev rfl]
    exact findEvent_opened ho
  have hnat : p.header.dataSize.toUInt32.toNat = p.header.dataSize.toNat := by simp
  simp only [readPacket, hfound, hev, Function.update_self, writeStore, Packet.payload]
  rw [toUInt16_toNat (by rw [hnat]; exact hsize), hnat, read_write_read, read_write_read]

/-! ## Writes -/

section Writes

variable {env : ClientEnv} {s : Connect} {flags dataSize : UInt32} {cid d : List UInt8}

theorem clientWriteSend_fits (h : (writeSize flags dataSize).toNat ≤ variableSizeMaximum) :
    WriteDelivered cid (clientWriteSend env s flags cid (some d) dataSize) (read d (writeSize flags dataSize).toNat) := by
  obtain ⟨hsize, hpayload⟩ := @writeRequest_fits env flags dataSize cid d h
  have hframed := writeRequest_framed env flags cid (some d) dataSize
  have hlinked : (clientWriteSend env s flags cid (some d) dataSize).1 = 0 → s.linked := by
    intro hr
    by_contra hdown
    rw [clientWriteSend, connectSend_unlinked hdown] at hr
    cases hr
  refine ⟨fun hr => ?_, fun hr o ho beyond env' env'' srv c hacc => ?_, fun hlong => ?_⟩
  · refine ⟨_, transmitted_connectSend (hlinked hr), ?_, ?_⟩
    · rw [hsize, length_read]
    · rw [hframed.bytes, hpayload]
  · rw [clientWriteSend, transmitted_connectSend (hlinked hr), List.mem_singleton] at ho
    subst ho
    rw [hframed.arrival] at hacc ⊢
    have hread := read_after_write env' env'' srv c
      (p := ⟨_, (writeRequest env flags cid (some d) dataSize).packet.payload ++ beyond⟩)
      (writeRequest_msg env flags cid (some d) dataSize) (by rw [hsize]; exact h) hacc
    simp only [(writeRequest_type env flags cid (some d) dataSize).2] at hread
    rw [hread, Packet.payload, read_append (by rw [Packet.payload, length_read]), hpayload]
  · rw [length_read] at hlong
    omega

/-- A size above 511 is sent as something else. -/
theorem clientWriteSend_long (bytes : List UInt8) (h : variableSizeMaximum < bytes.length) :
    WriteDelivered cid (clientWriteSend env s flags cid (some d) dataSize) bytes ↔ ¬ s.linked := by
  constructor
  · intro hd hup
    have hout := (hd.refused h).2
    have hsent : transmitted (clientWriteSend env s flags cid (some d) dataSize).2 = [_] := transmitted_connectSend hup
    rw [hout] at hsent
    cases hsent
  · intro hdown
    rw [clientWriteSend, connectSend_unlinked hdown]
    exact ⟨fun hr => absurd hr (by decide), fun hr => absurd hr (by decide), fun _ => ⟨by decide, rfl⟩⟩

/-- A call delivers if it comes back and what it hands over is right. -/
theorem delivers_iff {bytes : List UInt8} :
    CallDelivers cid (clientWriteCall env s flags cid (some d) dataSize) bytes ↔
      (writeSize flags dataSize).toNat ≤ eventDataSizeMaximum ∧
        WriteDelivered cid (clientWriteSend env s flags cid (some d) dataSize) bytes := by
  have hcopies : WriteCopies flags (some d) dataSize ↔ (writeSize flags dataSize).toNat ≤ eventDataSizeMaximum :=
    or_iff_right (by simp)
  simp only [CallDelivers, clientWriteCall, hcopies]
  split
  · rename_i hn
    simp [hn]
  · rename_i hn
    simp [hn]

/-- **A call of up to 511 bytes** delivers them. -/
theorem clientWriteCall_fits (h : (writeSize flags dataSize).toNat ≤ variableSizeMaximum) :
    CallDelivers cid (clientWriteCall env s flags cid (some d) dataSize) (read d (writeSize flags dataSize).toNat) :=
  delivers_iff.mpr ⟨le_trans h (by decide), clientWriteSend_fits h⟩

/-- **A call of more** does not, unless its packet takes them and there is nothing to send on. -/
theorem clientWriteCall_long (bytes : List UInt8) (h : variableSizeMaximum < bytes.length) :
    CallDelivers cid (clientWriteCall env s flags cid (some d) dataSize) bytes ↔
      ¬ s.linked ∧ (writeSize flags dataSize).toNat ≤ eventDataSizeMaximum := by
  rw [delivers_iff, clientWriteSend_long bytes h, and_comm]

/-- The characters of a string and its terminator, as they are in memory. -/
theorem read_cstr (data : List UInt8) : read data ((cstr data).length + 1) = cstr data ++ [0] := by
  have hsplit : cstr data ++ data.dropWhile (· != 0) = data := List.takeWhile_append_dropWhile
  have hend : read (data.dropWhile (· != 0)) 1 = [0] := by
    cases hd : data.dropWhile (· != 0) with
    | nil => rfl
    | cons x rest =>
      have hx := List.head_dropWhile_not (l := data) (· != 0) (by rw [hd]; exact List.cons_ne_nil _ _)
      simp only [hd, List.head_cons, bne_eq_false_iff_eq] at hx
      rw [hx]
      rfl
  have hread : read (cstr data ++ data.dropWhile (· != 0)) ((cstr data).length + 1) = cstr data ++ [0] := by
    rw [read_add, read_append rfl, List.drop_left, hend]
  rwa [hsplit] at hread

theorem writeSize_str {n : Nat} (h : n + 1 ≤ variableSizeMaximum) :
    (writeSize flags (UInt32.ofNat (n + 1))).toNat = n + 1 := by
  have hnat : (UInt32.ofNat (n + 1)).toNat = n + 1 := by
    simp only [variableSizeMaximum] at h
    rw [UInt32.toNat_ofNat', Nat.mod_eq_of_lt (by omega)]
  have hne : UInt32.ofNat (n + 1) ≠ 0 := by
    intro hz
    rw [hz] at hnat
    cases hnat
  rw [writeSize, if_neg hne, hnat]

/-- **A write delivers its bytes or reports an error** exactly when they are at most 511, or nothing can be sent at
all and the packet takes them; for a string the terminator counts. -/
theorem write_delivered_iff (env : ClientEnv) (s : Connect) (flags : UInt32) (cid data : List UInt8) :
    (∀ dataSize, CallDelivers cid (clientWriteCall env s flags cid (some data) dataSize)
        (read data (writeSize flags dataSize).toNat) ↔
      (writeSize flags dataSize).toNat ≤ variableSizeMaximum ∨
        (¬ s.linked ∧ (writeSize flags dataSize).toNat ≤ eventDataSizeMaximum)) ∧
    (CallDelivers cid (clientWriteStr env s flags cid data) (cstr data ++ [0]) ↔
      (cstr data).length + 1 ≤ variableSizeMaximum ∨
        (¬ s.linked ∧ (writeSize (flags ||| typeVarString) (UInt32.ofNat ((cstr data).length + 1))).toNat ≤
          eventDataSizeMaximum)) := by
  constructor
  · intro dataSize
    by_cases hfits : (writeSize flags dataSize).toNat ≤ variableSizeMaximum
    · exact iff_of_true (clientWriteCall_fits hfits) (Or.inl hfits)
    · rw [clientWriteCall_long _ (by rw [length_read]; omega), or_iff_right hfits]
  · by_cases hfits : (cstr data).length + 1 ≤ variableSizeMaximum
    · have hsize : (writeSize (flags ||| typeVarString) (UInt32.ofNat ((cstr data).length + 1))).toNat = _ :=
        writeSize_str hfits
      have hdelivered : CallDelivers cid (clientWriteStr env s flags cid data) (read data _) :=
        clientWriteCall_fits (le_of_eq_of_le hsize hfits)
      rw [hsize, read_cstr] at hdelivered
      exact iff_of_true hdelivered (Or.inl hfits)
    · rw [clientWriteStr, clientWriteCall_long _ (by rw [List.length_append, List.length_singleton]; omega),
        or_iff_right hfits]

/-- A client with a TCP connection. -/
def tcpClient : Connect := { connectCreate [99] [] with socketfd := 5 }

/-- The 1023 digits of the write test. -/
def testDigits : List UInt8 := (List.range 1023).map fun i => UInt8.ofNat (48 + i % 10)

/-- What `syncs_write_str` hands over of it. -/
def testSend : Int × List ClientOut :=
  clientWriteSend .calm tcpClient typeVarString [99] (some testDigits) 1024

/-- The string is sent as no bytes at all, and the call succeeds. -/
theorem testDigits_lost :
    clientWriteStr .calm tcpClient 0 [99] testDigits = some testSend ∧
    ¬ CallDelivers [99] (clientWriteStr .calm tcpClient 0 [99] testDigits) (cstr testDigits ++ [0]) ∧
    testSend.1 = 0 ∧ (transmitted testSend.2).map (fun o => o.packet.header.dataSize) = [0] := by
  have hlong : variableSizeMaximum < (cstr testDigits ++ [0]).length := by decide +kernel
  have hsize : UInt32.ofNat ((cstr testDigits).length + 1) = 1024 := by decide +kernel
  have hcall : clientWriteStr .calm tcpClient 0 [99] testDigits = some testSend := by
    rw [clientWriteStr, hsize]
    exact if_pos (by decide)
  refine ⟨hcall, ?_, by decide +kernel, by decide +kernel⟩
  rintro ⟨r, hr, hdelivered⟩
  rw [hcall, Option.some_inj] at hr
  subst hr
  exact (hdelivered.refused hlong).1 (by decide +kernel)

end Writes

end SyncScribe
