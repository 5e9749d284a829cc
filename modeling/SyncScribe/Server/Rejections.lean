import SyncScribe.Server.FanOut

/-!
Rejected requests. Each operation that can refuse a request says so by a
negative result; `Operation` lists them. Some of them create a slot before
their last check, so a refusal leaves no trace only because the check that
follows a creation cannot fail: the new event has the type of the request.
-/

namespace SyncScribe
open Lib Lib.Bytes Lib.Slots Lib.Keyed

/-- The operations that can refuse a request. -/
inductive Operation
  | clientSubscribe (env : Env) (c : ClientIx) (id : Id) (flags : UInt32) (updateCounter : UInt64)
  | addEvent (id : Id) (flags : UInt32) (data : Option (List UInt8)) (size : UInt32)
  | clientWrite (env : Env) (c : ClientIx) (id : Id) (flags : UInt32) (data : List UInt8) (dataSize : UInt32)
  | addChannel (c : ClientIx) (id : Id) (data : List UInt8)
  | clientChannelRequest (env : Env) (c : ClientIx) (id : Id)
  | serverWrite (env : Env) (flags : UInt32) (cid data : List UInt8) (dataSize : UInt32)
  | serverDefine (cid : List UInt8) (flags : UInt32) (data : Option (List UInt8)) (size : UInt32)
  | serverSubscribeEvent (flags : UInt32) (cid : List UInt8) (cb : Option Nat) (args : Nat)
  | uclientProcessPacket (env : Env) (addr : SockAddr) (p : Packet)

/-- The call of an operation. -/
def Operation.call (s : Server) : Operation → Res
  | .clientSubscribe env c id flags updateCounter => SyncScribe.clientSubscribe env s c id flags updateCounter
  | .addEvent id flags data size => SyncScribe.addEvent s id flags data size
  | .clientWrite env c id flags data dataSize => SyncScribe.clientWrite env s c id flags data dataSize
  | .addChannel c id data => SyncScribe.addChannel s c id data
  | .clientChannelRequest env c id => SyncScribe.clientChannelRequest env s c id
  | .serverWrite env flags cid data dataSize => SyncScribe.serverWrite env s flags cid data dataSize
  | .serverDefine cid flags data size => SyncScribe.serverDefine s cid flags data size
  | .serverSubscribeEvent flags cid cb args => SyncScribe.serverSubscribeEvent s flags cid cb args
  | .uclientProcessPacket env addr p => SyncScribe.uclientProcessPacket env s addr p

/-- An EVENT packet, or the call of a local subscriber in place of one. -/
def Out.isEvent : Out → Bool
  | .send _ p => p.header.msg == .event
  | .sendto _ p => p.header.msg == .event
  | .call .. => true

/-- The operation behind a packet of `c`, if it is one that can refuse. -/
def packetOperation (env : Env) (c : ClientIx) (p : Packet) : Option Operation :=
  let h := p.header
  match h.msg with
  | .subscribe => some (.clientSubscribe env c h.id h.type h.updateCounter)
  | .define => some (.addEvent h.id h.type none h.dataSize.toUInt32)
  | .write => some (.clientWrite env c h.id h.type p.buffer h.dataSize.toUInt32)
  | .channel =>
    if h.type &&& channelMask = channelAnons then some (.addChannel c h.id p.buffer)
    else if h.type &&& channelMask = channelRequest then some (.clientChannelRequest env c h.id)
    else none
  | _ => none

/-- The client an act is done for. -/
def Act.sender (s : Server) : Act → Option ClientIx
  | .packet _ c _ => some c
  | .datagram _ addr _ => findUclientAddr s addr
  | _ => none

/-- The operation behind an act. A datagram from an address the server knows is a packet of its client. -/
def Act.operation (s : Server) : Act → Option Operation
  | .packet env c p => packetOperation env c p
  | .datagram env addr p =>
    match findUclientAddr s addr with
    | some c => packetOperation env c p
    | none => some (.uclientProcessPacket env addr p)
  | .serverWrite env flags cid data dataSize => some (.serverWrite env flags cid data dataSize)
  | .serverDefine cid flags data size => some (.serverDefine cid flags data size)
  | .serverSubscribeEvent flags cid cb args => some (.serverSubscribeEvent flags cid cb args)
  | _ => none

/-- The last thing done for a packet: `c->rx_event_count++`. -/
def Server.received (s : Server) (c : ClientIx) : Server :=
  s.modifyClient c fun cl => { cl with rxEventCount := cl.rxEventCount + 1 }

section Refusals

variable {env : Env} {s : Server} {c : ClientIx} {id : Id} {flags size : UInt32} {data : Option (List UInt8)}

theorem addEvent_out : (addEvent s id flags data size).out = [] := by
  unfold addEvent
  split
  · split <;> rfl
  · split <;> rfl

theorem serverDefine_out {cid : List UInt8} : (serverDefine s cid flags data size).out = [] := by
  unfold serverDefine
  split
  · rfl
  · exact addEvent_out

theorem serverSubscribeEvent_out {cid : List UInt8} {cb : Option Nat} {args : Nat} :
    (serverSubscribeEvent s flags cid cb args).out = [] := by
  unfold serverSubscribeEvent
  split <;> rfl

theorem clientChannelRequest_refused (h : (clientChannelRequest env s c id).ret ≠ 0) :
    (clientChannelRequest env s c id).server = s ∧ (clientChannelRequest env s c id).out = [] := by
  unfold clientChannelRequest at h ⊢
  split
  · exact ⟨rfl, rfl⟩
  · rename_i hf
    simp only [hf] at h
    exact absurd rfl h

/-- A datagram is refused when its client is not known and no slot is left for it; one that does
not register is told so. -/
theorem uclientProcessPacket_refused {addr : SockAddr} {p : Packet}
    (h : (uclientProcessPacket env s addr p).ret ≠ 0) :
    (uclientProcessPacket env s addr p).server = s ∧
      ((uclientProcessPacket env s addr p).out = [] ∨
        (uclientProcessPacket env s addr p).out = [.sendto addr (statusPacket env s errorUnknownclient)]) := by
  unfold uclientProcessPacket at h ⊢
  split
  · rename_i hu
    simp only [hu] at h
    exact absurd rfl h
  · split
    · exact ⟨rfl, Or.inl rfl⟩
    · exact ⟨rfl, Or.inr rfl⟩

/-- **A refused operation** leaves the server as it was and tells nobody of an event. -/
theorem Operation.refused {op : Operation} (h : (op.call s).ret < 0) :
    (op.call s).server = s ∧ ((op.call s).out = [] ∨
      ∃ env addr p, op = .uclientProcessPacket env addr p ∧
        (op.call s).out = [.sendto addr (statusPacket env s errorUnknownclient)]) := by
  have hr := ne_of_lt h
  cases op with
  | clientSubscribe env c id flags updateCounter =>
    exact (clientSubscribe_refused hr).imp_right Or.inl
  | addEvent id flags data size => exact ⟨addEvent_refused hr, Or.inl addEvent_out⟩
  | clientWrite env c id flags data dataSize => exact (clientWrite_refused hr).imp_right Or.inl
  | addChannel c id data => exact ⟨(addChannel_refused data hr).1, Or.inl addChannel_out⟩
  | clientChannelRequest env c id => exact (clientChannelRequest_refused hr).imp_right Or.inl
  | serverWrite env flags cid data dataSize => exact (serverWrite_refused hr).imp_right Or.inl
  | serverDefine cid flags data size => exact ⟨serverDefine_refused hr, Or.inl serverDefine_out⟩
  | serverSubscribeEvent flags cid cb args =>
    exact ⟨serverSubscribeEvent_refused hr, Or.inl serverSubscribeEvent_out⟩
  | uclientProcessPacket env addr p =>
    obtain ⟨hs, hout⟩ := uclientProcessPacket_refused hr
    exact ⟨hs, hout.imp_right fun ho => ⟨env, addr, p, rfl, ho⟩⟩

theorem Operation.refused_silent {op : Operation} (h : (op.call s).ret < 0) :
    ∀ o ∈ (op.call s).out, o.isEvent = false := by
  rcases (Operation.refused h).2 with ho | ⟨env, addr, p, _, ho⟩
  · simp [ho]
  · intro o hm
    rw [ho, List.mem_singleton] at hm
    subst hm
    have hmsg : (statusPacket env s errorUnknownclient).header.msg = .serverStatus :=
      Msg.ofWord_code .serverStatus
    rw [Out.isEvent, hmsg]
    rfl

/-- A packet does what its operation does, and counts. -/
theorem packet_eq_operation {p : Packet} {op : Operation} (hop : packetOperation env c p = some op) :
    (clientProcessPacket env s c p).server = (op.call s).server.received c ∧
      (clientProcessPacket env s c p).out = (op.call s).out := by
  cases hm : p.header.msg
  all_goals simp only [packetOperation, hm, reduceCtorEq] at hop
  case subscribe =>
    cases hop
    simp only [clientProcessPacket, clientDispatch, hm]
    exact ⟨rfl, rfl⟩
  case define =>
    cases hop
    simp only [clientProcessPacket, clientDispatch, hm]
    exact ⟨rfl, addEvent_out.symm⟩
  case write =>
    cases hop
    simp only [clientProcessPacket, clientDispatch, hm]
    exact ⟨rfl, rfl⟩
  case channel =>
    simp only [clientProcessPacket, clientDispatch, hm, clientChannel]
    split at hop
    · rename_i ha
      cases hop
      simp only [ha, ↓reduceIte]
      exact ⟨rfl, rfl⟩
    · rename_i ha
      split at hop
      · rename_i hq
        cases hop
        simp only [hq, ↓reduceIte]
        exact ⟨rfl, rfl⟩
      · cases hop

/-- A refused packet is counted and nothing else. -/
theorem packet_refused {p : Packet} {op : Operation} (hop : packetOperation env c p = some op)
    (h : (op.call s).ret < 0) :
    (clientProcessPacket env s c p).server = s.received c ∧
      ∀ o ∈ (clientProcessPacket env s c p).out, o.isEvent = false := by
  obtain ⟨hserver, hout⟩ := packet_eq_operation (s := s) hop
  rw [hserver, hout, (Operation.refused h).1]
  exact ⟨rfl, Operation.refused_silent h⟩

/-- A datagram from a known address is a packet of its client. -/
theorem datagram_known (env : Env) {addr : SockAddr} (hf : findUclientAddr s addr = some c) (p : Packet) :
    (uclientProcessPacket env s addr p).server = (clientProcessPacket env s c p).server ∧
      (uclientProcessPacket env s addr p).out = (clientProcessPacket env s c p).out := by
  simp only [uclientProcessPacket, uclientOf, hf, and_self]

end Refusals

/-- **Rejected requests change nothing**: neither the operation nor the packet or call that asked for
it, whatever state the server is in, apart from the sender's count of received packets. -/
theorem rejected_changes_nothing (s : Server) (op : Operation) (h : (op.call s).ret < 0) :
    ((op.call s).server = s ∧ ∀ o ∈ (op.call s).out, o.isEvent = false) ∧
      ∀ a, a.operation s = some op →
        ((act s a).1 = s ∨ ∃ c, a.sender s = some c ∧ (act s a).1 = s.received c) ∧
          ∀ o ∈ (act s a).2, o.isEvent = false := by
  have hsame := (Operation.refused h).1
  have hsilent := Operation.refused_silent h
  refine ⟨⟨hsame, hsilent⟩, ?_⟩
  intro a ha
  cases a with
  | packet env c p =>
    obtain ⟨hserver, hout⟩ := packet_refused ha h
    exact ⟨Or.inr ⟨c, rfl, hserver⟩, hout⟩
  | datagram env addr p =>
    simp only [Act.operation] at ha
    cases hf : findUclientAddr s addr with
    | some c =>
      rw [hf] at ha
      obtain ⟨hserver, hout⟩ := packet_refused ha h
      obtain ⟨hserver', hout'⟩ := datagram_known env hf p
      exact ⟨Or.inr ⟨c, hf, hserver'.trans hserver⟩, by rw [act, hout']; exact hout⟩
    | none =>
      rw [hf] at ha
      cases ha
      exact ⟨Or.inl hsame, hsilent⟩
  | serverWrite env flags cid data dataSize =>
    cases ha
    exact ⟨Or.inl hsame, hsilent⟩
  | serverDefine cid flags data size =>
    cases ha
    exact ⟨Or.inl hsame, by simp [act]⟩
  | serverSubscribeEvent flags cid cb args =>
    cases ha
    exact ⟨Or.inl hsame, by simp [act]⟩
  | accept | close | keep | serverUndefine | serverUnsubscribeEvent | setSyncOffset => cases ha

/-- A server with one event of four bytes. -/
def wordServer : Server := (run act (serverCreate []) [.serverDefine [97] typeVarInt32 none 0]).1

/-- A string for that event, with FORCE. -/
def stringForWord : Operation := .clientWrite .calm 0 (idstr [97]) (typeForce ||| typeVarString) [98, 0] 2

/-- The event is found, and its type is not that of the WRITE. -/
theorem rejected_changes_nothing_write :
    (stringForWord.call wordServer).ret = -3 ∧ (stringForWord.call wordServer).server = wordServer :=
  ⟨by decide +kernel, (rejected_changes_nothing wordServer stringForWord (by decide +kernel)).1.1⟩

end SyncScribe
