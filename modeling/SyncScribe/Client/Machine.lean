import SyncScribe.Client.Process
import SyncScribe.Lib.Run

/-!
The client as a machine. A `ClientAct` is a call of its application, a packet that
its receive thread processes, or a change of its sockets by the thread of the
connection. Calls that wait for an answer are two acts, the one that sends and the
one that returns.
-/

namespace SyncScribe
open Lib Lib.Bytes

inductive ClientAct
  /-- `syncs_write` of bytes that its packet takes -/
  | write (env : ClientEnv) (flags : UInt32) (cid : List UInt8) (data : Option (List UInt8)) (dataSize : UInt32)
  | define (env : ClientEnv) (cid : List UInt8) (flags : UInt32)
  | undefine (env : ClientEnv) (cid : List UInt8)
  /-- `syncs_read`, up to its wait -/
  | read (env : ClientEnv) (flags : UInt32) (cid : List UInt8)
  | subscribe (env : ClientEnv) (flags : UInt32) (cid : List UInt8) (cb : Option Nat) (args : Nat)
  | subscribeSync (env : ClientEnv) (flags : UInt32) (cid : List UInt8) (eventData : Option (List UInt8))
  | subscribeSyncUser (env : ClientEnv) (flags : UInt32) (cid : List UInt8) (userData : Option (List UInt8))
      (userDataSize : UInt32)
  | unsubscribe (env : ClientEnv) (cid : List UInt8)
  | waitEvent (size : Nat)
  | channelAnons (env : ClientEnv) (cid : List UInt8) (flags : UInt32) (port : UInt16)
  /-- `syncs_channel_request`, up to its wait -/
  | channelRequest (env : ClientEnv) (cid : List UInt8)
  /-- `syncs_request_eventslist`, `_clientslist` or `_channelslist`, up to its wait -/
  | requestList (env : ClientEnv) (l : ListName)
  /-- its end -/
  | requestListEnd (inetAddr : List UInt8 → UInt32) (l : ListName)
  | freeList (l : ListName)
  /-- the connection is opened or lost -/
  | sockets (tcp udp : Int)
  /-- `syncs_send_id` at the start of a connection -/
  | sendId (env : ClientEnv)
  /-- `syncs_process_packet` -/
  | packet (env : ClientEnv) (p : Packet)

/-- What can be observed of a client. -/
inductive ClientObs
  | out (o : ClientOut)
  /-- the return of `syncs_wait_event` -/
  | waited (r : Option Waited)

/-- The state after a call that may be refused. -/
def Connect.call? (s : Connect) : Option (Connect × List ClientOut) → Connect × List ClientObs
  | some r => (r.1, r.2.map .out)
  | none => (s, [])

/-- One act of the client. -/
def clientAct (s : Connect) : ClientAct → Connect × List ClientObs
  | .write env flags cid data dataSize => (s, (clientWriteSend env s flags cid data dataSize).2.map .out)
  | .define env cid flags => (s, (clientDefine env s cid flags).map .out)
  | .undefine env cid => (s, (clientUndefine env s cid).map .out)
  | .read env flags cid => s.call? (clientReadCall env s flags cid)
  | .subscribe env flags cid cb args => s.call? (subscribeEvent env s flags cid cb args)
  | .subscribeSync env flags cid eventData => s.call? (subscribeEventSync env s flags cid eventData)
  | .subscribeSyncUser env flags cid userData userDataSize =>
    s.call? (subscribeEventSyncUser env s flags cid userData userDataSize)
  | .unsubscribe env cid => s.call? (some (unsubscribeEvent env s cid))
  | .waitEvent size => ((waitEvent s size).2, [.waited (waitEvent s size).1])
  | .channelAnons env cid flags port => s.call? (channelAnonsCall env s cid flags port)
  | .channelRequest env cid => s.call? (channelRequestCall env s cid)
  | .requestList env l => ((requestList env s l).1, ((requestList env s l).2.getD []).map .out)
  | .requestListEnd inetAddr l => ((requestListEnd inetAddr s l).1, [])
  | .freeList l => (freeList s l, [])
  | .sockets tcp udp => ({ s with socketfd := tcp, usocketfd := udp }, [])
  | .sendId env => ({ s with ready := true }, (sendId env s).map .out)
  | .packet env p => s.call? (some (processPacket env s p))

/-! ### What an act leaves alone -/

/-- An act on the events of the client. -/
def ClientAct.subscribes : ClientAct → Bool
  | .subscribe .. | .subscribeSync .. | .subscribeSyncUser .. | .unsubscribe .. => true
  | _ => false

/-- An act on its lists, or a packet. -/
def ClientAct.lists : ClientAct → Bool
  | .requestList .. | .requestListEnd .. | .freeList _ | .packet .. => true
  | _ => false

section Frame

variable {s : Connect} {a : ClientAct}

/-- Subscribing and unsubscribing changes the events, and nothing else. -/
theorem clientAct_subscribes (ha : a.subscribes = true) :
    (clientAct s a).1 = { s with events := (clientAct s a).1.events } := by
  cases a with
  | subscribe env flags cid cb args =>
    simp only [clientAct, subscribeEvent]
    cases s.getEventStr cid <;> rfl
  | subscribeSync env flags cid eventData =>
    simp only [clientAct, subscribeEventSync]
    cases s.getEventStr cid <;> rfl
  | subscribeSyncUser env flags cid userData userDataSize =>
    simp only [clientAct, subscribeEventSyncUser]
    cases s.getEventStr cid <;> rfl
  | unsubscribe env cid =>
    simp only [clientAct, Connect.call?, unsubscribeEvent]
    cases s.findEvent (idstr cid) <;> rfl
  | _ => cases ha

/-- The other acts leave the events, the lists and the ticket alone. -/
theorem clientAct_frame (hs : a.subscribes = false) (hl : a.lists = false) :
    (clientAct s a).1.events = s.events ∧ (clientAct s a).1.lists = s.lists ∧
      (clientAct s a).1.ticketData = s.ticketData ∧ (clientAct s a).1.ticketWait = s.ticketWait := by
  cases a with
  | read env flags cid =>
    simp only [clientAct, clientReadCall]
    split <;> exact ⟨rfl, rfl, rfl, rfl⟩
  | waitEvent size =>
    simp only [clientAct, SyncScribe.waitEvent]
    split <;> exact ⟨rfl, rfl, rfl, rfl⟩
  | channelAnons env cid flags port =>
    simp only [clientAct, channelAnonsCall]
    cases s.findFreeChannel <;> exact ⟨rfl, rfl, rfl, rfl⟩
  | channelRequest env cid =>
    simp only [clientAct, channelRequestCall]
    split <;> exact ⟨rfl, rfl, rfl, rfl⟩
  | subscribe | subscribeSync | subscribeSyncUser | unsubscribe => cases hs
  | requestList | requestListEnd | freeList | packet => cases hl
  | write | define | undefine | sockets | sendId => exact ⟨rfl, rfl, rfl, rfl⟩

end Frame

end SyncScribe
