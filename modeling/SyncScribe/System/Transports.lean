import SyncScribe.Server.Transports
import SyncScribe.System.Requests

/-!
The calls of the client over UDP. `syncs_connect_send` serves both transports, but
half of the calls ask for the TCP socket before they come to it: over UDP they
build no packet, and some of them return success all the same. What is sent is the
same packet, and the server does the same with it.
-/

namespace SyncScribe
open Lib Lib.Bytes Lib.Slots

/-- The client in the same state with a TCP connection, and with a UDP socket. -/
def Connect.onTcp (s : Connect) (fd : Int) : Connect := { s with socketfd := fd, usocketfd := -1 }
def Connect.onUdp (s : Connect) (fd : Int) : Connect := { s with socketfd := -1, usocketfd := fd }

/-- The packets handed to `syncs_blocking_send`. -/
def tcpHanded (obs : List ClientObs) : List Outgoing :=
  obs.filterMap fun
    | .out (.tcp o) => some o
    | _ => none

/-- The packets handed to `syncs_udp_send`. -/
def udpHanded (obs : List ClientObs) : List Outgoing :=
  obs.filterMap fun
    | .out (.udp o) => some o
    | _ => none

/-- The calls that send a request. -/
def ClientAct.isCall : ClientAct → Bool
  | .write .. | .define .. | .undefine .. | .read .. | .subscribe .. | .subscribeSync .. | .subscribeSyncUser ..
  | .unsubscribe .. | .channelAnons .. | .channelRequest .. | .requestList .. => true
  | .waitEvent _ | .requestListEnd .. | .freeList _ | .sockets .. | .sendId _ | .packet .. => false

/-- The calls that test `socketfd` before they send. -/
def ClientAct.needsTcp : ClientAct → Bool
  | .read .. | .subscribe .. | .subscribeSync .. | .subscribeSyncUser .. | .channelAnons .. | .channelRequest ..
  | .requestList .. => true
  | .write .. | .define .. | .undefine .. | .unsubscribe .. | .waitEvent _ | .requestListEnd .. | .freeList _
  | .sockets .. | .sendId _ | .packet .. => false

/-- The server after it has received the packets from `c`. -/
def deliver (env : Env) (beyond : List UInt8) (c : ClientIx) (u : Server) (os : List Outgoing) : Server :=
  os.foldl (fun u o => (clientProcessPacket env u c (o.arrival beyond)).server) u

/-- A call does over UDP what it does over TCP: it hands over the same packet, and servers that differ in the transport
of the client at most do so after the delivery. -/
structure SameOverUdp (s : Connect) (a : ClientAct) : Prop where
  packets : ∀ tcp udp, 0 < tcp → 0 < udp →
    udpHanded (clientAct (s.onUdp udp) a).2 = tcpHanded (clientAct (s.onTcp tcp) a).2
  server : ∀ tcp udp, 0 < tcp → 0 < udp → ∀ (env : Env) (beyond : List UInt8) (c : ClientIx) (u v : Server),
    OverUdp env c u v →
    OverUdp env c (deliver env beyond c u (tcpHanded (clientAct (s.onTcp tcp) a).2))
      (deliver env beyond c v (udpHanded (clientAct (s.onUdp udp) a).2))

section Calls

variable {env : ClientEnv} {s : Connect} {a : ClientAct} {o : Outgoing} {r : Request}

theorem request_onTcp (s : Connect) (fd : Int) (a : ClientAct) : a.request (s.onTcp fd) = a.request s := by
  cases a <;> rfl

theorem request_onUdp (s : Connect) (fd : Int) (a : ClientAct) : a.request (s.onUdp fd) = a.request s := by
  cases a <;> rfl

theorem connectSend_tcp (h : 0 < s.socketfd) : (connectSend env s o).2 = [.tcp o] := by rw [connectSend, if_pos h]

theorem connectSend_udp (h : s.socketfd = -1) (hu : 0 < s.usocketfd) : (connectSend env s o).2 = [.udp o] := by
  rw [connectSend, if_neg (by omega), if_pos hu]

/-- Over TCP every call sends the packet it builds. -/
theorem tcpHanded_call (ha : a.isCall = true) (h : 0 < s.socketfd) :
    tcpHanded (clientAct s a).2 = ((a.request s).map Prod.snd).toList := by
  have hge : s.socketfd ≥ 0 := by omega
  have hlt : ¬ s.socketfd < 0 := by omega
  have hsend : ∀ {env o}, (connectSend env s o).2 = [.tcp o] := connectSend_tcp h
  cases a with
  | write | define | undefine => simp only [clientAct, clientWriteSend, clientDefine, clientUndefine, hsend]; rfl
  | read => simp only [clientAct, clientReadCall, if_neg hlt, hsend]; rfl
  | channelRequest => simp only [clientAct, channelRequestCall, if_neg hlt, hsend]; rfl
  | requestList => simp only [clientAct, requestList, if_neg hlt, hsend]; rfl
  | subscribe _ _ cid | subscribeSync _ _ cid | subscribeSyncUser _ _ cid =>
    simp only [clientAct, subscribeEvent, subscribeEventSync, subscribeEventSyncUser, ClientAct.request]
    cases s.getEventStr cid with
    | none => rfl
    | some e => simp only [Option.map_some, Connect.call?, subscribeSlot, if_pos hge, hsend]; rfl
  | unsubscribe _ cid =>
    simp only [clientAct, unsubscribeEvent, ClientAct.request]
    cases s.findEvent (idstr cid) with
    | none => rfl
    | some e => simp only [Option.map_some, Connect.call?, hsend]; rfl
  | channelAnons =>
    simp only [clientAct, channelAnonsCall, ClientAct.request]
    cases s.findFreeChannel with
    | none => rfl
    | some k => simp only [Option.map_some, Connect.call?, if_pos hge, hsend]; rfl
  | waitEvent | requestListEnd | freeList | sockets | sendId | packet => cases ha

/-- Over UDP it does unless it asks for the TCP socket. -/
theorem udpHanded_call (ha : a.isCall = true) (h : s.socketfd = -1) (hu : 0 < s.usocketfd) :
    udpHanded (clientAct s a).2 = if a.needsTcp then [] else ((a.request s).map Prod.snd).toList := by
  have hge : ¬ s.socketfd ≥ 0 := by omega
  have hlt : s.socketfd < 0 := by omega
  have hsend : ∀ {env o}, (connectSend env s o).2 = [.udp o] := connectSend_udp h hu
  cases a with
  | write | define | undefine => simp only [clientAct, clientWriteSend, clientDefine, clientUndefine, hsend]; rfl
  | read => simp only [clientAct, clientReadCall, if_pos hlt]; rfl
  | channelRequest => simp only [clientAct, channelRequestCall, if_pos hlt]; rfl
  | requestList => simp only [clientAct, requestList, if_pos hlt]; rfl
  | subscribe _ _ cid | subscribeSync _ _ cid | subscribeSyncUser _ _ cid =>
    simp only [clientAct, subscribeEvent, subscribeEventSync, subscribeEventSyncUser]
    cases s.getEventStr cid with
    | none => rfl
    | some e => simp only [Option.map_some, Connect.call?, subscribeSlot, if_neg hge]; rfl
  | unsubscribe _ cid =>
    simp only [clientAct, unsubscribeEvent, ClientAct.request]
    cases s.findEvent (idstr cid) with
    | none => rfl
    | some e => simp only [Option.map_some, Connect.call?, hsend]; rfl
  | channelAnons =>
    simp only [clientAct, channelAnonsCall]
    cases s.findFreeChannel with
    | none => rfl
    | some k => simp only [Option.map_some, Connect.call?, if_neg hge]; rfl
  | waitEvent | requestListEnd | freeList | sockets | sendId | packet => cases ha

/-- No call registers the client: that is done when a connection begins. -/
theorem request_msg (h : a.request s = some (r, o)) (beyond : List UInt8) :
    (o.arrival beyond).header.msg ≠ .clientId := by
  have hne : ∀ {m : Msg} {w : UInt32}, Msg.ofWord w = m → m ≠ .clientId → Msg.ofWord w ≠ .clientId := by
    rintro m w rfl hm
    exact hm
  rw [(request_framed h).arrival]
  cases a with
  | define cenv cid flags =>
    cases h
    exact hne (msg_request .define flags) (by decide)
  | undefine cenv cid =>
    cases h
    exact hne (Msg.ofWord_code .define) (by decide)
  | write cenv flags cid data dataSize =>
    cases h
    exact hne (writeRequest_msg cenv flags cid data dataSize) (by decide)
  | read cenv flags cid =>
    cases h
    exact hne (Msg.ofWord_or .read (and_and_eq_zero flags (by decide))) (by decide)
  | subscribe cenv flags cid | subscribeSync cenv flags cid | subscribeSyncUser cenv flags cid =>
    obtain ⟨e, _, he⟩ := Option.map_eq_some_iff.mp h
    cases he
    exact hne (msg_request .subscribe flags) (by decide)
  | unsubscribe cenv cid =>
    obtain ⟨e, _, he⟩ := Option.map_eq_some_iff.mp h
    cases he
    exact hne (msg_request .unsubscribe (s.events e).flags) (by decide)
  | channelAnons cenv cid flags port =>
    obtain ⟨k, _, hk⟩ := Option.map_eq_some_iff.mp h
    cases hk
    have hm : Msg.ofWord (Msg.channel.code ||| SyncScribe.channelAnons) = .channel := by decide
    exact hne hm (by decide)
  | channelRequest cenv cid =>
    cases h
    have hm : Msg.ofWord (Msg.channel.code ||| SyncScribe.channelRequest) = .channel := by decide
    exact hne hm (by decide)
  | requestList cenv l =>
    cases h
    exact hne (Msg.ofWord_code l.msg) (by cases l <;> decide)
  | waitEvent | requestListEnd | freeList | sockets | sendId | packet => cases h

/-- The delivery of what a call sends. -/
theorem OverUdp.deliver {senv : Env} {beyond : List UInt8} {c : ClientIx} {u v : Server} (h : OverUdp senv c u v)
    (s : Connect) (a : ClientAct) :
    OverUdp senv c (deliver senv beyond c u ((a.request s).map Prod.snd).toList)
      (SyncScribe.deliver senv beyond c v ((a.request s).map Prod.snd).toList) := by
  cases hr : a.request s with
  | none => exact h
  | some x =>
    obtain ⟨r, o⟩ := x
    exact h.packet c (request_msg hr beyond)

/-- **UDP clients have the API of TCP clients** in the calls that do not test the TCP socket, and in the others where
those send nothing over TCP either: no slot is left for the name. -/
theorem same_over_udp_iff (s : Connect) (a : ClientAct) (ha : a.isCall = true) :
    SameOverUdp s a ↔ a.needsTcp = false ∨ a.request s = none := by
  have htcp : ∀ fd, 0 < fd → tcpHanded (clientAct (s.onTcp fd) a).2 = ((a.request s).map Prod.snd).toList := by
    intro fd hfd
    rw [tcpHanded_call ha hfd, request_onTcp]
  have hudp : ∀ fd, 0 < fd → udpHanded (clientAct (s.onUdp fd) a).2 =
      if a.needsTcp then [] else ((a.request s).map Prod.snd).toList := by
    intro fd hfd
    rw [udpHanded_call ha rfl hfd, request_onUdp]
  constructor
  · intro hsame
    have heq := hsame.packets 1 1 (by decide) (by decide)
    rw [htcp 1 (by decide), hudp 1 (by decide)] at heq
    cases hn : a.needsTcp with
    | false => exact Or.inl rfl
    | true =>
      rw [if_pos hn] at heq
      cases hr : a.request s with
      | none => exact Or.inr rfl
      | some x =>
        rw [hr] at heq
        cases heq
  · intro hcond
    have hhanded : (if a.needsTcp then [] else ((a.request s).map Prod.snd).toList) =
        ((a.request s).map Prod.snd).toList := by
      rcases hcond with hn | hr
      · rw [if_neg (by simp [hn])]
      · rw [hr]
        split <;> rfl
    refine ⟨fun tcp udp ht hu => ?_, fun tcp udp ht hu env beyond c u v huv => ?_⟩
    · rw [htcp tcp ht, hudp udp hu, hhanded]
    · rw [htcp tcp ht, hudp udp hu, hhanded]
      exact huv.deliver s a

/-- A write is the same over both. -/
theorem same_over_udp_write : SameOverUdp (connectCreate [99] []) (.write .calm typeVarInt32 [97] (some [1, 2, 3, 4]) 0) :=
  (same_over_udp_iff (connectCreate [99] []) (.write .calm typeVarInt32 [97] (some [1, 2, 3, 4]) 0) rfl).mpr (Or.inl rfl)

/-- A subscription sends nothing over UDP. -/
theorem subscribe_needs_tcp :
    (udpHanded (clientAct ((connectCreate [99] []).onUdp 4) (.subscribe .calm 0 [97] none 0)).2).length = 0 ∧
    (tcpHanded (clientAct ((connectCreate [99] []).onTcp 4) (.subscribe .calm 0 [97] none 0)).2).length = 1 ∧
    ¬ SameOverUdp (connectCreate [99] []) (.subscribe .calm 0 [97] none 0) := by
  have hudp : (udpHanded (clientAct ((connectCreate [99] []).onUdp 4) (.subscribe .calm 0 [97] none 0)).2).length = 0 := by
    decide +kernel
  have htcp : (tcpHanded (clientAct ((connectCreate [99] []).onTcp 4) (.subscribe .calm 0 [97] none 0)).2).length = 1 := by
    decide +kernel
  refine ⟨hudp, htcp, fun h => ?_⟩
  rw [h.packets 4 4 (by decide) (by decide), htcp] at hudp
  cases hudp

end Calls

end SyncScribe
