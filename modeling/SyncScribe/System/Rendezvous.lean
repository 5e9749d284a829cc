import SyncScribe.Server.Channels
import SyncScribe.Client.Machine
import SyncScribe.System.ListReply
import SyncScribe.System.Resubscribe

/-!
Channel requests. A client announces a channel, the server keeps its ticket, and
another client asks for it. The asking client never sets `ticket_wait`, so its
request does not wait, and no reply is ever taken: in every state it can reach the
ticket it returns is the zero ticket it was created with.
-/

namespace SyncScribe
open Lib Lib.Bytes

/-! ## The exchange -/

/-- The client processes the packets of its connection in order. -/
def deliverAll (env : ClientEnv) (beyond : List UInt8) (s : Connect) (ps : List Packet) : Connect :=
  ps.foldl (fun s p => (processPacket env s { p with buffer := p.buffer ++ beyond }).1) s

/-- `syncs_channel_request` on the client `b`, whose connection is the slot `c` of the server: the
server processes the request, the client what was on its way and then the answer, and the call
returns. -/
def channelRequestRun (inetAddr : List UInt8 → UInt32) (env : ClientEnv) (serverEnv : Env) (beyond : List UInt8)
    (b : Connect) (s : Server) (c : ClientIx) (cid : List UInt8) (earlier : List Packet) : Except Int Ticket :=
  match channelRequestCall env b cid with
  | none => .error (-77)
  | some (b, out) =>
    let answer := (run act s ((tcpPackets out).map fun p => .packet serverEnv c (p.within serverEnv))).2
    channelRequestEnd inetAddr (deliverAll env beyond b (earlier ++ sentTo c answer))

/-- The announcement of a channel. -/
def Act.announces (id : Id) : Act → Prop
  | .packet _ _ p | .datagram _ _ p => p.header.announces = true ∧ p.header.id = id
  | _ => False

/-- Some client called `syncs_channel_anons(cid, flags, port)` on a connection from the address `ip`,
and the server processed its packet; since then the channel was not announced and the client did not
disconnect. -/
def Announced (start : Server) (acts : List Act) (cid : List UInt8) (flags : UInt32) (port : UInt16)
    (ip : UInt32) : Prop :=
  ∃ before later env a a' out p serverEnv c, channelAnonsCall env a cid flags port = some (a', out) ∧
    tcpPackets out = [p] ∧ acts = before ++ .packet serverEnv c (p.within serverEnv) :: later ∧
    ((run act start before).1.clients c).addr.ip = ip ∧
    ∀ ch ∈ channelJournal (act (run act start before).1 (.packet serverEnv c (p.within serverEnv))).1 later,
      ¬ (ch.announces (idstr cid) ∨ ch = .disconnect c)

/-- What a request should return. -/
structure Rendezvous (start : Server) (acts : List Act) (inetAddr : List UInt8 → UInt32) (addr cid : List UInt8)
    (result : Except Int Ticket) : Prop where
  announced : ∀ flags port ip, Announced start acts cid flags port ip →
    result = .ok ⟨ticketAddr inetAddr addr ip, port, flags⟩
  unannounced : (∀ a ∈ acts, ¬ a.announces (idstr cid)) → ∃ r, result = .error r

/-! ## The ticket of the client -/

/-- No ticket is waited for, and none was taken. -/
structure TicketIdle (s : Connect) : Prop where
  wait : s.ticketWait = false
  data : s.ticketData = ⟨0, 0, 0⟩

section Idle

variable {s : Connect}

theorem channelProcessPacket_idle (h : TicketIdle s) (p : Packet) : channelProcessPacket s p = s := by
  unfold channelProcessPacket
  rw [h.wait]
  split <;> rfl

theorem TicketIdle.processPacket (h : TicketIdle s) (env : ClientEnv) (p : Packet) :
    TicketIdle (processPacket env s p).1 := by
  cases hm : p.header.msg
  all_goals simp only [SyncScribe.processPacket, hm]
  case event =>
    rw [processEvent_frame]
    exact ⟨h.wait, h.data⟩
  case channel =>
    rw [channelProcessPacket_idle h p]
    exact h
  case serverStatus =>
    rw [processError_frame]
    exact ⟨h.wait, h.data⟩
  case read =>
    rw [processRead_frame]
    exact ⟨h.wait, h.data⟩
  all_goals exact ⟨h.wait, h.data⟩

/-- **One act** of the client. -/
theorem clientAct_idle (h : TicketIdle s) (a : ClientAct) : TicketIdle (clientAct s a).1 := by
  by_cases hs : a.subscribes = true
  · rw [clientAct_subscribes hs]
    exact ⟨h.wait, h.data⟩
  by_cases hl : a.lists = true
  · cases a with
    | requestList env l =>
      simp only [clientAct, SyncScribe.requestList]
      split <;> exact ⟨h.wait, h.data⟩
    | requestListEnd inetAddr l => exact ⟨h.wait, h.data⟩
    | freeList l => exact ⟨h.wait, h.data⟩
    | packet env p => exact h.processPacket env p
    | _ => cases hl
  · obtain ⟨_, _, hdata, hwait⟩ := clientAct_frame (by simpa using hs) (by simpa using hl)
    exact ⟨hwait.trans h.wait, hdata.trans h.data⟩

/-- **In every run of the client** no ticket is waited for. -/
theorem run_idle (name addr : List UInt8) (as : List ClientAct) :
    TicketIdle (run clientAct (connectCreate name addr) as).1 := by
  have hstart : TicketIdle (connectCreate name addr) := ⟨rfl, rfl⟩
  have hstep : ∀ s a, TicketIdle s → TicketIdle (clientAct s a).1 := fun _ a h => clientAct_idle h a
  exact run_inductive hstep as _ hstart

theorem TicketIdle.deliverAll (h : TicketIdle s) (env : ClientEnv) (beyond : List UInt8) (ps : List Packet) :
    TicketIdle (deliverAll env beyond s ps) := by
  induction ps generalizing s with
  | nil => exact h
  | cons p ps ih => exact ih (h.processPacket env _)

/-- A request that can be sent returns the zero ticket at once. -/
theorem channelRequestRun_eq (h : TicketIdle s) (hup : 0 ≤ s.socketfd) (inetAddr : List UInt8 → UInt32)
    (env : ClientEnv) (serverEnv : Env) (beyond : List UInt8) (u : Server) (c : ClientIx) (cid : List UInt8)
    (earlier : List Packet) :
    channelRequestRun inetAddr env serverEnv beyond s u c cid earlier = .ok ⟨0, 0, 0⟩ := by
  have hcall : channelRequestCall env s cid =
      some ({ s with ticketId := idstr cid }, (connectSend env s (channelRequestRequest env cid)).2) :=
    if_neg (by omega)
  have hsent : TicketIdle { s with ticketId := idstr cid } := ⟨h.wait, h.data⟩
  simp only [channelRequestRun, hcall]
  generalize earlier ++ sentTo c _ = ps
  have hend := hsent.deliverAll env beyond ps
  simp only [channelRequestEnd, hend.wait, hend.data, Bool.false_eq_true, ↓reduceIte]
  have hzero : ∀ addr, ticketAddr inetAddr addr 0 = 0 := fun addr => if_neg (by decide)
  rw [hzero]

end Idle

/-! ## When the request returns what it should -/

section Main

variable (inetAddr : List UInt8 → UInt32) (env : ClientEnv) (serverEnv : Env) (beyond : List UInt8) (c : ClientIx)

/-- **When a channel request returns what it should**: the channel was announced, and its ticket is all zero. -/
theorem channel_rendezvous_iff (sid : List UInt8) (acts : List Act) (name addr : List UInt8)
    (clientActs : List ClientAct) (hup : 0 ≤ (run clientAct (connectCreate name addr) clientActs).1.socketfd)
    (cid : List UInt8) (earlier : List Packet) :
    Rendezvous (serverCreate sid) acts inetAddr (run clientAct (connectCreate name addr) clientActs).1.addr cid
        (channelRequestRun inetAddr env serverEnv beyond (run clientAct (connectCreate name addr) clientActs).1
          (run act (serverCreate sid) acts).1 c cid earlier) ↔
      (∃ a ∈ acts, a.announces (idstr cid)) ∧ ∀ flags port ip, Announced (serverCreate sid) acts cid flags port ip →
        ticketAddr inetAddr (run clientAct (connectCreate name addr) clientActs).1.addr ip = 0 ∧ port = 0 ∧
          flags = 0 := by
  rw [channelRequestRun_eq (run_idle name addr clientActs) hup]
  generalize (run clientAct (connectCreate name addr) clientActs).1.addr = serverAddr
  constructor
  · intro h
    refine ⟨?_, ?_⟩
    · by_contra hno
      push Not at hno
      obtain ⟨r, hr⟩ := h.unannounced hno
      cases hr
    · intro flags port ip ha
      have heq := h.announced flags port ip ha
      rw [Except.ok.injEq, Ticket.mk.injEq] at heq
      exact ⟨heq.1.symm, heq.2.1.symm, heq.2.2.symm⟩
  · rintro ⟨⟨a, ha, hid⟩, hzero⟩
    refine ⟨?_, ?_⟩
    · intro flags port ip hann
      obtain ⟨hip, rfl, rfl⟩ := hzero flags port ip hann
      rw [hip]
    · intro hno
      exact absurd hid (hno a ha)

end Main

/-- A client that is connected. -/
def connectedRun : List ClientAct := [.sockets 5 (-1)]

/-- What another client sends when it announces the channel `a` on port 80. -/
def portAnnouncement : Packet :=
  (channelAnonsRequest .calm (idstr [97]) ⟨0, 80, 0⟩).packet.frame

/-- Two clients connect, and the first announces the channel. -/
def announceRun : List Act :=
  [.accept (some (3, ⟨1, 2⟩)), .accept (some (4, ⟨5, 6⟩)), .packet .calm 0 (portAnnouncement.within .calm)]

/-- Nobody announced anything, and the request of a connected client still succeeds. -/
theorem connectedRun_unannounced : ¬ Rendezvous (serverCreate []) [.accept (some (3, ⟨1, 2⟩))] (fun _ => 0)
    (run clientAct (connectCreate [] []) connectedRun).1.addr [97]
    (channelRequestRun (fun _ => 0) .calm .calm [] (run clientAct (connectCreate [] []) connectedRun).1
      (run act (serverCreate []) [.accept (some (3, ⟨1, 2⟩))]).1 0 [97] []) := by
  rw [channel_rendezvous_iff (fun _ => 0) .calm .calm [] 0 [] [.accept (some (3, ⟨1, 2⟩))] [] [] connectedRun
    (by decide) [97] []]
  rintro ⟨⟨a, ha, hid⟩, _⟩
  rw [List.mem_singleton] at ha
  subst ha
  exact hid

theorem announceRun_announced : Announced (serverCreate []) announceRun [97] 0 80 1 := by
  refine ⟨[.accept (some (3, ⟨1, 2⟩)), .accept (some (4, ⟨5, 6⟩))], [], .calm,
    (run clientAct (connectCreate [] []) connectedRun).1, _, _, portAnnouncement, .calm, 0, rfl, ?_, rfl, ?_, ?_⟩
  · rfl
  · decide +kernel
  · intro ch hch
    cases hch

/-- The channel is announced on port 80, and the request returns port 0. -/
theorem announceRun_zero : ¬ Rendezvous (serverCreate []) announceRun (fun _ => 0)
    (run clientAct (connectCreate [] []) connectedRun).1.addr [97]
    (channelRequestRun (fun _ => 0) .calm .calm [] (run clientAct (connectCreate [] []) connectedRun).1
      (run act (serverCreate []) announceRun).1 1 [97] []) := by
  intro h
  have heq := h.announced 0 80 1 announceRun_announced
  rw [channelRequestRun_eq (run_idle [] [] connectedRun) (by decide), Except.ok.injEq, Ticket.mk.injEq] at heq
  exact absurd heq.2.1 (by decide)

end SyncScribe
