import SyncScribe.System.ListReply
import SyncScribe.System.Resubscribe

/-!
List requests over one TCP connection, with the late replies of requests that
timed out. The sequence numbers of the requests that are not answered yet are
consecutive and end at the current one, and there are at most 256 of them, so of
the packets that arrive only those of the current request are taken; these are
the packets of one reply, in order.
-/

namespace SyncScribe
open Lib Lib.Bytes

/-! ## The system -/

/-- The client and the server, the requests for the list and the packets of the server on their way,
and whether a call of the client waits for its list. `built` is the server as it was when it built
its latest reply. -/
structure Transfer where
  client : Connect
  server : Server
  requests : List Packet
  replies : List Packet
  waiting : Bool
  built : Server

inductive TransferStep
  /-- the call of `syncs_request_eventslist`, `_clientslist` or `_channelslist`, up to its wait -/
  | request (env : ClientEnv)
  /-- the wait ends by its timeout: the call returns `NULL` -/
  | timeout
  /-- the wait is over: the call returns the list -/
  | finish
  | free
  /-- the client does something else -/
  | client (s : Connect)
  /-- the server processes the next request -/
  | serve (env : Env)
  /-- the server does something else, and sends other packets to the client -/
  | server (s : Server) (ps : List Packet)
  /-- the client processes the next packet -/
  | deliver (env : ClientEnv) (beyond : List UInt8)

section System

variable (l : ListName) (slot : ClientIx) (inetAddr : List UInt8 → UInt32)

/-- One step, with the count and the entries of a call that returns a list. -/
def transferStep (st : Transfer) : TransferStep → Transfer × List (Nat × List UInt8)
  | .request env =>
    if st.waiting then (st, [])
    else
      match requestList env st.client l with
      | (s, none) => ({ st with client := s }, [])
      | (s, some out) =>
        ({ st with client := s, requests := st.requests ++ tcpPackets out, waiting := true }, [])
  | .timeout => ({ st with waiting := false }, [])
  | .finish =>
    if st.waiting && !(st.client.lists l).wait then
      let r := requestListEnd inetAddr st.client l
      ({ st with client := r.1, waiting := false }, (r.2.2.map fun info => (r.2.1, info)).toList)
    else (st, [])
  | .free => if st.waiting then (st, []) else ({ st with client := freeList st.client l }, [])
  | .client s => ({ st with client := s }, [])
  | .serve env =>
    match st.requests with
    | [] => (st, [])
    | p :: ps =>
      let r := clientProcessPacket env st.server slot (p.within env)
      ({ st with
        server := r.server, requests := ps, replies := st.replies ++ sentTo slot r.out
        built := st.server }, [])
  | .server s ps => ({ st with server := s, replies := st.replies ++ ps }, [])
  | .deliver env beyond =>
    match st.replies with
    | [] => (st, [])
    | p :: ps =>
      ({ st with
        client := (processPacket env st.client { p with buffer := p.buffer ++ beyond }).1
        replies := ps }, [])

/-- A packet of a reply. -/
def Packet.lists (p : Packet) : Bool := p.header.msg == l.msg

/-- The last packet of a reply. -/
def Packet.ends (p : Packet) : Bool := p.lists l && p.header.id.c 4 == 1

/-- The number of requests whose reply has not arrived as a whole. -/
def Transfer.unanswered (st : Transfer) : Nat := st.requests.length + st.replies.countP (Packet.ends l)

/-- A request is made with fewer than 256 of them unanswered; what else the two sides do is something
else. -/
def TransferStep.Allowed (st : Transfer) : TransferStep → Prop
  | .request _ => st.unanswered l < 256
  | .client s => s.lists l = st.client.lists l ∧ s.socketfd = st.client.socketfd
  | .server _ ps => ∀ p ∈ ps, p.lists l = false
  | .timeout | .finish | .free | .serve _ | .deliver .. => True

/-- A connection on which the list has not been requested. -/
structure Transfer.Start (st : Transfer) : Prop where
  up : 0 < st.client.socketfd
  requests : st.requests = []
  replies : ∀ p ∈ st.replies, p.lists l = false
  waiting : st.waiting = false

end System

/-! ## What the client does with a packet -/

/-- A packet changes the fields of the list it belongs to. -/
theorem processPacket_lists (env : ClientEnv) (s : Connect) (p : Packet) (l : ListName) :
    (processPacket env s p).1.lists l = if p.lists l then (s.lists l).accept l p else s.lists l := by
  have hlist : ∀ m, (processList s m p).lists l = if m = l then (s.lists l).accept l p else s.lists l := by
    intro m
    by_cases h : m = l
    · subst h
      rw [if_pos rfl]
      exact Connect.setList_same ..
    · rw [if_neg h]
      exact Connect.setList_of_ne _ _ (Ne.symm h)
  cases hm : p.header.msg
  case event =>
    rw [Packet.lists, hm, processPacket, hm, processEvent_frame]
    cases l <;> rfl
  case serverStatus =>
    rw [Packet.lists, hm, processPacket, hm, processError_frame]
    cases l <;> rfl
  case channel =>
    rw [Packet.lists, hm, processPacket, hm, channelProcessPacket_frame]
    cases l <;> rfl
  case read =>
    rw [Packet.lists, hm, processPacket, hm, processRead_frame]
    cases l <;> rfl
  case eventList =>
    rw [Packet.lists, hm, processPacket, hm]
    exact (hlist .events).trans (by cases l <;> rfl)
  case clientList =>
    rw [Packet.lists, hm, processPacket, hm]
    exact (hlist .clients).trans (by cases l <;> rfl)
  case channelList =>
    rw [Packet.lists, hm, processPacket, hm]
    exact (hlist .channels).trans (by cases l <;> rfl)
  all_goals
    rw [Packet.lists, hm, processPacket, hm]
    cases l <;> rfl

theorem processPacket_socketfd (env : ClientEnv) (s : Connect) (p : Packet) :
    (processPacket env s p).1.socketfd = s.socketfd := by
  cases hm : p.header.msg
  all_goals simp only [processPacket, hm]
  case event => rw [processEvent_frame]
  case serverStatus => rw [processError_frame]
  case channel => rw [channelProcessPacket_frame]
  case read => rw [processRead_frame]
  all_goals rfl

/-! ## Sequence numbers -/

/-- The `k` sequence numbers that end at `q`. -/
def backlog (q : UInt8) : Nat → List UInt8
  | 0 => []
  | k + 1 => (q - UInt8.ofNat k) :: backlog q k

theorem backlog_concat (q : UInt8) (k : Nat) : backlog (q + 1) (k + 1) = backlog q k ++ [q + 1] := by
  induction k with
  | zero => simp [backlog]
  | succ k ih =>
    rw [backlog, ih, backlog, List.cons_append]
    congr 1
    rw [UInt8.ofNat_add]
    grind

/-- Only the last of at most 256 numbers is the current one. -/
theorem backlog_head_ne (q : UInt8) {k : Nat} (h0 : 0 < k) (hk : k < 256) : q - UInt8.ofNat k ≠ q := by
  intro h
  have hz : UInt8.ofNat k = 0 := by
    have := UInt8.sub_eq_iff_eq_add.mp h
    exact UInt8.add_eq_left.mp this.symm
  have hn := congrArg UInt8.toNat hz
  rw [UInt8.toNat_ofNat', Nat.mod_eq_of_lt (by omega)] at hn
  simp at hn
  omega

theorem backlog_last {q y : UInt8} {xs : List UInt8} {k : Nat} (h : xs ++ [y] = backlog q k) : y = q := by
  induction k generalizing xs with
  | zero => simp [backlog] at h
  | succ k ih =>
    cases xs with
    | nil =>
      rw [List.nil_append, backlog, List.cons.injEq] at h
      cases k with
      | zero => rw [h.1]; simp
      | succ k => cases h.2
    | cons x xs =>
      rw [List.cons_append, backlog, List.cons.injEq] at h
      exact ih h.2

/-! ## Replies on their way -/

/-- A reply under way is followed by nothing of its own, so its packets but the first are one again. -/
theorem Stamped.tail {l : ListName} {q : UInt8} {p : Packet} {ps : List Packet} (h : Stamped l q (p :: ps))
    (hps : ps ≠ []) : Stamped l q ps ∧ p.ends l = false := by
  obtain ⟨init, last, he, h1, hinit⟩ := h.marks
  cases init with
  | nil =>
    rw [List.nil_append, List.cons.injEq] at he
    exact absurd he.2 hps
  | cons x init =>
    rw [List.cons_append, List.cons.injEq] at he
    obtain ⟨rfl, rfl⟩ := he
    refine ⟨⟨fun y hy => h.each y (List.mem_cons_of_mem _ hy), fun y hy => h.payload y (List.mem_cons_of_mem _ hy),
      init, last, rfl, h1, fun y hy => hinit y (List.mem_cons_of_mem _ hy)⟩, ?_⟩
    have hx := hinit p List.mem_cons_self
    simp [Packet.ends, hx]

theorem Stamped.ne_nil {l : ListName} {q : UInt8} {ps : List Packet} (h : Stamped l q ps) : ps ≠ [] := by
  obtain ⟨init, last, rfl, _⟩ := h.marks
  simp

theorem Stamped.lists {l : ListName} {q : UInt8} {ps : List Packet} (h : Stamped l q ps) {p : Packet}
    (hp : p ∈ ps) : p.lists l = true := by
  simp [Packet.lists, (h.each p hp).1]

/-- A reply has one last packet. -/
theorem Stamped.countP {l : ListName} {q : UInt8} {ps : List Packet} (h : Stamped l q ps) :
    ps.countP (Packet.ends l) = 1 := by
  obtain ⟨init, last, rfl, h1, hinit⟩ := h.marks
  have hinit0 : init.countP (Packet.ends l) = 0 := by
    rw [List.countP_eq_zero]
    intro p hp
    simp [Packet.ends, hinit p hp]
  have hlast : last.ends l = true := by
    simp [Packet.ends, h.lists (p := last) (by simp), h1]
  rw [List.countP_append, hinit0, List.countP_singleton, if_pos hlast]

/-- A reply that is still to come: its sequence number, and the packets of it that have not arrived. -/
abbrev Pending := UInt8 × List Packet

/-- Packets of the server on their way: the pending replies, and others in between. -/
structure InFlight (l : ListName) (ps : List Packet) (pend : List Pending) : Prop where
  packets : ps.filter (Packet.lists l) = pend.flatMap Prod.snd
  stamped : ∀ x ∈ pend, Stamped l x.1 x.2

namespace InFlight

variable {l : ListName} {ps : List Packet} {pend : List Pending}

theorem countP (h : InFlight l ps pend) : ps.countP (Packet.ends l) = pend.length := by
  have hsum : ∀ pend : List Pending, (∀ x ∈ pend, Stamped l x.1 x.2) →
      (pend.flatMap Prod.snd).countP (Packet.ends l) = pend.length := by
    intro pend
    induction pend with
    | nil => intro _; rfl
    | cons x xs ih =>
      intro hx
      rw [List.flatMap_cons, List.countP_append, (hx x List.mem_cons_self).countP,
        ih fun y hy => hx y (List.mem_cons_of_mem _ hy), List.length_cons, Nat.add_comm]
  rw [← hsum pend h.stamped, ← h.packets, List.countP_filter]
  refine List.countP_congr fun p _ => ?_
  simp only [Packet.ends, Bool.and_eq_true]
  exact ⟨fun hp => ⟨hp, hp.1⟩, fun hp => hp.1⟩

theorem append_others (h : InFlight l ps pend) {others : List Packet} (ho : ∀ p ∈ others, p.lists l = false) :
    InFlight l (ps ++ others) pend := by
  refine ⟨?_, h.stamped⟩
  have hnil : others.filter (Packet.lists l) = [] := by
    rw [List.filter_eq_nil_iff]
    intro p hp
    simp [ho p hp]
  rw [List.filter_append, hnil, List.append_nil, h.packets]

theorem append_reply (h : InFlight l ps pend) {q : UInt8} {rs : List Packet} (hr : Stamped l q rs) :
    InFlight l (ps ++ rs) (pend ++ [(q, rs)]) := by
  refine ⟨?_, ?_⟩
  · have hall : rs.filter (Packet.lists l) = rs := by
      rw [List.filter_eq_self]
      exact fun p hp => hr.lists hp
    rw [List.filter_append, hall, h.packets, List.flatMap_append, List.flatMap_singleton]
  · intro x hx
    rw [List.mem_append, List.mem_singleton] at hx
    rcases hx with hx | rfl
    · exact h.stamped x hx
    · exact hr

/-- A packet that belongs to no reply arrives. -/
theorem skip {p : Packet} (h : InFlight l (p :: ps) pend) (hp : p.lists l = false) : InFlight l ps pend := by
  refine ⟨?_, h.stamped⟩
  rw [← h.packets, List.filter_cons_of_neg (by simp [hp])]

/-- A packet of a reply arrives: it is the first of the first reply. -/
theorem take {p : Packet} (h : InFlight l (p :: ps) pend) (hp : p.lists l = true) :
    ∃ q rest later, pend = (q, p :: rest) :: later ∧ p.header.id.c 3 = q ∧
      p.header.dataSize.toNat ≤ p.buffer.length ∧
      InFlight l ps (if rest = [] then later else (q, rest) :: later) := by
  have hpk := h.packets
  rw [List.filter_cons_of_pos hp] at hpk
  cases pend with
  | nil => cases hpk
  | cons x later =>
    obtain ⟨q, xs⟩ := x
    have hx := h.stamped (q, xs) List.mem_cons_self
    cases xs with
    | nil => exact absurd rfl hx.ne_nil
    | cons y rest =>
      rw [List.flatMap_cons, List.cons_append, List.cons.injEq] at hpk
      obtain ⟨rfl, hpk⟩ := hpk
      refine ⟨q, rest, later, rfl, (hx.each p List.mem_cons_self).2.1, hx.payload p List.mem_cons_self, ?_⟩
      by_cases hr : rest = []
      · subst hr
        rw [if_pos rfl]
        exact ⟨hpk, fun z hz => h.stamped z (List.mem_cons_of_mem _ hz)⟩
      · rw [if_neg hr]
        refine ⟨hpk, ?_⟩
        intro z hz
        rcases List.mem_cons.mp hz with rfl | hz
        · exact (hx.tail hr).1
        · exact h.stamped z (List.mem_cons_of_mem _ hz)

end InFlight

/-! ## The invariant -/

/-- The fields of a list after a request. -/
structure ListBuffer.Ready (b : ListBuffer) : Prop where
  info : b.info.isSome = true
  waitPacket : b.waitPacket = 0
  recv : b.recv = 0
  wait : b.wait = true

/-- How far the request of the waiting call has come. -/
inductive Phase (l : ListName) (slot : ClientIx) (built : Server) (requests : List Packet) (pend : List Pending)
    (b : ListBuffer) : Prop
  /-- it is on its way to the server -/
  | asked (hr : requests ≠ []) (hb : b.Ready)
  /-- its reply is on its way, behind earlier ones -/
  | answered (env : Env) (earlier : List Pending) (hr : requests = [])
      (hp : pend = earlier ++ [(b.sequence, reply l env built slot b.sequence)]) (hb : b.Ready)
  /-- a part of its reply has arrived -/
  | begun (env : Env) (b₀ : ListBuffer) (arrived rest : List Packet) (hr : requests = [])
      (hp : pend = [(b₀.sequence, rest)]) (he : reply l env built slot b₀.sequence = arrived ++ rest) (h₀ : b₀.Ready)
      (hb : b = arrived.foldl (ListBuffer.accept l) b₀)
  /-- its reply has arrived -/
  | complete (env : Env) (b₀ : ListBuffer) (hr : requests = []) (hp : pend = []) (h₀ : b₀.Ready)
      (hb : b = (reply l env built slot b₀.sequence).foldl (ListBuffer.accept l) b₀)

/-- What holds in every state of a run, for the pending replies. -/
structure TransferInv (l : ListName) (slot : ClientIx) (st : Transfer) (pend : List Pending) : Prop where
  up : 0 < st.client.socketfd
  msg : ∀ p ∈ st.requests, p.header.msg = l.msg
  flight : InFlight l st.replies pend
  sequences : pend.map Prod.fst ++ st.requests.map (fun p => p.header.id.c 0) =
    backlog (st.client.lists l).sequence (pend.length + st.requests.length)
  few : pend.length + st.requests.length ≤ 256
  phase : st.waiting = true → Phase l slot st.built st.requests pend (st.client.lists l)

/-! ## Steps -/

section Steps

variable {l : ListName} {slot : ClientIx} {inetAddr : List UInt8 → UInt32} {st : Transfer} {pend : List Pending}

theorem TransferInv.start (h : st.Start l) : TransferInv l slot st [] where
  up := h.up
  msg := by simp [h.requests]
  flight := by
    refine ⟨?_, by simp⟩
    rw [List.flatMap_nil, List.filter_eq_nil_iff]
    intro p hp
    simp [h.replies p hp]
  sequences := by simp [h.requests, backlog]
  few := by simp [h.requests]
  phase := by simp [h.waiting]

theorem TransferInv.unanswered (h : TransferInv l slot st pend) :
    st.unanswered l = pend.length + st.requests.length := by
  rw [Transfer.unanswered, h.flight.countP, Nat.add_comm]

theorem requestList_up (env : ClientEnv) {s : Connect} (h : 0 < s.socketfd) (l : ListName) :
    requestList env s l = (s.setList l ((s.lists l).alloc l).request,
      some [.tcp (listRequest env l ((s.lists l).sequence + 1))]) := by
  have hneg : ¬ s.socketfd < 0 := by omega
  have hsend : ∀ o, (connectSend env s o).2 = [.tcp o] := by
    intro o
    rw [connectSend, if_pos h]
  simp only [requestList, if_neg hneg, hsend]
  rfl

theorem listRequest_c (env : ClientEnv) (l : ListName) (q : UInt8) :
    (listRequest env l q).packet.frame.header.id.c 0 = q := by
  change (env.stack.header.id.setC 0 q).c 0 = q
  rw [Id.c_setC _ _ _ (by omega), if_pos rfl]

theorem listRequest_msg (env : ClientEnv) (l : ListName) (q : UInt8) :
    (listRequest env l q).packet.frame.header.msg = l.msg :=
  Msg.ofWord_code l.msg

theorem TransferInv.request (h : TransferInv l slot st pend) (env : ClientEnv) (hfew : st.unanswered l < 256) :
    TransferInv l slot (transferStep l slot inetAddr st (.request env)).1 pend := by
  simp only [transferStep]
  by_cases hw : st.waiting = true
  · rw [if_pos hw]
    exact h
  · rw [if_neg hw, requestList_up env h.up]
    rw [h.unanswered] at hfew
    have hq := listRequest_c env l ((st.client.lists l).sequence + 1)
    constructor <;> simp only [tcpPackets, List.length_append, List.length_singleton, Connect.setList_same]
    · exact h.up
    · intro p hp
      rw [List.mem_append, List.mem_singleton] at hp
      rcases hp with hp | rfl
      · exact h.msg p hp
      · exact listRequest_msg env l _
    · exact h.flight
    · rw [List.map_append, List.map_singleton, hq, ← List.append_assoc, h.sequences, ← Nat.add_assoc]
      exact (backlog_concat _ _).symm
    · omega
    · intro _
      exact .asked (by simp) ⟨rfl, rfl, rfl, rfl⟩

/-- Nobody waits any more, and the sequence number stays. -/
theorem TransferInv.idle (h : TransferInv l slot st pend) {s : Connect} (hup : s.socketfd = st.client.socketfd)
    (hseq : (s.lists l).sequence = (st.client.lists l).sequence) :
    TransferInv l slot { st with client := s, waiting := false } pend where
  up := by rw [hup]; exact h.up
  msg := h.msg
  flight := h.flight
  sequences := by rw [hseq]; exact h.sequences
  few := h.few
  phase := by simp

theorem requestListEnd_sequence (inetAddr : List UInt8 → UInt32) (s : Connect) (l : ListName) :
    ((requestListEnd inetAddr s l).1.lists l).sequence = (s.lists l).sequence := by
  cases l <;> simp [requestListEnd]

theorem TransferInv.finish (h : TransferInv l slot st pend) :
    TransferInv l slot (transferStep l slot inetAddr st .finish).1 pend := by
  simp only [transferStep]
  split
  · exact h.idle (by cases l <;> rfl) (requestListEnd_sequence inetAddr st.client l)
  · exact h

theorem TransferInv.free (h : TransferInv l slot st pend) :
    TransferInv l slot (transferStep l slot inetAddr st .free).1 pend := by
  simp only [transferStep]
  split
  · exact h
  · rename_i hw
    have hfree := h.idle (s := freeList st.client l) rfl (by simp [freeList])
    rwa [← Bool.eq_false_iff.mpr hw] at hfree

/-- The server answers a request for the list with the reply to it. -/
theorem clientProcessPacket_list (env : Env) (s : Server) (c : ClientIx) {p : Packet} (hp : p.header.msg = l.msg) :
    sentTo c (clientProcessPacket env s c (p.within env)).out = reply l env s c (p.header.id.c 0) := by
  have hmsg : (p.within env).header.msg = l.msg := hp
  cases l <;>
    (simp only [clientProcessPacket, clientDispatch, hmsg, ListName.msg]
     rfl)

theorem TransferInv.serve (h : TransferInv l slot st pend) (env : Env) :
    ∃ pend', TransferInv l slot (transferStep l slot inetAddr st (.serve env)).1 pend' := by
  simp only [transferStep]
  cases hr : st.requests with
  | nil => exact ⟨pend, h⟩
  | cons p ps =>
    have hp : p.header.msg = l.msg := h.msg p (by rw [hr]; exact List.mem_cons_self)
    have hseq := h.sequences
    have hfew := h.few
    rw [hr, List.map_cons] at hseq
    rw [hr, List.length_cons] at hfew
    refine ⟨pend ++ [(p.header.id.c 0, reply l env st.server slot (p.header.id.c 0))], ?_⟩
    constructor <;> simp only [List.length_append, List.length_singleton, List.map_append, List.map_singleton]
    · exact h.up
    · intro x hx
      exact h.msg x (by rw [hr]; exact List.mem_cons_of_mem _ hx)
    · rw [clientProcessPacket_list env st.server slot hp]
      exact h.flight.append_reply (reply_stamped l env st.server slot _)
    · rw [List.append_assoc, List.singleton_append, hseq, List.length_cons]
      congr 1
      omega
    · omega
    · intro hw
      have hasked : (st.client.lists l).Ready := by
        cases h.phase hw with
        | asked _ hb => exact hb
        | answered env' earlier hr' => rw [hr] at hr'; cases hr'
        | begun env' b₀ arrived rest hr' => rw [hr] at hr'; cases hr'
        | complete env' b₀ hr' => rw [hr] at hr'; cases hr'
      cases ps with
      | nil =>
        -- the last request is the current one
        have hlast : p.header.id.c 0 = (st.client.lists l).sequence := backlog_last hseq
        exact .answered env pend rfl (by rw [hlast]) hasked
      | cons p' ps => exact .asked (by simp) hasked

/-- A packet of another request arrives. -/
theorem Phase.stale {built : Server} {requests : List Packet} {b : ListBuffer} {q : UInt8} {p : Packet}
    {rest : List Packet} {later : List Pending}
    (h : Phase l slot built requests ((q, p :: rest) :: later) b) (hlater : 0 < later.length + requests.length) :
    Phase l slot built requests (if rest = [] then later else (q, rest) :: later) b := by
  cases h with
  | asked hr hb => exact .asked hr hb
  | answered env earlier hr hp hb =>
    cases earlier with
    | nil =>
      rw [List.nil_append, List.cons.injEq] at hp
      simp [hp.2, hr] at hlater
    | cons x earlier =>
      rw [List.cons_append, List.cons.injEq] at hp
      by_cases hrest : rest = []
      · rw [if_pos hrest]
        exact .answered env earlier hr hp.2 hb
      · rw [if_neg hrest]
        exact .answered env ((q, rest) :: earlier) hr (by rw [hp.2, List.cons_append]) hb
  | begun env b₀ arrived rest' hr hp he h₀ hb =>
    rw [List.cons.injEq] at hp
    simp [hp.2, hr] at hlater
  | complete env b₀ hr hp => cases hp

/-- The next packet of the current request arrives. -/
theorem Phase.next {built : Server} {requests : List Packet} {b : ListBuffer} {q : UInt8} {p : Packet}
    {rest : List Packet} (h : Phase l slot built requests [(q, p :: rest)] b) (hr : requests = []) :
    Phase l slot built requests (if rest = [] then [] else [(q, rest)]) (b.accept l p) := by
  have hstep : ∀ (env : Env) (b₀ : ListBuffer) (arrived : List Packet), b₀.sequence = q →
      reply l env built slot b₀.sequence = arrived ++ p :: rest → b₀.Ready →
      b = arrived.foldl (ListBuffer.accept l) b₀ →
      Phase l slot built requests (if rest = [] then [] else [(q, rest)]) (b.accept l p) := by
    intro env b₀ arrived hq he h₀ hb
    have hfold : b.accept l p = (arrived ++ [p]).foldl (ListBuffer.accept l) b₀ := by
      rw [List.foldl_append, ← hb, List.foldl_cons, List.foldl_nil]
    by_cases hrest : rest = []
    · subst hrest
      rw [if_pos rfl]
      exact .complete env b₀ hr rfl h₀ (by rw [he]; exact hfold)
    · rw [if_neg hrest]
      exact .begun env b₀ (arrived ++ [p]) rest hr (by rw [hq]) (by rw [he]; simp) h₀ hfold
  cases h with
  | asked hne => exact absurd hr hne
  | answered env earlier _ hp hb =>
    cases earlier with
    | nil =>
      rw [List.nil_append, List.cons.injEq, Prod.mk.injEq] at hp
      exact hstep env b [] hp.1.1.symm hp.1.2.symm hb rfl
    | cons x earlier => simp at hp
  | begun env b₀ arrived rest' _ hp he h₀ hb =>
    rw [List.cons.injEq, Prod.mk.injEq] at hp
    exact hstep env b₀ arrived hp.1.1.symm (by rw [he, hp.1.2]) h₀ hb
  | complete env b₀ _ hp => cases hp

/-- A packet of the list arrives: it belongs to the oldest reply under way. -/
theorem TransferInv.arrive (h : TransferInv l slot st pend) {p : Packet} {ps : List Packet} {s : Connect}
    (hq : st.replies = p :: ps) (hp : p.lists l = true) {beyond : List UInt8} (hup : s.socketfd = st.client.socketfd)
    (hlists : s.lists l = (st.client.lists l).accept l { p with buffer := p.buffer ++ beyond }) :
    ∃ pend', TransferInv l slot { st with client := s, replies := ps } pend' := by
  have hflight := h.flight
  rw [hq] at hflight
  obtain ⟨q, rest, later, rfl, hc, hlen, hfl⟩ := hflight.take hp
  have hpay : ({ p with buffer := p.buffer ++ beyond } : Packet).payload = p.payload := read_append_left _ hlen
  have hacc : (st.client.lists l).accept l { p with buffer := p.buffer ++ beyond } =
      (st.client.lists l).accept l p := accept_congr rfl hpay
  rw [hacc] at hlists
  have hseq := h.sequences
  have hfew := h.few
  have hphase := h.phase
  rw [List.map_cons, List.cons_append, List.length_cons, Nat.add_right_comm, backlog, List.cons.injEq] at hseq
  obtain ⟨hfirst, hseq⟩ := hseq
  change q = _ at hfirst
  rw [List.length_cons, Nat.add_right_comm] at hfew
  refine ⟨if rest = [] then later else (q, rest) :: later, ?_⟩
  constructor <;> simp only [hlists, hup, accept_sequence]
  · exact h.up
  · exact h.msg
  · exact hfl
  · split
    · exact hseq
    · rw [List.map_cons, List.cons_append, List.length_cons, Nat.add_right_comm, backlog, hfirst, hseq]
  · split
    · omega
    · rw [List.length_cons]
      omega
  · intro hw
    by_cases hlater : 0 < later.length + st.requests.length
    · have hne : p.header.id.c 3 ≠ (st.client.lists l).sequence := by
        rw [hc, hfirst]
        exact backlog_head_ne _ hlater (by omega)
      rw [accept_of_ne hne]
      exact (hphase hw).stale hlater
    · have hlater' : later = [] := List.eq_nil_of_length_eq_zero (by omega)
      have hreq : st.requests = [] := List.eq_nil_of_length_eq_zero (by omega)
      subst hlater'
      exact (hphase hw).next hreq

theorem TransferInv.deliver (h : TransferInv l slot st pend) (env : ClientEnv) (beyond : List UInt8) :
    ∃ pend', TransferInv l slot (transferStep l slot inetAddr st (.deliver env beyond)).1 pend' := by
  simp only [transferStep]
  cases hq : st.replies with
  | nil => exact ⟨pend, h⟩
  | cons p ps =>
    have hlists : (processPacket env st.client { p with buffer := p.buffer ++ beyond }).1.lists l =
        if p.lists l then (st.client.lists l).accept l { p with buffer := p.buffer ++ beyond }
        else st.client.lists l :=
      processPacket_lists env st.client _ l
    have hup := processPacket_socketfd env st.client { p with buffer := p.buffer ++ beyond }
    by_cases hp : p.lists l = true
    · rw [if_pos hp] at hlists
      exact h.arrive hq hp hup hlists
    · rw [if_neg hp] at hlists
      have hflight := h.flight
      rw [hq] at hflight
      refine ⟨pend, ?_⟩
      constructor <;> simp only [hlists, hup]
      · exact h.up
      · exact h.msg
      · exact hflight.skip (Bool.eq_false_iff.mpr hp)
      · exact h.sequences
      · exact h.few
      · exact h.phase

/-- **One step** of the system. -/
theorem TransferInv.step (h : TransferInv l slot st pend) (a : TransferStep) (ha : a.Allowed l st) :
    ∃ pend', TransferInv l slot (transferStep l slot inetAddr st a).1 pend' := by
  cases a with
  | request env => exact ⟨pend, h.request env ha⟩
  | timeout => exact ⟨pend, h.idle rfl rfl⟩
  | finish => exact ⟨pend, h.finish⟩
  | free => exact ⟨pend, h.free⟩
  | client s =>
    have hl : s.lists l = st.client.lists l := ha.1
    refine ⟨pend, ?_⟩
    constructor <;> simp only [transferStep, hl]
    · rw [ha.2]
      exact h.up
    · exact h.msg
    · exact h.flight
    · exact h.sequences
    · exact h.few
    · exact h.phase
  | serve env => exact h.serve env
  | server s ps => exact ⟨pend, h.up, h.msg, h.flight.append_others ha, h.sequences, h.few, h.phase⟩
  | deliver env beyond => exact h.deliver env beyond

end Steps

/-! ## What a call returns -/

/-- The bytes `b` are the returned entry of slot `i` of the server `s`. -/
def ShownBy (inetAddr : List UInt8 → UInt32) (addr : List UInt8) (s : Server) :
    (l : ListName) → Fin l.maximum → List UInt8 → Prop
  | .events, i, b => Shown s .events i b
  | .clients, i, b => Shown s .clients i b
  | .channels, i, b =>
    ChannelInfo.decode b =
      { channelInfo (s.channels i) with ip := channelAddr inetAddr addr (s.channels i).ticket.ip }

/-- A list with the occupied slots of the server `s`, in slot order. The transmit counter of the requester
is that after the packets sent before its entry was filled. -/
structure Returned (inetAddr : List UInt8 → UInt32) (addr : List UInt8) (l : ListName) (c : ClientIx) (s : Server)
    (n : Nat) (info : List UInt8) : Prop where
  count : n = (l.occupied s).length
  entries : ∀ j i, (l.occupied s)[j]? = some i →
    ShownBy inetAddr addr (s.advance c (j / l.kind.perPacket)) l i (slice info (j * l.entrySize) l.entrySize)

section Returns

variable (inetAddr : List UInt8 → UInt32)

/-- A store into the `ip` of entry `n`. -/
theorem decode_write_ip (info : List UInt8) (n j : Nat) (ip : UInt32) :
    ChannelInfo.decode (slice (write info (n * 46 + 40) (leBytes 4 ip.toNat)) (j * 46) 46) =
      if j = n then { ChannelInfo.decode (slice info (j * 46) 46) with ip := ip }
      else ChannelInfo.decode (slice info (j * 46) 46) := by
  have hlen : (leBytes 4 ip.toNat).length = 4 := length_leBytes _ _
  split
  · rename_i h
    subst h
    have hip : slice (write info (j * 46 + 40) (leBytes 4 ip.toNat)) (j * 46 + 40) 4 = leBytes 4 ip.toNat :=
      slice_write_self _ _ hlen
    have hother : ∀ o m, o + m ≤ 40 ∨ 44 ≤ o →
        slice (write info (j * 46 + 40) (leBytes 4 ip.toNat)) (j * 46 + o) m = slice info (j * 46 + o) m := by
      intro o m ho
      exact slice_write_of_disjoint _ _ _ (by omega)
    have hid := hother 0 32 (by omega)
    simp only [Nat.add_zero] at hid
    simp only [ChannelInfo.decode, ofBytes_slice _ _ (by omega : 32 ≤ 46), hid]
    rw [field_slice _ _ (by omega), field_slice _ _ (by omega), field_slice _ _ (by omega), field_slice _ _ (by omega),
      field_slice _ _ (by omega), field_slice _ _ (by omega), field_slice _ _ (by omega), hip, hother 32 4 (by omega),
      hother 36 4 (by omega), hother 44 2 (by omega), word32_roundtrip]
  · rename_i h
    congr 1
    exact slice_write_of_disjoint _ _ _ (by omega)

/-- The loop replaces the loopback addresses of the entries it passes. -/
theorem decode_replaceLoopback (addr info : List UInt8) (n j : Nat) :
    ChannelInfo.decode (slice (replaceLoopback inetAddr addr info n) (j * 46) 46) =
      if j < n then
        { ChannelInfo.decode (slice info (j * 46) 46) with
          ip := channelAddr inetAddr addr (ChannelInfo.decode (slice info (j * 46) 46)).ip }
      else ChannelInfo.decode (slice info (j * 46) 46) := by
  induction n generalizing j with
  | zero => rfl
  | succ n ih =>
    have hfield : UInt32.ofNat (field (replaceLoopback inetAddr addr info n) (n * 46 + 40) 4) =
        (ChannelInfo.decode (slice info (n * 46) 46)).ip := by
      have hn := ih n
      rw [if_neg (Nat.lt_irrefl n)] at hn
      rw [← hn]
      simp only [ChannelInfo.decode]
      rw [field_slice _ _ (by omega)]
      rfl
    have hstep : replaceLoopback inetAddr addr info (n + 1) =
        if (ChannelInfo.decode (slice info (n * 46) 46)).ip = loopback ∧ addr.getD 0 0 ≠ 0 then
          write (replaceLoopback inetAddr addr info n) (n * 46 + 40) (leBytes 4 (inetAddr addr).toNat)
        else replaceLoopback inetAddr addr info n := by
      rw [← hfield]
      rfl
    have hlt : j ≠ n → (j < n + 1 ↔ j < n) := by omega
    rw [hstep]
    by_cases hj : j = n
    · subst hj
      rw [if_pos (Nat.lt_succ_self j), channelAddr]
      split
      · rw [decode_write_ip, if_pos rfl, ih j, if_neg (Nat.lt_irrefl j)]
      · rw [ih j, if_neg (Nat.lt_irrefl j)]
    · simp only [hlt hj]
      split
      · rw [decode_write_ip, if_neg hj, ih j]
      · exact ih j

/-- The packets before the last one do not end the wait. -/
theorem foldl_accept_wait (l : ListName) {ps : List Packet} (h : ∀ p ∈ ps, p.header.id.c 4 ≠ 1) (b : ListBuffer) :
    (ps.foldl (ListBuffer.accept l) b).wait = b.wait := by
  induction ps generalizing b with
  | nil => rfl
  | cons p ps ih =>
    rw [List.foldl_cons, ih fun q hq => h q (List.mem_cons_of_mem _ hq)]
    unfold ListBuffer.accept
    split
    · rfl
    · split
      · rfl
      · split
        · rfl
        · simp only [if_neg (h p List.mem_cons_self)]

variable {l : ListName} {slot : ClientIx} {st : Transfer} {pend : List Pending}

/-- **When the wait is over**, the reply has arrived as a whole. -/
theorem TransferInv.arrived (h : TransferInv l slot st pend) (hw : st.waiting = true)
    (hdone : (st.client.lists l).wait = false) :
    ∃ info q w front, st.client.lists l = ⟨some info, q, w, (l.occupied st.built).length, false, front⟩ ∧
      Entries (Listed l slot st.built (l.occupied st.built)) l.entrySize (l.occupied st.built).length info := by
  cases h.phase hw with
  | asked _ hb =>
    rw [hb.wait] at hdone
    cases hdone
  | answered env earlier _ _ hb =>
    rw [hb.wait] at hdone
    cases hdone
  | begun env b₀ arrived rest _ hp he h₀ hb =>
    obtain ⟨init, last, hmark, _, hinit⟩ := (reply_stamped l env st.built slot b₀.sequence).marks
    have hne : rest ≠ [] := (h.flight.stamped (b₀.sequence, rest) (by rw [hp]; exact List.mem_cons_self)).ne_nil
    have hsub : ∀ p ∈ arrived, p.header.id.c 4 ≠ 1 := by
      intro p hp
      refine hinit p ?_
      have hpre : arrived <+: init := by
        have hlen : (arrived ++ rest).length = (init ++ [last]).length := by rw [← he, hmark]
        rw [List.length_append, List.length_append, List.length_singleton] at hlen
        have hpos := List.length_pos_iff.mpr hne
        have hwhole : arrived <+: init ++ [last] := by
          rw [← hmark, he]
          exact List.prefix_append _ _
        exact List.prefix_of_prefix_length_le hwhole (List.prefix_append _ _) (by omega)
      exact hpre.subset hp
    rw [hb, foldl_accept_wait l hsub, h₀.wait] at hdone
    cases hdone
  | complete env b₀ _ _ h₀ hb =>
    obtain ⟨info, w, hfold, hinfo⟩ := reply_accepted l env st.built slot h₀.info h₀.waitPacket h₀.recv h₀.wait
    exact ⟨info, b₀.sequence, w, b₀.front, hb.trans hfold, hinfo⟩

/-- The entries of a list as its call returns them. -/
theorem returned_of_entries (c : ClientIx) (s : Server) {cl : Connect} {info front : List UInt8} {q w : UInt8}
    (hl : cl.lists l = ⟨some info, q, w, (l.occupied s).length, false, front⟩)
    (hinfo : Entries (Listed l c s (l.occupied s)) l.entrySize (l.occupied s).length info) {n : Nat} {res : List UInt8}
    (hres : (requestListEnd inetAddr cl l).2 = (n, some res)) : Returned inetAddr cl.addr l c s n res := by
  have hentry : ∀ j i, (l.occupied s)[j]? = some i →
      Shown (s.advance c (j / l.kind.perPacket)) l i (slice info (j * l.entrySize) l.entrySize) := by
    intro j i hj
    obtain ⟨hlt, _⟩ := List.getElem?_eq_some_iff.mp hj
    exact hinfo j hlt i hj
  have hcount : (((l.occupied s).length : Int) % 2 ^ 32).toNat = (l.occupied s).length := by
    have hle := occupied_length_le l s
    have hmax : l.maximum ≤ 256 := by cases l <;> decide
    omega
  cases l with
  | events =>
    simp only [requestListEnd, hl, Prod.mk.injEq, Option.some.injEq] at hres
    obtain ⟨rfl, rfl⟩ := hres
    exact ⟨hcount, hentry⟩
  | clients =>
    simp only [requestListEnd, hl, Prod.mk.injEq, Option.some.injEq] at hres
    obtain ⟨rfl, rfl⟩ := hres
    exact ⟨hcount, hentry⟩
  | channels =>
    simp only [requestListEnd, hl, Option.map_some, Prod.mk.injEq, Option.some.injEq] at hres
    obtain ⟨rfl, rfl⟩ := hres
    refine ⟨hcount, ?_⟩
    intro j i hj
    obtain ⟨hlt, _⟩ := List.getElem?_eq_some_iff.mp hj
    have hx : ChannelInfo.decode (slice info (j * 46) 46) = channelInfo ((s.advance c _).channels i) := hentry j i hj
    have hd := decode_replaceLoopback inetAddr cl.addr info (ListName.channels.occupied s).length j
    rw [if_pos hlt, hx] at hd
    exact hd

end Returns

/-- **List transfer round trip.** The packets of a reply fit their buffers and only the last one is marked
as the last. Whatever happened before on the connection, and in whatever order packets and calls
come, a call that returns a list returns the occupied slots of the server as it was when it built its
latest reply. -/
theorem list_round_trip (l : ListName) (slot : ClientIx) (inetAddr : List UInt8 → UInt32) :
    (∀ env s q, Stamped l q (reply l env s slot q)) ∧
    ∀ (st : Transfer) (as : List TransferStep), st.Start l →
      Along (transferStep l slot inetAddr) (TransferStep.Allowed l) st as → ∀ a n info,
      (n, info) ∈ (transferStep l slot inetAddr (run (transferStep l slot inetAddr) st as).1 a).2 →
        Returned inetAddr (run (transferStep l slot inetAddr) st as).1.client.addr l slot
          (run (transferStep l slot inetAddr) st as).1.built n info := by
  refine ⟨fun env s q => reply_stamped l env s slot q, ?_⟩
  intro st as hstart hal a n info hmem
  have hstep : ∀ (st : Transfer) (a : TransferStep), (∃ pend, TransferInv l slot st pend) → a.Allowed l st →
      ∃ pend, TransferInv l slot (transferStep l slot inetAddr st a).1 pend := by
    rintro st a ⟨pend, hst⟩ ha
    exact hst.step a ha
  obtain ⟨pend, hinv⟩ := run_invariant hstep as st ⟨[], .start hstart⟩ hal
  generalize (run (transferStep l slot inetAddr) st as).1 = st' at hinv hmem ⊢
  cases a with
  | finish =>
    simp only [transferStep] at hmem
    split at hmem
    · rename_i hc
      simp only [Bool.and_eq_true, Bool.not_eq_true'] at hc
      obtain ⟨res, q, w, front, hlists, hentries⟩ := hinv.arrived hc.1 hc.2
      simp only [Option.mem_toList, Option.map_eq_some_iff, Prod.mk.injEq] at hmem
      obtain ⟨info', hi, rfl, rfl⟩ := hmem
      exact returned_of_entries inetAddr slot st'.built hlists hentries (by rw [← hi])
    · cases hmem
  | request env =>
    simp only [transferStep] at hmem
    split at hmem
    · cases hmem
    · split at hmem <;> cases hmem
  | free =>
    simp only [transferStep] at hmem
    split at hmem <;> cases hmem
  | serve env =>
    simp only [transferStep] at hmem
    split at hmem <;> cases hmem
  | deliver env beyond =>
    simp only [transferStep] at hmem
    split at hmem <;> cases hmem
  | timeout => cases hmem
  | client s => cases hmem
  | server s ps => cases hmem

/-- A server with one channel, announced from the loopback address. -/
def oneChannel : Server := (serverCreate []).setChannel 0 ⟨idstr [97], ⟨loopback, 80, 0⟩, 1, 0, 1, some 1⟩

/-- A connection of a client to it. -/
def freshTransfer : Transfer where
  client := { connectCreate [98] [49] with socketfd := 3 }
  server := oneChannel
  requests := []
  replies := []
  waiting := false
  built := serverCreate []

/-- A request times out; its reply arrives while the next call waits for its own. -/
def lateRun : List TransferStep :=
  [.request .calm, .timeout, .request .calm, .serve .calm, .deliver .calm [], .serve .calm, .deliver .calm []]

theorem lateRun_returned :
    ∃ info, (1, info) ∈ (transferStep .channels 0 (fun _ => 7)
        (run (transferStep .channels 0 fun _ => 7) freshTransfer lateRun).1 .finish).2 ∧
      Returned (fun _ => 7) [49] .channels 0
        (run (transferStep .channels 0 fun _ => 7) freshTransfer lateRun).1.built 1 info := by
  have hout : (transferStep .channels 0 (fun _ => 7)
      (run (transferStep .channels 0 fun _ => 7) freshTransfer lateRun).1 .finish).2.map Prod.fst = [1] := by
    decide +kernel
  have hal : Along (transferStep .channels 0 fun _ => 7) (TransferStep.Allowed .channels) freshTransfer lateRun := by
    refine ⟨?_, trivial, ?_, trivial, trivial, trivial, trivial, trivial⟩
    · change Transfer.unanswered _ _ < 256
      decide +kernel
    · change Transfer.unanswered _ _ < 256
      decide +kernel
  have hstart : freshTransfer.Start .channels := ⟨by decide, rfl, by simp [freshTransfer], rfl⟩
  obtain ⟨⟨n, info⟩, hx, hn⟩ := List.map_eq_singleton_iff.mp hout
  obtain rfl : n = 1 := hn
  have hmem := List.mem_singleton_self ((1 : Nat), info)
  rw [← hx] at hmem
  have haddr : (run (transferStep .channels 0 fun _ => 7) freshTransfer lateRun).1.client.addr = [49] := by
    decide +kernel
  have h := (list_round_trip .channels 0 fun _ => 7).2 freshTransfer lateRun hstart hal .finish 1 info hmem
  rw [haddr] at h
  exact ⟨info, hmem, h⟩

end SyncScribe
