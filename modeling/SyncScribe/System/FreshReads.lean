import SyncScribe.System.ListReply
import SyncScribe.System.Resubscribe

/-!
`syncs_read`, step by step, against the receive thread and the server. A reply is
taken while `read_wait` is set and when its identifier is `read_id`; nothing ties
it to the call that waits. So a reply that was on its way when the call began may
be taken, with the value of an earlier moment, and between the stores to
`read_wait` and `read_id` one for the variable read before. If neither happens,
what a call returns was held by the server during the call.
-/

namespace SyncScribe
open Lib Lib.Bytes

/-! ## The system -/

/-- The arguments of a call of `syncs_read`; `size` is `*data_size`. -/
structure ReadCall where
  cid : List UInt8
  flags : UInt32
  size : Nat

/-- How far a call has come. -/
inductive Stage
  /-- `read_wait` is set -/
  | armed
  /-- `read_id` is set -/
  | named
  /-- the request is sent -/
  | waiting
  /-- the wait is over -/
  | woken
  deriving DecidableEq, Repr

/-- The client with the call it is in, the server, and the READ requests and the packets of the server on
their way. Of the call under way, `during` is what the server has been since it began, and `early` the number
of packets that were on their way then and still are. -/
structure Exchange where
  client : Connect
  server : Server
  requests : List Packet
  replies : List Packet
  call : Option (ReadCall × Stage)
  during : List Server
  early : Nat

inductive ReadStep
  | call (k : ReadCall)
  | name
  | send (env : ClientEnv)
  /-- the wait ends because `read_wait` is 0 -/
  | wake
  | timeout
  | copy
  /-- the client does something else -/
  | client (s : Connect)
  /-- the server processes the next request -/
  | serve (env : Env)
  /-- the server does something else, and sends other packets to the client -/
  | server (s : Server) (ps : List Packet)
  /-- the receive thread processes the next packet -/
  | deliver (env : ClientEnv) (beyond : List UInt8)

/-- The return of a call, with what the server has been during the call. -/
structure ReadReturn where
  ret : Int
  call : ReadCall
  bytes : List UInt8
  during : List Server

def readStep (slot : ClientIx) (st : Exchange) : ReadStep → Exchange × List ReadReturn
  | .call k =>
    match st.call with
    | some _ => (st, [])
    | none =>
      if st.client.socketfd < 0 then (st, [⟨-77, k, [], [st.server]⟩])
      else
        ({ st with
          client := { st.client with readWait := true }
          call := some (k, .armed), during := [st.server], early := st.replies.length }, [])
  | .name =>
    match st.call with
    | some (k, .armed) =>
      ({ st with client := { st.client with readId := idstr k.cid }, call := some (k, .named) }, [])
    | _ => (st, [])
  | .send env =>
    match st.call with
    | some (k, .named) =>
      ({ st with
        requests := st.requests ++ tcpPackets (connectSend env st.client (readRequest env k.cid k.flags)).2
        call := some (k, .waiting) }, [])
    | _ => (st, [])
  | .wake =>
    match st.call with
    | some (k, .waiting) => if st.client.readWait then (st, []) else ({ st with call := some (k, .woken) }, [])
    | _ => (st, [])
  | .timeout =>
    match st.call with
    | some (k, .waiting) => ({ st with call := none }, [⟨-110, k, [], st.during⟩])
    | _ => (st, [])
  | .copy =>
    match st.call with
    | some (k, .woken) =>
      ({ st with call := none },
        [⟨0, k, Lib.Bytes.read st.client.readData (min k.size st.client.readSize), st.during⟩])
    | _ => (st, [])
  | .client s => ({ st with client := s }, [])
  | .serve env =>
    match st.requests with
    | [] => (st, [])
    | p :: ps =>
      let r := clientProcessPacket env st.server slot (p.within env)
      ({ st with
        server := r.server, requests := ps, replies := st.replies ++ sentTo slot r.out
        during := st.during ++ [r.server] }, [])
  | .server s ps => ({ st with server := s, replies := st.replies ++ ps, during := st.during ++ [s] }, [])
  | .deliver env beyond =>
    match st.replies with
    | [] => (st, [])
    | p :: ps =>
      ({ st with
        client := (processPacket env st.client { p with buffer := p.buffer ++ beyond }).1
        replies := ps, early := st.early - 1 }, [])

/-- Without interruption, the stores and the send are those of `clientReadCall`. -/
theorem readStep_clientReadCall (slot : ClientIx) (env : ClientEnv) (st : Exchange) (k : ReadCall)
    (hidle : st.call = none) {s : Connect} {out : List ClientOut}
    (h : clientReadCall env st.client k.flags k.cid = some (s, out)) :
    (run (readStep slot) st [.call k, .name, .send env]).1 =
      { st with
        client := s, requests := st.requests ++ tcpPackets out
        call := some (k, .waiting), during := [st.server], early := st.replies.length } := by
  unfold clientReadCall at h
  split at h
  · cases h
  · rename_i hup
    simp only [Option.some.injEq, Prod.mk.injEq] at h
    obtain ⟨rfl, rfl⟩ := h
    simp only [run, readStep, hidle, if_neg hup]
    rfl

/-! ## What is asked of the steps -/

/-- The bytes the server holds for an identifier; none if there is no such event. -/
def valueOf (s : Server) (id : Id) : List UInt8 :=
  match findEvent s id with
  | some e => Lib.Bytes.read (s.events e).data (s.events e).dataSize.toNat
  | none => []

/-- No event is longer than its memory. -/
def Server.Fits (s : Server) : Prop := ∀ e, (s.events e).dataSize.toNat ≤ variableSizeMaximum

/-- The fields of the client that belong to `syncs_read`. -/
def Connect.readFields (s : Connect) : Bool × Id × List UInt8 × Nat := (s.readWait, s.readId, s.readData, s.readSize)

/-- The reply would be taken: `read_wait` is set and the identifier is `read_id`. -/
def Connect.takes (s : Connect) (p : Packet) : Bool := p.header.msg == .read && s.readWait && idcmp p.header.id s.readId

/-- What else the two sides do is something else. -/
def ReadStep.Allowed (st : Exchange) : ReadStep → Prop
  | .client s => s.readFields = st.client.readFields
  | .server s ps => s.Fits ∧ ∀ p ∈ ps, p.header.msg ≠ .read
  | _ => True

/-- A reply taken during a call was not on its way when the call began, and is for the identifier of the
call. -/
def ReadStep.Timely (st : Exchange) : ReadStep → Prop
  | .deliver _ _ =>
    ∀ p ∈ st.replies.head?, ∀ k ∈ st.call, st.client.takes p = true → st.early = 0 ∧ st.client.readId = idstr k.1.cid
  | _ => True

/-- A connection on which nothing is read yet. -/
structure Exchange.Start (st : Exchange) : Prop where
  idle : st.call = none
  requests : st.requests = []
  fits : st.server.Fits

/-- What a successful call returns: the value of its variable at a moment during the call, as far as there is
room. -/
def ReadReturn.Fresh (r : ReadReturn) : Prop :=
  r.ret = 0 → ∃ s ∈ r.during, r.bytes = (valueOf s (idstr r.call.cid)).take r.call.size

instance (r : ReadReturn) : Decidable r.Fresh :=
  inferInstanceAs (Decidable (_ → ∃ s ∈ r.during, r.bytes = (valueOf s (idstr r.call.cid)).take r.call.size))

/-! ## One reply -/

/-- A READ reply with the value of its identifier in one of the states. -/
def Reports (during : List Server) (p : Packet) : Prop :=
  p.header.dataSize.toNat = p.buffer.length ∧ ∃ s ∈ during, p.buffer = valueOf s p.header.id

theorem readPacket_reports (env : Env) {s : Server} (hfits : s.Fits) (id : Id) {during : List Server} (hs : s ∈ during) :
    Reports during (readPacket env s id).frame := by
  refine ⟨(length_read _ _).symm, s, hs, ?_⟩
  have hid : (readPacket env s id).frame.header.id = id := by
    simp only [readPacket, Packet.frame]
    split <;> rfl
  rw [hid]
  simp only [Packet.frame, Packet.payload, valueOf]
  cases he : findEvent s id with
  | some e => simp only [readPacket, he, toUInt16_toNat (hfits e), read_write_read]
  | none =>
    simp only [readPacket, he]
    rfl

theorem clientProcessPacket_read (env : Env) (s : Server) (c : ClientIx) {p : Packet} (hp : p.header.msg = .read) :
    (clientProcessPacket env s c p).server.events = s.events ∧
      sentTo c (clientProcessPacket env s c p).out = [(readPacket env s p.header.id).frame] := by
  simp only [clientProcessPacket, clientDispatch, hp, clientRead, sendCounted, sentTo_send]
  exact ⟨rfl, trivial⟩

/-- Only a READ reply that is taken changes what belongs to `syncs_read`. -/
theorem processPacket_readFields (env : ClientEnv) (s : Connect) (p : Packet) (h : s.takes p = false) :
    (processPacket env s p).1.readFields = s.readFields := by
  cases hm : p.header.msg
  all_goals simp only [processPacket, hm]
  case event =>
    rw [processEvent_frame]
    rfl
  case channel =>
    rw [channelProcessPacket_frame]
    rfl
  case serverStatus =>
    rw [processError_frame]
    rfl
  case read =>
    have hnot : ¬ (s.readWait && idcmp p.header.id s.readId) = true := by
      simpa [Connect.takes, hm] using h
    simp only [processRead, if_neg hnot]
  all_goals rfl

/-- What is taken can be read back. -/
theorem processPacket_takes (env : ClientEnv) (s : Connect) (p : Packet) (beyond : List UInt8) (h : s.takes p = true)
    (hlen : p.header.dataSize.toNat = p.buffer.length) :
    (processPacket env s { p with buffer := p.buffer ++ beyond }).1.readId = s.readId ∧
      Lib.Bytes.read (processPacket env s { p with buffer := p.buffer ++ beyond }).1.readData
        (processPacket env s { p with buffer := p.buffer ++ beyond }).1.readSize = p.buffer := by
  simp only [Connect.takes, Bool.and_eq_true, beq_iff_eq] at h
  have hwait : (s.readWait && idcmp p.header.id s.readId) = true := by simp [h.1.2, h.2]
  simp only [processPacket, h.1.1, processRead, if_pos hwait]
  refine ⟨trivial, ?_⟩
  rw [read_write_read, hlen, read_append rfl]

/-! ## The invariant -/

/-- A call under way. -/
structure Underway (st : Exchange) (k : ReadCall) (stage : Stage) : Prop where
  now : st.server ∈ st.during
  reports : ∀ p ∈ st.replies.drop st.early, p.header.msg = .read → Reports st.during p
  named : stage ≠ .armed → st.client.readId = idstr k.cid
  taken : st.client.readWait = false →
    ∃ s ∈ st.during, Lib.Bytes.read st.client.readData st.client.readSize = valueOf s (idstr k.cid)
  woken : stage = .woken → st.client.readWait = false

structure ReadInv (st : Exchange) : Prop where
  fits : st.server.Fits
  requests : ∀ p ∈ st.requests, p.header.msg = .read
  call : ∀ k stage, st.call = some (k, stage) → Underway st k stage

section Steps

variable {slot : ClientIx} {st : Exchange} {k : ReadCall} {stage : Stage}

/-- The moments only grow. -/
theorem Reports.mono {during : List Server} {p : Packet} (h : Reports during p) (more : List Server) :
    Reports (during ++ more) p := by
  obtain ⟨hlen, s, hs, hp⟩ := h
  exact ⟨hlen, s, List.mem_append_left _ hs, hp⟩

/-- The server moves on, and sends packets. -/
theorem Underway.advance (h : Underway st k stage) (s : Server) (qs ps : List Packet)
    (hps : ∀ p ∈ ps, p.header.msg = .read → Reports (st.during ++ [s]) p) :
    Underway { st with server := s, requests := qs, replies := st.replies ++ ps, during := st.during ++ [s] } k stage where
  now := by simp
  reports := by
    intro p hp hm
    simp only [List.drop_append, List.mem_append] at hp
    rcases hp with hp | hp
    · exact (h.reports p hp hm).mono _
    · exact hps p (List.mem_of_mem_drop hp) hm
  named := h.named
  taken := by
    intro hw
    obtain ⟨s', hs', heq⟩ := h.taken hw
    exact ⟨s', List.mem_append_left _ hs', heq⟩
  woken := h.woken

/-- The client does something that is no part of `syncs_read`, and may take packets. -/
theorem Underway.aside (h : Underway st k stage) {s : Connect} {ps : List Packet} {n : Nat}
    (hs : s.readFields = st.client.readFields) (hps : ∀ q ∈ ps.drop n, q ∈ st.replies.drop st.early) :
    Underway { st with client := s, replies := ps, early := n } k stage := by
  simp only [Connect.readFields, Prod.mk.injEq] at hs
  obtain ⟨hwait, hid, hdata, hsize⟩ := hs
  refine ⟨h.now, fun q hq => h.reports q (hps q hq), ?_, ?_, ?_⟩
  · simp only [hid]
    exact h.named
  · simp only [hwait, hdata, hsize]
    exact h.taken
  · simp only [hwait]
    exact h.woken

theorem ReadInv.serve (h : ReadInv st) (env : Env) : ReadInv (readStep slot st (.serve env)).1 := by
  simp only [readStep]
  cases hr : st.requests with
  | nil => exact h
  | cons p ps =>
    have hp : (p.within env).header.msg = .read := h.requests p (by rw [hr]; exact List.mem_cons_self)
    obtain ⟨hevents, hsent⟩ := clientProcessPacket_read env st.server slot hp
    refine ⟨?_, ?_, ?_⟩
    · intro e
      rw [hevents]
      exact h.fits e
    · intro q hq
      exact h.requests q (by rw [hr]; exact List.mem_cons_of_mem _ hq)
    · intro k stage hk
      refine (h.call k stage hk).advance _ ps _ ?_
      intro q hq _
      rw [hsent, List.mem_singleton] at hq
      rw [hq]
      exact readPacket_reports env h.fits _ (List.mem_append_left _ (h.call k stage hk).now)

theorem ReadInv.server (h : ReadInv st) {s : Server} {ps : List Packet} (hs : s.Fits)
    (hps : ∀ p ∈ ps, p.header.msg ≠ .read) : ReadInv (readStep slot st (.server s ps)).1 where
  fits := hs
  requests := h.requests
  call := fun k stage hk =>
    (h.call k stage hk).advance s st.requests ps fun p hp hm => absurd hm (hps p hp)

theorem ReadInv.deliver (h : ReadInv st) (env : ClientEnv) (beyond : List UInt8)
    (ht : ReadStep.Timely st (.deliver env beyond)) : ReadInv (readStep slot st (.deliver env beyond)).1 := by
  simp only [readStep]
  cases hr : st.replies with
  | nil => exact h
  | cons p ps =>
    refine ⟨h.fits, h.requests, ?_⟩
    intro k stage hk
    have hu := h.call k stage hk
    have hrest : ∀ q ∈ ps.drop (st.early - 1), q ∈ st.replies.drop st.early := by
      intro q hq
      rw [hr]
      cases hearly : st.early with
      | zero =>
        rw [hearly] at hq
        exact List.mem_cons_of_mem _ hq
      | succ n =>
        rw [hearly] at hq
        exact hq
    cases htakes : st.client.takes p with
    | false => exact hu.aside (processPacket_readFields env st.client _ htakes) hrest
    | true =>
      obtain ⟨hearly, hid⟩ := ht p (by rw [hr]; rfl) (k, stage) hk htakes
      have hmem : p ∈ st.replies.drop st.early := by
        rw [hearly, hr]
        exact List.mem_cons_self
      have hread : p.header.msg = .read ∧ p.header.id = st.client.readId ∧ st.client.readWait = true := by
        simp only [Connect.takes, Bool.and_eq_true, beq_iff_eq] at htakes
        exact ⟨htakes.1.1, idcmp_iff.mp htakes.2, htakes.1.2⟩
      obtain ⟨hlen, s, hs, hvalue⟩ := hu.reports p hmem hread.1
      obtain ⟨hid', hdata⟩ := processPacket_takes env st.client p beyond htakes hlen
      refine ⟨hu.now, fun q hq => hu.reports q (hrest q hq), ?_, ?_, ?_⟩
      · intro _
        exact hid'.trans hid
      · intro _
        refine ⟨s, hs, ?_⟩
        rw [← hid, ← hread.2.1]
        exact hdata.trans hvalue
      · intro hwoken
        exact absurd (hu.woken hwoken) (by rw [hread.2.2]; decide)

theorem ReadInv.begin (h : ReadInv st) (k : ReadCall) : ReadInv (readStep slot st (.call k)).1 := by
  simp only [readStep]
  split
  · exact h
  · split
    · exact h
    · refine ⟨h.fits, h.requests, ?_⟩
      intro k' stage hk
      simp only [Option.some.injEq, Prod.mk.injEq] at hk
      obtain ⟨rfl, rfl⟩ := hk
      refine ⟨List.mem_singleton_self _, ?_, fun hne => absurd rfl hne, fun hw => by simp at hw, fun hw => by cases hw⟩
      intro p hp
      simp only [List.drop_length, List.not_mem_nil] at hp

theorem ReadInv.name (h : ReadInv st) : ReadInv (readStep slot st .name).1 := by
  simp only [readStep]
  split
  · rename_i k hc
    refine ⟨h.fits, h.requests, ?_⟩
    intro k' stage hk
    simp only [Option.some.injEq, Prod.mk.injEq] at hk
    obtain ⟨rfl, rfl⟩ := hk
    have hu := h.call k .armed hc
    exact ⟨hu.now, hu.reports, fun _ => rfl, hu.taken, fun hw => by cases hw⟩
  · exact h

theorem ReadInv.send (h : ReadInv st) (env : ClientEnv) : ReadInv (readStep slot st (.send env)).1 := by
  simp only [readStep]
  split
  · rename_i k hc
    refine ⟨h.fits, ?_, ?_⟩
    · intro p hp
      rw [tcpPackets_connectSend, List.mem_append] at hp
      rcases hp with hp | hp
      · exact h.requests p hp
      · split at hp
        · rw [List.mem_singleton] at hp
          rw [hp]
          exact Msg.ofWord_or .read (and_and_eq_zero _ (by decide))
        · cases hp
    · intro k' stage hk
      simp only [Option.some.injEq, Prod.mk.injEq] at hk
      obtain ⟨rfl, rfl⟩ := hk
      have hu := h.call k .named hc
      exact ⟨hu.now, hu.reports, fun _ => hu.named (by decide), hu.taken, fun hw => by cases hw⟩
  · exact h

theorem ReadInv.wake (h : ReadInv st) : ReadInv (readStep slot st .wake).1 := by
  simp only [readStep]
  split
  · rename_i k hc
    split
    · exact h
    · rename_i hwait
      refine ⟨h.fits, h.requests, ?_⟩
      intro k' stage hk
      simp only [Option.some.injEq, Prod.mk.injEq] at hk
      obtain ⟨rfl, rfl⟩ := hk
      have hu := h.call k .waiting hc
      exact ⟨hu.now, hu.reports, fun _ => hu.named (by decide), hu.taken, fun _ => by simpa using hwait⟩
  · exact h

/-- The end of a call. -/
theorem ReadInv.idle (h : ReadInv st) : ReadInv { st with call := none } :=
  ⟨h.fits, h.requests, fun _ _ hk => by cases hk⟩

/-- The client does something else. -/
theorem ReadInv.client (h : ReadInv st) {s : Connect} (hs : s.readFields = st.client.readFields) :
    ReadInv (readStep slot st (.client s)).1 :=
  ⟨h.fits, h.requests, fun k stage hk => (h.call k stage hk).aside hs fun _ hq => hq⟩

/-- **One step** of the system. -/
theorem ReadInv.step (h : ReadInv st) (a : ReadStep) (ha : a.Allowed st) (ht : a.Timely st) :
    ReadInv (readStep slot st a).1 := by
  cases a with
  | call k => exact h.begin k
  | name => exact h.name
  | send env => exact h.send env
  | wake => exact h.wake
  | timeout =>
    simp only [readStep]
    split
    · exact h.idle
    · exact h
  | copy =>
    simp only [readStep]
    split
    · exact h.idle
    · exact h
  | client s => exact h.client ha
  | serve env => exact h.serve env
  | server s ps => exact h.server ha.1 ha.2
  | deliver env beyond => exact h.deliver env beyond ht

/-- What a step returns is fresh. -/
theorem ReadInv.fresh (h : ReadInv st) (a : ReadStep) : ∀ r ∈ (readStep slot st a).2, r.Fresh := by
  intro r hr
  cases a with
  | copy =>
    simp only [readStep] at hr
    split at hr
    · rename_i k hc
      have hu := h.call k .woken hc
      obtain ⟨s, hs, hvalue⟩ := hu.taken (hu.woken rfl)
      rw [List.mem_singleton] at hr
      subst hr
      refine fun _ => ⟨s, hs, ?_⟩
      simp only
      rw [← hvalue, List.take_eq_take_min, length_read, take_read _ (Nat.min_le_right _ _)]
    · cases hr
  | call k =>
    simp only [readStep] at hr
    split at hr
    · cases hr
    · split at hr
      · rw [List.mem_singleton] at hr
        subst hr
        exact fun hret => absurd hret (by simp)
      · cases hr
  | timeout =>
    simp only [readStep] at hr
    split at hr
    · rw [List.mem_singleton] at hr
      subst hr
      exact fun hret => absurd hret (by simp)
    · cases hr
  | wake =>
    simp only [readStep] at hr
    split at hr
    · split at hr <;> cases hr
    · cases hr
  | name | send env | serve env | deliver env beyond =>
    simp only [readStep] at hr
    split at hr <;> cases hr
  | client s => cases hr
  | server s ps => cases hr

end Steps

/-- A client of a server that holds 1 for `a`. -/
def readable : Exchange where
  client := { connectCreate [98] [] with socketfd := 3 }
  server := (run act (serverCreate []) [.accept (some (3, ⟨1, 2⟩)),
    .packet .calm 0 (Packet.make (Msg.write.code ||| typeForce) (idstr [97]) [1])]).1
  requests := []
  replies := []
  call := none
  during := []
  early := 0

end SyncScribe
