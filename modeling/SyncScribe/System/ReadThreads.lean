import Mathlib.Tactic.FinCases
import SyncScribe.Lib.Threads
import SyncScribe.System.FreshReads

/-!
`syncs_read` and the receive thread as two threads. The call stores to `read_wait`,
and word by word to `read_id`, without `read_mutex`, waits with it in
`syncs_wait_for`, and copies from `read_data` without it, byte by byte; the receive
thread compares `read_id` word by word and fills `read_data` byte by byte with it.
A call does not sleep once its reply is there.
-/

namespace SyncScribe
open Lib Lib.Bytes

/-! ## The words of an identifier -/

def Id.word (x : Id) : Fin 4 → UInt64
  | 0 => x.i0
  | 1 => x.i1
  | 2 => x.i2
  | 3 => x.i3

/-- The store of one word in `syncs_idcpy`. -/
def Id.setWord (x : Id) (i : Fin 4) (w : UInt64) : Id :=
  match i with
  | 0 => { x with i0 := w }
  | 1 => { x with i1 := w }
  | 2 => { x with i2 := w }
  | 3 => { x with i3 := w }

theorem Id.word_setWord (x : Id) (i j : Fin 4) (w : UInt64) :
    (x.setWord i w).word j = if j = i then w else x.word j := by
  fin_cases i <;> fin_cases j <;> rfl

/-! ## The threads -/

inductive ReadThread
  | caller
  | receiver
  /-- all that is no part of `syncs_read` -/
  | rest
  deriving DecidableEq

instance : Fintype ReadThread := ⟨{.caller, .receiver, .rest}, fun t => by cases t <;> decide⟩

/-- What both sides and the network hold. -/
structure ReadMemory where
  client : Connect
  server : Server
  requests : List Packet
  replies : List Packet

inductive Aside
  | client (f : { f : Connect → Connect // ∀ s, (f s).readFields = s.readFields })
  | serve (env : Env)
  | server (s : Server) (ps : List Packet)

/-- Where the threads stand. -/
inductive ReadPoint
  | out
  /- `syncs_read` -/
  | entered (k : ReadCall) (env : ClientEnv)
  | armed (k : ReadCall) (env : ClientEnv) (n : Fin 4)
  | named (k : ReadCall) (env : ClientEnv)
  /- `syncs_wait_for` -/
  | sent (k : ReadCall)
  | testing (k : ReadCall)
  | sleeping (k : ReadCall)
  | expired (k : ReadCall)
  | failed (k : ReadCall)
  | leaving (k : ReadCall)
  /- the end of `syncs_read` -/
  | sizing (k : ReadCall)
  | copying (k : ReadCall) (n : Nat) (bytes : List UInt8)
  /- the next packet, and `syncs_process_packet` for a READ reply -/
  | next (env : ClientEnv) (beyond : List UInt8)
  | locking (p : Packet)
  | matching (p : Packet)
  | comparing (p : Packet) (n : Fin 4)
  | taking (p : Packet)
  | storing (p : Packet) (n : Nat)
  | clearing (p : Packet)
  | signalling
  | done
  | aside (e : Aside)

/-- What is seen of the calls of `syncs_read`. -/
inductive ReadSign
  /-- `read_wait` is set, and `read_id` holds `id` -/
  | began (k : ReadCall) (id : Id)
  /-- the server, being `s`, sends a packet in answer to a request -/
  | answered (s : Server) (q : Packet)
  /-- the receive thread has stored the packet, and ends the wait -/
  | took (p : Packet)
  | returned (ret : Int) (k : ReadCall) (bytes : List UInt8)

/-- The bytes of a packet with what follows them in the receive buffer. -/
def Packet.ahead (p : Packet) (beyond : List UInt8) : Packet := { p with buffer := p.buffer ++ beyond }

def ReadMemory.aside (slot : ClientIx) (m : ReadMemory) : Aside → ReadMemory × List ReadSign
  | .client f => ({ m with client := f.val m.client }, [])
  | .serve env =>
    match m.requests with
    | [] => (m, [])
    | p :: ps =>
      let r := clientProcessPacket env m.server slot (p.within env)
      ({ m with server := r.server, requests := ps, replies := m.replies ++ sentTo slot r.out },
        (sentTo slot r.out).map (.answered m.server))
  | .server s ps => ({ m with server := s, replies := m.replies ++ ps }, [])

abbrev ReadInstr := Instr Unit ReadMemory ReadPoint ReadSign

def readProgram (slot : ClientIx) : ReadThread → ReadPoint → ReadInstr
  | .caller, .entered k env => .act fun m =>
    if m.client.socketfd < 0 then (m, .out, [.returned (-77) k []])
    else ({ m with client := { m.client with readWait := true } }, .armed k env 0, [.began k m.client.readId])
  | .caller, .armed k env n => .act fun m =>
    ({ m with client := { m.client with readId := m.client.readId.setWord n ((idstr k.cid).word n) } },
      if n = 3 then .named k env else .armed k env (n + 1), [])
  | .caller, .named k env => .act fun m =>
    ({ m with requests := m.requests ++ tcpPackets (connectSend env m.client (readRequest env k.cid k.flags)).2 },
      .sent k, [])
  | .caller, .sent k => .lock () (.testing k)
  | .caller, .testing k => .act fun m => (m, if m.client.readWait then .sleeping k else .leaving k, [])
  | .caller, .sleeping k => .wait () (.testing k) (.expired k)
  | .caller, .expired k => .unlock () (.failed k)
  | .caller, .failed k => .act fun m => (m, .out, [.returned (-110) k []])
  | .caller, .leaving k => .unlock () (.sizing k)
  | .caller, .sizing k => .act fun m => (m, .copying k (min k.size m.client.readSize) [], [])
  | .caller, .copying k n bytes => .act fun m =>
    if bytes.length < n then (m, .copying k n (bytes ++ [m.client.readData.getD bytes.length 0]), [])
    else (m, .out, [.returned 0 k bytes])
  | .receiver, .next env beyond => .act fun m =>
    match m.replies with
    | [] => (m, .out, [])
    | p :: ps =>
      if p.header.msg = .read then ({ m with replies := ps }, .locking (p.ahead beyond), [])
      else ({ m with client := (processPacket env m.client (p.ahead beyond)).1, replies := ps }, .out, [])
  | .receiver, .locking p => .lock () (.matching p)
  | .receiver, .matching p => .act fun m => (m, if m.client.readWait then .comparing p 0 else .done, [])
  | .receiver, .comparing p n => .act fun m =>
    (m, if p.header.id.word n = m.client.readId.word n then if n = 3 then .taking p else .comparing p (n + 1)
      else .done, [])
  | .receiver, .taking p => .act fun m =>
    ({ m with client := { m.client with readSize := p.header.dataSize.toNat } }, .storing p 0, [])
  | .receiver, .storing p n => .act fun m =>
    if n < p.header.dataSize.toNat then
      ({ m with client := { m.client with readData := write m.client.readData n [p.buffer.getD n 0] } },
        .storing p (n + 1), [])
    else (m, .clearing p, [])
  | .receiver, .clearing p => .act fun m =>
    ({ m with client := { m.client with readWait := false } }, .signalling, [.took p])
  | .receiver, .signalling => .signal () .done
  | .receiver, .done => .unlock () .out
  | .rest, .aside e => .act fun m => ((m.aside slot e).1, .out, (m.aside slot e).2)
  | _, _ => .idle

/-- What a thread may begin. -/
def mayBegin : ReadThread → ReadPoint → Prop
  | .caller, .entered _ _ => True
  | .receiver, .next _ _ => True
  | .rest, .aside (.server s ps) => s.Fits ∧ ∀ p ∈ ps, p.header.msg ≠ .read
  | .rest, .aside _ => True
  | _, _ => False

instance decidableServerFits (s : Server) : Decidable s.Fits := inferInstanceAs (Decidable (∀ _, _ ≤ _))

instance : ∀ t p, Decidable (mayBegin t p)
  | .caller, .entered _ _ | .receiver, .next _ _ => isTrue trivial
  | .rest, .aside (.server s ps) => inferInstanceAs (Decidable (s.Fits ∧ ∀ p ∈ ps, p.header.msg ≠ .read))
  | .rest, .aside (.client _) | .rest, .aside (.serve _) => isTrue trivial
  | .caller, p => by cases p <;> first | exact isTrue trivial | exact isFalse id
  | .receiver, p => by cases p <;> first | exact isTrue trivial | exact isFalse id
  | .rest, p => by
    cases p
    case aside e =>
      cases e
      case server s ps => exact inferInstanceAs (Decidable (s.Fits ∧ ∀ p ∈ ps, p.header.msg ≠ .read))
      all_goals exact isTrue trivial
    all_goals exact isFalse id

/-- The points with `read_mutex`. -/
def hasReadMutex : ReadThread → ReadPoint → Prop
  | .caller, .testing _ | .caller, .sleeping _ | .caller, .expired _ | .caller, .leaving _ => True
  | .receiver, .matching _ | .receiver, .comparing _ _ | .receiver, .taking _ | .receiver, .storing _ _ => True
  | .receiver, .clearing _ | .receiver, .signalling | .receiver, .done => True
  | _, _ => False

abbrev ReadThreads := Threads ReadThread Unit ReadMemory ReadPoint

/-- An exchange in which nobody has begun. -/
def Exchange.threads (st : Exchange) : ReadThreads :=
  ⟨⟨st.client, st.server, st.requests, st.replies⟩, fun _ => none, fun _ => .out, fun _ => .running⟩

theorem readProgram_bracketed (slot : ClientIx) :
    Bracketed (readProgram slot) mayBegin fun t p _ => hasReadMutex t p := by
  refine ⟨?_, ?_, ?_, ?_, ?_, ?_⟩
  · intro t p f m _ h
    cases t <;> cases p <;> simp only [readProgram, reduceCtorEq, Instr.act.injEq] at h <;> subst h
    all_goals beta_reduce
    all_goals (repeat' split) <;> simp [hasReadMutex]
  · intro t p m q _ h
    cases t <;> cases p <;> simp only [readProgram, reduceCtorEq, Instr.lock.injEq] at h
    all_goals
      obtain ⟨-, rfl⟩ := h
      simp [hasReadMutex]
  · intro t p m q _ h
    cases t <;> cases p <;> simp only [readProgram, reduceCtorEq, Instr.unlock.injEq] at h
    all_goals
      obtain ⟨-, rfl⟩ := h
      simp [hasReadMutex]
  · intro t p m q _ h
    cases t <;> cases p <;> simp only [readProgram, reduceCtorEq, Instr.signal.injEq] at h
    obtain ⟨-, rfl⟩ := h
    simp [hasReadMutex]
  · intro t p m q r _ h
    cases t <;> cases p <;> simp only [readProgram, reduceCtorEq, Instr.wait.injEq] at h
    obtain ⟨-, rfl, rfl⟩ := h
    simp [hasReadMutex]
  · intro t p q _ h hbegin
    cases t <;> cases p <;> simp only [readProgram, reduceCtorEq] at h <;> cases q <;> simp_all [hasReadMutex, mayBegin]

/-! ## The wakeup -/

section Wakeup

variable {slot : ClientIx}

theorem Exchange.threads_guarded (st : Exchange) :
    st.threads.Guarded (readProgram slot) fun t p _ => hasReadMutex t p := by
  refine ⟨?_, ?_⟩
  · rintro t ⟨⟩
    simp only [Exchange.threads, reduceCtorEq, false_iff, not_and_or, hasReadMutex]
    left
    cases t <;> exact id
  · rintro t m ⟨⟩

/-- Packets of other types are processed without a store to `read_wait`. -/
theorem processPacket_readWait {env : ClientEnv} {s : Connect} {p : Packet} (hread : p.header.msg ≠ .read) :
    (processPacket env s p).1.readWait = s.readWait := by
  have hmsg : (p.header.msg == Msg.read) = false := beq_false_of_ne hread
  have hfields := processPacket_readFields env s p (by rw [Connect.takes, hmsg, Bool.false_and, Bool.false_and])
  simp only [Connect.readFields, Prod.mk.injEq] at hfields
  exact hfields.1

theorem ReadMemory.aside_readWait (m : ReadMemory) (e : Aside) :
    (m.aside slot e).1.client.readWait = m.client.readWait := by
  cases e with
  | client f =>
    have hfields := f.property m.client
    simp only [Connect.readFields, Prod.mk.injEq] at hfields
    exact hfields.1
  | serve env =>
    simp only [ReadMemory.aside]
    split
    · rfl
    · rfl
  | server s ps => rfl

/-- Only the receive thread ends the wait, with the mutex and right before its signal. -/
theorem readProgram_signalled (slot : ClientIx) :
    Signalled (readProgram slot) mayBegin (fun t p _ => hasReadMutex t p) () .caller
      fun m => m.client.readWait = true := by
  refine ⟨?_, ?_, ?_, ?_, ?_⟩
  · intro t p q r h
    cases t <;> cases p <;> simp only [readProgram, reduceCtorEq] at h
    rfl
  · intro p f m q r h hwait
    cases p <;> simp only [readProgram, reduceCtorEq, Instr.act.injEq] at h <;> subst h
    case testing k =>
      by_contra hoff
      simp only [hoff, ↓reduceIte, readProgram, reduceCtorEq] at hwait
    all_goals
      beta_reduce at hwait
      first
        | (split at hwait <;> cases hwait)
        | cases hwait
  · intro p p' q r h hwait
    cases p <;> simp only [readProgram, Instr.leadsTo] at h
    case sleeping k =>
      rcases h with rfl | rfl
      · cases hwait
      · cases hwait
    all_goals
      subst h
      cases hwait
  · intro p q r h hwait
    cases p <;> simp only [mayBegin] at h
    cases hwait
  · intro t p f m h hon hoff
    cases t <;> cases p <;> simp only [readProgram, reduceCtorEq, Instr.act.injEq] at h <;> subst h
    case receiver.clearing p => exact ⟨trivial, .done, rfl⟩
    case receiver.next env beyond =>
      refine absurd ?_ hoff
      beta_reduce
      split
      · exact hon
      · split
        · exact hon
        · rename_i q qs hq hread
          exact (processPacket_readWait (p := q.ahead beyond) hread).trans hon
    case rest.aside e => exact absurd ((ReadMemory.aside_readWait m e).trans hon) hoff
    case caller.entered k env =>
      refine absurd ?_ hoff
      beta_reduce
      split
      · exact hon
      · rfl
    case caller.copying k n bytes =>
      refine absurd ?_ hoff
      beta_reduce
      split
      · exact hon
      · exact hon
    case receiver.storing p n =>
      refine absurd ?_ hoff
      beta_reduce
      split
      · exact hon
      · exact hon
    all_goals exact absurd hon hoff

/-- **No reply goes unnoticed.** A call that sleeps does so while `read_wait` is set, or the receive thread has the mutex
and the signal is what it does next. -/
theorem call_is_woken (st : Exchange) (cs : List (Choice ReadThread ReadPoint))
    (hcs : Along (threadStep (readProgram slot)) (Threads.allows (readProgram slot) mayBegin) st.threads cs)
    (hasleep : (run (threadStep (readProgram slot)) st.threads cs).1.mode .caller = .asleep ()) :
    (run (threadStep (readProgram slot)) st.threads cs).1.memory.client.readWait = true ∨
      ((run (threadStep (readProgram slot)) st.threads cs).1.owner () = some .receiver ∧
        (run (threadStep (readProgram slot)) st.threads cs).1.point .receiver = .signalling) := by
  have hawaited : st.threads.Awaited (readProgram slot) () .caller fun m => m.client.readWait = true := by
    refine ⟨?_, ?_⟩
    · rintro q r - ⟨⟩
    · rintro ⟨⟩
  have h := hawaited.run (readProgram_bracketed slot) (readProgram_signalled slot) st.threads_guarded cs hcs
  refine (h.asleep hasleep).imp_right ?_
  rintro ⟨t, q, howner, hsignal⟩
  generalize (run (threadStep (readProgram slot)) st.threads cs).1 = w at howner hsignal ⊢
  cases t with
  | receiver =>
    refine ⟨howner, ?_⟩
    cases hp : w.point .receiver <;> rw [hp] at hsignal <;> cases hsignal
  | caller => cases hp : w.point .caller <;> rw [hp] at hsignal <;> cases hsignal
  | rest => cases hp : w.point .rest <;> rw [hp] at hsignal <;> cases hsignal

end Wakeup

/-- `a` is read, and the call sleeps until the receive thread has copied the reply. -/
def sleepingCall : List (Choice ReadThread ReadPoint) :=
  .call .caller (.entered ⟨[97], 0, 8⟩ .calm) :: List.replicate 9 (.run .caller) ++
    [.call .rest (.aside (.serve .calm)), .run .rest, .call .receiver (.next .calm [])] ++
    List.replicate 11 (.run .receiver)

theorem sleepingCall_woken :
    (run (threadStep (readProgram 0)) readable.threads sleepingCall).1.mode .caller = .asleep () ∧
      ((run (threadStep (readProgram 0)) readable.threads sleepingCall).1.memory.client.readWait = true ∨
        ((run (threadStep (readProgram 0)) readable.threads sleepingCall).1.owner () = some .receiver ∧
          (run (threadStep (readProgram 0)) readable.threads sleepingCall).1.point .receiver = .signalling)) :=
  ⟨by decide +kernel, call_is_woken readable sleepingCall (by decide +kernel) (by decide +kernel)⟩

end SyncScribe
