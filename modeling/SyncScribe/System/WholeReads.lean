import SyncScribe.Lib.Since
import SyncScribe.System.ReadThreads

/-!
What a call of `syncs_read` returns. However the threads take turns, the bytes of a
call that succeeds are those of one reply, which the receive thread took during the
call: nothing of another reply is among them, and the server held them at one moment.
Of the identifier of that reply each word is that of the call, or the one that
`read_id` held when the call began.
-/

namespace SyncScribe
open Lib Lib.Bytes

/-! ## What is asked of a return -/

/-- The signs that a call begins, and that a reply is taken. -/
def ReadSign.marks : ReadSign → Prop
  | .began _ _ | .took _ => True
  | _ => False

/-- Each word of the identifier is that of the call, or the one before it. -/
def Packet.NamedFor (p : Packet) (k : ReadCall) (id : Id) : Prop :=
  ∀ i, p.header.id.word i = (idstr k.cid).word i ∨ p.header.id.word i = id.word i

/-- The server has sent the packet, with what it held for the identifier; other bytes may stand behind it in the receive
buffer. -/
def Came (log : List ReadSign) (p : Packet) (s : Server) : Prop :=
  ∃ q beyond, .answered s q ∈ log ∧ Reports [s] q ∧ p = q.ahead beyond

/-- One reply has been taken since the call began. -/
def TookOne (log : List ReadSign) (k : ReadCall) (id : Id) (p : Packet) (s : Server) : Prop :=
  ∃ before after, log = before ++ .took p :: after ∧ (∀ o ∈ after, ¬ o.marks) ∧
    Since (· = .began k id) ReadSign.marks before ∧ Came before p s

/-- A call returns bytes of the reply it has taken, or fails. -/
def Returns (log : List ReadSign) : ReadSign → Prop
  | .returned ret k bytes =>
    (ret = 0 ∧ ∃ id p s, TookOne log k id p s ∧ p.NamedFor k id ∧ bytes = (valueOf s p.header.id).take k.size) ∨
      ((ret = -77 ∨ ret = -110) ∧ bytes = [])
  | _ => True

/-! ## The invariant -/

def ReadPoint.call : ReadPoint → Option ReadCall
  | .armed k _ _ | .named k _ => some k
  | .sent k | .testing k | .sleeping k | .expired k | .failed k => some k
  | .leaving k | .sizing k | .copying k _ _ => some k
  | _ => none

/-- How many words the call has stored to `read_id`. -/
def ReadPoint.stored : ReadPoint → Nat
  | .armed _ _ n => n
  | _ => 4

/-- The call stores to `read_id`, or has not had `read_mutex` since. -/
def ReadPoint.naming : ReadPoint → Bool
  | .armed _ _ _ | .named _ _ | .sent _ => true
  | _ => false

def ReadPoint.woken : ReadPoint → Bool
  | .leaving _ | .sizing _ | .copying _ _ _ => true
  | _ => false

/-- The reply the receive thread is at. -/
def ReadPoint.reply : ReadPoint → Option Packet
  | .locking p | .matching p | .comparing p _ | .taking p | .storing p _ | .clearing p => some p
  | _ => none

/-- How many words of its identifier have been compared. -/
def ReadPoint.compared : ReadPoint → Option (Packet × Nat)
  | .comparing p n => some (p, n)
  | .taking p | .storing p _ | .clearing p => some (p, 4)
  | _ => none

/-- How many of its bytes are in `read_data`. -/
def ReadPoint.filled : ReadPoint → Option (Packet × Nat)
  | .storing p n => some (p, n)
  | .clearing p => some (p, p.header.dataSize.toNat)
  | _ => none

/-- `n` bytes of the packet are in `read_data`, and its size in `read_size`. -/
def ReadMemory.Holds (m : ReadMemory) (p : Packet) (n : Nat) : Prop :=
  m.client.readSize = p.header.dataSize.toNat ∧ Bytes.read m.client.readData n = Bytes.read p.buffer n

/-- The word was in `read_id` when it was compared. -/
def Compared (m : ReadMemory) (a : ReadPoint) (id : Id) (p : Packet) (i : Fin 4) : Prop :=
  p.header.id.word i = m.client.readId.word i ∨ (a.naming = true ∧ p.header.id.word i = id.word i)

/-- The call `k`, which stands at `a`, found `id` in `read_id`. -/
structure Reading (log : List ReadSign) (m : ReadMemory) (a : ReadPoint) (k : ReadCall) (id : Id) : Prop where
  named : ∀ i : Fin 4, m.client.readId.word i = if i.val < a.stored then (idstr k.cid).word i else id.word i
  waits : m.client.readWait = true → Since (· = .began k id) ReadSign.marks log
  taken : m.client.readWait = false →
    ∃ p s, TookOne log k id p s ∧ p.NamedFor k id ∧ m.Holds p p.header.dataSize.toNat
  woken : a.woken = true → m.client.readWait = false
  copied : ∀ n bytes, a = .copying k n bytes →
    n = min k.size m.client.readSize ∧ bytes = Bytes.read m.client.readData bytes.length ∧ bytes.length ≤ n

/-- The caller stands at `a` and the receive thread at `b`. -/
structure Sound (log : List ReadSign) (m : ReadMemory) (a b : ReadPoint) (id : Id) : Prop where
  fits : m.server.Fits
  requests : ∀ p ∈ m.requests, p.header.msg = .read
  replies : ∀ q ∈ m.replies, q.header.msg = .read → ∃ s, .answered s q ∈ log ∧ Reports [s] q
  call : ∀ k, a.call = some k → Reading log m a k id
  came : ∀ p, b.reply = some p → ∃ s, Came log p s
  waits : ∀ p n, b.compared = some (p, n) → m.client.readWait = true
  compared : ∀ p n, b.compared = some (p, n) → ∀ i : Fin 4, i.val < n → Compared m a id p i
  filled : ∀ p n, b.filled = some (p, n) → n ≤ p.header.dataSize.toNat ∧ m.Holds p n

section Steps

variable {log new : List ReadSign} {m m' : ReadMemory} {a a' b : ReadPoint} {k : ReadCall} {id : Id} {p : Packet}
  {s : Server}

/-! ### Logs that grow -/

theorem Came.append (h : Came log p s) (new : List ReadSign) : Came (log ++ new) p s := by
  obtain ⟨q, beyond, hmem, hreports, hp⟩ := h
  exact ⟨q, beyond, List.mem_append_left new hmem, hreports, hp⟩

theorem TookOne.append (h : TookOne log k id p s) (hnew : ∀ o ∈ new, ¬ o.marks) : TookOne (log ++ new) k id p s := by
  obtain ⟨before, after, rfl, hafter, hbegan, hcame⟩ := h
  refine ⟨before, after ++ new, by simp, ?_, hbegan, hcame⟩
  intro o ho
  rcases List.mem_append.mp ho with ho | ho
  · exact hafter o ho
  · exact hnew o ho

theorem Reading.append (h : Reading log m a k id) (hnew : ∀ o ∈ new, ¬ o.marks) : Reading (log ++ new) m a k id where
  named := h.named
  waits := fun hwait => (h.waits hwait).append_right hnew
  taken := by
    intro hwait
    obtain ⟨p, s, htook, hnamed, hholds⟩ := h.taken hwait
    exact ⟨p, s, htook.append hnew, hnamed, hholds⟩
  woken := h.woken
  copied := h.copied

/-- The call goes on behind its stores to `read_id`. -/
theorem Reading.advance (h : Reading log m a k id) (hclient : m'.client.readFields = m.client.readFields)
    (hstored : a'.stored = a.stored) (hwoken : a'.woken = true → m.client.readWait = false)
    (hcopied : ∀ n bytes, a' = .copying k n bytes →
      n = min k.size m.client.readSize ∧ bytes = Bytes.read m.client.readData bytes.length ∧ bytes.length ≤ n) :
    Reading log m' a' k id := by
  simp only [Connect.readFields, Prod.mk.injEq] at hclient
  obtain ⟨hwait, hid, hdata, hsize⟩ := hclient
  refine ⟨?_, ?_, ?_, ?_, ?_⟩
  · rw [hid, hstored]
    exact h.named
  · rw [hwait]
    exact h.waits
  · rw [hwait]
    simp only [ReadMemory.Holds, hdata, hsize]
    exact h.taken
  · rw [hwait]
    exact hwoken
  · rw [hdata, hsize]
    exact hcopied

/-- Nothing happens to what belongs to `syncs_read`. -/
theorem Reading.frame (h : Reading log m a k id) (hclient : m'.client.readFields = m.client.readFields) :
    Reading log m' a k id :=
  h.advance hclient rfl h.woken h.copied

/-- While the call waits, the receive thread may store to `read_data`. -/
theorem Reading.storing (h : Reading log m a k id) (hwaiting : m.client.readWait = true)
    (hwait : m'.client.readWait = true) (hid : m'.client.readId = m.client.readId) : Reading log m' a k id := by
  have hasleep : a.woken = true → m.client.readWait = false := h.woken
  rw [hwaiting] at hasleep
  refine ⟨?_, fun _ => h.waits hwaiting, ?_, ?_, ?_⟩
  · rw [hid]
    exact h.named
  · rw [hwait]
    exact fun hoff => by cases hoff
  · exact fun hwoken => by cases hasleep hwoken
  · rintro n bytes rfl
    cases hasleep rfl

/-! ### The call -/

/-- The call goes on, and the receive thread does not notice. -/
theorem Sound.caller (h : Sound log m a b id) (new : List ReadSign) (hclient : m'.client.readFields = m.client.readFields)
    (hfits : m'.server.Fits) (hrequests : ∀ p ∈ m'.requests, p.header.msg = .read)
    (hreplies : ∀ q ∈ m'.replies, q.header.msg = .read → ∃ s, .answered s q ∈ log ++ new ∧ Reports [s] q)
    (hcall : ∀ k, a'.call = some k → Reading (log ++ new) m' a' k id)
    (hnaming : b.compared ≠ none → a.naming = true → a'.naming = true) : Sound (log ++ new) m' a' b id := by
  simp only [Connect.readFields, Prod.mk.injEq] at hclient
  obtain ⟨hwait, hid, hdata, hsize⟩ := hclient
  refine ⟨hfits, hrequests, hreplies, hcall, ?_, ?_, ?_, ?_⟩
  · intro p hp
    obtain ⟨s, hcame⟩ := h.came p hp
    exact ⟨s, hcame.append new⟩
  · rw [hwait]
    exact h.waits
  · intro p n hp i hi
    rw [Compared, hid]
    refine (h.compared p n hp i hi).imp_right ?_
    rintro ⟨ha, hword⟩
    exact ⟨hnaming (by rw [hp]; exact Option.some_ne_none _) ha, hword⟩
  · simp only [ReadMemory.Holds, hdata, hsize]
    exact h.filled

/-- The replies that were on their way still are. -/
theorem Sound.replies_append (h : Sound log m a b id) (new : List ReadSign) :
    ∀ q ∈ m.replies, q.header.msg = .read → ∃ s, .answered s q ∈ log ++ new ∧ Reports [s] q := by
  intro q hq hread
  obtain ⟨s, hs, hreports⟩ := h.replies q hq hread
  exact ⟨s, List.mem_append_left new hs, hreports⟩

/-- Only the call moves. -/
theorem Sound.moves (h : Sound log m a b id) (new : List ReadSign)
    (hcall : ∀ k, a'.call = some k → Reading (log ++ new) m a' k id)
    (hnaming : b.compared ≠ none → a.naming = true → a'.naming = true) : Sound (log ++ new) m a' b id :=
  h.caller new rfl h.fits h.requests (h.replies_append new) hcall hnaming

theorem ReadSign.marks_nil : ∀ o ∈ ([] : List ReadSign), ¬ o.marks := fun o ho => by cases ho

variable {env : ClientEnv} {n : Fin 4}

/-- `read_wait` is set: a reply that is being copied stays with the words that were there. -/
theorem Sound.enter (h : Sound log m (.entered k env) b id) :
    Sound (log ++ [.began k m.client.readId]) { m with client := { m.client with readWait := true } } (.armed k env 0) b
      m.client.readId := by
  refine ⟨h.fits, h.requests, h.replies_append _, ?_, ?_, fun _ _ _ => rfl, ?_, h.filled⟩
  · intro k' hk
    obtain rfl := Option.some.inj hk
    refine ⟨?_, ?_, ?_, ?_, ?_⟩
    · intro i
      exact (if_neg (Nat.not_lt_zero _)).symm
    · intro _
      exact (since_concat log _).mpr (.inl rfl)
    · rintro ⟨⟩
    · rintro ⟨⟩
    · rintro n bytes ⟨⟩
  · intro p hp
    obtain ⟨s, hcame⟩ := h.came p hp
    exact ⟨s, hcame.append _⟩
  · intro p n hp i hi
    rcases h.compared p n hp i hi with hword | ⟨hnaming, _⟩
    · exact .inl hword
    · cases hnaming

/-- The store of a word. One that was compared before is the one it replaces. -/
theorem Sound.name (h : Sound log m (.armed k env n) b id) (hnext : a'.stored = n.val + 1) (hcall : a'.call = some k)
    (hnaming : a'.naming = true) (hwoken : a'.woken = false) (hcopied : ∀ n bytes, a' ≠ .copying k n bytes) :
    Sound (log ++ [])
      { m with client := { m.client with readId := m.client.readId.setWord n ((idstr k.cid).word n) } } a' b id := by
  have hreading := h.call k rfl
  refine ⟨h.fits, h.requests, h.replies_append _, ?_, ?_, h.waits, ?_, h.filled⟩
  · intro k' hk
    obtain rfl := Option.some.inj (hcall.symm.trans hk)
    refine ⟨?_, ?_, ?_, ?_, ?_⟩
    · intro i
      rw [Id.word_setWord, hnext]
      by_cases hi : i = n
      · subst hi
        rw [if_pos rfl, if_pos (Nat.lt_succ_self _)]
      · have hlt : i.val < n.val + 1 ↔ i.val < n.val := by omega
        rw [if_neg hi, hreading.named i]
        simp only [hlt]
        rfl
    · exact fun hwait => (hreading.waits hwait).append_right ReadSign.marks_nil
    · intro hwait
      obtain ⟨p, s, htook, hnamed, hholds⟩ := hreading.taken hwait
      exact ⟨p, s, htook.append ReadSign.marks_nil, hnamed, hholds⟩
    · rw [hwoken]
      rintro ⟨⟩
    · intro n bytes ha
      exact absurd ha (hcopied n bytes)
  · intro p hp
    obtain ⟨s, hcame⟩ := h.came p hp
    exact ⟨s, hcame.append _⟩
  · intro p l hp i hi
    rw [Compared, Id.word_setWord]
    rcases h.compared p l hp i hi with hword | ⟨_, hword⟩
    · by_cases hin : i = n
      · refine .inr ⟨hnaming, ?_⟩
        rw [hword, hreading.named i, hin]
        exact if_neg (Nat.lt_irrefl _)
      · rw [if_neg hin]
        exact .inl hword
    · exact .inr ⟨hnaming, hword⟩

/-- A request is sent, or none. -/
theorem Sound.send (h : Sound log m (.named k env) b id) :
    Sound (log ++ [])
      { m with requests := m.requests ++ tcpPackets (connectSend env m.client (readRequest env k.cid k.flags)).2 }
      (.sent k) b id := by
  refine h.caller [] rfl h.fits ?_ (h.replies_append []) ?_ fun _ _ => rfl
  · intro p hp
    rcases List.mem_append.mp hp with hp | hp
    · exact h.requests p hp
    · rw [tcpPackets_connectSend] at hp
      split at hp
      · rw [List.mem_singleton.mp hp]
        exact Msg.ofWord_or .read (and_and_eq_zero _ (by decide))
      · cases hp
  · intro k' hk
    obtain rfl := Option.some.inj hk
    refine ((h.call k rfl).append ReadSign.marks_nil).advance ?_ rfl ?_ ?_
    · rfl
    · rintro ⟨⟩
    · rintro n bytes ⟨⟩

/-- What the call copies is in `read_data`. -/
theorem Sound.copyByte {l : Nat} {bytes : List UInt8} (h : Sound log m (.copying k l bytes) b id)
    (hlt : bytes.length < l) :
    Sound (log ++ []) m (.copying k l (bytes ++ [m.client.readData.getD bytes.length 0])) b id := by
  refine h.moves [] ?_ fun _ hnaming => by cases hnaming
  intro k' hk
  obtain rfl := Option.some.inj hk
  have hreading := h.call k rfl
  obtain ⟨hl, hbytes, _⟩ := hreading.copied l bytes rfl
  refine (hreading.append ReadSign.marks_nil).advance rfl rfl hreading.woken ?_
  rintro l' bytes' ⟨⟩
  rw [List.length_append, List.length_singleton, read_succ, ← hbytes]
  exact ⟨hl, rfl, hlt⟩

/-- **One instruction of the call.** -/
theorem Sound.caller_acts {slot : ClientIx} (h : Sound log m a b id)
    {f : ReadMemory → ReadMemory × ReadPoint × List ReadSign} (hf : readProgram slot .caller a = .act f) :
    ∃ id', Sound (log ++ (f m).2.2) (f m).1 (f m).2.1 b id' := by
  have hfails : ∀ {a : ReadPoint} (_ : Sound log m a b id) (_ : a.naming = false) {new : List ReadSign},
      ∃ id', Sound (log ++ new) m .out b id' := by
    intro a h ha new
    refine ⟨id, h.moves new ?_ ?_⟩
    · rintro k ⟨⟩
    · rw [ha]
      rintro _ ⟨⟩
  cases a <;> simp only [readProgram, reduceCtorEq, Instr.act.injEq] at hf <;> subst hf <;> beta_reduce
  case entered k env =>
    split
    · exact hfails h rfl
    · exact ⟨_, h.enter⟩
  case armed k env n =>
    refine ⟨id, ?_⟩
    split
    · rename_i hn
      refine h.name ?_ rfl rfl rfl (fun _ _ ha => by cases ha)
      rw [hn]
      rfl
    · rename_i hn
      refine h.name ?_ rfl rfl rfl (fun _ _ ha => by cases ha)
      change (n + 1).val = n.val + 1
      omega
  case named k env => exact ⟨id, h.send⟩
  case testing k =>
    refine ⟨id, h.moves [] ?_ fun _ hnaming => by cases hnaming⟩
    intro k' hk
    have hreading := (h.call k rfl).append ReadSign.marks_nil
    split at hk
    · rename_i hwait
      obtain rfl := Option.some.inj hk
      rw [if_pos hwait]
      refine hreading.advance rfl rfl ?_ ?_
      · rintro ⟨⟩
      · rintro n bytes ⟨⟩
    · rename_i hwait
      obtain rfl := Option.some.inj hk
      rw [if_neg hwait]
      refine hreading.advance rfl rfl ?_ ?_
      · exact fun _ => by simpa using hwait
      · rintro n bytes ⟨⟩
  case failed k => exact hfails h rfl
  case sizing k =>
    refine ⟨id, h.moves [] ?_ fun _ hnaming => by cases hnaming⟩
    intro k' hk
    obtain rfl := Option.some.inj hk
    have hreading := h.call k rfl
    refine (hreading.append ReadSign.marks_nil).advance rfl rfl hreading.woken ?_
    rintro n bytes ⟨⟩
    exact ⟨rfl, rfl, Nat.zero_le _⟩
  case copying k l bytes =>
    split
    · exact ⟨id, h.copyByte ‹_›⟩
    · exact hfails h rfl

/-- What a call that has copied all returns. -/
theorem Sound.returns {l : Nat} {bytes : List UInt8} (h : Sound log m (.copying k l bytes) b id)
    (hall : ¬ bytes.length < l) : Returns log (.returned 0 k bytes) := by
  have hreading := h.call k rfl
  obtain ⟨p, s, htook, hnamed, hsize, hdata⟩ := hreading.taken (hreading.woken rfl)
  obtain ⟨hl, hbytes, hle⟩ := hreading.copied l bytes rfl
  refine .inl ⟨rfl, id, p, s, htook, hnamed, ?_⟩
  obtain ⟨before, after, hlog, hafter, hbegan, q, beyond, hmem, ⟨hlen, s', hs', hvalue⟩, rfl⟩ := htook
  obtain rfl := List.mem_singleton.mp hs'
  have hlength : bytes.length = min k.size q.buffer.length := by
    have hp : (q.ahead beyond).header.dataSize.toNat = q.buffer.length := hlen
    rw [← hp, ← hsize]
    omega
  have hreply : Bytes.read m.client.readData q.buffer.length = q.buffer := by
    have hp : (q.ahead beyond).header.dataSize.toNat = q.buffer.length := hlen
    rw [hp] at hdata
    rw [hdata]
    exact read_append rfl
  change bytes = (valueOf s' q.header.id).take k.size
  calc bytes = Bytes.read m.client.readData (min k.size q.buffer.length) := by rw [hbytes, hlength]
    _ = (Bytes.read m.client.readData q.buffer.length).take (min k.size q.buffer.length) :=
        (take_read _ (Nat.min_le_right _ _)).symm
    _ = q.buffer.take k.size := by rw [hreply, ← List.take_eq_take_min]
    _ = (valueOf s' q.header.id).take k.size := by rw [hvalue]

/-- What the call puts out is borne out. -/
theorem Sound.caller_returns {slot : ClientIx} (h : Sound log m a b id)
    {f : ReadMemory → ReadMemory × ReadPoint × List ReadSign} (hf : readProgram slot .caller a = .act f)
    (hlog : BorneOut Returns log) : BorneOut Returns (log ++ (f m).2.2) := by
  have hsilent : BorneOut Returns (log ++ []) := hlog.append fun o ho => by cases ho
  cases a <;> simp only [readProgram, reduceCtorEq, Instr.act.injEq] at hf <;> subst hf <;> beta_reduce
  case entered k env =>
    split
    · exact hlog.concat (.inr ⟨.inl rfl, rfl⟩)
    · exact hlog.concat trivial
  case failed k => exact hlog.concat (.inr ⟨.inr rfl, rfl⟩)
  case copying k l bytes =>
    split
    · exact hsilent
    · exact hlog.concat (h.returns ‹_›)
  all_goals exact hsilent

/-! ### The receive thread -/

/-- The receive thread goes on, and leaves the memory alone. -/
theorem Sound.receiver {b' : ReadPoint} (h : Sound log m a b id) (hreply : ∀ p, b'.reply = some p → b.reply = some p)
    (hcompared : ∀ p n, b'.compared = some (p, n) →
      m.client.readWait = true ∧ ∀ i : Fin 4, i.val < n → Compared m a id p i)
    (hfilled : ∀ p n, b'.filled = some (p, n) → n ≤ p.header.dataSize.toNat ∧ m.Holds p n) :
    Sound (log ++ []) m a b' id where
  fits := h.fits
  requests := h.requests
  replies := h.replies_append []
  call := fun k hk => (h.call k hk).append ReadSign.marks_nil
  came := by
    intro p hp
    obtain ⟨s, hcame⟩ := h.came p (hreply p hp)
    exact ⟨s, hcame.append []⟩
  waits := fun p n hp => (hcompared p n hp).1
  compared := fun p n hp => (hcompared p n hp).2
  filled := hfilled

/-- It stands at no reply. -/
theorem Sound.receiver_out {b' : ReadPoint} (h : Sound log m a b id) (hreply : b'.reply = none)
    (hcompared : b'.compared = none) (hfilled : b'.filled = none) : Sound (log ++ []) m a b' id := by
  refine h.receiver ?_ ?_ ?_
  · rw [hreply]
    rintro p ⟨⟩
  · rw [hcompared]
    rintro p n ⟨⟩
  · rw [hfilled]
    rintro p n ⟨⟩

/-- The next packet is a READ reply. -/
theorem Sound.take {q : Packet} {ps : List Packet} {beyond : List UInt8} (h : Sound log m a b id)
    (hreplies : m.replies = q :: ps) (hread : q.header.msg = .read) :
    Sound (log ++ []) { m with replies := ps } a (.locking (q.ahead beyond)) id where
  fits := h.fits
  requests := h.requests
  replies := fun q' hq' => h.replies_append [] q' (by rw [hreplies]; exact List.mem_cons_of_mem _ hq')
  call := fun k hk => ((h.call k hk).append ReadSign.marks_nil).frame rfl
  came := by
    rintro p hp
    obtain rfl := Option.some.inj hp
    obtain ⟨s, hs, hreports⟩ := h.replies q (by rw [hreplies]; exact List.mem_cons_self) hread
    exact ⟨s, q, beyond, List.mem_append_left _ hs, hreports, rfl⟩
  waits := by
    rintro p n ⟨⟩
  compared := by
    rintro p n ⟨⟩
  filled := by
    rintro p n ⟨⟩

/-- The next packet is of another type. -/
theorem Sound.process {q : Packet} {ps : List Packet} {beyond : List UInt8} (h : Sound log m a b id)
    (hreplies : m.replies = q :: ps) (hread : q.header.msg ≠ .read) :
    Sound (log ++ []) { m with client := (processPacket env m.client (q.ahead beyond)).1, replies := ps } a .out id := by
  have hmsg : ((q.ahead beyond).header.msg == Msg.read) = false := beq_false_of_ne hread
  have hfields := processPacket_readFields env m.client (q.ahead beyond)
    (by rw [Connect.takes, hmsg, Bool.false_and, Bool.false_and])
  refine ⟨h.fits, h.requests, ?_, ?_, ?_, ?_, ?_, ?_⟩
  · exact fun q' hq' => h.replies_append [] q' (by rw [hreplies]; exact List.mem_cons_of_mem _ hq')
  · exact fun k hk => ((h.call k hk).append ReadSign.marks_nil).frame hfields
  · rintro p ⟨⟩
  · rintro p n ⟨⟩
  · rintro p n ⟨⟩
  · rintro p n ⟨⟩

/-- One word more agrees. -/
theorem Sound.compare {b' : ReadPoint} (h : Sound log m a (.comparing p n) id)
    (hword : p.header.id.word n = m.client.readId.word n) (hcompared : b'.compared = some (p, n.val + 1))
    (hreply : b'.reply = some p) (hfilled : b'.filled = none) : Sound (log ++ []) m a b' id := by
  refine h.receiver ?_ ?_ ?_
  · rw [hreply]
    exact fun _ hp => hp
  · intro q l hq
    rw [hcompared] at hq
    obtain ⟨rfl, rfl⟩ := Prod.mk.inj (Option.some.inj hq)
    refine ⟨h.waits p n.val rfl, ?_⟩
    intro i hi
    rcases Nat.lt_succ_iff_lt_or_eq.mp hi with hlt | heq
    · exact h.compared p n.val rfl i hlt
    · rw [Fin.ext heq]
      exact .inl hword
  · rw [hfilled]
    rintro q l ⟨⟩

/-- The size, or a byte, is stored. -/
theorem Sound.fill {b' : ReadPoint} (h : Sound log m a b id) (hbefore : b.compared = some (p, 4))
    (hcompared : b'.compared = some (p, 4)) (hreply : b.reply = some p) (hreply' : b'.reply = some p) {l : Nat}
    (hfilled : b'.filled = some (p, l)) (hle : l ≤ p.header.dataSize.toNat) {data : List UInt8} {size : Nat}
    (hholds : ReadMemory.Holds { m with client := { m.client with readData := data, readSize := size } } p l) :
    Sound (log ++ []) { m with client := { m.client with readData := data, readSize := size } } a b' id where
  fits := h.fits
  requests := h.requests
  replies := h.replies_append []
  call := by
    intro k hk
    have hwait := h.waits p 4 hbefore
    exact ((h.call k hk).append ReadSign.marks_nil).storing hwait hwait rfl
  came := by
    intro q hq
    obtain ⟨s, hcame⟩ := h.came q (by rw [hreply, ← hreply', hq])
    exact ⟨s, hcame.append []⟩
  waits := fun q n hq => h.waits q n (by rw [hbefore, ← hcompared, hq])
  compared := fun q n hq => h.compared q n (by rw [hbefore, ← hcompared, hq])
  filled := by
    intro q n hq
    rw [hfilled] at hq
    obtain ⟨rfl, rfl⟩ := Prod.mk.inj (Option.some.inj hq)
    exact ⟨hle, hholds⟩

/-- The words that were compared are those of a call that waits. -/
theorem Sound.namedFor (h : Sound log m a b id) (hb : b.compared = some (p, 4)) (hk : a.call = some k) :
    p.NamedFor k id := by
  intro i
  rcases h.compared p 4 hb i i.isLt with hword | ⟨_, hword⟩
  · rw [hword, (h.call k hk).named i]
    split
    · exact .inl rfl
    · exact .inr rfl
  · exact .inr hword

/-- The reply is there, and the wait ends. -/
theorem Sound.clear (h : Sound log m a (.clearing p) id) :
    Sound (log ++ [.took p]) { m with client := { m.client with readWait := false } } a .signalling id := by
  have hwaiting := h.waits p 4 rfl
  refine ⟨h.fits, h.requests, h.replies_append _, ?_, ?_, ?_, ?_, ?_⟩
  · intro k hk
    have hreading := h.call k hk
    have hasleep : a.woken = true → m.client.readWait = false := hreading.woken
    rw [hwaiting] at hasleep
    refine ⟨hreading.named, ?_, ?_, fun _ => rfl, ?_⟩
    · rintro ⟨⟩
    · intro _
      obtain ⟨s, hcame⟩ := h.came p rfl
      refine ⟨p, s, ⟨log, [], rfl, ReadSign.marks_nil, hreading.waits hwaiting, hcame⟩, h.namedFor rfl hk, ?_⟩
      exact (h.filled p _ rfl).2
    · rintro n bytes rfl
      cases hasleep rfl
  · rintro p ⟨⟩
  · rintro p n ⟨⟩
  · rintro p n ⟨⟩
  · rintro p n ⟨⟩

/-- **One instruction of the receive thread.** -/
theorem Sound.receiver_acts {slot : ClientIx} (h : Sound log m a b id)
    {f : ReadMemory → ReadMemory × ReadPoint × List ReadSign} (hf : readProgram slot .receiver b = .act f) :
    Sound (log ++ (f m).2.2) (f m).1 a (f m).2.1 id := by
  cases b <;> simp only [readProgram, reduceCtorEq, Instr.act.injEq] at hf <;> subst hf <;> beta_reduce
  case next env beyond =>
    cases hq : m.replies with
    | nil => exact h.receiver_out rfl rfl rfl
    | cons q qs =>
      simp only
      split
      · exact h.take hq ‹_›
      · exact h.process hq ‹_›
  case matching p =>
    split
    · rename_i hwait
      refine h.receiver (fun _ hp => hp) ?_ ?_
      · rintro q n hq
        obtain ⟨rfl, rfl⟩ := Prod.mk.inj (Option.some.inj hq)
        exact ⟨hwait, fun i hi => absurd hi (Nat.not_lt_zero _)⟩
      · rintro q n ⟨⟩
    · exact h.receiver_out rfl rfl rfl
  case comparing p n =>
    split
    · rename_i hword
      split
      · rename_i hn
        exact h.compare hword (by rw [hn]; rfl) rfl rfl
      · rename_i hn
        refine h.compare hword ?_ rfl rfl
        have hnext : (n + 1).val = n.val + 1 := by omega
        rw [← hnext]
        rfl
    · exact h.receiver_out rfl rfl rfl
  case taking p => exact h.fill rfl rfl rfl rfl rfl (Nat.zero_le _) ⟨rfl, rfl⟩
  case storing p n =>
    obtain ⟨hle, hsize, hdata⟩ := h.filled p n rfl
    split
    · rename_i hlt
      refine h.fill rfl rfl rfl rfl rfl hlt ⟨hsize, ?_⟩
      have hstored := read_write_at m.client.readData n [p.buffer.getD n 0]
      rw [List.length_singleton] at hstored
      exact hstored.trans (by rw [hdata, ← read_succ])
    · rename_i hnot
      have hn : n = p.header.dataSize.toNat := by omega
      refine h.fill rfl rfl rfl rfl rfl (Nat.le_refl _) ⟨hsize, ?_⟩
      rw [← hn]
      exact hdata
  case clearing p => exact h.clear

theorem receiver_returns {slot : ClientIx} {f : ReadMemory → ReadMemory × ReadPoint × List ReadSign}
    (hf : readProgram slot .receiver b = .act f) (hlog : BorneOut Returns log) :
    BorneOut Returns (log ++ (f m).2.2) := by
  refine hlog.append fun o ho pre => ?_
  cases b <;> simp only [readProgram, reduceCtorEq, Instr.act.injEq] at hf <;> subst hf <;> beta_reduce at ho
  case next env beyond =>
    split at ho
    · cases ho
    · split at ho <;> cases ho
  case clearing p =>
    rw [List.mem_singleton.mp ho]
    trivial
  case storing p n => split at ho <;> cases ho
  all_goals cases ho

/-! ### The rest -/

/-- **What else the two sides do.** -/
theorem Sound.aside {slot : ClientIx} (h : Sound log m a b id) {e : Aside} (he : mayBegin .rest (.aside e)) :
    Sound (log ++ (m.aside slot e).2) (m.aside slot e).1 a b id := by
  cases e with
  | client f =>
    exact h.caller [] (f.property m.client) h.fits h.requests (h.replies_append [])
      (fun k hk => ((h.call k hk).append ReadSign.marks_nil).frame (f.property m.client)) fun _ hnaming => hnaming
  | serve env =>
    cases hq : m.requests with
    | nil =>
      simp only [ReadMemory.aside, hq]
      exact h.moves [] (fun k hk => (h.call k hk).append ReadSign.marks_nil) fun _ hnaming => hnaming
    | cons p ps =>
      have hread : (p.within env).header.msg = .read := h.requests p (by rw [hq]; exact List.mem_cons_self)
      obtain ⟨hevents, hsent⟩ := clientProcessPacket_read env m.server slot hread
      simp only [ReadMemory.aside, hq, hsent]
      refine h.caller _ rfl ?_ ?_ ?_ ?_ fun _ hnaming => hnaming
      · intro e
        rw [hevents]
        exact h.fits e
      · exact fun q hq' => h.requests q (by rw [hq]; exact List.mem_cons_of_mem _ hq')
      · intro q hq' hm
        rcases List.mem_append.mp hq' with hq' | hq'
        · exact h.replies_append _ q hq' hm
        · rw [List.mem_singleton.mp hq']
          exact ⟨m.server, List.mem_append_right _ List.mem_cons_self,
            readPacket_reports env h.fits _ (List.mem_singleton_self _)⟩
      · intro k hk
        refine ((h.call k hk).append ?_).frame rfl
        intro o ho
        rw [List.mem_singleton.mp ho]
        exact not_false
  | server s ps =>
    refine h.caller [] rfl he.1 h.requests ?_ (fun k hk => ((h.call k hk).append ReadSign.marks_nil).frame rfl)
      fun _ hnaming => hnaming
    intro q hq hm
    rcases List.mem_append.mp hq with hq | hq
    · exact h.replies_append [] q hq hm
    · exact absurd hm (he.2 q hq)

theorem aside_returns (slot : ClientIx) (m : ReadMemory) (e : Aside) (hlog : BorneOut Returns log) :
    BorneOut Returns (log ++ (m.aside slot e).2) := by
  refine hlog.append fun o ho pre => ?_
  cases e with
  | client f => cases ho
  | serve env =>
    simp only [ReadMemory.aside] at ho
    split at ho
    · cases ho
    · obtain ⟨q, _, rfl⟩ := List.mem_map.mp ho
      trivial
  | server s ps => cases ho

/-! ### Instructions that leave the memory alone -/

theorem Sound.caller_leads {slot : ClientIx} (h : Sound log m a b id) (hlead : (readProgram slot .caller a).leadsTo a')
    (hb : a.naming = true → b.compared = none) : Sound (log ++ []) m a' b id := by
  refine h.moves [] ?_ fun hne hnaming => absurd (hb hnaming) hne
  intro k' hk
  cases a <;> simp only [readProgram, Instr.leadsTo] at hlead
  case sent k =>
    subst hlead
    obtain rfl := Option.some.inj hk
    refine ((h.call k rfl).append ReadSign.marks_nil).advance rfl rfl ?_ ?_
    · rintro ⟨⟩
    · rintro n bytes ⟨⟩
  case sleeping k =>
    have hreading := (h.call k rfl).append ReadSign.marks_nil
    rcases hlead with rfl | rfl
    all_goals
      obtain rfl := Option.some.inj hk
      refine hreading.advance rfl rfl ?_ ?_
      · rintro ⟨⟩
      · rintro n bytes ⟨⟩
  case expired k =>
    subst hlead
    obtain rfl := Option.some.inj hk
    refine ((h.call k rfl).append ReadSign.marks_nil).advance rfl rfl ?_ ?_
    · rintro ⟨⟩
    · rintro n bytes ⟨⟩
  case leaving k =>
    subst hlead
    obtain rfl := Option.some.inj hk
    have hreading := (h.call k rfl).append ReadSign.marks_nil
    refine hreading.advance rfl rfl hreading.woken ?_
    rintro n bytes ⟨⟩

theorem Sound.receiver_leads {slot : ClientIx} {b' : ReadPoint} (h : Sound log m a b id)
    (hlead : (readProgram slot .receiver b).leadsTo b') : Sound (log ++ []) m a b' id := by
  cases b <;> simp only [readProgram, Instr.leadsTo] at hlead <;> subst hlead
  case locking p =>
    refine h.receiver (fun _ hp => hp) ?_ ?_
    · rintro q n ⟨⟩
    · rintro q n ⟨⟩
  all_goals exact h.receiver_out rfl rfl rfl

theorem Sound.caller_begins {slot : ClientIx} (h : Sound log m a b id) (hidle : readProgram slot .caller a = .idle)
    (hbegin : mayBegin .caller a') : Sound (log ++ []) m a' b id := by
  have hnaming : a.naming = false := by cases a <;> simp only [readProgram, reduceCtorEq] at hidle <;> rfl
  cases a' <;> simp only [mayBegin] at hbegin
  refine h.moves [] ?_ ?_
  · rintro k ⟨⟩
  · rw [hnaming]
    rintro _ ⟨⟩

theorem Sound.receiver_begins {b' : ReadPoint} (h : Sound log m a b id) (hbegin : mayBegin .receiver b') :
    Sound (log ++ []) m a b' id := by
  cases b' <;> simp only [mayBegin] at hbegin
  exact h.receiver_out rfl rfl rfl

end Steps

/-! ## All runs -/

/-- The threads, with what has been seen of them. -/
structure Watched (slot : ClientIx) (log : List ReadSign) (w : ReadThreads) : Prop where
  guarded : w.Guarded (readProgram slot) fun t p _ => hasReadMutex t p
  sound : ∃ id, Sound log w.memory (w.point .caller) (w.point .receiver) id
  rest : ∀ e, w.point .rest = .aside e → mayBegin .rest (.aside e)
  returns : BorneOut Returns log

section Runs

variable {slot : ClientIx} {w w' : ReadThreads} {log os : List ReadSign}

/-- While a reply is compared nobody else takes the mutex. -/
theorem Watched.compared_none (h : Watched slot log w) (hfree : w.owner () = none) :
    (w.point .receiver).compared = none := by
  by_contra hcompared
  have hholds : hasReadMutex .receiver (w.point .receiver) := by
    generalize w.point .receiver = b at hcompared ⊢
    cases b <;> trivial
  have hrunning : w.mode .receiver = .running := by
    refine h.guarded.running ?_
    intro m p q hwait
    generalize w.point .receiver = b at hwait
    cases b <;> cases hwait
  have howner := (h.guarded.owner .receiver ()).mpr ⟨hholds, by rw [hrunning]; exact id⟩
  rw [hfree] at howner
  cases howner

/-- An instruction that leaves the memory alone. -/
theorem Watched.leads (h : Watched slot log w) {t : ReadThread} {p : ReadPoint}
    (hlead : (readProgram slot t (w.point t)).leadsTo p)
    (hfree : t = .caller → (w.point .caller).naming = true → w.owner () = none) :
    (∃ id, Sound (log ++ []) w.memory (Function.update w.point t p .caller) (Function.update w.point t p .receiver) id) ∧
      ∀ e, Function.update w.point t p .rest = .aside e → mayBegin .rest (.aside e) := by
  obtain ⟨id, hsound⟩ := h.sound
  cases t with
  | caller =>
    rw [Function.update_self, Function.update_of_ne (by decide), Function.update_of_ne (by decide)]
    exact ⟨⟨id, hsound.caller_leads hlead fun hnaming => h.compared_none (hfree rfl hnaming)⟩, h.rest⟩
  | receiver =>
    rw [Function.update_self, Function.update_of_ne (by decide), Function.update_of_ne (by decide)]
    exact ⟨⟨id, hsound.receiver_leads hlead⟩, h.rest⟩
  | rest =>
    generalize w.point .rest = p at hlead
    cases p <;> cases hlead

theorem Watched.acts (h : Watched slot log w) {t : ReadThread} {f : ReadMemory → ReadMemory × ReadPoint × List ReadSign}
    (hinstr : readProgram slot t (w.point t) = .act f) :
    ((∃ id, Sound (log ++ (f w.memory).2.2) (f w.memory).1 (Function.update w.point t (f w.memory).2.1 .caller)
        (Function.update w.point t (f w.memory).2.1 .receiver) id) ∧
      ∀ e, Function.update w.point t (f w.memory).2.1 .rest = .aside e → mayBegin .rest (.aside e)) ∧
      BorneOut Returns (log ++ (f w.memory).2.2) := by
  obtain ⟨id, hsound⟩ := h.sound
  cases t with
  | caller =>
    rw [Function.update_self, Function.update_of_ne (by decide), Function.update_of_ne (by decide)]
    exact ⟨⟨hsound.caller_acts hinstr, h.rest⟩, hsound.caller_returns hinstr h.returns⟩
  | receiver =>
    rw [Function.update_self, Function.update_of_ne (by decide), Function.update_of_ne (by decide)]
    exact ⟨⟨⟨id, hsound.receiver_acts hinstr⟩, h.rest⟩, receiver_returns hinstr h.returns⟩
  | rest =>
    rw [Function.update_self, Function.update_of_ne (by decide), Function.update_of_ne (by decide)]
    cases hp : w.point .rest <;> rw [hp] at hinstr <;> cases hinstr
    rename_i e
    refine ⟨⟨⟨id, hsound.aside (h.rest e hp)⟩, ?_⟩, aside_returns slot w.memory e h.returns⟩
    rintro e' ⟨⟩

theorem Watched.begins (h : Watched slot log w) {t : ReadThread} {p : ReadPoint}
    (hidle : readProgram slot t (w.point t) = .idle) (hbegin : mayBegin t p) :
    (∃ id, Sound (log ++ []) w.memory (Function.update w.point t p .caller) (Function.update w.point t p .receiver) id) ∧
      ∀ e, Function.update w.point t p .rest = .aside e → mayBegin .rest (.aside e) := by
  obtain ⟨id, hsound⟩ := h.sound
  cases t with
  | caller =>
    rw [Function.update_self, Function.update_of_ne (by decide), Function.update_of_ne (by decide)]
    exact ⟨⟨id, hsound.caller_begins hidle hbegin⟩, h.rest⟩
  | receiver =>
    rw [Function.update_self, Function.update_of_ne (by decide), Function.update_of_ne (by decide)]
    exact ⟨⟨id, hsound.receiver_begins hbegin⟩, h.rest⟩
  | rest =>
    rw [Function.update_self, Function.update_of_ne (by decide), Function.update_of_ne (by decide)]
    refine ⟨⟨id, ?_⟩, ?_⟩
    · rw [List.append_nil]
      exact hsound
    · rintro e rfl
      exact hbegin

/-- **One step of a thread.** -/
theorem Watched.move (h : Watched slot log w) (hmove : Move (readProgram slot) mayBegin w w' os) :
    Watched slot (log ++ os) w' := by
  have hguarded := h.guarded.move (readProgram_bracketed slot) hmove
  have hquiet : BorneOut Returns (log ++ []) := h.returns.append fun o ho => by cases ho
  have hsame : ∃ id, Sound (log ++ []) w.memory (w.point .caller) (w.point .receiver) id := by
    rw [List.append_nil]
    exact h.sound
  -- Only a lock takes the call away from the points behind its store to `read_id`.
  have hnolock : ∀ {t : ReadThread}, (∀ m p, readProgram slot t (w.point t) ≠ .lock m p) →
      (∀ f, readProgram slot t (w.point t) ≠ .act f) → t = .caller → (w.point .caller).naming = true →
      w.owner () = none := by
    rintro t hlock hact rfl hnaming
    generalize w.point .caller = a at *
    cases a <;> cases hnaming
    · exact absurd rfl (hact _)
    · exact absurd rfl (hact _)
    · exact absurd rfl (hlock _ _)
  cases hmove with
  | stay => exact ⟨hguarded, hsame, h.rest, hquiet⟩
  | @act t f hmode hinstr =>
    obtain ⟨⟨hsound, hrest⟩, hreturns⟩ := h.acts hinstr
    exact ⟨hguarded, hsound, hrest, hreturns⟩
  | @lock t m p hmode hinstr hfree =>
    obtain ⟨hsound, hrest⟩ := h.leads (by rw [hinstr]; rfl) fun _ _ => hfree
    exact ⟨hguarded, hsound, hrest, hquiet⟩
  | @unlock t m p hmode hinstr =>
    obtain ⟨hsound, hrest⟩ := h.leads (by rw [hinstr]; rfl) (hnolock (by simp [hinstr]) (by simp [hinstr]))
    exact ⟨hguarded, hsound, hrest, hquiet⟩
  | @signal t m p hmode hinstr hnobody =>
    obtain ⟨hsound, hrest⟩ := h.leads (by rw [hinstr]; rfl) (hnolock (by simp [hinstr]) (by simp [hinstr]))
    exact ⟨hguarded, hsound, hrest, hquiet⟩
  | @wait t m p q hmode hinstr => exact ⟨hguarded, hsame, h.rest, hquiet⟩
  | @wake t u m p hmode hinstr hasleep =>
    obtain ⟨hsound, hrest⟩ := h.leads (by rw [hinstr]; rfl) (hnolock (by simp [hinstr]) (by simp [hinstr]))
    exact ⟨hguarded, hsound, hrest, hquiet⟩
  | @leave t m late hasleep => exact ⟨hguarded, hsame, h.rest, hquiet⟩
  | @resume t m n late p q hmode hinstr hfree =>
    have hlead : (readProgram slot t (w.point t)).leadsTo (if late then q else p) := by
      rw [hinstr]
      cases late with
      | false => exact .inl rfl
      | true => exact .inr rfl
    obtain ⟨hsound, hrest⟩ := h.leads hlead fun _ _ => hfree
    exact ⟨hguarded, hsound, hrest, hquiet⟩
  | @call t p hinstr hentry =>
    obtain ⟨hsound, hrest⟩ := h.begins hinstr hentry
    exact ⟨hguarded, hsound, hrest, hquiet⟩

theorem Exchange.threads_watched {st : Exchange} (hstart : st.Start) (hreplies : ∀ q ∈ st.replies, q.header.msg ≠ .read) :
    Watched slot [] st.threads := by
  refine ⟨st.threads_guarded, ⟨st.client.readId, hstart.fits, ?_, ?_, ?_, ?_, ?_, ?_, ?_⟩, ?_, borneOut_nil⟩
  · intro p hp
    have hnone : st.threads.memory.requests = [] := hstart.requests
    rw [hnone] at hp
    cases hp
  · exact fun q hq hread => absurd hread (hreplies q hq)
  · rintro k ⟨⟩
  · rintro p ⟨⟩
  · rintro p n ⟨⟩
  · rintro p n ⟨⟩
  · rintro p n ⟨⟩
  · rintro e ⟨⟩

/-- **A call returns one reply, whole.** However the threads take turns, a call that succeeds returns the first bytes of
what the server held at one moment: of the one reply that was taken since the call began. -/
theorem call_returns_one_reply (st : Exchange) (hstart : st.Start) (hreplies : ∀ q ∈ st.replies, q.header.msg ≠ .read)
    (cs : List (Choice ReadThread ReadPoint))
    (hcs : Along (threadStep (readProgram slot)) (Threads.allows (readProgram slot) mayBegin) st.threads cs) :
    BorneOut Returns (run (threadStep (readProgram slot)) st.threads cs).2 := by
  have hwatched : Watched slot [] st.threads := st.threads_watched hstart hreplies
  exact (run_history (fun _ _ _ h hc => Watched.move h (threadStep_move hc)) cs st.threads [] hwatched hcs).returns

end Runs

/-- The return values and bytes of the calls that have returned. -/
def returned (log : List ReadSign) : List (Int × List UInt8) :=
  log.filterMap fun
    | .returned ret _ bytes => some (ret, bytes)
    | _ => none

theorem readable_start : readable.Start := by
  refine ⟨rfl, rfl, ?_⟩
  intro e
  revert e
  decide +kernel

/-- The call wakes up, and copies the reply. -/
def wokenCall : List (Choice ReadThread ReadPoint) :=
  sleepingCall ++ [.wake .receiver .caller, .run .receiver, .resume .caller] ++ List.replicate 5 (.run .caller)

theorem wokenCall_whole : returned (run (threadStep (readProgram 0)) readable.threads wokenCall).2 = [(0, [1])] ∧
    BorneOut Returns (run (threadStep (readProgram 0)) readable.threads wokenCall).2 :=
  ⟨by decide +kernel, call_returns_one_reply readable readable_start (fun q hq => by cases hq) wokenCall
    (by decide +kernel)⟩

/-- A server that holds 1 for `aaaaaaaabbbbbbbb`, and nothing else. -/
def mixed : Exchange :=
  { readable with
    server := (run act (serverCreate []) [.accept (some (3, ⟨1, 2⟩)),
      .packet .calm 0 (Packet.make (Msg.write.code ||| typeForce)
        (idstr (List.replicate 8 97 ++ List.replicate 8 98)) [1])]).1 }

/-- A call that waits in vain. -/
def expiredCall (cid : List UInt8) : List (Choice ReadThread ReadPoint) :=
  .call .caller (.entered ⟨cid, 0, 8⟩ .calm) :: List.replicate 9 (.run .caller) ++
    [.expire .caller, .resume .caller, .run .caller, .run .caller]

/-- Two reads time out, and the reply to the first arrives while the third stores its words. -/
def mixedCall : List (Choice ReadThread ReadPoint) :=
  expiredCall (List.replicate 8 97 ++ List.replicate 8 98) ++ [.call .rest (.aside (.serve .calm)), .run .rest] ++
    expiredCall (List.replicate 8 97) ++
    [.call .caller (.entered ⟨List.replicate 8 99 ++ List.replicate 8 98, 0, 8⟩ .calm), .run .caller,
      .call .receiver (.next .calm [])] ++ List.replicate 4 (.run .receiver) ++ List.replicate 5 (.run .caller) ++
    List.replicate 9 (.run .receiver) ++ List.replicate 7 (.run .caller)

/-- It is taken for `ccccccccbbbbbbbb`: its first word was that of the variable read before. -/
example : returned (run (threadStep (readProgram 0)) mixed.threads mixedCall).2 = [(-110, []), (-110, []), (0, [1])] := by
  decide +kernel

end SyncScribe
