import SyncScribe.Client.Machine
import SyncScribe.Lib.Heap

/-!
The memory behind the pointers of `struct syncs_connect`. `event->data` holds a buffer of
the library after `syncs_subscribe_event_sync` and one of the application after
`syncs_subscribe_event_sync_user`, and the size of the latter is kept beside it. Nothing
tells the two apart afterwards, and nothing looks at the size: a received value is copied
whole, a new subscription and `syncs_disconnect` free what they find.
-/

namespace SyncScribe
open Lib Lib.Bytes Lib.Slots

/-! ## Pointers -/

/-- The pointers of the library that lead to memory of its own or of the application. -/
inductive Cell
  /-- `events[e].data` -/
  | event (e : EventIx)
  /-- `events_info`, `clients_info`, `channels_info` -/
  | list (l : ListName)
  /-- what `syncs_connect` returned -/
  | connect
  deriving DecidableEq

/-- A buffer of the application is known by its `user_data_size`. -/
abbrev Buffer := Pointer UInt32

/-- What the library does to memory. -/
inductive MemoryOp
  | malloc
  /-- `memcpy` of `n` bytes to `p` -/
  | copy (p : Buffer) (n : Nat)
  | free (p : Buffer)

/-- A client with the buffers its pointers lead to; `closed` once `syncs_disconnect` has freed it. -/
structure Holdings where
  client : Connect
  cells : Cell → Option Buffer
  heap : Heap
  closed : Bool

/-- `syncs_connect` -/
def holdingsCreate (cid addr : List UInt8) : Holdings where
  client := connectCreate cid addr
  cells := Function.update (fun _ => none) .connect (some (.own 0))
  heap := ⟨1, []⟩
  closed := false

namespace Holdings

variable (st : Holdings)

/-- `if (x != NULL) free(x)`, after which `x` is overwritten. -/
def release (k : Cell) : Holdings × List MemoryOp :=
  match st.cells k with
  | some p => ({ st with cells := Function.update st.cells k none, heap := st.heap.free p }, [.free p])
  | none => (st, [])

/-- The buffer of the application, or `NULL`, put in place of what was freed. -/
def put (k : Cell) (p : Option UInt32) : Holdings :=
  { st with cells := Function.update st.cells k (p.map .foreign) }

/-- The allocation of the entries of a list, if there are none yet. -/
def allocList (l : ListName) : Holdings × List MemoryOp :=
  match st.cells (.list l) with
  | some _ => (st, [])
  | none =>
    ({ st with
      cells := Function.update st.cells (.list l) (some (.own st.heap.next)), heap := st.heap.malloc }, [.malloc])

/-- The pointers in `syncs_subscribe_event_sync_user`. -/
def subscribeSyncUser (cid : List UInt8) (userData : Option (List UInt8)) (userDataSize : UInt32) :
    Holdings × List MemoryOp :=
  match st.client.getEventStr cid with
  | none => (st, [])
  | some e =>
    let r := st.release (.event e)
    (r.1.put (.event e) (userData.map fun _ => userDataSize), r.2)

/-- The pointers in `syncs_subscribe_event_sync`; the buffer is allocated first, and not at all without a slot. -/
def subscribeSync (cid : List UInt8) (eventData : Option (List UInt8)) : Holdings × List MemoryOp :=
  match st.client.getEventStr cid with
  | none => (st, [])
  | some e =>
    match eventData with
    | none => st.release (.event e)
    | some _ =>
      let r := { st with heap := st.heap.malloc }.release (.event e)
      ({ r.1 with cells := Function.update r.1.cells (.event e) (some (.own st.heap.next)) }, .malloc :: r.2)

/-- The copy in `syncs_process_event`. -/
def processEvent (p : Packet) : List MemoryOp :=
  match st.client.findEvent p.header.id with
  | none => []
  | some e =>
    match st.cells (.event e) with
    | some q => [.copy q p.header.dataSize.toNat]
    | none => []

/-- The pointers in an act of the client. -/
def act : ClientAct → Holdings × List MemoryOp
  | .subscribeSyncUser _ _ cid userData userDataSize => st.subscribeSyncUser cid userData userDataSize
  | .subscribeSync _ _ cid eventData => st.subscribeSync cid eventData
  | .packet _ p => (st, if p.header.msg = .event then st.processEvent p else [])
  | .requestList _ l => st.allocList l
  | .freeList l => st.release (.list l)
  | _ => (st, [])

/-- The pointers of a list of cells, freed one after the other. -/
def releaseAll (st : Holdings) : List Cell → Holdings × List MemoryOp
  | [] => (st, [])
  | k :: ks => ((releaseAll (st.release k).1 ks).1, (st.release k).2 ++ (releaseAll (st.release k).1 ks).2)

/-- The cells in the order of `syncs_disconnect`: the lists, `syncs_event_data_release`, then the structure. -/
def disconnectCells : List Cell :=
  [.list .clients, .list .events, .list .channels] ++ (List.finRange eventMaximum).map .event ++ [.connect]

end Holdings

/-- A call of the library, or a packet that its receive thread processes. -/
inductive HoldingsAct
  | act (a : ClientAct)
  | disconnect

/-- One act; after `syncs_disconnect` there is nothing left to act on. -/
def holdingsStep (st : Holdings) : HoldingsAct → Holdings × List MemoryOp
  | .act a =>
    if st.closed then (st, [])
    else ({ (st.act a).1 with client := (clientAct st.client a).1 }, (st.act a).2)
  | .disconnect =>
    if st.closed then (st, [])
    else
      let r := st.releaseAll Holdings.disconnectCells
      ({ r.1 with closed := true }, r.2)

/-! ## What is asked of the operations -/

/-- The operation keeps to the memory it is given: of a buffer of the application it writes as many bytes as were
given at most, and it frees none; of its own it uses, and frees, only what is not freed. -/
def MemoryOp.Respects (h : Heap) : MemoryOp → Prop
  | .malloc => True
  | .copy (.foreign size) n => n ≤ size.toNat
  | .copy (.own k) _ => h.Owns k
  | .free p => h.MayFree p

/-- The heap after an operation. -/
def MemoryOp.after (h : Heap) : MemoryOp → Heap
  | .malloc => h.malloc
  | .copy _ _ => h
  | .free p => h.free p

/-- The operations of a step, one after the other. -/
def Respectful : Heap → List MemoryOp → Prop
  | _, [] => True
  | h, op :: ops => op.Respects h ∧ Respectful (op.after h) ops

instance (h : Heap) : (op : MemoryOp) → Decidable (op.Respects h)
  | .malloc => inferInstanceAs (Decidable True)
  | .copy (.foreign size) n => inferInstanceAs (Decidable (n ≤ size.toNat))
  | .copy (.own k) _ => inferInstanceAs (Decidable (h.Owns k))
  | .free p => inferInstanceAs (Decidable (h.MayFree p))

instance decidableRespectful : (h : Heap) → (ops : List MemoryOp) → Decidable (Respectful h ops)
  | _, [] => inferInstanceAs (Decidable True)
  | h, op :: ops =>
    have := decidableRespectful (op.after h) ops
    inferInstanceAs (Decidable (op.Respects h ∧ Respectful (op.after h) ops))

/-- No value is received that is longer than the buffer of the application it is copied to, no subscription for
values takes a slot with such a buffer, and none is left at the disconnect. -/
def HoldingsAct.spares (st : Holdings) (a : HoldingsAct) : Prop :=
  st.closed = false →
    match a with
    | .act (.packet _ p) => p.header.msg = .event → ∀ e size, st.client.findEvent p.header.id = some e →
        st.cells (.event e) = some (.foreign size) → p.header.dataSize.toNat ≤ size.toNat
    | .act (.subscribeSync _ _ cid _) | .act (.subscribeSyncUser _ _ cid _ _) =>
      ∀ e size, st.client.getEventStr cid = some e → st.cells (.event e) ≠ some (.foreign size)
    | .disconnect => ∀ e size, st.cells (.event e) ≠ some (.foreign size)
    | .act _ => True

section Steps

variable {st : Holdings} {k : Cell} {h : Heap} {ops ops' : List MemoryOp} {cid : List UInt8}

/-- The heap after the operations of a step. -/
def heapAfter (h : Heap) (ops : List MemoryOp) : Heap := ops.foldl MemoryOp.after h

theorem respectful_append : Respectful h (ops ++ ops') ↔ Respectful h ops ∧ Respectful (heapAfter h ops) ops' := by
  induction ops generalizing h with
  | nil => simp only [List.nil_append, Respectful, heapAfter, List.foldl_nil, true_and]
  | cons op ops ih =>
    rw [List.cons_append, Respectful, ih, Respectful, and_assoc]
    rfl

/-- What holds of the pointers between the acts: allocations are held once, and only events hold buffers of the
application. -/
structure Holdings.Kept (st : Holdings) : Prop where
  held : Held st.heap st.cells
  foreign : ∀ k size, st.cells k = some (.foreign size) → ∃ e, k = .event e

theorem foreign_update {cells : Cell → Option Buffer} {p : Option Buffer}
    (hc : ∀ k size, cells k = some (.foreign size) → ∃ e, k = .event e)
    (hp : ∀ size, p = some (.foreign size) → ∃ e, k = .event e) (j : Cell) (size : UInt32)
    (hj : Function.update cells k p j = some (.foreign size)) : ∃ e, j = .event e := by
  by_cases hjk : j = k
  · rw [hjk, Function.update_self] at hj
    rw [hjk]
    exact hp size hj
  · rw [Function.update_of_ne hjk] at hj
    exact hc j size hj

/-! ## Freeing -/

theorem release_cells (st : Holdings) (k : Cell) : (st.release k).1.cells = Function.update st.cells k none := by
  unfold Holdings.release
  split
  · rfl
  · rename_i hn
    rw [← hn, Function.update_eq_self]

theorem release_heap (st : Holdings) (k : Cell) : heapAfter st.heap (st.release k).2 = (st.release k).1.heap := by
  unfold Holdings.release
  split <;> rfl

theorem Holdings.Kept.release (hk : st.Kept) (k : Cell) : (st.release k).1.Kept := by
  refine ⟨?_, ?_⟩
  · unfold Holdings.release
    split
    · rename_i p hp
      exact hk.held.free hp
    · exact hk.held
  · intro j size hj
    rw [release_cells] at hj
    exact foreign_update hk.foreign (fun _ he => by cases he) j size hj

/-- **A pointer may be freed** exactly when it is not one of the application. -/
theorem Holdings.Kept.release_respectful (hk : st.Kept) (k : Cell) :
    Respectful st.heap (st.release k).2 ↔ ∀ size, st.cells k ≠ some (.foreign size) := by
  unfold Holdings.release
  split
  · rename_i p hp
    simp only [Respectful, MemoryOp.Respects, and_true, hk.held.mayFree_iff hp, hp, ne_eq, Option.some.injEq]
  · rename_i hn
    simp only [Respectful, hn, ne_eq, reduceCtorEq, not_false_eq_true, implies_true]

theorem Holdings.Kept.releaseAll (hk : st.Kept) (ks : List Cell) :
    (st.releaseAll ks).1.Kept ∧
      (Respectful st.heap (st.releaseAll ks).2 ↔ ∀ k ∈ ks, ∀ size, st.cells k ≠ some (.foreign size)) := by
  induction ks generalizing st with
  | nil => exact ⟨hk, by simp [Holdings.releaseAll, Respectful]⟩
  | cons k ks ih =>
    obtain ⟨hkept, hiff⟩ := ih (hk.release k)
    refine ⟨hkept, ?_⟩
    rw [Holdings.releaseAll, respectful_append, release_heap, hiff, hk.release_respectful k, release_cells,
      List.forall_mem_cons]
    refine and_congr_right fun hfirst => forall₂_congr fun j _ => ?_
    by_cases hjk : j = k
    · rw [hjk, Function.update_self]
      exact iff_of_true (fun _ he => by cases he) hfirst
    · rw [Function.update_of_ne hjk]

/-! ## Acts -/

theorem Holdings.Kept.client (hk : st.Kept) (c : Connect) : Holdings.Kept { st with client := c } :=
  ⟨hk.held, hk.foreign⟩

theorem Holdings.Kept.close (hk : st.Kept) : Holdings.Kept { st with closed := true } := ⟨hk.held, hk.foreign⟩

theorem Holdings.Kept.put (hk : st.Kept) (e : EventIx) (p : Option UInt32) : (st.put (.event e) p).Kept := by
  refine ⟨hk.held.put _ fun n => ?_, fun j size hj => foreign_update hk.foreign (fun _ _ => ⟨e, rfl⟩) j size hj⟩
  cases p <;> simp

/-- A new allocation takes the place of the old one, freed in between. -/
theorem Holdings.Kept.renew (hk : st.Kept) (k : Cell) :
    Holdings.Kept
      { ({ st with heap := st.heap.malloc }.release k).1 with
        cells := Function.update ({ st with heap := st.heap.malloc }.release k).1.cells k (some (.own st.heap.next)) } := by
  refine ⟨?_, ?_⟩
  · unfold Holdings.release
    simp only
    split
    · rename_i p hp
      have hnew := (hk.held.free hp).putNew k
      rw [free_next, ← free_malloc] at hnew
      exact hnew
    · exact hk.held.putNew k
  · intro j size hj
    refine foreign_update ?_ (fun _ he => by cases he) j size hj
    intro i size' hi
    rw [release_cells] at hi
    exact foreign_update hk.foreign (fun _ he => by cases he) i size' hi

theorem Holdings.Kept.allocList (hk : st.Kept) (l : ListName) :
    (st.allocList l).1.Kept ∧ Respectful st.heap (st.allocList l).2 := by
  unfold Holdings.allocList
  split
  · exact ⟨hk, trivial⟩
  · exact ⟨⟨hk.held.putNew _, fun j size hj => foreign_update hk.foreign (fun _ he => by cases he) j size hj⟩,
      trivial, trivial⟩

/-- The slot a subscription takes. -/
theorem spared_iff {e : EventIx} (he : st.client.getEventStr cid = some e) :
    (∀ size, st.cells (.event e) ≠ some (.foreign size)) ↔
      ∀ e size, st.client.getEventStr cid = some e → st.cells (.event e) ≠ some (.foreign size) := by
  constructor
  · intro hall e' size he'
    rw [he] at he'
    cases he'
    exact hall size
  · intro hall size
    exact hall e size he

theorem Holdings.Kept.subscribeSyncUser (hk : st.Kept) (cid : List UInt8) (userData : Option (List UInt8))
    (size : UInt32) :
    (st.subscribeSyncUser cid userData size).1.Kept ∧
      (Respectful st.heap (st.subscribeSyncUser cid userData size).2 ↔
        ∀ e size, st.client.getEventStr cid = some e → st.cells (.event e) ≠ some (.foreign size)) := by
  unfold Holdings.subscribeSyncUser
  split
  · rename_i hn
    exact ⟨hk, iff_of_true trivial fun e _ he => by rw [hn] at he; cases he⟩
  · rename_i e he
    exact ⟨(hk.release (.event e)).put e _, (hk.release_respectful (.event e)).trans (spared_iff he)⟩

theorem Holdings.Kept.subscribeSync (hk : st.Kept) (cid : List UInt8) (eventData : Option (List UInt8)) :
    (st.subscribeSync cid eventData).1.Kept ∧
      (Respectful st.heap (st.subscribeSync cid eventData).2 ↔
        ∀ e size, st.client.getEventStr cid = some e → st.cells (.event e) ≠ some (.foreign size)) := by
  unfold Holdings.subscribeSync
  split
  · rename_i hn
    exact ⟨hk, iff_of_true trivial fun e _ he => by rw [hn] at he; cases he⟩
  · rename_i e he
    split
    · exact ⟨hk.release (.event e), (hk.release_respectful (.event e)).trans (spared_iff he)⟩
    · have hmalloc : Holdings.Kept { st with heap := st.heap.malloc } := ⟨hk.held.malloc, hk.foreign⟩
      refine ⟨hk.renew (.event e), ?_⟩
      have hfree := (hmalloc.release_respectful (.event e)).trans (spared_iff he)
      simpa only [Respectful, MemoryOp.Respects, MemoryOp.after, true_and] using hfree

theorem Holdings.Kept.processEvent (hk : st.Kept) (p : Packet) :
    Respectful st.heap (st.processEvent p) ↔
      ∀ e size, st.client.findEvent p.header.id = some e → st.cells (.event e) = some (.foreign size) →
        p.header.dataSize.toNat ≤ size.toNat := by
  unfold Holdings.processEvent
  split
  · rename_i hn
    exact iff_of_true trivial fun e _ he => by rw [hn] at he; cases he
  · rename_i e he
    split
    · rename_i q hq
      cases q with
      | foreign size =>
        simp only [Respectful, MemoryOp.Respects, and_true]
        constructor
        · intro hle e' size' he' hcell
          rw [he] at he'
          cases he'
          rw [hq] at hcell
          cases hcell
          exact hle
        · intro hall
          exact hall e size he hq
      | own n =>
        refine iff_of_true ⟨hk.held.owns _ n hq, trivial⟩ ?_
        intro e' size he' hcell
        rw [he] at he'
        cases he'
        rw [hq] at hcell
        cases hcell
    · rename_i hq
      refine iff_of_true trivial ?_
      intro e' size he' hcell
      rw [he] at he'
      cases he'
      rw [hq] at hcell
      cases hcell

theorem mem_disconnectCells (e : EventIx) : .event e ∈ Holdings.disconnectCells := by
  have hevents : Cell.event e ∈ (List.finRange eventMaximum).map Cell.event :=
    List.mem_map_of_mem (List.mem_finRange e)
  rw [Holdings.disconnectCells, List.mem_append, List.mem_append]
  exact Or.inl (Or.inr hevents)

/-- **One act** respects the memory it finds exactly when it spares the buffers of the application. -/
theorem Holdings.Kept.step (hk : st.Kept) (a : HoldingsAct) :
    (holdingsStep st a).1.Kept ∧ (Respectful st.heap (holdingsStep st a).2 ↔ a.spares st) := by
  by_cases hclosed : st.closed = true
  · have hstep : holdingsStep st a = (st, []) := by
      cases a <;> simp only [holdingsStep, hclosed, ↓reduceIte]
    rw [hstep]
    exact ⟨hk, iff_of_true trivial fun hopen => by rw [hclosed] at hopen; cases hopen⟩
  · have hopen : st.closed = false := by simpa using hclosed
    cases a with
    | disconnect =>
      obtain ⟨hkept, hiff⟩ := hk.releaseAll Holdings.disconnectCells
      simp only [holdingsStep, hopen, Bool.false_eq_true, ↓reduceIte, HoldingsAct.spares, true_implies]
      refine ⟨hkept.close, hiff.trans ?_⟩
      constructor
      · intro hall e
        exact hall _ (mem_disconnectCells e)
      · intro hall k _ size hcell
        obtain ⟨e, rfl⟩ := hk.foreign k size hcell
        exact hall e size hcell
    | act a =>
      simp only [holdingsStep, hopen, Bool.false_eq_true, ↓reduceIte, HoldingsAct.spares, true_implies]
      cases a with
      | subscribeSyncUser env flags cid userData size =>
        obtain ⟨hkept, hiff⟩ := hk.subscribeSyncUser cid userData size
        exact ⟨hkept.client _, hiff⟩
      | subscribeSync env flags cid eventData =>
        obtain ⟨hkept, hiff⟩ := hk.subscribeSync cid eventData
        exact ⟨hkept.client _, hiff⟩
      | packet env p =>
        refine ⟨hk.client _, ?_⟩
        simp only [Holdings.act]
        by_cases hm : p.header.msg = .event
        · rw [if_pos hm, hk.processEvent p]
          exact ⟨fun hall _ => hall, fun hall => hall hm⟩
        · rw [if_neg hm]
          exact iff_of_true trivial fun he => absurd he hm
      | requestList env l =>
        obtain ⟨hkept, hrespects⟩ := hk.allocList l
        exact ⟨hkept.client _, iff_of_true hrespects trivial⟩
      | freeList l =>
        refine ⟨(hk.release (.list l)).client _, iff_of_true ?_ trivial⟩
        refine (hk.release_respectful (.list l)).mpr fun size hcell => ?_
        obtain ⟨e, he⟩ := hk.foreign _ size hcell
        cases he
      | _ => exact ⟨hk.client _, iff_of_true trivial trivial⟩

end Steps

/-! ## The pointers are those of the client -/

/-- The pointer is not `NULL`. -/
def Connect.holds (s : Connect) : Cell → Bool
  | .event e => (s.events e).data.isSome
  | .list l => (s.lists l).info.isSome
  | .connect => true

theorem clientAct_holds {s : Connect} {a : ClientAct} (hs : a.subscribes = false) (hl : a.lists = false) :
    (clientAct s a).1.holds = s.holds := by
  obtain ⟨hevents, hlists, _⟩ := clientAct_frame hs hl
  funext k
  cases k with
  | event e => rw [Connect.holds, Connect.holds, hevents]
  | list l => rw [Connect.holds, Connect.holds, hlists]
  | connect => rfl

theorem setEvent_holds (s : Connect) (e : EventIx) (ev : ClientEvent) :
    (s.setEvent e ev).holds = Function.update s.holds (.event e) ev.data.isSome := by
  funext k
  cases k with
  | event e' =>
    by_cases he : e' = e
    · subst he
      simp only [Connect.holds, Connect.setEvent, Function.update_self]
    · simp only [Connect.holds, Connect.setEvent, Function.update_of_ne he,
        Function.update_of_ne (fun h : Cell.event e' = .event e => he (Cell.event.inj h))]
  | list l => rfl
  | connect => rfl

theorem setList_holds (s : Connect) (l : ListName) (b : ListBuffer) :
    (s.setList l b).holds = Function.update s.holds (.list l) b.info.isSome := by
  funext k
  cases k with
  | event e => rfl
  | list l' =>
    by_cases hl : l' = l
    · subst hl
      simp only [Connect.holds, Connect.setList, Function.update_self]
    · simp only [Connect.holds, Connect.setList, Function.update_of_ne hl,
        Function.update_of_ne (fun h : Cell.list l' = .list l => hl (Cell.list.inj h))]
  | connect => rfl

/-- A slot that keeps its pointer. -/
theorem setEvent_holds_same {s : Connect} {e : EventIx} {ev : ClientEvent}
    (h : ev.data.isSome = (s.events e).data.isSome) : (s.setEvent e ev).holds = s.holds := by
  rw [setEvent_holds, h]
  exact Function.update_eq_self (Cell.event e) s.holds

theorem setList_holds_same {s : Connect} {l : ListName} {b : ListBuffer}
    (h : b.info.isSome = (s.lists l).info.isSome) : (s.setList l b).holds = s.holds := by
  rw [setList_holds, h]
  exact Function.update_eq_self (Cell.list l) s.holds

theorem processPacket_holds (env : ClientEnv) (s : Connect) (p : Packet) :
    (processPacket env s p).1.holds = s.holds := by
  have hlist : ∀ l, (processList s l p).holds = s.holds := by
    intro l
    refine setList_holds_same ?_
    unfold ListBuffer.accept
    split
    · rfl
    · rename_i info hinfo
      split
      · rfl
      · split
        · rfl
        · rw [hinfo]
          rfl
  unfold processPacket
  split
  · unfold processEvent
    split
    · rfl
    · rename_i e _
      dsimp only
      split
      · rename_i mem hmem
        exact setEvent_holds_same (by rw [hmem]; rfl)
      · rename_i hmem
        exact setEvent_holds_same (by rw [hmem])
  · rw [channelProcessPacket_frame]
    rfl
  · rw [processError_frame]
    rfl
  · rw [processRead_frame]
    rfl
  · exact hlist .events
  · exact hlist .clients
  · exact hlist .channels
  · rfl

/-- As long as it is there, the client has the pointers the buffers are known by. -/
def Holdings.Linked (st : Holdings) : Prop :=
  st.closed = false → Option.isSome ∘ st.cells = st.client.holds

section Linked

variable {st : Holdings}

theorem comp_release (st : Holdings) (k : Cell) :
    Option.isSome ∘ (st.release k).1.cells = Function.update (Option.isSome ∘ st.cells) k false := by
  rw [release_cells, Function.comp_update]
  rfl

/-- The acts of the client and of its buffers set the same pointers. -/
theorem act_holds (st : Holdings) (hl : Option.isSome ∘ st.cells = st.client.holds) (a : ClientAct) :
    Option.isSome ∘ (st.act a).1.cells = (clientAct st.client a).1.holds := by
  cases a with
  | subscribe env flags cid cb args =>
    simp only [Holdings.act, clientAct, subscribeEvent]
    cases st.client.getEventStr cid with
    | none => exact hl
    | some e =>
      simp only [Option.map_some, Connect.call?, subscribeSlot]
      rw [setEvent_holds_same]
      · exact hl
      · rfl
  | subscribeSync env flags cid eventData =>
    simp only [Holdings.act, Holdings.subscribeSync, clientAct, subscribeEventSync]
    cases st.client.getEventStr cid with
    | none => exact hl
    | some e =>
      simp only [Option.map_some, Connect.call?, subscribeSlot, setEvent_holds]
      cases eventData with
      | none => rw [comp_release, hl, Option.isSome_none]
      | some mem =>
        rw [Function.comp_update, comp_release, Function.update_idem, hl]
        rfl
  | subscribeSyncUser env flags cid userData size =>
    simp only [Holdings.act, Holdings.subscribeSyncUser, clientAct, subscribeEventSyncUser]
    cases st.client.getEventStr cid with
    | none => exact hl
    | some e =>
      simp only [Option.map_some, Connect.call?, subscribeSlot, setEvent_holds, Holdings.put]
      rw [Function.comp_update, comp_release, Function.update_idem, hl, Option.isSome_map, Option.isSome_map]
  | unsubscribe env cid =>
    simp only [Holdings.act, clientAct, Connect.call?, unsubscribeEvent]
    split
    · dsimp only
      rw [setEvent_holds_same]
      · exact hl
      · rfl
    · exact hl
  | requestList env l =>
    have halloc : Option.isSome ∘ (st.allocList l).1.cells = Function.update st.client.holds (.list l) true := by
      unfold Holdings.allocList
      rw [← hl]
      split
      · rename_i p hp
        rw [← Function.update_eq_self (Cell.list l) (Option.isSome ∘ st.cells), Function.comp_apply, hp,
          Function.update_idem]
        rfl
      · rw [Function.comp_update]
        rfl
    simp only [Holdings.act, clientAct, SyncScribe.requestList]
    split <;> (dsimp only; rw [halloc, setList_holds]; rfl)
  | requestListEnd inetAddr l =>
    refine hl.trans (setList_holds_same ?_).symm
    cases l with
    | channels => exact Option.isSome_map
    | events => rfl
    | clients => rfl
  | freeList l =>
    simp only [Holdings.act, clientAct, SyncScribe.freeList]
    rw [comp_release, hl, setList_holds]
    rfl
  | packet env p => exact hl.trans (processPacket_holds env st.client p).symm
  | write | define | undefine | read | waitEvent | channelAnons | channelRequest | sockets | sendId =>
    exact hl.trans (Eq.symm (clientAct_holds rfl rfl))

theorem Holdings.Linked.step (h : st.Linked) (a : HoldingsAct) : (holdingsStep st a).1.Linked := by
  by_cases hclosed : st.closed = true
  · cases a <;> simpa only [holdingsStep, hclosed, ↓reduceIte] using h
  · have hopen : st.closed = false := by simpa using hclosed
    cases a with
    | disconnect =>
      simp only [holdingsStep, hopen, Bool.false_eq_true, ↓reduceIte]
      intro hfalse
      cases hfalse
    | act a =>
      simp only [holdingsStep, hopen, Bool.false_eq_true, ↓reduceIte]
      intro _
      exact act_holds st (h hopen) a

end Linked

/-- **The buffers are those of the client's pointers** after every run. -/
theorem holdings_linked (cid addr : List UInt8) (as : List HoldingsAct) :
    (run holdingsStep (holdingsCreate cid addr) as).1.Linked := by
  have hstep : ∀ (st : Holdings) a, st.Linked → (holdingsStep st a).1.Linked := fun _ a h => h.step a
  refine run_inductive hstep as _ ?_
  intro _
  funext k
  cases k <;> rfl

/-! ## Runs -/

theorem holdingsCreate_kept (cid addr : List UInt8) : (holdingsCreate cid addr).Kept := by
  refine ⟨held_empty.putNew Cell.connect, ?_⟩
  intro k size hk
  change Function.update (fun _ => none) Cell.connect (some (Pointer.own 0)) k = some (Pointer.foreign size) at hk
  by_cases hconnect : k = .connect
  · rw [hconnect, Function.update_self] at hk
    cases hk
  · rw [Function.update_of_ne hconnect] at hk
    cases hk

/-- **The memory of the application is respected** exactly as long as the application and the server spare it: the
library writes what a packet carries to a buffer of the application and frees the buffer later, whatever it is. -/
theorem buffers_respected_iff (cid addr : List UInt8) (as : List HoldingsAct) :
    Along holdingsStep (fun st a => Respectful st.heap (holdingsStep st a).2) (holdingsCreate cid addr) as ↔
      Along holdingsStep (fun st a => a.spares st) (holdingsCreate cid addr) as := by
  have hstep : ∀ (st : Holdings) a, st.Kept → (holdingsStep st a).1.Kept := fun _ a hk => (hk.step a).1
  exact along_iff_of_invariant hstep (fun _ a hk => (hk.step a).2) as _ (holdingsCreate_kept cid addr)

/-- A subscription with a buffer of four bytes. -/
def fourBytes : HoldingsAct := .act (.subscribeSyncUser .calm 0 [97] (some [0, 0, 0, 0]) 4)

/-- An event with eight bytes, and the disconnect. -/
def eightBytes : HoldingsAct :=
  .act (.packet .calm (Packet.make Msg.event.code (idstr [97]) [1, 2, 3, 4, 5, 6, 7, 8]))

/-- The event is written past the end of the buffer, and the disconnect frees it. -/
theorem buffers_not_respected :
    ¬ Along holdingsStep (fun st a => Respectful st.heap (holdingsStep st a).2) (holdingsCreate [] [])
        [fourBytes, eightBytes] ∧
      ¬ Along holdingsStep (fun st a => Respectful st.heap (holdingsStep st a).2) (holdingsCreate [] [])
        [fourBytes, .disconnect] := by
  constructor
  · rintro ⟨_, hcopy, _⟩
    revert hcopy
    decide +kernel
  · rintro ⟨_, hfree, _⟩
    revert hfree
    decide +kernel

end SyncScribe
