import SyncScribe.Server.Handler
import SyncScribe.Server.Table

/-!
What a `syncs_server_write` does that is larger than the array of its event. The
`memcpy` goes on over the fields behind `data`, which are the type, the counters and
the consumers of the event, and then over the slots behind it. `Event.image` is an
event as its bytes in memory, `copyPast` what the copy makes of the table, and
`memoryAct` the machine of `act` in which such a write does what the memory says.
Behind the 4095 bytes that `syncs_send_event` has for a payload, behind the last slot,
and where a pointer is overwritten by an address that is none of a client, the run is
`lost`; and it is not followed further than to the first such write. As long as every
accepted write fits the array, the two machines are the same (`run_memoryAct`).
-/

namespace SyncScribe
open Lib Lib.Bytes Lib.Slots

/-! ## The bytes of an event -/

/-! The offsets in `struct syncs_event` and its size, with 64-bit pointers and their alignment. -/

def dataAt : Nat := 32
def dataTypeAt : Nat := 544
def dataSizeAt : Nat := 548
def countAt : Nat := 552
def updateCounterAt : Nat := 560
def consumersCountAt : Nat := 568
def producersCountAt : Nat := 572
def consumersAt : Nat := 576
def producerAt : Nat := 1088
def cbAt : Nat := 1096
def argsAt : Nat := 1104
def eventSize : Nat := 1112

/-- The addresses of the slots of the clients. -/
abbrev Places := ClientIx → UInt64

/-- `NULL`, or the address of a slot. -/
def Places.address (place : Places) : Option ClientIx → Nat
  | none => 0
  | some c => (place c).toNat

/-- The slot that a pointer means, if it means one or is `NULL`. -/
def Places.slot (place : Places) (v : Nat) : Option (Option ClientIx) :=
  if v = 0 then some none else (first fun c => (place c).toNat == v).map some

/-- The array `consumers`. -/
def Places.addresses (place : Places) (consumers : Fin clientMaximum → Option ClientIx) : List UInt8 :=
  (List.finRange clientMaximum).flatMap fun i => leBytes 8 (place.address (consumers i))

def Event.fields (place : Places) (ev : Event) : List (Nat × List UInt8) :=
  [(0, ev.id.bytes), (dataAt, read ev.data variableSizeMaximum), (dataTypeAt, leBytes 4 ev.dataType.toNat),
    (dataSizeAt, leBytes 4 ev.dataSize.toNat), (countAt, leBytes 4 ev.count.toNat),
    (updateCounterAt, leBytes 8 ev.updateCounter.toNat), (consumersCountAt, leBytes 4 ev.consumersCount.toNat),
    (producersCountAt, leBytes 4 ev.producersCount.toNat), (consumersAt, place.addresses ev.consumers),
    (producerAt, leBytes 8 (place.address ev.producer)), (cbAt, leBytes 8 (ev.cb.getD 0)), (argsAt, leBytes 8 ev.args)]

/-- An event in memory. -/
def Event.image (place : Places) (ev : Event) : List UInt8 :=
  stores (List.replicate eventSize 0) (ev.fields place)

def wordAt (b : List UInt8) (off n : Nat) : Nat := leVal (slice b off n)

/-- The event that lies in memory; none when one of its pointers is wild. -/
def Event.ofImage (place : Places) (b : List UInt8) : Option Event :=
  match place.slot (wordAt b producerAt 8) with
  | none => none
  | some producer =>
    if ∀ i : Fin clientMaximum, (place.slot (wordAt b (consumersAt + 8 * i) 8)).isSome then
      some
        { id := .ofBytes (slice b 0 32)
          data := slice b dataAt variableSizeMaximum
          dataType := UInt32.ofNat (wordAt b dataTypeAt 4)
          dataSize := UInt32.ofNat (wordAt b dataSizeAt 4)
          count := UInt32.ofNat (wordAt b countAt 4)
          updateCounter := UInt64.ofNat (wordAt b updateCounterAt 8)
          consumersCount := UInt32.ofNat (wordAt b consumersCountAt 4)
          producersCount := UInt32.ofNat (wordAt b producersCountAt 4)
          consumers := fun i => (place.slot (wordAt b (consumersAt + 8 * i) 8)).getD none
          producer := producer
          cb := if wordAt b cbAt 8 = 0 then none else some (wordAt b cbAt 8)
          args := wordAt b argsAt 8 }
    else none

/-! ## The copy -/

/-- What is left of an event when the bytes are stored from the offset on, as far as they reach it. -/
def Event.overwritten (place : Places) (ev : Event) (off : Nat) (bytes : List UInt8) : Option Event :=
  if bytes = [] then some ev else Event.ofImage place (write (ev.image place) off (bytes.take (eventSize - off)))

/-- What a copy to `data` of the slot `e` makes of the slot `i`. -/
def Server.spilled (place : Places) (s : Server) (e : EventIx) (bytes : List UInt8) (i : EventIx) : Option Event :=
  if i < e ∨ dataAt + bytes.length ≤ eventSize * (i - e) then some (s.events i)
  else if i = e then (s.events i).overwritten place dataAt bytes
  else (s.events i).overwritten place 0 (bytes.drop (eventSize * (i - e) - dataAt))

/-- `memcpy` to `data` of the slot `e`, whatever the number of bytes. -/
def copyPast (place : Places) (s : Server) (e : EventIx) (bytes : List UInt8) : Option Server :=
  if dataAt + bytes.length ≤ eventSize * (eventMaximum - e) ∧ ∀ i, (s.spilled place e bytes i).isSome then
    some { s with events := fun i => (s.spilled place e bytes i).getD (s.events i) }
  else none

/-- The memory from `data` of the slot `e` on. -/
def memoryFrom (place : Places) (s : Server) (e : EventIx) : List UInt8 :=
  ((s.events e).image place).drop dataAt ++
    ((List.finRange eventMaximum).filter (e < ·)).flatMap fun i => (s.events i).image place

/-- What is known of the memory of the server. -/
inductive ServerMemory
  | whole (s : Server)
  /-- right behind a copy past the array of its event -/
  | overrun (s : Server)
  | lost

/-- The server that a copy past an array has left. -/
def ServerMemory.spoilt : ServerMemory → Option Server
  | .overrun s => some s
  | .whole _ | .lost => none

theorem ServerMemory.spoilt_iff {m : ServerMemory} {s : Server} : m.spoilt = some s ↔ m = .overrun s := by
  cases m <;> simp [spoilt]

/-- The stores of `syncs_server_write` behind its `memcpy`. -/
def serverWriteEnd (ev : Event) (dataSize : UInt32) : Event :=
  { ev with
    dataSize := dataSize
    producer := none
    producersCount := if ev.producer = none then ev.producersCount else ev.producersCount + 1 }

/-- `syncs_server_write` of more bytes than the array of the event has. -/
def serverWritePast (place : Places) (env : Env) (s : Server) (flags : UInt32) (cid data : List UInt8)
    (dataSize : UInt32) : ServerMemory × List Out :=
  match openEvent s (idstr cid) flags 0 with
  | .error _ => (.whole s, [])
  | .ok (s, e) =>
    if (serverWriteSize flags dataSize).toNat ≤ eventDataSizeMaximum then
      match copyPast place s e (read data (serverWriteSize flags dataSize).toNat) with
      | none => (.lost, [])
      | some s =>
        let ev := serverWriteEnd (s.events e) (serverWriteSize flags dataSize)
        let s := s.setEvent e ev
        let p := eventPacket env s { ev with data := memoryFrom place s e } flags
        let r := sendEventLoop env ev flags p (List.finRange clientMaximum) s
        (.overrun r.1, r.2)
    else (.lost, [])

/-- One act of the server on its memory. -/
def memoryAct (place : Places) : ServerMemory → Act → ServerMemory × List Out
  | .whole s, .serverWrite env flags cid data dataSize =>
    if (serverWriteSize flags dataSize).toNat ≤ variableSizeMaximum then
      (.whole (act s (.serverWrite env flags cid data dataSize)).1, (act s (.serverWrite env flags cid data dataSize)).2)
    else serverWritePast place env s flags cid data dataSize
  | .whole s, a => (.whole (act s a).1, (act s a).2)
  | .overrun _, _ | .lost, _ => (.lost, [])

/-! ## Copies within the array -/

/-- The address of a client is its own, and not `NULL`. -/
structure Places.Apart (place : Places) : Prop where
  injective : ∀ c c', place c = place c' → c = c'
  nonzero : ∀ c, place c ≠ 0

/-- An event that memory can hold: its value has the array for it, and its opaque pointers are pointers. -/
structure Event.Storable (ev : Event) : Prop where
  memory : ev.data.length = variableSizeMaximum
  cb : ∀ v, ev.cb = some v → 0 < v ∧ v < 2 ^ 64
  args : ev.args < 2 ^ 64

section Within

variable {place : Places} {ev : Event} {s : Server} {e : EventIx} {bytes : List UInt8}

theorem Places.address_lt (place : Places) (x : Option ClientIx) : place.address x < 256 ^ 8 := by
  cases x with
  | none => exact Nat.pos_of_ne_zero (by decide)
  | some c => exact (place c).toNat_lt

/-- A pointer means what it was made from. -/
theorem Places.Apart.slot_address (h : place.Apart) (x : Option ClientIx) : place.slot (place.address x) = some x := by
  cases x with
  | none => rfl
  | some c =>
    have hne : (place c).toNat ≠ 0 := by
      intro hz
      exact h.nonzero c (UInt64.toNat_inj.mp hz)
    have hfirst : (first fun c' => (place c').toNat == (place c).toNat) = some c := by
      cases hf : first fun c' => (place c').toNat == (place c).toNat with
      | none =>
        have hnot := first_eq_none.mp hf c
        simp at hnot
      | some c' =>
        have heq := first_some hf
        rw [beq_iff_eq] at heq
        rw [h.injective c' c (UInt64.toNat_inj.mp heq)]
    rw [slot, address, if_neg hne, hfirst, Option.map_some]

theorem Places.length_addresses (place : Places) (consumers : Fin clientMaximum → Option ClientIx) :
    (place.addresses consumers).length = 512 := by
  have hsizes : (List.finRange clientMaximum).map (fun i => (leBytes 8 (place.address (consumers i))).length) =
      List.replicate clientMaximum 8 := by
    simp only [length_leBytes, List.map_const', List.length_finRange]
  rw [addresses, List.length_flatMap, hsizes]
  rfl

theorem Places.slice_addresses (place : Places) (consumers : Fin clientMaximum → Option ClientIx)
    (i : Fin clientMaximum) :
    slice (place.addresses consumers) (8 * i) 8 = leBytes 8 (place.address (consumers i)) :=
  slice_flatMap (fun i => leBytes 8 (place.address (consumers i))) (fun _ => length_leBytes _ _) _ (by simp)

/-- The fields lie one behind the other. -/
theorem Event.fields_apart (place : Places) (ev : Event) :
    (ev.fields place).Pairwise fun f g => f.1 + f.2.length ≤ g.1 := by
  have hsizes : (ev.fields place).map (fun f => (f.1, f.2.length)) =
      [(0, 32), (dataAt, 511), (dataTypeAt, 4), (dataSizeAt, 4), (countAt, 4), (updateCounterAt, 8),
        (consumersCountAt, 4), (producersCountAt, 4), (consumersAt, 512), (producerAt, 8), (cbAt, 8), (argsAt, 8)] := by
    simp only [Event.fields, List.map_cons, List.map_nil, length_leBytes, Id.length_bytes, length_read,
      Places.length_addresses]
    rfl
  have happart : ((ev.fields place).map fun f => (f.1, f.2.length)).Pairwise fun f g => f.1 + f.2 ≤ g.1 := by
    rw [hsizes]
    decide
  exact List.pairwise_map.mp happart

/-- The fields of an event are in memory where they belong. -/
def Event.LiesIn (place : Places) (ev : Event) (b : List UInt8) : Prop :=
  ∀ f ∈ ev.fields place, slice b f.1 f.2.length = f.2

theorem Event.liesIn_image (place : Places) (ev : Event) : ev.LiesIn place (ev.image place) :=
  fun _ hf => slice_stores _ (ev.fields_apart place) hf

theorem Places.leVal_address (place : Places) (x : Option ClientIx) :
    leVal (leBytes 8 (place.address x)) = place.address x :=
  leVal_leBytes_of_lt (place.address_lt x)

/-- **An event that memory can hold** is what its bytes say. -/
theorem Event.LiesIn.ofImage {b : List UInt8} (h : ev.LiesIn place b) (hplace : place.Apart) (hev : ev.Storable) :
    Event.ofImage place b = some ev := by
  have hfield : ∀ {off n : Nat} {bytes : List UInt8}, (off, bytes) ∈ ev.fields place → bytes.length = n →
      slice b off n = bytes := by
    rintro off n bytes hf rfl
    exact h _ hf
  have hword : ∀ {off n v : Nat}, (off, leBytes n v) ∈ ev.fields place → v < 256 ^ n →
      wordAt b off n = v := by
    intro off n v hf hv
    rw [wordAt, hfield hf (length_leBytes n v), leVal_leBytes_of_lt hv]
  have hid : slice b 0 32 = ev.id.bytes := hfield (by simp [Event.fields]) ev.id.length_bytes
  have hdata : slice b dataAt variableSizeMaximum = ev.data := by
    have hread : slice b dataAt variableSizeMaximum = read ev.data variableSizeMaximum :=
      hfield (by simp [Event.fields]) (length_read _ _)
    rw [hread, ← hev.memory, read_length_self]
  have hproducer : wordAt b producerAt 8 = place.address ev.producer :=
    hword (by simp [Event.fields]) (place.address_lt _)
  have hconsumer : ∀ i : Fin clientMaximum,
      wordAt b (consumersAt + 8 * i) 8 = place.address (ev.consumers i) := by
    intro i
    have hall : slice b consumersAt 512 = place.addresses ev.consumers :=
      hfield (by simp [Event.fields]) (place.length_addresses _)
    have hi := i.isLt
    simp only [clientMaximum] at hi
    rw [wordAt, ← slice_slice _ consumersAt (n := 512) (by omega), hall, place.slice_addresses, place.leVal_address]
  have hcb : wordAt b cbAt 8 = ev.cb.getD 0 := by
    refine hword (by simp [Event.fields]) ?_
    cases hc : ev.cb with
    | none => exact Nat.pos_of_ne_zero (by decide)
    | some v => exact (hev.cb v hc).2
  have hcall : (if ev.cb.getD 0 = 0 then none else some (ev.cb.getD 0)) = ev.cb := by
    cases hc : ev.cb with
    | none => rfl
    | some v => exact if_neg (Nat.ne_of_gt (hev.cb v hc).1)
  have hargs : wordAt b argsAt 8 = ev.args := hword (by simp [Event.fields]) hev.args
  have h32 : ∀ (off : Nat) (v : UInt32), (off, leBytes 4 v.toNat) ∈ ev.fields place →
      UInt32.ofNat (wordAt b off 4) = v := by
    intro off v hf
    rw [hword hf v.toNat_lt, UInt32.ofNat_toNat]
  have h64 : UInt64.ofNat (wordAt b updateCounterAt 8) = ev.updateCounter := by
    rw [hword (by simp [Event.fields]) ev.updateCounter.toNat_lt, UInt64.ofNat_toNat]
  have hslots : ∀ i : Fin clientMaximum, place.slot (wordAt b (consumersAt + 8 * i) 8) = some (ev.consumers i) := by
    intro i
    rw [hconsumer, hplace.slot_address]
  have hbytes : Id.ofBytes ev.id.bytes = ev.id := by
    have hmore := ev.id.ofBytes_bytes []
    rwa [List.append_nil] at hmore
  simp only [Event.ofImage, hproducer, hplace.slot_address, hslots, Option.isSome_some, implies_true, ↓reduceIte, hid,
    hbytes,
    hdata, hcb, hcall, hargs, h64, Option.getD_some, h32 dataTypeAt ev.dataType (by simp [Event.fields]),
    h32 dataSizeAt ev.dataSize (by simp [Event.fields]), h32 countAt ev.count (by simp [Event.fields]),
    h32 consumersCountAt ev.consumersCount (by simp [Event.fields]),
    h32 producersCountAt ev.producersCount (by simp [Event.fields])]

/-- The value is behind the identifier and before everything else. -/
theorem Event.field_cases (place : Places) (ev : Event) {f : Nat × List UInt8} (hf : f ∈ ev.fields place) :
    f = (dataAt, read ev.data variableSizeMaximum) ∨
      ((f.1 + f.2.length ≤ dataAt ∨ dataTypeAt ≤ f.1) ∧
        ∀ data, f ∈ Event.fields place { ev with data := data }) := by
  simp only [Event.fields, List.mem_cons, List.not_mem_nil, or_false] at hf
  rcases hf with rfl | rfl | rfl | rfl | rfl | rfl | rfl | rfl | rfl | rfl | rfl | rfl
  case inl => exact Or.inr ⟨Or.inl (by simp [dataAt]), fun data => by simp [Event.fields]⟩
  case inr.inl => exact Or.inl rfl
  all_goals exact Or.inr ⟨Or.inr (Nat.le_of_ble_eq_true rfl), fun data => by simp [Event.fields]⟩

/-- A store to the value changes the value. -/
theorem Event.liesIn_write (place : Places) (ev : Event) (hmem : ev.data.length = variableSizeMaximum)
    (hbytes : bytes.length ≤ variableSizeMaximum) :
    Event.LiesIn place { ev with data := write ev.data 0 bytes } (write (ev.image place) dataAt bytes) := by
  have hlies := ev.liesIn_image place
  intro f hf
  rcases Event.field_cases place _ hf with rfl | ⟨haside, hkept⟩
  · have hold : slice (ev.image place) dataAt variableSizeMaximum = ev.data := by
      have hfield := hlies (dataAt, read ev.data variableSizeMaximum) (by simp [Event.fields])
      simp only [length_read] at hfield
      rw [hfield, ← hmem, read_length_self]
    have hnew : read (write ev.data 0 bytes) variableSizeMaximum =
        slice (write ev.data 0 bytes) 0 variableSizeMaximum := by
      rw [slice_zero]
    simp only [length_read]
    rw [hnew]
    refine slice_congr fun i hi => ?_
    have hsame : (ev.image place).getD (dataAt + i) 0 = ev.data.getD i 0 := by
      rw [← hold, getD_slice, if_pos hi]
    rw [getD_write, getD_write, Nat.zero_add, hsame]
    by_cases hlt : i < bytes.length
    · rw [if_pos (by omega), if_pos (by omega), Nat.add_sub_cancel_left, Nat.sub_zero]
    · rw [if_neg (by omega), if_neg (by omega)]
  · have hdisjoint : f.1 + f.2.length ≤ dataAt ∨ dataAt + bytes.length ≤ f.1 := by
      refine haside.imp_right fun hbehind => ?_
      simp only [dataAt, dataTypeAt, variableSizeMaximum] at *
      omega
    rw [slice_write_of_disjoint _ _ _ hdisjoint]
    exact hlies f (hkept ev.data)

/-- **A copy within the array** is the store that `serverWrite` makes of it. -/
theorem copyPast_within (hplace : place.Apart) (hev : (s.events e).Storable)
    (hbytes : bytes.length ≤ variableSizeMaximum) :
    copyPast place s e bytes =
      some (s.setEvent e { s.events e with data := write (s.events e).data 0 bytes }) := by
  have hself : (s.events e).overwritten place dataAt bytes =
      some { s.events e with data := write (s.events e).data 0 bytes } := by
    unfold Event.overwritten
    split
    · rename_i hnil
      rw [hnil, write_nil (Nat.zero_le _)]
    · have htake : bytes.take (eventSize - dataAt) = bytes := by
        refine List.take_of_length_le (le_trans hbytes ?_)
        decide
      rw [htake]
      refine ((s.events e).liesIn_write place hev.memory hbytes).ofImage hplace ⟨?_, hev.cb, hev.args⟩
      rw [length_write_of_le (by rw [hev.memory]; omega), hev.memory]
  have hspilled : ∀ i, s.spilled place e bytes i =
      some (Function.update s.events e { s.events e with data := write (s.events e).data 0 bytes } i) := by
    intro i
    unfold Server.spilled
    by_cases hie : i = e
    · subst hie
      have hreached : ¬ (i < i ∨ dataAt + bytes.length ≤ eventSize * ((i : Nat) - i)) := by
        rw [Nat.sub_self, Nat.mul_zero]
        simp [dataAt]
      rw [if_neg hreached, if_pos rfl, hself, Function.update_self]
    · rw [Function.update_of_ne hie]
      refine if_pos (or_iff_not_imp_left.mpr fun hlt => ?_)
      have hsub : 1 ≤ (i : Nat) - e := by
        have hne := Fin.val_ne_of_ne hie
        have hle : ¬ (i : Nat) < e := hlt
        omega
      have hmul := Nat.mul_le_mul_left eventSize hsub
      simp only [variableSizeMaximum, eventSize, dataAt] at hbytes hmul ⊢
      omega
  unfold copyPast
  rw [if_pos]
  · simp only [hspilled, Option.getD_some]
    rfl
  · refine ⟨?_, fun i => by rw [hspilled]; rfl⟩
    have hsub : 1 ≤ eventMaximum - (e : Nat) := Nat.sub_pos_of_lt e.isLt
    have hmul := Nat.mul_le_mul_left eventSize hsub
    simp only [variableSizeMaximum, eventSize, dataAt] at hbytes hmul ⊢
    omega

end Within

/-! ## Runs within the arrays -/

/-- `syncs_server_write` accepts when it finds the event or may and can create it. -/
def serverWriteOpens (s : Server) (flags : UInt32) (cid : List UInt8) : Prop :=
  findEvent s (idstr cid) ≠ none ∨ (flags &&& typeForce ≠ 0 ∧ ∃ e, (s.events e).live = false)

/-- An accepted `syncs_server_write` brings no more than the array holds. -/
def Act.inArray (s : Server) : Act → Prop
  | .serverWrite _ flags cid _ size =>
    serverWriteOpens s flags cid → (serverWriteSize flags size).toNat ≤ variableSizeMaximum
  | _ => True

/-- The same, on the memory. -/
def ServerMemory.InArray (m : ServerMemory) (a : Act) : Prop := ∀ s, m = .whole s → a.inArray s

section Runs

variable {place : Places} {env : Env} {s : Server} {flags : UInt32} {cid : List UInt8}

theorem serverWriteOpens_iff :
    serverWriteOpens s flags cid ↔ ∃ s' e, openEvent s (idstr cid) flags 0 = .ok (s', e) := by
  constructor
  · intro h
    cases ho : openEvent s (idstr cid) flags 0 with
    | ok r => exact ⟨r.1, r.2, rfl⟩
    | error r =>
      obtain ⟨_, hn, hwhy⟩ := openEvent_error ho
      rcases h with hf | ⟨hforce, e, he⟩
      · exact absurd hn hf
      · rcases hwhy with hz | hall
        · exact absurd hz hforce
        · have hlive := Event.live_iff.mpr (hall e)
          rw [he] at hlive
          cases hlive
  · rintro ⟨s', e, ho⟩
    rcases openEvent_ok ho with ⟨hf, _⟩ | ⟨_, hforce, hfree, _⟩
    · exact Or.inl (by simp [hf])
    · exact Or.inr ⟨hforce, e, by rw [Bool.eq_false_iff]; exact fun hl => hfree (Event.live_iff.mp hl)⟩

/-- An act that stays in the arrays is the act of the model without memory. -/
theorem memoryAct_inArray (a : Act) (ha : a.inArray s) :
    memoryAct place (.whole s) a = (.whole (act s a).1, (act s a).2) := by
  cases a with
  | serverWrite env flags cid data size =>
    simp only [memoryAct]
    split
    · rfl
    · rename_i hlong
      cases ho : openEvent s (idstr cid) flags 0 with
      | ok r => exact absurd (ha (serverWriteOpens_iff.mpr ⟨r.1, r.2, ho⟩)) hlong
      | error r => simp only [serverWritePast, act, serverWrite, ho]
  | _ => rfl

/-- **A run within the arrays** is a run of the model without memory. -/
theorem run_memoryAct (as : List Act) (h : Along (memoryAct place) ServerMemory.InArray (.whole s) as) :
    run (memoryAct place) (.whole s) as = (.whole (run act s as).1, (run act s as).2) := by
  induction as generalizing s with
  | nil => rfl
  | cons a as ih =>
    have hhead : memoryAct place (.whole s) a = (.whole (act s a).1, (act s a).2) := memoryAct_inArray a (h.1 s rfl)
    have htail := h.2
    rw [hhead] at htail
    simp only [run, hhead, ih htail]

/-- Every beginning of it is. -/
theorem memory_before {pre post : List Act}
    (h : Along (memoryAct place) ServerMemory.InArray (.whole s) (pre ++ post)) :
    (run (memoryAct place) (.whole s) pre).1 = .whole (run act s pre).1 := by
  rw [run_memoryAct pre ((along_append _ _ _).mp h).1]

/-- What holds throughout it holds throughout the run of the model without memory. -/
theorem throughout_memoryAct {P : Server → Prop} (as : List Act)
    (h : Along (memoryAct place) ServerMemory.InArray (.whole s) as)
    (hP : Throughout (memoryAct place) (fun m => ∃ s, m = .whole s ∧ P s) (.whole s) as) : Throughout act P s as := by
  rintro pre post rfl
  obtain ⟨s', hs', hp⟩ := hP pre post rfl
  rw [memory_before h] at hs'
  cases hs'
  exact hp

end Runs

end SyncScribe
