import SyncScribe.Client.Requests
import SyncScribe.Server.Table
import Mathlib.Data.List.TakeWhile

/-!
The event table of the client. Subscribing calls look a name up with
`syncs_idcmp_str`, unsubscribing ones with `syncs_idcmp` on `syncs_idstr` of the
name; on names of at most 31 bytes that do not start with the free mark the two
agree (`idcmpStr_idstr`), and the table is a set of identifiers.
-/

namespace SyncScribe
open Lib Lib.Bytes Lib.Slots Lib.Keyed

/-! ## Names -/

/-- The characters of a C string. -/
def cstr (b : List UInt8) : List UInt8 := b.takeWhile (· != 0)

/-- At most 31 bytes, and not eight times `0xff` at the start. -/
structure GoodName (cid : List UInt8) : Prop where
  length : (cstr cid).length ≤ 31
  mark : ¬ List.replicate 8 0xff <+: cid

theorem cstr_cons (x : UInt8) (b : List UInt8) : cstr (x :: b) = if x = 0 then [] else x :: cstr b := by
  by_cases h : x = 0 <;> simp [cstr, h]

theorem idstrLoop_eq (i : Nat) (b : List UInt8) : idstrLoop i b = (cstr b).take i := by
  induction i generalizing b with
  | zero => simp [idstrLoop]
  | succ i ih =>
    cases b with
    | nil => simp [idstrLoop, cstr]
    | cons x b =>
      rw [idstrLoop, ih, cstr_cons]
      by_cases h : x = 0 <;> simp [h]

theorem cstr_eq (b : List UInt8) : cstr b = if b.headD 0 = 0 then [] else b.headD 0 :: cstr b.tail := by
  cases b with
  | nil => simp [cstr]
  | cons x b => exact cstr_cons x b

/-- The loop compares one character more than its counter. -/
theorem idcmpStrLoop_iff (i : Nat) (s b : List UInt8) :
    idcmpStrLoop i s b = true ↔ (cstr s).take (i + 1) = (cstr b).take (i + 1) := by
  induction i generalizing s b with
  | zero =>
    rw [idcmpStrLoop, beq_iff_eq, cstr_eq s, cstr_eq b]
    generalize s.headD 0 = x
    generalize b.headD 0 = y
    by_cases hy : y = 0
    · by_cases hx : x = 0 <;> simp [hx, hy]
    · by_cases hx : x = 0 <;> simp [hx, hy, Ne.symm hy]
  | succ i ih =>
    have htail := ih s.tail b.tail
    rw [idcmpStrLoop, cstr_eq s, cstr_eq b]
    generalize s.headD 0 = x
    generalize b.headD 0 = y
    by_cases hy : y = 0
    · by_cases hx : x = 0 <;> simp [hx, hy]
    · by_cases hxy : x = y
      · simp [hxy, hy, htail]
      · by_cases hx : x = 0 <;> simp [hx, hy, hxy, Ne.symm hy]

/-- `syncs_idcmp_str` compares C strings. -/
theorem idcmpStr_iff (a : Id) {cid : List UInt8} (h : (cstr cid).length ≤ 31) :
    idcmpStr a cid = true ↔ cstr a.bytes = cstr cid := by
  have hlong : (cstr cid).take (31 + 1) = cstr cid := List.take_of_length_le (by omega)
  rw [idcmpStr, idcmpStrLoop_iff, hlong]
  constructor
  · intro heq
    have hlen := congrArg List.length heq
    rw [List.length_take] at hlen
    rwa [List.take_of_length_le (by omega)] at heq
  · intro heq
    rw [heq, hlong]

theorem cstr_append_zeros (b : List UInt8) (n : Nat) (h : cstr b = b) :
    cstr (b ++ List.replicate n 0) = b := by
  have hne : ∀ x ∈ b, (x != 0) = true := List.takeWhile_eq_self_iff.mp h
  rw [cstr, List.takeWhile_append_of_pos hne]
  cases n with
  | zero => simp
  | succ n => simp [List.replicate_succ]

/-- The first 31 characters are stored, with zeros behind them. -/
theorem cstr_bytes_idstr (cid : List UInt8) : cstr (idstr cid).bytes = (cstr cid).take 31 := by
  have hpos : ∀ x ∈ (cstr cid).take 31, (x != 0) = true := by
    intro x hx
    have hmem : x ∈ cid.takeWhile (· != 0) := List.mem_of_mem_take hx
    have hnonzero := List.mem_takeWhile_imp hmem
    exact hnonzero
  rw [idstr, Id.bytes_ofBytes, idstrLoop_eq, Lib.Bytes.read, List.take_append,
    List.take_of_length_le (by rw [List.length_take]; omega), List.take_replicate,
    cstr_append_zeros _ _ (List.takeWhile_eq_self_iff.mpr hpos)]

/-- A good name is stored as it is. -/
theorem cstr_idstr {cid : List UInt8} (h : GoodName cid) : cstr (idstr cid).bytes = cstr cid := by
  rw [cstr_bytes_idstr, List.take_of_length_le h.length]

/-- The first word of a free slot. -/
theorem mark_of_not_good {a : Id} (h : ¬ a.good) : List.replicate 8 0xff <+: cstr a.bytes := by
  have hi : a.i0 = freeMark := not_not.mp h
  have hmark : leBytes 8 freeMark.toNat = List.replicate 8 0xff := by decide
  have hpos : ∀ x ∈ List.replicate 8 (0xff : UInt8), (x != 0) = true := by
    intro x hx
    rw [List.eq_of_mem_replicate hx]
    decide
  rw [cstr, Id.bytes, hi, hmark, List.append_assoc, List.append_assoc, List.takeWhile_append_of_pos hpos]
  exact List.prefix_append _ _

theorem GoodName.good {cid : List UInt8} (h : GoodName cid) : (idstr cid).good := by
  by_contra hg
  have hpre := mark_of_not_good hg
  rw [cstr_idstr h] at hpre
  exact h.mark (hpre.trans (List.takeWhile_prefix _))

/-- **On good names the two comparisons agree.** -/
theorem idcmpStr_idstr {name cid : List UInt8} (hn : GoodName name) (hc : GoodName cid) :
    idcmpStr (idstr name) cid = true ↔ idstr name = idstr cid := by
  rw [idcmpStr_iff _ hc.length, cstr_idstr hn]
  constructor
  · intro h
    rw [idstr, idstr, idstrLoop_eq, idstrLoop_eq, h]
  · intro h
    rw [← cstr_idstr hn, h, cstr_idstr hc]

/-- A free slot matches no good name. -/
theorem idcmpStr_free {a : Id} (ha : ¬ a.good) {cid : List UInt8} (hc : GoodName cid) :
    idcmpStr a cid = false := by
  rw [Bool.eq_false_iff, ne_eq, idcmpStr_iff _ hc.length]
  intro h
  have hpre := mark_of_not_good ha
  rw [h] at hpre
  exact hc.mark (hpre.trans (List.takeWhile_prefix _))

/-! ## The table as a set -/

/-- What holds of the client's event table: no identifier twice, and all of them from good names. -/
structure ClientTable (t : EventIx → ClientEvent) : Prop where
  unique : Unique ClientEvent.id Id.good t
  named : ∀ e, (t e).id.good → ∃ name, GoodName name ∧ (t e).id = idstr name

/-- `id` is in the table. -/
def InTable (t : EventIx → ClientEvent) (id : Id) : Prop := ∃ e, (t e).id.good ∧ (t e).id = id

theorem ClientEvent.live_iff {e : ClientEvent} : e.live = true ↔ e.id.good := by
  simp [ClientEvent.live, Id.good]

theorem clientTable_init (cid addr : List UInt8) : ClientTable (connectCreate cid addr).events where
  unique := by
    intro i j h
    exact absurd h (Id.not_good_free _)
  named := by
    intro e h
    exact absurd h (Id.not_good_free _)

section Calls

variable {env : ClientEnv} {s : Connect} {flags : UInt32} {cid : List UInt8} {e : EventIx}

/-- The slot a subscribing call gets: that of its name, or a free one if there is none. -/
theorem getEventStr_some (h : ClientTable s.events) (hc : GoodName cid) (hs : s.getEventStr cid = some e) :
    (s.events e).id = idstr cid ∨ (¬ (s.events e).id.good ∧ ∀ i, (s.events i).id ≠ idstr cid) := by
  have hmatch : ∀ i, idcmpStr (s.events i).id cid = true ↔ (s.events i).id = idstr cid := by
    intro i
    by_cases hg : (s.events i).id.good
    · obtain ⟨name, hn, heq⟩ := h.named i hg
      rw [heq]
      exact idcmpStr_idstr hn hc
    · rw [idcmpStr_free hg hc]
      simp only [Bool.false_eq_true, false_iff]
      rintro heq
      rw [heq] at hg
      exact hg hc.good
  unfold Connect.getEventStr at hs
  split at hs
  · rename_i hnone
    have hfree := first_some hs
    refine Or.inr ⟨by simpa [Id.good] using hfree, ?_⟩
    intro i heq
    have hi := first_eq_none.mp hnone i
    rw [(hmatch i).mpr heq] at hi
    cases hi
  · rename_i e' hsome
    cases hs
    exact Or.inl ((hmatch e).mp (first_some hsome))

/-- Storing a name into the slot a subscribing call gets adds it to the set. -/
theorem ClientTable.subscribe (h : ClientTable s.events) (hc : GoodName cid) (hs : s.getEventStr cid = some e)
    {ev : ClientEvent} (hev : ev.id = idstr cid) :
    ClientTable (Function.update s.events e ev) ∧
      ∀ id, InTable (Function.update s.events e ev) id ↔ id = idstr cid ∨ InTable s.events id := by
  have hgood : ev.id.good := by
    rw [hev]
    exact hc.good
  have hold : ∀ i, (s.events i).id.good → i = e → (s.events i).id = idstr cid := by
    rintro i hi rfl
    rcases getEventStr_some h hc hs with heq | ⟨hfree, _⟩
    · exact heq
    · exact absurd hi hfree
  refine ⟨⟨?_, ?_⟩, ?_⟩
  · rcases getEventStr_some h hc hs with heq | ⟨_, hnew⟩
    · exact h.unique.update (hev.trans heq.symm)
    · exact h.unique.insert (by rw [hev]; exact hnew)
  · intro i hi
    by_cases hie : i = e
    · subst hie
      rw [Function.update_self]
      exact ⟨cid, hc, hev⟩
    · rw [Function.update_of_ne hie] at hi ⊢
      exact h.named i hi
  · intro id
    constructor
    · rintro ⟨i, hi, rfl⟩
      by_cases hie : i = e
      · subst hie
        rw [Function.update_self]
        exact Or.inl hev
      · rw [Function.update_of_ne hie] at hi ⊢
        exact Or.inr ⟨i, hi, rfl⟩
    · rintro (rfl | ⟨i, hi, rfl⟩)
      · exact ⟨e, by rw [Function.update_self]; exact hgood, by rw [Function.update_self]; exact hev⟩
      · by_cases hie : i = e
        · refine ⟨e, by rw [Function.update_self]; exact hgood, ?_⟩
          rw [Function.update_self, hev, hold i hi hie]
        · exact ⟨i, by rw [Function.update_of_ne hie]; exact hi, by rw [Function.update_of_ne hie]⟩

/-- Freeing the slot of a name takes it out of the set. -/
theorem ClientTable.unsubscribe (h : ClientTable s.events) (hg : (s.events e).id.good) :
    ClientTable (Function.update s.events e { s.events e with id := (s.events e).id.free }) ∧
      ∀ id, InTable (Function.update s.events e { s.events e with id := (s.events e).id.free }) id ↔
        id ≠ (s.events e).id ∧ InTable s.events id := by
  have hbad : ¬ (s.events e).id.free.good := Id.not_good_free _
  refine ⟨⟨h.unique.remove hbad, ?_⟩, ?_⟩
  · intro i hi
    by_cases hie : i = e
    · subst hie
      rw [Function.update_self] at hi
      exact absurd hi hbad
    · rw [Function.update_of_ne hie] at hi ⊢
      exact h.named i hi
  · intro id
    constructor
    · rintro ⟨i, hi, rfl⟩
      by_cases hie : i = e
      · subst hie
        rw [Function.update_self] at hi
        exact absurd hi hbad
      · rw [Function.update_of_ne hie] at hi ⊢
        exact ⟨fun heq => hie (h.unique i e hi heq), i, hi, rfl⟩
    · rintro ⟨hne, i, hi, rfl⟩
      have hie : i ≠ e := by
        rintro rfl
        exact hne rfl
      exact ⟨i, by rw [Function.update_of_ne hie]; exact hi, by rw [Function.update_of_ne hie]⟩

end Calls

end SyncScribe
