import SyncScribe.Server.WritePaths
import SyncScribe.Server.Bounds

/-!
Reading on the server (`syncs_server_read`), after a definition and after a write
of the server's own application. A write is read back whole. A definition checks its
size twice, against 511 in `syncs_server_define` and strictly between 1 and 511 in
`syncs_add_event`: a value of one byte or of 511 gets the size of its type instead.
-/

namespace SyncScribe
open Lib.Bytes Lib.Slots

/-- What `syncs_server_read` leaves: its return value, `*data_size` and the bytes copied to `data`. -/
structure ReadOut where
  ret : Int
  dataSize : UInt32
  bytes : List UInt8
  deriving DecidableEq

/-- `syncs_server_read` with `*data_size` as given. -/
def serverRead (s : Server) (cid : List UInt8) (dataSize : UInt32) : ReadOut :=
  match findEvent s (idstr cid) with
  | none => ⟨-1, dataSize, []⟩
  | some e =>
    let dataSize := if dataSize > (s.events e).dataSize then (s.events e).dataSize else dataSize
    ⟨0, dataSize, read (s.events e).data dataSize.toNat⟩

section Reads

variable {s s' : Server} {cid d : List UInt8} {flags size n : UInt32} {id : Id} {e : EventIx}
  {mem : Option (List UInt8)}

/-- A buffer with room for the whole value gets the whole value. -/
theorem serverRead_whole (hf : findEvent s (idstr cid) = some e) (hn : (s.events e).dataSize ≤ n) :
    serverRead s cid n =
      ⟨0, (s.events e).dataSize, read (s.events e).data (s.events e).dataSize.toNat⟩ := by
  have hmin : (if n > (s.events e).dataSize then (s.events e).dataSize else n) = (s.events e).dataSize := by
    split
    · rfl
    · exact UInt32.le_antisymm (UInt32.not_lt.mp ‹_›) hn
  simp only [serverRead, hf, hmin]

/-- An accepted definition leaves its stores in the event that a search finds. -/
theorem addEvent_found (h : (addEvent s id flags mem size).ret = 0) :
    ∃ e ev, findEvent (addEvent s id flags mem size).server id = some e ∧
      (addEvent s id flags mem size).server.events e = addEventStore ev flags mem size := by
  unfold addEvent at h ⊢
  cases hf : findEvent s id with
  | some e =>
    simp only [hf] at h ⊢
    split at h
    · cases h
    · rename_i hforce
      rw [if_neg hforce]
      refine ⟨e, s.events e, ?_, Server.setEvent_same _ _ _⟩
      rw [← hf]
      exact findEvent_update rfl rfl
  | none =>
    simp only [hf] at h ⊢
    cases hc : createEvent s id with
    | none =>
      rw [hc] at h
      cases h
    | some r =>
      obtain ⟨s', e⟩ := r
      simp only
      refine ⟨e, s'.events e, ?_, Server.setEvent_same _ _ _⟩
      have hfound : findEvent s' id = some e := by
        rw [(createEvent_some hc).2]
        exact findEvent_created hf
      rw [← hfound]
      exact findEvent_update rfl rfl

theorem addEventStore_size_of_inner (ev : Event) (h : 1 < size.toNat ∧ size.toNat < variableSizeMaximum) :
    (addEventStore ev flags mem size).dataSize = size := by
  simp only [addEventStore, if_pos h]

theorem addEventStore_size_of_edge (ev : Event) (h : ¬ (1 < size.toNat ∧ size.toNat < variableSizeMaximum)) :
    (addEventStore ev flags mem size).dataSize = getSizeByType flags := by
  simp only [addEventStore, if_neg h]

theorem addEventStore_bytes (ev : Event) :
    read (addEventStore ev flags (some d) size).data (addEventStore ev flags (some d) size).dataSize.toNat =
      read d (addEventStore ev flags (some d) size).dataSize.toNat :=
  read_write_read _ _ _

/-- The sizes of the types are not among those that a definition misses, 0 aside. -/
theorem getSizeByType_inner (type : UInt32) :
    getSizeByType type = 0 ∨ getSizeByType type = 4 ∨ getSizeByType type = 8 := by
  unfold getSizeByType
  split
  · exact Or.inr (Or.inl rfl)
  · split
    · exact Or.inr (Or.inr rfl)
    · exact Or.inl rfl

/-- **What was defined is read back** exactly when its size is from 2 to 510 bytes. -/
theorem serverRead_serverDefine_iff (s : Server) (cid d : List UInt8) (flags size : UInt32)
    (haccepted : (serverDefine s cid flags (some d) size).ret = 0) (hsize : 1 ≤ size.toNat) :
    (∀ n, size ≤ n → serverRead (serverDefine s cid flags (some d) size).server cid n = ⟨0, size, read d size.toNat⟩) ↔
      2 ≤ size.toNat ∧ size.toNat ≤ 510 := by
  have hadd := serverDefine_accepted haccepted
  rw [hadd] at haccepted ⊢
  obtain ⟨e, ev, hfound, hev⟩ := addEvent_found haccepted
  constructor
  · intro h
    by_contra hedge
    have houter : ¬ (1 < size.toNat ∧ size.toNat < variableSizeMaximum) := by
      simp only [variableSizeMaximum]
      omega
    -- a buffer as large as can be shows the size that was stored
    have hmax := h 4294967295 (by rw [UInt32.le_iff_toNat_le]; exact Nat.le_of_lt_succ size.toNat_lt)
    rw [serverRead_whole hfound (by rw [UInt32.le_iff_toNat_le]; exact Nat.le_of_lt_succ (UInt32.toNat_lt _)),
      hev, addEventStore_size_of_edge ev houter] at hmax
    have hstored : getSizeByType flags = size := congrArg ReadOut.dataSize hmax
    rcases getSizeByType_inner flags with h0 | h4 | h8
    · rw [← hstored, h0] at hsize
      exact absurd hsize (by decide)
    · rw [← hstored, h4] at hedge
      exact hedge (by decide)
    · rw [← hstored, h8] at hedge
      exact hedge (by decide)
  · intro hinner n hn
    have hsz : (addEventStore ev flags (some d) size).dataSize = size :=
      addEventStore_size_of_inner ev (by simp only [variableSizeMaximum]; omega)
    have hwhole := serverRead_whole (n := n) hfound (by rw [hev, hsz]; exact hn)
    rw [hev, addEventStore_bytes, hsz] at hwhole
    exact hwhole

theorem serverRead_serverDefine_hello :
    (∀ n, 5 ≤ n → serverRead (serverDefine (serverCreate [115]) [109] typeVarString (some [104, 101, 108, 108, 111])
        5).server [109] n = ⟨0, 5, read [104, 101, 108, 108, 111] 5⟩) ↔
      2 ≤ (5 : UInt32).toNat ∧ (5 : UInt32).toNat ≤ 510 :=
  serverRead_serverDefine_iff (serverCreate [115]) [109] [104, 101, 108, 108, 111] typeVarString 5 (by decide) (by decide)

/-- The string of one character which the shipped configuration defines is read back empty. -/
theorem serverRead_serverDefine_dash :
    ¬ ∀ (s : Server) (cid d : List UInt8) (flags size : UInt32),
      (serverDefine s cid flags (some d) size).ret = 0 → 1 ≤ size.toNat →
      ∀ n, size ≤ n →
        serverRead (serverDefine s cid flags (some d) size).server cid n = ⟨0, size, read d size.toNat⟩ := by
  intro h
  exact absurd (h (serverCreate [115]) [109, 101, 115, 115, 97, 103, 101] [45, 0] typeVarString 1 (by decide) (by decide)
    511 (by decide)) (by decide)

end Reads

end SyncScribe
