import SyncScribe.Server.Subscriptions
import SyncScribe.Server.Clients

/-!
Catching up. A SUBSCRIBE carries the counter its sender saw last; the server
resends the value when the counter of the event is larger. The counter of an
event is the number of client writes the server had accepted before the latest
one to it (`counter_spec`), so a resend tells that the event was written since,
with one exception: the very first write of a run is numbered 0, as events that
were never written are.
-/

namespace SyncScribe
open Lib Lib.Bytes Lib.Slots Lib.Keyed

/-- An accepted client write to `id`. -/
def Change.writesTo (id : Id) : Change → Prop
  | .edit id' _ (.write ..) => id' = id
  | _ => False

instance (id : Id) : DecidablePred (Change.writesTo id)
  | .edit id' _ (.write ..) => inferInstanceAs (Decidable (id' = id))
  | .edit _ _ (.subscribe ..) | .edit _ _ (.unsubscribe ..) | .edit _ _ (.define ..)
  | .edit _ _ (.serverWrite ..) | .edit _ _ (.callback ..) | .keep | .free _ | .close _ =>
    inferInstanceAs (Decidable False)

/-- The number of accepted client writes. -/
def writesIn (log : List Change) : Nat := log.countP Change.isWrite

/-- The event `id` accepted a client write since its latest creation. -/
def Written (log : List Change) (id : Id) : Prop := Since (Change.writesTo id) (Change.creates id) log

instance (log : List Change) (id : Id) : Decidable (Written log id) :=
  inferInstanceAs (Decidable (Since _ _ log))

/-- The latest client write to `id` is in `log`, with `pre` before it. -/
def LatestAt (log : List Change) (id : Id) (pre : List Change) : Prop :=
  ∃ ch post, log = pre ++ ch :: post ∧ ch.writesTo id ∧ ∀ b ∈ post, ¬ (b.creates id ∨ b.writesTo id)

/-- The counter of the event `id`, zero when there is none. -/
def counterOf (s : Server) (id : Id) : UInt64 := ((look s.events id).map Event.updateCounter).getD 0

section Steps

variable {s : Server} {ch : Change} {t' : Table} {id : Id} {ev' : Event}

/-- Only creations and client writes touch the counter of an event. -/
theorem counter_change (h : ch.Applies s t') (hc : ¬ ch.creates id) (hw : ¬ ch.writesTo id)
    (hl : look t' id = some ev') :
    ∃ ev, look s.events id = some ev ∧ ev'.updateCounter = ev.updateCounter := by
  cases ch with
  | keep => exact ⟨ev', by rw [← h.2]; exact hl, rfl⟩
  | edit id' created k =>
    obtain ⟨ev, ho, _, hs⟩ := h
    rw [hs.look] at hl
    split at hl
    · rename_i hid
      obtain ⟨_, rfl⟩ := hid
      cases hl
      have hfound : created = false := by simpa [Change.creates] using hc
      refine ⟨ev, ho.found hfound, ?_⟩
      cases k with
      | subscribe c flags =>
        obtain ⟨cs, n, hsame⟩ := addConsumer_same ev c
        rw [Edit.apply, hsame]
      | unsubscribe c =>
        obtain ⟨cs, n, hsame⟩ := dropConsumer_same ev c
        rw [Edit.apply, hsame]
      | write c flags data size => exact absurd rfl hw
      | define flags data size => rfl
      | serverWrite flags data size => rfl
      | callback cb args => rfl
    · exact ⟨ev', hl, rfl⟩
  | free id' =>
    rw [h.2] at hl
    split at hl
    · cases hl
    · exact ⟨ev', hl, rfl⟩
  | close c =>
    rw [h.2, Option.map_eq_some_iff] at hl
    obtain ⟨ev, hl, rfl⟩ := hl
    obtain ⟨cs, n, hsame⟩ := closed_same c ev
    exact ⟨ev, hl, by rw [hsame]⟩

theorem Change.writesTo_cases (hw : ch.writesTo id) :
    ∃ created c flags data size, ch = .edit id created (.write c flags data size) := by
  cases ch with
  | edit id' created k =>
    cases k with
    | write c flags data size => exact ⟨created, c, flags, data, size, by rw [show id' = id from hw]⟩
    | subscribe c flags => cases hw
    | unsubscribe c => cases hw
    | define flags data size => cases hw
    | serverWrite flags data size => cases hw
    | callback cb args => cases hw
  | keep => cases hw
  | free id' => cases hw
  | close c => cases hw

theorem isWrite_of_writesTo (hw : ch.writesTo id) : ch.isWrite = true := by
  obtain ⟨created, c, flags, data, size, rfl⟩ := Change.writesTo_cases hw
  rfl

/-- A client write numbers its event with the counter of the server. -/
theorem counter_write (h : ch.Applies s t') (hw : ch.writesTo id) (hl : look t' id = some ev') :
    ev'.updateCounter = s.updateCounter := by
  obtain ⟨created, c, flags, data, size, rfl⟩ := Change.writesTo_cases hw
  obtain ⟨ev, _, _, hs⟩ := h
  have hg := look_good hl
  rw [hs.look, if_pos ⟨hg, rfl⟩] at hl
  cases hl
  rfl

/-- A new event that was not written is numbered 0. -/
theorem counter_create (h : ch.Applies s t') (hc : ch.creates id) (hw : ¬ ch.writesTo id)
    (hl : look t' id = some ev') : ev'.updateCounter = 0 := by
  obtain ⟨k, rfl⟩ := Change.creates_cases hc
  obtain ⟨ev, ho, _, hs⟩ := h
  have hg := look_good hl
  obtain ⟨old, rfl⟩ := (ho.fresh rfl).2 hg
  rw [hs.look, if_pos ⟨hg, rfl⟩] at hl
  cases hl
  cases k with
  | subscribe c flags =>
    obtain ⟨cs, n, hsame⟩ := addConsumer_same
      { eventInit old id with dataType := (Edit.subscribe c flags).freshType } c
    rw [Edit.apply, hsame]
    rfl
  | unsubscribe c =>
    obtain ⟨cs, n, hsame⟩ := dropConsumer_same
      { eventInit old id with dataType := (Edit.unsubscribe c).freshType } c
    rw [Edit.apply, hsame]
    rfl
  | write c flags data size => exact absurd rfl hw
  | define flags data size => rfl
  | serverWrite flags data size => rfl
  | callback cb args => rfl

end Steps

/-! ## Runs -/

section Runs

variable {cid : List UInt8} {id : Id} {ev : Event}

theorem writesIn_concat (log : List Change) (ch : Change) :
    writesIn (log ++ [ch]) = writesIn log + if ch.isWrite then 1 else 0 := by
  simp only [writesIn, List.countP_append, List.countP_singleton]

/-- The counter of the server is the number of accepted writes. -/
theorem updateCounter_eq (as : List Act) (hlt : writesIn (journal (serverCreate cid) as) < 2 ^ 64) :
    (run act (serverCreate cid) as).1.updateCounter.toNat = writesIn (journal (serverCreate cid) as) := by
  induction as using List.reverseRecOn with
  | nil => rfl
  | append_singleton as a ih =>
    rw [journal_concat, writesIn_concat] at hlt ⊢
    rw [run_concat, act_updateCounter, UInt64.toNat_add, ih (by omega), Change.ticks]
    split
    · rename_i hw
      rw [hw] at hlt
      simp only [↓reduceIte] at hlt
      rw [UInt64.toNat_one, Nat.mod_eq_of_lt hlt]
    · rw [UInt64.toNat_zero, Nat.mod_eq_of_lt (by omega)]

/-- **What the counter of an event says**: how many writes came before the latest one to it. -/
theorem counter_spec (as : List Act) (hlt : writesIn (journal (serverCreate cid) as) < 2 ^ 64)
    (hl : look (run act (serverCreate cid) as).1.events id = some ev) :
    (∃ pre, LatestAt (journal (serverCreate cid) as) id pre ∧ ev.updateCounter.toNat = writesIn pre) ∨
      (¬ Written (journal (serverCreate cid) as) id ∧ ev.updateCounter = 0) := by
  induction as using List.reverseRecOn generalizing ev with
  | nil =>
    rw [run, look_init] at hl
    cases hl
  | append_singleton as a ih =>
    have happ := act_change (run_tableInv cid as) a
    rw [run_concat] at hl
    rw [journal_concat, writesIn_concat] at hlt
    rw [journal_concat]
    by_cases hw : (changeOf (run act (serverCreate cid) as).1 a).writesTo id
    · refine Or.inl ⟨journal (serverCreate cid) as, ⟨_, [], rfl, hw, by simp⟩, ?_⟩
      rw [counter_write happ hw hl, updateCounter_eq as (by omega)]
    · by_cases hc : (changeOf (run act (serverCreate cid) as).1 a).creates id
      · refine Or.inr ⟨?_, counter_create happ hc hw hl⟩
        rw [Written, since_concat]
        simp [hw, hc]
      · obtain ⟨ev₀, hl₀, heq⟩ := counter_change happ hc hw hl
        rcases ih (by omega) hl₀ with ⟨pre, ⟨ch, post, hlog, hch, hpost⟩, hn⟩ | ⟨hnot, hz⟩
        · refine Or.inl ⟨pre, ⟨ch, post ++ [changeOf (run act (serverCreate cid) as).1 a], ?_, hch, ?_⟩, ?_⟩
          · rw [hlog]
            simp
          · intro b hb
            rw [List.mem_append, List.mem_singleton] at hb
            rcases hb with hb | rfl
            · exact hpost b hb
            · exact fun h => h.elim hc hw
          · rw [heq, hn]
        · refine Or.inr ⟨?_, by rw [heq, hz]⟩
          rw [Written, since_concat]
          exact fun h => h.elim hw fun h => hnot h.1

/-- A stretch of a run that neither creates nor writes an event leaves its counter. -/
theorem counter_quiet (as₁ as₂ : List Act)
    (hquiet : ∀ b ∈ journal (run act (serverCreate cid) as₁).1 as₂, ¬ (b.creates id ∨ b.writesTo id))
    (hl : look (run act (serverCreate cid) (as₁ ++ as₂)).1.events id = some ev) :
    ∃ ev₁, look (run act (serverCreate cid) as₁).1.events id = some ev₁ ∧
      ev.updateCounter = ev₁.updateCounter := by
  induction as₂ using List.reverseRecOn generalizing ev with
  | nil => exact ⟨ev, by rwa [List.append_nil] at hl, rfl⟩
  | append_singleton as₂ a ih =>
    rw [← List.append_assoc, run_concat] at hl
    rw [journal_concat] at hquiet
    have happ := act_change (run_tableInv cid (as₁ ++ as₂)) a
    have hlast : ¬ _ := hquiet (changeOf (run act (serverCreate cid) (as₁ ++ as₂)).1 a)
      (by rw [run_append]; simp)
    obtain ⟨ev₀, hl₀, heq⟩ := counter_change happ (fun h => hlast (Or.inl h)) (fun h => hlast (Or.inr h)) hl
    obtain ⟨ev₁, hl₁, heq₁⟩ := ih (fun b hb => hquiet b (by simp [hb])) hl₀
    exact ⟨ev₁, hl₁, heq.trans heq₁⟩

/-! ## Resending -/

/-- An accepted SUBSCRIBE to a live event resends its value when it is newer. -/
theorem clientSubscribe_resend {env : Env} {s : Server} {c : ClientIx} {flags : UInt32} {updateCounter : UInt64}
    (hl : look s.events id = some ev) (hr : (clientSubscribe env s c id flags updateCounter).ret = 0) :
    (clientSubscribe env s c id flags updateCounter).out =
      if updateCounter < ev.updateCounter then [.send c (resendPacket env ev)] else [] := by
  obtain ⟨s', e, ho, _, _, hout⟩ := clientSubscribe_accepted hr
  have hg := look_good hl
  rcases openEvent_ok ho with ⟨hf, rfl⟩ | ⟨hn, _⟩
  · have hev := look_of_find hg hf
    rw [hl, Option.some.injEq] at hev
    obtain ⟨cs, n, hsame⟩ := addConsumer_same ev c
    have hadd : (addClientToEvent s' c e).2.events e = ev.addConsumer c := by
      rw [addClientToEvent_events, Function.update_self, ← hev]
    rw [hout, hadd, hsame]
    rfl
  · rw [look_of_not_found hn] at hl
    cases hl

/-- The latest client write to `id` falls into `log₂` and is the first of the whole run. -/
def FirstWriteLatest (log₁ log₂ : List Change) (id : Id) : Prop :=
  ∃ pre, LatestAt log₂ id pre ∧ writesIn (log₁ ++ pre) = 0

theorem LatestAt.written {log pre : List Change} (h : LatestAt log id pre) : Written log id := by
  obtain ⟨ch, post, hlog, hch, hpost⟩ := h
  exact ⟨pre, ch, post, hlog, hch, fun b hb hc => hpost b hb (Or.inl hc)⟩

theorem LatestAt.unique {log pre pre' : List Change} (h : LatestAt log id pre) (h' : LatestAt log id pre') :
    pre = pre' := by
  obtain ⟨ch, post, hlog, hch, hpost⟩ := h
  obtain ⟨ch', post', hlog', hch', hpost'⟩ := h'
  exact last_unique (hlog.symm.trans hlog') hch hch' (fun b hb hw => hpost b hb (Or.inr hw))
    (fun b hb hw => hpost' b hb (Or.inr hw))

/-- The latest write falls into the later part of a log, or nothing happened there. -/
theorem LatestAt.split {log₁ log₂ pre : List Change} (h : LatestAt (log₁ ++ log₂) id pre) :
    (∃ pre', pre = log₁ ++ pre' ∧ LatestAt log₂ id pre') ∨
      ∀ b ∈ log₂, ¬ (b.creates id ∨ b.writesTo id) := by
  obtain ⟨ch, post, hlog, hch, hpost⟩ := h
  rcases List.append_eq_append_iff.mp hlog with ⟨as, hpre, hrest⟩ | ⟨as, hpre, hrest⟩
  · exact Or.inl ⟨as, hpre, ch, post, hrest, hch, hpost⟩
  · cases as with
    | nil => exact Or.inl ⟨[], by simpa using hpre.symm, ch, post, by simpa using hrest.symm, hch, hpost⟩
    | cons b as =>
      rw [List.cons_append, List.cons.injEq] at hrest
      exact Or.inr fun b hb => hpost b (by rw [hrest.2]; simp [hb])

/-- A write is counted by whoever comes after it. -/
theorem LatestAt.writesIn_lt {log pre : List Change} (h : LatestAt log id pre) : writesIn pre < writesIn log := by
  obtain ⟨ch, post, rfl, hch, _⟩ := h
  simp only [writesIn, List.countP_append, List.countP_cons, isWrite_of_writesTo hch, ↓reduceIte]
  omega

/-- The counter seen earlier is below the number of the writes made by then, or zero. -/
theorem counterOf_spec (as : List Act) (hlt : writesIn (journal (serverCreate cid) as) < 2 ^ 64) :
    (counterOf (run act (serverCreate cid) as).1 id).toNat = 0 ∨
      (counterOf (run act (serverCreate cid) as).1 id).toNat < writesIn (journal (serverCreate cid) as) := by
  unfold counterOf
  cases hl : look (run act (serverCreate cid) as).1.events id with
  | none => exact Or.inl rfl
  | some ev =>
    rcases counter_spec as hlt hl with ⟨pre, hpre, hn⟩ | ⟨_, hz⟩
    · refine Or.inr ?_
      rw [Option.map_some, Option.getD_some, hn]
      exact hpre.writesIn_lt
    · refine Or.inl ?_
      rw [Option.map_some, Option.getD_some, hz]
      rfl

/-- **When catching up is exact.** After `as₁` the subscriber saw the counter of `id` (zero when there
was no such event), after `as₁ ++ as₂` it subscribes with it. -/
theorem catch_up_exact_iff (cid : List UInt8) (as₁ as₂ : List Act) (env : Env) (c : ClientIx) (id : Id)
    (flags : UInt32) (ev : Event)
    (hlt : writesIn (journal (serverCreate cid) (as₁ ++ as₂)) < 2 ^ 64)
    (hl : look (run act (serverCreate cid) (as₁ ++ as₂)).1.events id = some ev)
    (hr : (clientSubscribe env (run act (serverCreate cid) (as₁ ++ as₂)).1 c id flags
      (counterOf (run act (serverCreate cid) as₁).1 id)).ret = 0) :
    ((clientSubscribe env (run act (serverCreate cid) (as₁ ++ as₂)).1 c id flags
        (counterOf (run act (serverCreate cid) as₁).1 id)).out = [.send c (resendPacket env ev)] ↔
      Written (journal (run act (serverCreate cid) as₁).1 as₂) id) ↔
    ¬ FirstWriteLatest (journal (serverCreate cid) as₁)
      (journal (run act (serverCreate cid) as₁).1 as₂) id := by
  have hout : (clientSubscribe env (run act (serverCreate cid) (as₁ ++ as₂)).1 c id flags
      (counterOf (run act (serverCreate cid) as₁).1 id)).out = [.send c (resendPacket env ev)] ↔
      (counterOf (run act (serverCreate cid) as₁).1 id).toNat < ev.updateCounter.toNat := by
    rw [clientSubscribe_resend hl hr, ← UInt64.lt_iff_toNat_lt]
    split <;> simp [*]
  have hjournal := journal_append (serverCreate cid) as₁ as₂
  have hspec := counter_spec (as₁ ++ as₂) hlt hl
  have hlt₁ : writesIn (journal (serverCreate cid) as₁) < 2 ^ 64 := by
    rw [hjournal, writesIn, List.countP_append] at hlt
    exact lt_of_le_of_lt (Nat.le_add_right _ _) hlt
  have hseen := @counterOf_spec cid id as₁ hlt₁
  rw [hout]
  rw [hjournal] at hspec
  rcases hspec with ⟨pre, hpre, hn⟩ | ⟨hnot, hz⟩
  · rcases hpre.split with ⟨pre', rfl, hpre'⟩ | hquiet
    · -- the latest write came after the earlier state
      have hfirst : FirstWriteLatest (journal (serverCreate cid) as₁)
          (journal (run act (serverCreate cid) as₁).1 as₂) id ↔
          writesIn (journal (serverCreate cid) as₁ ++ pre') = 0 := by
        constructor
        · rintro ⟨pre'', hpre'', hzero⟩
          rwa [hpre'.unique hpre'']
        · exact fun hzero => ⟨pre', hpre', hzero⟩
      have hle : writesIn (journal (serverCreate cid) as₁) ≤
          writesIn (journal (serverCreate cid) as₁ ++ pre') := by
        simp [writesIn, List.countP_append]
      simp only [hpre'.written, iff_true, hfirst, hn]
      omega
    · -- nothing happened to the event since
      obtain ⟨ev₁, hl₁, heq⟩ := counter_quiet as₁ as₂ hquiet hl
      have hsame : counterOf (run act (serverCreate cid) as₁).1 id = ev.updateCounter := by
        rw [counterOf, hl₁, heq, Option.map_some, Option.getD_some]
      have hunwritten : ¬ Written (journal (run act (serverCreate cid) as₁).1 as₂) id := by
        rintro ⟨pre', ch, post, hlog, hch, _⟩
        exact hquiet ch (by rw [hlog]; simp) (Or.inr hch)
      have hnofirst : ¬ FirstWriteLatest (journal (serverCreate cid) as₁)
          (journal (run act (serverCreate cid) as₁).1 as₂) id := by
        rintro ⟨pre', hpre', _⟩
        exact hunwritten hpre'.written
      simp [hsame, hunwritten, hnofirst]
  · -- never written since its creation
    have hunwritten : ¬ Written (journal (run act (serverCreate cid) as₁).1 as₂) id :=
      fun hw => hnot (hw.append_left _)
    have hnofirst : ¬ FirstWriteLatest (journal (serverCreate cid) as₁)
        (journal (run act (serverCreate cid) as₁).1 as₂) id := by
      rintro ⟨pre', hpre', _⟩
      exact hunwritten hpre'.written
    simp [hz, hunwritten, hnofirst]

end Runs

/-- One client creates an event by writing to it, which is the first write of the run. -/
def firstWriteRun : List Act :=
  [.packet .calm 0 (.make (Msg.write.code ||| typeForce ||| typeVarString) (idstr [97]) [1])]

/-- A client that has seen nothing subscribes after the first write and is not sent its value. -/
theorem first_write_not_resent : ∃ ev,
    look (run act (serverCreate []) firstWriteRun).1.events (idstr [97]) = some ev ∧
    Written (journal (serverCreate []) firstWriteRun) (idstr [97]) ∧
    (clientSubscribe .calm (run act (serverCreate []) firstWriteRun).1 1 (idstr [97])
      (Msg.subscribe.code ||| typeVarString) (counterOf (serverCreate []) (idstr [97]))).ret = 0 ∧
    (clientSubscribe .calm (run act (serverCreate []) firstWriteRun).1 1 (idstr [97])
      (Msg.subscribe.code ||| typeVarString) (counterOf (serverCreate []) (idstr [97]))).out ≠
        [.send 1 (resendPacket .calm ev)] := by
  have hlive : (look (run act (serverCreate []) firstWriteRun).1.events (idstr [97])).isSome = true := by
    decide +kernel
  obtain ⟨ev, hl⟩ := Option.isSome_iff_exists.mp hlive
  have hout : (clientSubscribe .calm (run act (serverCreate []) firstWriteRun).1 1 (idstr [97])
      (Msg.subscribe.code ||| typeVarString) (counterOf (serverCreate []) (idstr [97]))).out = [] := by
    decide +kernel
  exact ⟨ev, hl, by decide +kernel, by decide +kernel, by rw [hout]; simp⟩

/-- The same client, after a second write. -/
theorem second_write_catch_up : ∃ ev,
    look (run act (serverCreate []) ([] ++ (firstWriteRun ++ firstWriteRun))).1.events (idstr [97]) = some ev ∧
    (((clientSubscribe .calm (run act (serverCreate []) ([] ++ (firstWriteRun ++ firstWriteRun))).1 1 (idstr [97])
        (Msg.subscribe.code ||| typeVarString) (counterOf (run act (serverCreate []) []).1 (idstr [97]))).out =
          [.send 1 (resendPacket .calm ev)] ↔
      Written (journal (run act (serverCreate []) []).1 (firstWriteRun ++ firstWriteRun)) (idstr [97])) ↔
    ¬ FirstWriteLatest (journal (serverCreate []) [])
      (journal (run act (serverCreate []) []).1 (firstWriteRun ++ firstWriteRun)) (idstr [97])) := by
  have hlive : (look (run act (serverCreate []) ([] ++ (firstWriteRun ++ firstWriteRun))).1.events
      (idstr [97])).isSome = true := by
    decide +kernel
  obtain ⟨ev, hl⟩ := Option.isSome_iff_exists.mp hlive
  exact ⟨ev, hl, catch_up_exact_iff [] [] (firstWriteRun ++ firstWriteRun) .calm 1 (idstr [97]) _ ev
    (by decide +kernel) hl (by decide +kernel)⟩

end SyncScribe
