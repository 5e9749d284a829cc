import SyncScribe.Server.CatchUp
import SyncScribe.Server.EventMap

/-!
Update counters order the writes. The counter of a written event is the number
of client writes before its latest one (`counter_spec`), a position in one log
that all events share: two events have different latest writes, and the earlier
write has the smaller number (`LatestAt.writesIn_lt_iff`). A write is the only
act that moves the counter of a live event, and it moves it up to the counter of
the server (`counterOf_step`).
-/

namespace SyncScribe
open Lib Lib.Bytes Lib.Slots Lib.Keyed

/-! ## Positions in the log -/

section Log

variable {log pre pre' : List Change} {id id' : Id} {ch : Change}

theorem LatestAt.isPrefix (h : LatestAt log id pre) : pre <+: log := by
  obtain ⟨ch, post, rfl, _, _⟩ := h
  exact List.prefix_append _ _

theorem writesIn_le_of_isPrefix (h : pre <+: pre') : writesIn pre ≤ writesIn pre' :=
  h.sublist.countP_le

/-- What comes after the latest write to an event counts it. -/
theorem LatestAt.writesIn_lt_of_length (h : LatestAt log id pre) (hpre' : pre' <+: log)
    (hlen : pre.length < pre'.length) : writesIn pre < writesIn pre' := by
  obtain ⟨ch, post, rfl, hch, _⟩ := h
  have hwrite : pre ++ [ch] <+: pre ++ ch :: post := ⟨post, by simp⟩
  have hstep : pre ++ [ch] <+: pre' :=
    List.prefix_of_prefix_length_le hwrite hpre' (by rw [List.length_append, List.length_singleton]; exact hlen)
  have hle := writesIn_le_of_isPrefix hstep
  rw [writesIn_concat, isWrite_of_writesTo hch, if_pos rfl] at hle
  omega

/-- Latest writes are ordered as their numbers. -/
theorem LatestAt.writesIn_lt_iff (h : LatestAt log id pre) (h' : LatestAt log id' pre') :
    writesIn pre < writesIn pre' ↔ pre.length < pre'.length := by
  constructor
  · intro hlt
    by_contra hlen
    have hback : pre' <+: pre := List.prefix_of_prefix_length_le h'.isPrefix h.isPrefix (by omega)
    have hle := writesIn_le_of_isPrefix hback
    omega
  · exact h.writesIn_lt_of_length h'.isPrefix

/-- One change writes to one event. -/
theorem Change.writesTo_unique (h : ch.writesTo id) (h' : ch.writesTo id') : id = id' := by
  obtain ⟨created, c, flags, data, size, rfl⟩ := Change.writesTo_cases h
  exact h'

/-- Two events are never written by the same change. -/
theorem LatestAt.length_ne (h : LatestAt log id pre) (h' : LatestAt log id' pre') (hne : id ≠ id') :
    pre.length ≠ pre'.length := by
  intro hlen
  obtain ⟨ch, post, hlog, hch, _⟩ := h
  obtain ⟨ch', post', hlog', hch', _⟩ := h'
  have hboth := List.append_inj (hlog.symm.trans hlog') hlen
  have hsame : ch = ch' := (List.cons.inj hboth.2).1
  subst hsame
  exact hne (Change.writesTo_unique hch hch')

end Log

/-! ## The order of the counters -/

/-- The counters of the written events of `s` are ordered as `log` wrote them. -/
structure CountersOrdered (s : Server) (log : List Change) : Prop where
  below : ∀ e, (s.events e).live = true → Written log (s.events e).id →
    (s.events e).updateCounter < s.updateCounter
  distinct : ∀ e e', e ≠ e' → (s.events e).live = true → (s.events e').live = true →
    Written log (s.events e).id → Written log (s.events e').id →
    (s.events e).updateCounter ≠ (s.events e').updateCounter
  /-- the event written later carries the larger counter -/
  ordered : ∀ e e', (s.events e).live = true → (s.events e').live = true →
    Written log (s.events e).id → Written log (s.events e').id →
    ∃ pre pre', LatestAt log (s.events e).id pre ∧ LatestAt log (s.events e').id pre' ∧
      ((s.events e).updateCounter < (s.events e').updateCounter ↔ pre.length < pre'.length)

section Runs

variable {cid : List UInt8} {id : Id} {e : EventIx}

/-- The number of a written slot. -/
theorem written_counter (as : List Act) (hlt : writesIn (journal (serverCreate cid) as) < 2 ^ 64)
    (hlive : ((run act (serverCreate cid) as).1.events e).live = true)
    (hw : Written (journal (serverCreate cid) as) ((run act (serverCreate cid) as).1.events e).id) :
    ∃ pre, LatestAt (journal (serverCreate cid) as) ((run act (serverCreate cid) as).1.events e).id pre ∧
      ((run act (serverCreate cid) as).1.events e).updateCounter.toNat = writesIn pre := by
  have hl := (run_tableInv cid as).look_self (Event.live_iff.mp hlive)
  rcases counter_spec as hlt hl with hspec | ⟨hnot, _⟩
  · exact hspec
  · exact absurd hw hnot

theorem run_countersOrdered (as : List Act) (hlt : writesIn (journal (serverCreate cid) as) < 2 ^ 64) :
    CountersOrdered (run act (serverCreate cid) as).1 (journal (serverCreate cid) as) where
  below := by
    intro e hlive hw
    obtain ⟨pre, hpre, hn⟩ := written_counter as hlt hlive hw
    rw [UInt64.lt_iff_toNat_lt, hn, updateCounter_eq as hlt]
    exact hpre.writesIn_lt
  distinct := by
    intro e e' hne hlive hlive' hw hw' heq
    obtain ⟨pre, hpre, hn⟩ := written_counter as hlt hlive hw
    obtain ⟨pre', hpre', hn'⟩ := written_counter as hlt hlive' hw'
    have hid : ((run act (serverCreate cid) as).1.events e).id ≠
        ((run act (serverCreate cid) as).1.events e').id :=
      fun hid => hne ((run_tableInv cid as).unique e e' (Event.live_iff.mp hlive) hid)
    have hsame : writesIn pre = writesIn pre' := by rw [← hn, ← hn', heq]
    have hlen := hpre.length_ne hpre' hid
    have hord := hpre.writesIn_lt_iff hpre'
    have hord' := hpre'.writesIn_lt_iff hpre
    omega
  ordered := by
    intro e e' hlive hlive' hw hw'
    obtain ⟨pre, hpre, hn⟩ := written_counter as hlt hlive hw
    obtain ⟨pre', hpre', hn'⟩ := written_counter as hlt hlive' hw'
    refine ⟨pre, pre', hpre, hpre', ?_⟩
    rw [UInt64.lt_iff_toNat_lt, hn, hn']
    exact hpre.writesIn_lt_iff hpre'

/-! ## Counters never go back -/

theorem writesIn_run_le (as₁ as₂ : List Act) :
    writesIn (journal (serverCreate cid) as₁) ≤ writesIn (journal (serverCreate cid) (as₁ ++ as₂)) := by
  rw [journal_append]
  exact writesIn_le_of_isPrefix (List.prefix_append _ _)

theorem updateCounter_mono (as₁ as₂ : List Act)
    (hlt : writesIn (journal (serverCreate cid) (as₁ ++ as₂)) < 2 ^ 64) :
    (run act (serverCreate cid) as₁).1.updateCounter ≤
      (run act (serverCreate cid) (as₁ ++ as₂)).1.updateCounter := by
  have hle := @writesIn_run_le cid as₁ as₂
  rw [UInt64.le_iff_toNat_le, updateCounter_eq as₁ (by omega), updateCounter_eq _ hlt]
  exact hle

/-- One act on an event that is live before and after it. -/
theorem counterOf_step (as : List Act) (a : Act) (hlt : writesIn (journal (serverCreate cid) as) < 2 ^ 64)
    (hbefore : Defined (run act (serverCreate cid) as).1 id)
    (hafter : Defined (run act (serverCreate cid) (as ++ [a])).1 id) :
    counterOf (run act (serverCreate cid) as).1 id ≤ counterOf (run act (serverCreate cid) (as ++ [a])).1 id := by
  have hg : id.good := by
    obtain ⟨e, hlive, rfl⟩ := hbefore
    exact Event.live_iff.mp hlive
  obtain ⟨ev, hl⟩ := Option.isSome_iff_exists.mp ((defined_iff_look hg).mp hbefore)
  obtain ⟨ev', hl'⟩ := Option.isSome_iff_exists.mp ((defined_iff_look hg).mp hafter)
  have hold : counterOf (run act (serverCreate cid) as).1 id = ev.updateCounter := by rw [counterOf, hl]; rfl
  have hnew : counterOf (run act (serverCreate cid) (as ++ [a])).1 id = ev'.updateCounter := by
    rw [counterOf, hl']; rfl
  have happ := act_change (run_tableInv cid as) a
  rw [run_concat] at hl'
  by_cases hw : (changeOf (run act (serverCreate cid) as).1 a).writesTo id
  · -- a write takes the counter of the server, which no event has reached yet
    have hbound := @counterOf_spec cid id as hlt
    rw [hnew, counter_write happ hw hl', UInt64.le_iff_toNat_le, updateCounter_eq as hlt]
    omega
  · have hc : ¬ (changeOf (run act (serverCreate cid) as).1 a).creates id := by
      intro hc
      rw [look_of_creates happ hc] at hl
      cases hl
    obtain ⟨ev₀, hl₀, heq⟩ := counter_change happ hc hw hl'
    rw [hl, Option.some.injEq] at hl₀
    rw [hold, hnew, heq, hl₀]
    exact UInt64.le_refl _

/-- While an event stays live its counter never goes back. -/
theorem counterOf_mono (as₁ as₂ : List Act)
    (hlt : writesIn (journal (serverCreate cid) (as₁ ++ as₂)) < 2 ^ 64)
    (hdef : Throughout act (fun s => Defined s id) (run act (serverCreate cid) as₁).1 as₂) :
    counterOf (run act (serverCreate cid) as₁).1 id ≤
      counterOf (run act (serverCreate cid) (as₁ ++ as₂)).1 id := by
  induction as₂ using List.reverseRecOn with
  | nil =>
    rw [List.append_nil]
    exact UInt64.le_refl _
  | append_singleton as₂ a ih =>
    rw [← List.append_assoc] at hlt ⊢
    have hlt' := lt_of_le_of_lt (@writesIn_run_le cid (as₁ ++ as₂) [a]) hlt
    have hbefore := hdef as₂ [a] rfl
    have hafter := hdef (as₂ ++ [a]) [] (by simp)
    refine UInt64.le_trans (ih hlt' hdef.left) (counterOf_step (as₁ ++ as₂) a hlt' ?_ ?_)
    · rwa [run_append]
    · rwa [List.append_assoc, run_append]

end Runs

/-- **Update counters order the writes**, in every run whose accepted calls of `syncs_server_write` bring no more than
the array of an event holds; the counter of the server never goes back, and that of an event not while it stays
live. -/
theorem counters_order_writes (place : Places) (cid : List UInt8) (as : List Act)
    (hin : Along (memoryAct place) ServerMemory.InArray (.whole (serverCreate cid)) as)
    (hlt : writesIn (journal (serverCreate cid) as) < 2 ^ 64) :
    (∃ s, (run (memoryAct place) (.whole (serverCreate cid)) as).1 = .whole s ∧
      CountersOrdered s (journal (serverCreate cid) as)) ∧
    ∀ pre mid post, as = pre ++ mid ++ post →
      ∃ s s', (run (memoryAct place) (.whole (serverCreate cid)) pre).1 = .whole s ∧
        (run (memoryAct place) (.whole (serverCreate cid)) (pre ++ mid)).1 = .whole s' ∧
        s.updateCounter ≤ s'.updateCounter ∧
        ∀ id, Throughout (memoryAct place) (fun m => ∃ s, m = .whole s ∧ Defined s id) (.whole s) mid →
          counterOf s id ≤ counterOf s' id := by
  refine ⟨⟨_, congrArg Prod.fst (run_memoryAct as hin), run_countersOrdered as hlt⟩, ?_⟩
  rintro pre mid post rfl
  have hlt' := lt_of_le_of_lt (writesIn_run_le (pre ++ mid) post) hlt
  have hmid := ((along_append _ _ _).mp hin).1
  have hpre := memory_before hmid
  refine ⟨_, _, hpre, memory_before hin, updateCounter_mono pre mid hlt', fun id hdef => ?_⟩
  have hrest := ((along_append _ _ _).mp hmid).2
  rw [hpre] at hrest
  exact counterOf_mono pre mid hlt' (throughout_memoryAct mid hrest hdef)

/-- Two events are written, then the first one again. -/
def interleavedWrites : List Act :=
  [.packet .calm 0 (.make (Msg.write.code ||| typeForce ||| typeVarString) (idstr [97]) [1]),
    .packet .calm 1 (.make (Msg.write.code ||| typeForce ||| typeVarString) (idstr [98]) [2]),
    .packet .calm 1 (.make (Msg.write.code ||| typeVarString) (idstr [97]) [3])]

theorem interleavedWrites_ordered :
    writesIn (journal (serverCreate []) interleavedWrites) = 3 ∧
    ∃ s, (run (memoryAct somePlaces) (.whole (serverCreate [])) interleavedWrites).1 = .whole s ∧
      CountersOrdered s (journal (serverCreate []) interleavedWrites) :=
  ⟨by decide +kernel, (counters_order_writes somePlaces [] interleavedWrites
    ⟨fun _ _ => trivial, fun _ _ => trivial, fun _ _ => trivial, trivial⟩ (by decide +kernel)).1⟩

/-- Behind two client writes the application writes 536 bytes: the last eight of them are the counter. -/
def zeroingWrite : Act := .serverWrite .calm typeVarString [97] (List.replicate 536 0) 536

/-- The counter of the event goes back from 2 to 0, the event being live all the time. -/
theorem zeroingWrite_goes_back : ∃ s s',
    (run (memoryAct somePlaces) (.whole (serverCreate [])) interleavedWrites).1 = .whole s ∧
      (run (memoryAct somePlaces) (.whole (serverCreate [])) (interleavedWrites ++ [zeroingWrite])).1 = .overrun s' ∧
      Defined s (idstr [97]) ∧ Defined s' (idstr [97]) ∧ ¬ counterOf s (idstr [97]) ≤ counterOf s' (idstr [97]) := by
  have hbefore : (run (memoryAct somePlaces) (.whole (serverCreate [])) interleavedWrites).1 =
      .whole (run act (serverCreate []) interleavedWrites).1 := by
    rw [run_memoryAct interleavedWrites ⟨fun _ _ => trivial, fun _ _ => trivial, fun _ _ => trivial, trivial⟩]
  have hafter : ((run (memoryAct somePlaces) (.whole (serverCreate [])) (interleavedWrites ++ [zeroingWrite])).1.spoilt.map
      fun s => ((s.events 0).live, (s.events 0).id, counterOf s (idstr [97]))) = some (true, idstr [97], 0) := by
    decide +kernel
  obtain ⟨s', hs', hvalues⟩ := Option.map_eq_some_iff.mp hafter
  simp only [Prod.mk.injEq] at hvalues
  refine ⟨_, s', hbefore, ServerMemory.spoilt_iff.mp hs', ⟨0, by decide +kernel, by decide +kernel⟩,
    ⟨0, hvalues.1, hvalues.2.1⟩, ?_⟩
  rw [hvalues.2.2]
  decide +kernel

end SyncScribe
