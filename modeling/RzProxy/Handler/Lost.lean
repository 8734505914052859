import RzProxy.Handler.Delivery
import RzProxy.Handler.Release

/-!
# Lost calls

A call waits for its reply without a time limit. So it hangs once there is none to come: the read
loop of its connection has ended, or its request was in a queue whose write loop has. Nothing warns
a call that is about to send: it hangs as well if one of the two loops has ended by then. This is
for good, whatever the others and a well-behaved backend do.

## Main definitions

* `Connection.Carries`: a request is on the wire, or in a queue that is written
* `Lost`: a call that hangs

## Main results

* `oneshot_of_send`: a call has no reply before it asks for it
* `lost_of_path`: a call that hangs does so until its client goes away
-/

namespace RzProxy

open ByteString Streaming Machines

variable {s s' : State} {a : Action} {k : CallId}

/-- The connection that a call is about to send on. -/
def Pc.sendsOn : Pc → Option ConnId
  | .draw c | .store c _ _ | .send c _ _ => some c
  | _ => none

namespace Connection

/-- Both loops of the connection run. -/
def Working (k : Connection) : Prop := k.readTask = .running ∧ k.writeTask = .running

/-- A request is on the wire, or in a queue that is written. -/
def Carries (k : Connection) (r : ChanId × UInt32) : Prop :=
  r ∈ k.written.filterMap QueuedFrame.request? ∨
    k.writeTask = .running ∧ r ∈ k.queue.filterMap QueuedFrame.request?

end Connection

/-- A call that hangs. It is about to send where a loop has ended, or waits where its request gets
no reply. -/
inductive Lost (s : State) (k : CallId) : Prop
  | sending {c : ConnId} (pc : (s.calls k).pc.sendsOn = some c) (ended : ¬ (s.conns c).Working)
  | waiting {c : ConnId} {id : UInt32} {x : ChanId} (pc : (s.calls k).pc = .wait c id x)
      (empty : (s.chans x).oneshot = .empty)
      (ended : (s.conns c).readTask = .running → ¬ (s.conns c).Carries (x, id))

theorem Pc.left_ne_of_sendsOn {pc : Pc} {c : ConnId} (h : pc.sendsOn = some c) : pc.left ≠ 0 := by
  cases pc with
  | draw | store | send => exact Nat.succ_ne_zero _
  | _ => cases h

/-- A call that hangs is not over. -/
theorem Lost.left_ne (h : Lost s k) : (s.calls k).pc.left ≠ 0 := by
  cases h with
  | sending pc => exact Pc.left_ne_of_sendsOn pc
  | waiting pc =>
    rw [pc]
    exact Nat.one_ne_zero

/-! ## What a step does to a connection -/

section Connection

variable {m : ℕ} {c : ConnId} {conn conn' : Connection} {r : ChanId × UInt32}

/-- A read loop that has ended does not begin again. -/
theorem Connection.Local.reading (h : conn.Local m c a conn') (hr : conn'.readTask = .running) :
    conn.readTask = .running := by
  cases h with
  | readError | malformed | unknownId | readClosed | readDone => cases hr
  | _ => exact hr

/-- Nor does a write loop. -/
theorem Connection.Local.writing (h : conn.Local m c a conn') (hw : conn'.writeTask = .running) :
    conn.writeTask = .running := by
  cases h with
  | writeClosed | writeDone | writeError => cases hw
  | _ => exact hw

/-- A step of a connection carries no request that was not carried before. -/
theorem Connection.Local.carries (h : conn.Local m c a conn') (hr : conn'.Carries r) :
    conn.Carries r := by
  have hwrite {frame : QueuedFrame} {queue : List QueuedFrame} (htask : conn.writeTask = .running)
      (hnext : conn.queue = frame :: queue)
      (hr : r ∈ (conn.written ++ [frame]).filterMap QueuedFrame.request?) : conn.Carries r := by
    rw [List.filterMap_append] at hr
    rcases List.mem_append.mp hr with hr | hr
    · exact .inl hr
    · refine .inr ⟨htask, ?_⟩
      rw [hnext, ← List.singleton_append, List.filterMap_append]
      exact List.mem_append_left _ hr
  cases h with
  | write task next =>
    rcases hr with hr | ⟨-, hr⟩
    · exact hwrite task next hr
    · refine .inr ⟨task, ?_⟩
      rw [next, ← List.singleton_append, List.filterMap_append]
      exact List.mem_append_right _ hr
  | @writeError whole frame queue task next =>
    rcases hr with hr | ⟨hrun, -⟩
    · cases whole
      · exact .inl hr
      · exact hwrite task next hr
    · cases hrun
  | writeClosed | writeDone =>
    rcases hr with hr | ⟨hrun, -⟩
    · exact .inl hr
    · cases hrun
  | keepaliveSend =>
    refine hr.imp_right fun hr => ⟨hr.1, ?_⟩
    simpa [QueuedFrame.request?] using hr.2
  | _ => exact hr

end Connection

/-! ## What a step does to a call that hangs -/

theorem Change.working (h : Change s a s') {c : ConnId} (hw : (s'.conns c).Working) :
    (s.conns c).Working := by
  rcases h.tasks c with ⟨hread, -, hwrite⟩ | hl
  · rw [Connection.Working, hread, hwrite] at hw
    exact hw
  · exact ⟨hl.reading hw.1, hl.writing hw.2⟩

theorem Change.reading (h : Change s a s') {c : ConnId} (hr : (s'.conns c).readTask = .running) :
    (s.conns c).readTask = .running := by
  rcases h.tasks c with ⟨hread, -⟩ | hl
  · rw [← hread]
    exact hr
  · exact hl.reading hr

/-- The request of a call that waits is not queued again. -/
theorem Change.carries (h : Change s a s') (hcorr : Correlated s) {c : ConnId} {id : UInt32}
    {x : ChanId} (hpc : (s.calls k).pc = .wait c id x) (hr : (s'.conns c).Carries (x, id)) :
    (s.conns c).Carries (x, id) := by
  have hupd {d : ConnId} {conn : Connection}
      (h : (Function.update s.conns d conn c).Carries (x, id)) :
      (s.conns c).Carries (x, id) ∨ c = d ∧ conn.Carries (x, id) :=
    of_update_or (P := fun conn : Connection => conn.Carries (x, id)) h
  cases h with
  | newCall | move | answered | unanswered | cancel | cancelStore | lock | connect => exact hr
  | draw | store | sendFailed | take =>
    rcases hupd hr with hold | ⟨rfl, hnew⟩
    · exact hold
    · exact hnew
  | conn hc hl =>
    rcases hupd hr with hold | ⟨rfl, hnew⟩
    · exact hold
    · exact hl.carries hnew
  | @queue j d i y conn hj pc isOpen push =>
    rcases hupd hr with hold | ⟨rfl, hnew⟩
    · exact hold
    · rw [Connection.push_eq push] at hnew
      refine hnew.imp_right fun hnew => ⟨hnew.1, ?_⟩
      have hmem := hnew.2
      rw [List.filterMap_append] at hmem
      rcases List.mem_append.mp hmem with hmem | hmem
      · exact hmem
      · obtain ⟨rfl, rfl⟩ := Prod.mk.inj (List.mem_singleton.mp hmem)
        have hjk : j ≠ k := by
          rintro rfl
          rw [hpc] at pc
          cases pc
        exact absurd rfl (hcorr.ne_of_call hjk (a := (c, id, x)) (b := (c, id, x))
          (by rw [pc]; rfl) (by rw [hpc]; rfl))

/-- A reply gets to a channel by the read loop. -/
theorem Change.replied (h : Change s a s') {x : ChanId} (hx : x < s.chanCount) {p : Bytes}
    (hp : (s'.chans x).oneshot = .sent p) : (s.chans x).oneshot = .sent p ∨
      ∃ c header, (s.conns c).readTask = .running ∧ (s.conns c).inHand = some (header, p) ∧
        (s.conns c).demux header.clrId = some x := by
  cases h with
  | newCall | move | queue | sendFailed | answered | unanswered | cancel | lock | connect | conn =>
    exact .inl hp
  | @draw j c =>
    rw [chans_drawCorrId_of_lt s j c hx] at hp
    exact .inl hp
  | @store j c id y =>
    rw [State.setPc, State.setCall, (chans_store s c id y x).2.1] at hp
    split_ifs at hp
    exact .inl hp
  | @cancelStore j c id y =>
    rw [State.setPc, State.setCall, chans_closeChan] at hp
    split_ifs at hp
    exact .inl hp
  | @take c header payload y hc task hand stored =>
    rcases of_update_or (P := fun chan : Chan => chan.oneshot = .sent p) hp with hp | ⟨rfl, hp⟩
    · exact .inl hp
    · obtain rfl : payload = p := by simpa using hp
      exact .inr ⟨c, header, task, hand, stored⟩

/-- A reply in hand is one to a request on the wire. -/
theorem mem_written_of_inHand (hs : handler.Reach WellBehaved s) (hb : Bounded s) {c : ConnId}
    {header : Header} {payload : Bytes} {x : ChanId} (ht : (s.conns c).readTask = .running)
    (hand : (s.conns c).inHand = some (header, payload))
    (hx : (s.conns c).demux header.clrId = some x) :
    (x, header.clrId) ∈ (s.conns c).written.filterMap QueuedFrame.request? := by
  obtain ⟨hserved, hord⟩ := served_and_orderly_of_reach hs hb
  have hcorr := correlated_of_reach hs
  obtain ⟨hlt, hconn, hid, -⟩ := hcorr.entry hx
  have hreply : header.clrId ∈ (s.conns c).replyIds := by
    refine List.mem_map.mpr ⟨(header, payload), ?_, rfl⟩
    rw [(fed_of_reach hs c).frames_eq ht, Connection.drained, hand]
    simp
  have hrequest : header.clrId ∈ (s.conns c).requestIds :=
    List.count_pos_iff.mp ((List.count_pos_iff.mpr hreply).trans_le ((hord c).count ht _))
  rw [← hid] at hrequest ⊢
  exact hserved.mem_written hcorr hb hlt hconn hrequest

/-- A call that has stored its sender holds the connection of it. -/
theorem Correlated.holds_of_stored (h : Correlated s) {x : ChanId}
    (hx : (s.calls k).pc.stored = some x) : (s.calls k).pc.holds = some (s.chans x).conn := by
  cases hpc : (s.calls k).pc with
  | send c id y | wait c id y =>
    rw [hpc] at hx
    obtain rfl : y = x := Option.some.inj hx
    rw [(h.attempt (k := k) (by rw [hpc]; rfl)).2.2.1]
    rfl
  | _ =>
    rw [hpc] at hx
    cases hx

/-- The sender of a call stays where it is until a reply comes, which it does not to a request that
is not on the wire. -/
theorem Change.oneshot_empty (h : Change s a s') (hs : handler.Reach WellBehaved s) (hb : Bounded s)
    {c : ConnId} {id : UInt32} {x : ChanId} (ha : (s.calls k).pc.attempt = some (c, id, x))
    (hstored : (s'.calls k).pc.stored = some x) (hempty : (s.chans x).oneshot = .empty)
    (hwritten : (s.conns c).readTask = .running →
      (x, id) ∉ (s.conns c).written.filterMap QueuedFrame.request?) :
    (s'.chans x).oneshot = .empty := by
  have hcorr := correlated_of_reach hs
  obtain ⟨hx, -, hconn, hid, -⟩ := hcorr.attempt ha
  cases ho : (s'.chans x).oneshot with
  | empty => rfl
  | sent p =>
    rcases h.replied hx ho with hp | ⟨d, header, ht, hand, hdemux⟩
    · rw [hempty] at hp
      cases hp
    · obtain ⟨-, hconn', hid', -⟩ := hcorr.entry hdemux
      obtain rfl : c = d := hconn.symm.trans hconn'
      obtain rfl : id = header.clrId := hid.symm.trans hid'
      exact absurd (mem_written_of_inHand hs hb ht hand hdemux) (hwritten ht)
  | closed =>
    -- no id was drawn twice, so that the sender was not pushed out of the map
    have hkept : Kept s' := (kept_of_reach hs hb).change hcorr hb h
    have hholds := (hcorr.change h).holds_of_stored (k := k) hstored
    have hx' := (h.chan hx).1
    exact absurd ho (hkept.kept hx' (hkept.stored hstored)
      (((holding_of_reach hs).change h).call hholds).2).1

/-- The channel of a call is not closed with a connection. -/
theorem Holding.chans_reap (hh : Holding s) {x : ChanId}
    (hk : (s.calls k).pc.holds = some (s.chans x).conn) : s.reap.chans x = s.chans x := by
  show (if _ then _ else s.chans x : Chan) = _
  refine if_neg fun hr => ?_
  have hreaped := hr.1
  rw [State.reaped, hh.held hk] at hreaped
  simp at hreaped

/-- A call has no reply before it asks for it. -/
theorem oneshot_of_send (hs : handler.Reach WellBehaved s) (hb : Bounded s) {c : ConnId}
    {id : UInt32} {x : ChanId} (hpc : (s.calls k).pc = .send c id x) :
    (s.chans x).oneshot = .empty := by
  refine hs.invariant_of_bound (P := fun s => ∀ k c id x, (s.calls k).pc = .send c id x →
      (s.chans x).oneshot = .empty) (fun _ _ _ hst => Bounded.of_step hst) ?_
    (fun s a s' hr hb _ h _ hstep => ?_) hb k c id x hpc
  · rintro s ⟨cfg, rfl⟩ k c id x hpc
    cases hpc
  · obtain ⟨s₁, hc, rfl⟩ := step_cases hstep
    intro k c id x hpc
    have hpc₁ : (s₁.calls k).pc = .send c id x := hpc
    have hcorr := correlated_of_reach hr
    have hwritten : (x, id) ∉ (s.conns c).written.filterMap QueuedFrame.request? := by
      intro hx
      obtain ⟨-, -, -, hstored, hunsent⟩ :=
        (served_and_orderly_of_reach hr hb).1.request (Connection.mem_requests_of_written hx)
      rcases hc.send hpc₁ with hp | hp
      · exact hunsent k c id hp
      · exact hstored (hcorr.unstored hp).2
    have hempty : (s₁.chans x).oneshot = .empty := by
      rcases hc.send hpc₁ with hp | hp
      · exact hc.oneshot_empty hr hb (k := k) (by rw [hp]; rfl) (by rw [hpc₁]; rfl) (h k c id x hp)
          fun _ => hwritten
      · exact hc.oneshot_empty hr hb (k := k) (by rw [hp]; rfl) (by rw [hpc₁]; rfl)
          (hcorr.unstored hp).1 fun _ => hwritten
    have hholds := (hcorr.change hc).holds_of_stored (k := k) (x := x)
      (by show (s₁.calls k).pc.stored = _; rw [hpc₁]; rfl)
    rw [(((holding_of_reach hr).change hc).tick).chans_reap hholds]
    exact hempty

/-! ## A call that hangs does so for good -/

/-- A request that is sent where a loop has ended gets no reply. -/
theorem lost_of_send (hs : handler.Reach WellBehaved s) (hb : Bounded s) (hk : k < s.callCount)
    {c : ConnId} {id : UInt32} {x : ChanId} (hpc : (s.calls k).pc = .send c id x)
    (ended : ¬ (s.conns c).Working) (hexec : s.exec k = some s') : Lost s' k := by
  have hc := change_of_exec hk hexec
  have hempty := oneshot_of_send hs hb hpc
  -- the request is not on the wire, and the loop that would write it has ended
  have hwritten : (x, id) ∉ (s.conns c).written.filterMap QueuedFrame.request? := by
    intro hx
    have hrequest := (served_and_orderly_of_reach hs hb).1.request
      (Connection.mem_requests_of_written hx)
    exact hrequest.2.2.2.2 k c id hpc
  have hcarries (hsame : (s'.conns c).written = (s.conns c).written)
      (hr : (s'.conns c).readTask = .running) : ¬ (s'.conns c).Carries (x, id) := by
    rintro (hx | ⟨hw, -⟩)
    · rw [hsame] at hx
      exact hwritten hx
    · exact ended (hc.working ⟨hr, hw⟩)
  cases hc with
  | move _ _ _ before =>
    rw [hpc] at before
    cases before
  | queue _ pc _ push =>
    rw [hpc] at pc
    cases pc
    refine .waiting (by rw [calls_setCall]) hempty (hcarries ?_)
    exact apply_update_eq (f := s.conns) Connection.written (by rw [Connection.push_eq push]) c
  | sendFailed _ pc =>
    rw [hpc] at pc
    cases pc
    refine .waiting (pc_setPc _ _ _) hempty (hcarries ?_)
    exact apply_update_eq (f := s.conns) (b := (s.conns c).refuse) Connection.written rfl c
  | draw _ pc | store _ pc | answered _ pc | unanswered _ pc =>
    rw [hpc] at pc
    cases pc
  | conn _ hl => cases hl

/-- A step of the call itself: it sends, and waits. -/
theorem Lost.exec (h : Lost s k) (hs : handler.Reach WellBehaved s) (hb : Bounded s)
    (hk : k < s.callCount) (hexec : s.exec k = some s') : Lost s' k := by
  cases h with
  | @sending c pc ended =>
    have hended : ¬ (s'.conns c).Working := fun hw => ended ((change_of_exec hk hexec).working hw)
    cases hpc : (s.calls k).pc with
    | draw d =>
      rw [hpc] at pc
      obtain rfl : d = c := Option.some.inj pc
      obtain rfl := by simpa [State.exec, hpc] using hexec
      refine .sending ?_ hended
      rw [pc_drawCorrId]
      rfl
    | store d id x =>
      rw [hpc] at pc
      obtain rfl : d = c := Option.some.inj pc
      obtain rfl := by simpa [State.exec, hpc] using hexec
      refine .sending ?_ hended
      rw [pc_setPc]
      rfl
    | send d id x =>
      rw [hpc] at pc
      obtain rfl : d = c := Option.some.inj pc
      exact lost_of_send hs hb hk hpc ended hexec
    | _ =>
      rw [hpc] at pc
      cases pc
  | waiting pc empty => simp [State.exec, pc, empty] at hexec

/-- A step of another. -/
theorem Lost.other (h : Lost s k) (hs : handler.Reach WellBehaved s) (hb : Bounded s)
    (hk : k < s.callCount) (ha : a ≠ .exec k) (hc : Change s a s') :
    Lost s' k ∨ (s'.calls k).pc = .dropped := by
  rcases hc.calls k with he | hm
  · refine .inl ?_
    cases h with
    | sending pc ended => exact .sending (by rw [he]; exact pc) fun hw => ended (hc.working hw)
    | waiting pc empty ended =>
      have hpc := (congrArg Call.pc he).trans pc
      refine .waiting hpc ?_ fun hr hcarries =>
        ended (hc.reading hr) (hc.carries (correlated_of_reach hs) pc hcarries)
      exact hc.oneshot_empty hs hb (k := k) (by rw [pc]; rfl) (by rw [hpc]; rfl) empty
        fun hr hx => ended hr (.inl hx)
  · generalize s'.calls k = call' at hm
    cases hm with
    | new _ _ _ hnew => exact absurd hnew hk.ne
    | cancel => exact .inr rfl
    | _ => exact absurd rfl ha

/-- The clock and the dropping of what nobody holds make no difference to it. -/
theorem lost_tick_reap (hcorr : Correlated s.tick) (hh : Holding s) :
    Lost s.tick.reap k ↔ Lost s k := by
  have hchan {c : ConnId} {id : UInt32} {x : ChanId} (pc : (s.calls k).pc = .wait c id x) :
      s.tick.reap.chans x = s.chans x :=
    hh.tick.chans_reap (hcorr.holds_of_stored (k := k)
      (by show (s.calls k).pc.stored = _; rw [pc]; rfl))
  have hworking (c : ConnId) : (s.tick.reap.conns c).Working = (s.conns c).Working :=
    apply_reap Connection.Working (fun _ => rfl) _ c
  have hread (c : ConnId) : (s.tick.reap.conns c).readTask = (s.conns c).readTask :=
    apply_reap Connection.readTask (fun _ => rfl) _ c
  have hcarries (c : ConnId) (r : ChanId × UInt32) :
      (s.tick.reap.conns c).Carries r = (s.conns c).Carries r :=
    apply_reap (fun conn => conn.Carries r) (fun _ => rfl) _ c
  constructor
  · rintro (⟨pc, ended⟩ | ⟨pc, empty, ended⟩)
    · exact .sending pc (by rwa [hworking] at ended)
    · rw [hchan pc] at empty
      rw [hread, hcarries] at ended
      exact .waiting pc empty ended
  · rintro (⟨pc, ended⟩ | ⟨pc, empty, ended⟩)
    · exact .sending pc (by rwa [hworking])
    · refine .waiting pc (by rwa [hchan pc]) ?_
      rw [hread, hcarries]
      exact ended

theorem lost_step (hs : handler.Reach WellBehaved s) (hle : s.callCount ≤ 2 ^ 32)
    (hk : k < s.callCount) (h : Lost s k ∨ (s.calls k).pc = .dropped)
    (hstep : handler.step s a = some s') : Lost s' k ∨ (s'.calls k).pc = .dropped := by
  have hb := (single_of_reach hs.reachable hle).bounded hs.reachable hle
  obtain ⟨s₁, hact, rfl⟩ := Option.map_eq_some_iff.mp hstep
  have hc := change_of_act hact
  rcases h with h | hpc
  · have h₁ : Lost s₁ k ∨ (s₁.calls k).pc = .dropped := by
      by_cases ha : a = .exec k
      · subst ha
        simp only [State.act, Option.ite_none_right_eq_some] at hact
        exact .inl (h.exec hs hb hk hact.2)
      · exact h.other hs hb hk ha hc
    exact h₁.imp_left (lost_tick_reap ((correlated_of_reach hs).change hc)
      ((holding_of_reach hs).change hc)).mpr
  · refine .inr ?_
    rw [calls_of_step hstep hk (by rw [hpc]; rfl)]
    exact hpc

/-- **A call that hangs** does so until its client goes away, whatever happens. -/
theorem lost_of_path (hs : handler.Reach WellBehaved s) (hk : k < s.callCount) {as : List Action}
    (h : handler.Path WellBehaved s as s') (hle : s'.callCount ≤ 2 ^ 32) (hlost : Lost s k) :
    Lost s' k ∨ (s'.calls k).pc = .dropped := by
  have hcount {s s' : State} {a : Action} (hstep : handler.step s a = some s') :
      s.callCount ≤ s'.callCount := by
    obtain ⟨s₁, hc, rfl⟩ := step_cases hstep
    exact hc.callCount_le
  have hbound (s : State) (a : Action) (s' : State) (hstep : handler.step s a = some s')
      (hle : s'.callCount ≤ 2 ^ 32) : s.callCount ≤ 2 ^ 32 := (hcount hstep).trans hle
  obtain ⟨hpath, hle₀⟩ := h.of_bound hbound hle
  refine (hpath.invariant (P := fun s => k < s.callCount ∧ (Lost s k ∨ (s.calls k).pc = .dropped))
    (fun s a s' hr h hok hstep => ?_) (hs.of_bound hbound hle₀) ⟨hk, .inl hlost⟩).2
  obtain ⟨hk, h⟩ := h
  exact ⟨hk.trans_le (hcount hstep), lost_step (hr.mono fun _ _ h => h.1)
    (hbound s a s' hstep (hok.2 s' hstep)) hk h hstep⟩

end RzProxy
