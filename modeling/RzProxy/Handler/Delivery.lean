import RzProxy.Handler.Frames

/-!
# Delivery

The backend sends replies, and the read loop of the connection looks up who is waiting for each.
With a well-behaved backend nothing stops it: it gets through everything that was sent, by itself,
and every reply is then with the one call that asked for it, unless its client is gone. What was
not replied to is still registered.

## Main definitions

* `Handed`: a frame that was taken was sent to the channel that it was taken for
* `Delivered`: a call has a reply
* `OnlyReads`: what a read loop leaves as it is

## Main results

* `handed_of_reach`: frames that were taken are handed on
* `exists_drained`: a read loop gets through what was sent
* `delivered_of_reach`: every reply is delivered
-/

namespace RzProxy

open ByteString Streaming Machines

variable {s s' : State} {a : Action}

/-! ## Frames that were taken -/

/-- A frame that was taken was sent to the channel that it was taken for. -/
def Handed (s : State) : Prop :=
  ∀ c, ∀ f ∈ (s.conns c).taken, f.chan < s.chanCount ∧ (s.chans f.chan).conn = c ∧
    (s.chans f.chan).corrId = f.header.clrId ∧ (s.chans f.chan).oneshot = .sent f.payload

/-- What was sent to a channel is not taken back. -/
theorem Change.oneshot_sent (h : Change s a s') (hcorr : Correlated s) {x : ChanId} {p : Bytes}
    (hx : x < s.chanCount) (hp : (s.chans x).oneshot = .sent p) :
    (s'.chans x).oneshot = .sent p := by
  have hne : (s.chans x).oneshot ≠ .empty := by
    rw [hp]
    nofun
  rcases h.tame_or_special with ht | hsp
  · rw [ht.chans]
    exact hp
  -- a sender that is stored, dropped or found was not used yet
  cases hsp with
  | @draw k c =>
    rw [chans_drawCorrId_of_lt s k c hx]
    exact hp
  | @store k c id y =>
    show ((s.store c id y).chans x).oneshot = _
    rw [(chans_store s c id y x).2.1, if_neg fun he => hne (hcorr.entry he).2.2.2.1]
    exact hp
  | answered => exact hp
  | @cancelStore k c id y pc =>
    show ((s.closeChan y).chans x).oneshot = _
    rw [chans_closeChan, if_neg]
    · exact hp
    · rintro rfl
      exact hne (hcorr.unstored pc).1
  | @take c header payload y stored =>
    have hxy : x ≠ y := by
      rintro rfl
      exact hne (hcorr.entry stored).2.2.2.1
    show (Function.update s.chans y _ x).oneshot = _
    rw [Function.update_of_ne hxy]
    exact hp

theorem oneshot_reap_of_sent (hcorr : Correlated s) {x : ChanId} {p : Bytes}
    (hp : (s.chans x).oneshot = .sent p) : (s.reap.chans x).oneshot = .sent p := by
  show (if _ then _ else s.chans x : Chan).oneshot = _
  split_ifs with hr
  · rw [(hcorr.entry hr.2).2.2.2.1] at hp
    cases hp
  · exact hp

/-- A frame that is new among those taken was sent to the sender that the map had for it. -/
theorem Change.mem_taken (h : Change s a s') {c : ConnId} {f : Taken}
    (hf : f ∈ (s'.conns c).taken) : f ∈ (s.conns c).taken ∨
      (s.conns c).demux f.header.clrId = some f.chan ∧
        (s'.chans f.chan).oneshot = .sent f.payload := by
  rcases h.tame_or_special with ht | hsp
  · rw [show (s'.conns c).taken = (s.conns c).taken from
      congrArg (fun r => r.2.2.2.2) (ht.conns c)] at hf
    exact .inl hf
  cases hsp with
  | @draw k d =>
    have htaken : ∀ e, ((s.drawCorrId k d).conns e).taken = (s.conns e).taken :=
      apply_update_eq Connection.taken rfl
    exact .inl (htaken c ▸ hf)
  | @store k d id y =>
    have htaken : ∀ e, ((s.store d id y).conns e).taken = (s.conns e).taken :=
      apply_update_eq Connection.taken rfl
    exact .inl (htaken c ▸ hf)
  | answered | cancelStore => exact .inl hf
  | @take d header payload y stored =>
    rcases of_update_or (P := fun k : Connection => f ∈ k.taken) hf with hold | ⟨rfl, hnew⟩
    · exact .inl hold
    · refine (List.mem_append.mp hnew).imp_right fun hnew => ?_
      obtain rfl := List.mem_singleton.mp hnew
      refine ⟨stored, ?_⟩
      show (Function.update s.chans y _ y).oneshot = _
      rw [Function.update_self]

theorem handed_of_reach {ok : State → Action → Prop} (hs : handler.Reach ok s) : Handed s := by
  refine hs.invariant ?_ fun s a s' hr h _ hstep => ?_
  · rintro s ⟨cfg, rfl⟩ c f hf
    cases hf
  · obtain ⟨s₁, hc, rfl⟩ := step_cases hstep
    have hcorr := correlated_of_reach hr
    intro c f hf
    have hf₁ : f ∈ (s₁.conns c).taken := by
      rw [conns_reap] at hf
      split_ifs at hf
      · exact hf
      · exact hf
    obtain ⟨hlt, hconn, hid, hsent⟩ : f.chan < s.chanCount ∧ (s.chans f.chan).conn = c ∧
        (s.chans f.chan).corrId = f.header.clrId ∧ (s₁.chans f.chan).oneshot = .sent f.payload := by
      rcases hc.mem_taken hf₁ with hold | ⟨hentry, hsent⟩
      · obtain ⟨hlt, hconn, hid, hp⟩ := h c f hold
        exact ⟨hlt, hconn, hid, hc.oneshot_sent hcorr hlt hp⟩
      · obtain ⟨hlt, hconn, hid, -⟩ := hcorr.entry hentry
        exact ⟨hlt, hconn, hid, hsent⟩
    obtain ⟨hlt', hl, -⟩ := hc.chan hlt
    simp only [Chan.label, Prod.mk.injEq] at hl
    have hlabel := label_reap s₁.tick f.chan
    simp only [Chan.label, Prod.mk.injEq] at hlabel
    refine ⟨hlt', hlabel.2.1.trans (hl.2.1.trans hconn),
      hlabel.2.2.1.trans (hl.2.2.1.trans hid), ?_⟩
    exact oneshot_reap_of_sent (hcorr.change hc) hsent

/-! ## What becomes of a request -/

/-- A call has a reply: it returned it, or returns it with its next step; or its client is gone. -/
inductive Delivered (s : State) (k : CallId) (b : Bytes) : Prop
  | returned (pc : (s.calls k).pc = .finished (.ok b))
  | next {s' : State} (exec : s.exec k = some s') (pc : (s'.calls k).pc = .finished (.ok b))
  | gone (pc : (s.calls k).pc = .dropped)

/-- The call of a request waits for its reply, or has it, or is gone. -/
theorem pc_of_request (hs : handler.Reachable s) (hle : s.callCount ≤ 2 ^ 32) {c : ConnId}
    {x : ChanId} {id : UInt32} (hx : (x, id) ∈ (s.conns c).requests) :
    (s.calls (s.chans x).call).pc = .dropped ∨ (s.calls (s.chans x).call).pc = .wait c id x ∨
      ∃ b, (s.calls (s.chans x).call).pc = .finished (.ok b) ∧ (s.chans x).oneshot = .sent b := by
  have hsingle := single_of_reach hs hle
  have hb := hsingle.bounded hs hle
  have hcorr := correlated_of_reach hs
  obtain ⟨hlt, hconn, hid, hstored, hunsent⟩ := (served_of_reach hs hb).request hx
  obtain ⟨-, hlast⟩ := hsingle.last x hlt
  have hattempt {d i y} (ha : (s.calls (s.chans x).call).pc.attempt = some (d, i, y)) :
      y = x ∧ d = c ∧ i = id := by
    obtain ⟨-, -, hd, hi, hlast'⟩ := hcorr.attempt ha
    obtain rfl : x = y := Option.some.inj (hlast.symm.trans hlast')
    exact ⟨rfl, hd.symm.trans hconn, hi.symm.trans hid⟩
  have hbetween : ¬ (s.calls (s.chans x).call).pc.Between := by
    intro hpc
    rw [hsingle.between _ hpc] at hlast
    cases hlast
  cases hpc : (s.calls (s.chans x).call).pc with
  | pick | check d | draw d | sleep d =>
    rw [hpc] at hbetween
    exact absurd trivial hbetween
  | store d i y =>
    obtain ⟨rfl, -⟩ := hattempt (by rw [hpc]; rfl)
    exact absurd (hcorr.unstored hpc).2 hstored
  | send d i y =>
    obtain ⟨rfl, -⟩ := hattempt (by rw [hpc]; rfl)
    exact absurd hpc (hunsent _ d i)
  | wait d i y =>
    obtain ⟨rfl, rfl, rfl⟩ := hattempt (by rw [hpc]; rfl)
    exact .inr (.inl rfl)
  | finished r =>
    cases r with
    | ok b =>
      obtain ⟨y, hlast', -, -, hsent⟩ := hcorr.answered hpc
      obtain rfl : x = y := Option.some.inj (hlast.symm.trans hlast')
      exact .inr (.inr ⟨b, rfl, hsent⟩)
    | error e => exact absurd (queued_of_failed hs hb hpc) (queued_of_reach hs hx).2.2
  | dropped => exact .inl rfl

/-- A reply that was sent to the channel of a request is delivered. -/
theorem delivered_of_sent (hs : handler.Reachable s) (hle : s.callCount ≤ 2 ^ 32) {c : ConnId}
    {x : ChanId} {id : UInt32} (hx : (x, id) ∈ (s.conns c).requests) {b : Bytes}
    (hb : (s.chans x).oneshot = .sent b) : Delivered s (s.chans x).call b := by
  rcases pc_of_request hs hle hx with hpc | hpc | ⟨b', hpc, hb'⟩
  · exact .gone hpc
  · have hexec : s.exec (s.chans x).call =
        some (s.setPc (s.chans x).call (.finished (.ok b))) := by
      simp only [State.exec, hpc, hb]
    exact .next hexec (pc_setPc _ _ _)
  · obtain rfl : b' = b := by simpa [hb'] using hb
    exact .returned hpc

/-! ## The read loop by itself -/

/-- The steps of the read task of `c`, when its socket does not fail. -/
def ReadsFor (c : ConnId) : Action → Prop
  | .read d | .recv d _ => d = c
  | _ => False

/-- Everything that was sent was taken. -/
def Connection.Drained (k : Connection) : Prop :=
  k.inHand = none ∧ k.buf = [] ∧ k.inbound = []

/-- The work that is left to a read loop. -/
def Connection.toRead (k : Connection) : ℕ :=
  3 * k.inbound.length + 2 * k.buf.length + k.inHand.toList.length

/-- What the read loop of `c` leaves as it is, as long as it runs. -/
structure OnlyReads (c : ConnId) (s s' : State) : Prop where
  calls : s'.calls = s.calls
  callCount : s'.callCount = s.callCount
  connCount : s'.connCount = s.connCount
  readTask : (s'.conns c).readTask = (s.conns c).readTask
  written : (s'.conns c).written = (s.conns c).written
  received : (s'.conns c).received = (s.conns c).received

theorem OnlyReads.refl (c : ConnId) (s : State) : OnlyReads c s s := ⟨rfl, rfl, rfl, rfl, rfl, rfl⟩

theorem OnlyReads.trans {c : ConnId} {s₁ : State} (h : OnlyReads c s s₁) (h' : OnlyReads c s₁ s') :
    OnlyReads c s s' where
  calls := h'.calls.trans h.calls
  callCount := h'.callCount.trans h.callCount
  connCount := h'.connCount.trans h.connCount
  readTask := h'.readTask.trans h.readTask
  written := h'.written.trans h.written
  received := h'.received.trans h.received

/-- A connection that is dropped keeps its streams and its tasks. -/
theorem apply_reap {γ : Type} (g : Connection → γ) (hg : ∀ k : Connection, g k.drop = g k)
    (s : State) (c : ConnId) : g (s.reap.conns c) = g (s.conns c) := by
  rw [conns_reap]
  split_ifs
  · exact hg _
  · rfl

/-- What a step of `c` alone makes of it. -/
theorem apply_setConn_reap {γ : Type} (g : Connection → γ) (hg : ∀ k : Connection, g k.drop = g k)
    (s : State) (c : ConnId) (k : Connection) : g ((s.setConn c k).tick.reap.conns c) = g k := by
  rw [apply_reap g hg]
  exact congrArg g (Function.update_self ..)

/-- A step of the read loop of `c`, with the connection after it. -/
theorem onlyReads_setConn {c : ConnId} {t : State} {k : Connection} (hcalls : t.calls = s.calls)
    (hcount : t.callCount = s.callCount) (hconns : t.connCount = s.connCount)
    (htask : k.readTask = (s.conns c).readTask) (hwritten : k.written = (s.conns c).written)
    (hreceived : k.received = (s.conns c).received) :
    OnlyReads c s (t.setConn c k).tick.reap ∧
      ((t.setConn c k).tick.reap.conns c).toRead = k.toRead := by
  refine ⟨⟨hcalls, hcount, hconns, ?_, ?_, ?_⟩, ?_⟩
  · rw [apply_setConn_reap Connection.readTask fun _ => rfl, htask]
  · rw [apply_setConn_reap Connection.written fun _ => rfl, hwritten]
  · rw [apply_setConn_reap Connection.received fun _ => rfl, hreceived]
  · exact apply_setConn_reap Connection.toRead (fun _ => rfl) t c k

/-- A frame takes some bytes. -/
theorem exists_used_of_look {buf rest : Bytes} {frame : Header × Bytes}
    (hlook : frameSplitter.look buf = .item frame rest) :
    ∃ used, buf = used ++ rest ∧ 0 < used.length := by
  obtain ⟨used, hused, hitem⟩ := frameLayout.exists_used_of_look hlook
  refine ⟨used, hused, List.length_pos_of_ne_nil ?_⟩
  rintro rfl
  have hnil : frameSplitter.look ([] ++ []) = .item frame [] := hitem []
  cases hnil

/-- Where the buffer has no frame there is more to read, as long as there is anything. -/
theorem inbound_ne_nil {conn : Connection} {replies : List (UInt32 × Bytes)}
    (hw : ∀ f ∈ replies, WellFormedPayload f.2)
    (hbytes : conn.buf ++ conn.inbound = replyBytes replies) (hand : conn.inHand = none)
    (hlook : frameSplitter.look conn.buf = .more) (hleft : ¬ conn.Drained) : conn.inbound ≠ [] := by
  intro hnil
  rw [hnil, List.append_nil] at hbytes
  cases replies with
  | nil => exact hleft ⟨hand, hbytes, hnil⟩
  | cons f replies =>
    have hitem := look_prependHeader (hw f List.mem_cons_self) f.1 (replyBytes replies)
    have hcons : replyBytes (f :: replies) = prependHeader f.1 f.2 ++ replyBytes replies := rfl
    rw [← hcons, ← hbytes, hlook] at hitem
    cases hitem

/-- **A read loop that is not done goes on**, and never stops at a frame. -/
theorem exists_read_step (hs : handler.Reach WellBehaved s) (hle : s.callCount ≤ 2 ^ 32)
    {c : ConnId} (hc : c < s.connCount) (ht : (s.conns c).readTask = .running)
    (hleft : ¬ (s.conns c).Drained) : ∃ a s', ReadsFor c a ∧ handler.step s a = some s' ∧
      OnlyReads c s s' ∧ (s'.conns c).toRead < (s.conns c).toRead := by
  have hr := hs.reachable
  have hb := (single_of_reach hr hle).bounded hr hle
  obtain ⟨hserved, hord⟩ := served_and_orderly_of_reach hs hb
  obtain ⟨replies, hw, hbytes⟩ := (hord c).answering ht
  cases hand : (s.conns c).inHand with
  | some frame =>
    obtain ⟨header, payload⟩ := frame
    obtain ⟨x, hx⟩ := lookup_of_orderly (correlated_of_reach hs) hb (holding_of_reach hs)
      (kept_of_reach hr hb) hserved (fed_of_reach hs c) (hord c) ht hand
    obtain ⟨hreads, hleft'⟩ := onlyReads_setConn (s := s) (c := c)
      (t := s.setChan x fun chan => { chan with oneshot := .sent payload })
      (k := (s.conns c).take header payload x s.clock) rfl rfl rfl rfl rfl rfl
    refine ⟨.read c, _, rfl, ?_, hreads, ?_⟩
    · show ((s.readTask c).map fun s => s.tick.reap) = _
      simp only [State.readTask, if_pos hc, ht, hand, State.dispatch, hx, Option.map_some]
    · rw [hleft']
      simp [Connection.toRead, Connection.take, hand]
  | none =>
    rcases look_of_replyBytes hw hbytes with hlook | ⟨f, replies', rfl, rest, hlook, hrest⟩
    · have hpos : 0 < (s.conns c).inbound.length :=
        List.length_pos_of_ne_nil (inbound_ne_nil hw hbytes hand hlook hleft)
      have hrecv : (s.conns c).recv (s.conns c).inbound.length = some { s.conns c with
          buf := (s.conns c).buf ++ (s.conns c).inbound, inbound := [] } := by
        rw [Connection.recv, if_pos ⟨⟨ht, hand, hlook⟩, hpos, le_refl _⟩, List.take_length,
          List.drop_length]
      obtain ⟨hreads, hleft'⟩ := onlyReads_setConn (s := s) (c := c) (t := s)
        (k := { s.conns c with
          buf := (s.conns c).buf ++ (s.conns c).inbound, inbound := [] }) rfl rfl rfl rfl rfl rfl
      refine ⟨.recv c (s.conns c).inbound.length, _, rfl, ?_, hreads, ?_⟩
      · show ((s.onConn c (Connection.recv _)).map fun s => s.tick.reap) = _
        simp only [State.onConn, if_pos hc, hrecv, Option.map_some]
      · rw [hleft']
        simp only [Connection.toRead, List.length_append, List.length_nil]
        omega
    · obtain ⟨used, hused, hlen⟩ := exists_used_of_look hlook
      have hread : (s.conns c).read = some { s.conns c with
          buf := rest, inHand := some (expectedHeader f.1 f.2, f.2) } := by
        simp only [Connection.read, ht, hlook]
      obtain ⟨hreads, hleft'⟩ := onlyReads_setConn (s := s) (c := c) (t := s)
        (k := { s.conns c with buf := rest, inHand := some (expectedHeader f.1 f.2, f.2) })
        rfl rfl rfl rfl rfl rfl
      refine ⟨.read c, _, rfl, ?_, hreads, ?_⟩
      · show ((s.readTask c).map fun s => s.tick.reap) = _
        simp only [State.readTask, if_pos hc, ht, hand, State.onConn, hread, Option.map_some]
      · rw [hleft']
        simp only [Connection.toRead, hand, hused, List.length_append, Option.toList_some,
          Option.toList_none, List.length_singleton, List.length_nil]
        omega

/-- **A read loop gets through what was sent**, by itself. -/
theorem exists_drained (hs : handler.Reach WellBehaved s) (hle : s.callCount ≤ 2 ^ 32)
    {c : ConnId} (hc : c < s.connCount) (ht : (s.conns c).readTask = .running) :
    ∃ as s', handler.Path (fun _ a => ReadsFor c a) s as s' ∧
      (handler.Reach WellBehaved s' ∧ OnlyReads c s s') ∧ (s'.conns c).Drained := by
  refine Machine.exists_path_of_rank
    (P := fun s' => handler.Reach WellBehaved s' ∧ OnlyReads c s s')
    (fun s' => (s'.conns c).toRead) (fun s₁ h₁ hleft => ?_) ⟨hs, .refl c s⟩
  obtain ⟨hs₁, hreads⟩ := h₁
  obtain ⟨a, s₂, ha, hstep, hreads', hlt⟩ := exists_read_step hs₁ (hreads.callCount.trans_le hle)
    (hreads.connCount.symm ▸ hc) (hreads.readTask.trans ht) hleft
  have hok : WellBehaved s₁ a := by
    cases a <;> trivial
  exact ⟨[a], s₂, .single ha hstep, ⟨.step hs₁ hok hstep, hreads.trans hreads'⟩, hlt⟩

/-! ## Replies -/

/-- Once everything was taken, the frames of the backend are the ones that were taken. -/
theorem Connection.Fed.frames_of_drained {k : Connection} (h : k.Fed) (ht : k.readTask = .running)
    (hd : k.Drained) : k.frames = k.taken.map fun f => (f.header, f.payload) := by
  obtain ⟨hhand, hbuf, hinbound⟩ := hd
  rw [h.frames_eq ht, hbuf, hinbound, Connection.drained, hhand, List.append_nil,
    frameSplitter_split_nil, Option.toList_none, List.append_nil, List.append_nil]

theorem Connection.mem_requests_of_written {k : Connection} {x : ChanId} {id : UInt32}
    (h : (x, id) ∈ k.written.filterMap QueuedFrame.request?) : (x, id) ∈ k.requests := by
  rw [Connection.requests, List.filterMap_append]
  exact List.mem_append_left _ h

/-- Under the bound, an id on the wire is that of the one channel that has it. -/
theorem Served.mem_written (h : Served s) (hcorr : Correlated s) (hb : Bounded s) {c : ConnId}
    {x : ChanId} (hx : x < s.chanCount) (hconn : (s.chans x).conn = c)
    (hid : (s.chans x).corrId ∈ (s.conns c).requestIds) :
    (x, (s.chans x).corrId) ∈ (s.conns c).written.filterMap QueuedFrame.request? := by
  rw [Connection.requestIds_eq] at hid
  obtain ⟨⟨y, i⟩, hy, hi⟩ := List.mem_map.mp hid
  obtain rfl : i = (s.chans x).corrId := hi
  obtain ⟨hyl, hyc, hyi, -⟩ := h.request (Connection.mem_requests_of_written hy)
  obtain rfl := hcorr.eq_of_corrId hb hyl hx (hyc.trans hconn.symm) hyi
  exact hy

/-- A frame that was taken is the reply to a request on the wire. -/
theorem exists_request_of_taken (hs : handler.Reach WellBehaved s) (hb : Bounded s) {c : ConnId}
    (ht : (s.conns c).readTask = .running)
    (hframes : (s.conns c).frames = (s.conns c).taken.map fun f => (f.header, f.payload))
    {f : Taken} (hf : f ∈ (s.conns c).taken) :
    (f.chan, f.header.clrId) ∈ (s.conns c).written.filterMap QueuedFrame.request? ∧
      (s.chans f.chan).oneshot = .sent f.payload := by
  obtain ⟨hserved, hord⟩ := served_and_orderly_of_reach hs hb
  obtain ⟨hlt, hconn, hid, hsent⟩ := handed_of_reach hs c f hf
  have hreply : 0 < (s.conns c).replyIds.count f.header.clrId := by
    refine List.count_pos_iff.mpr (List.mem_map.mpr ⟨(f.header, f.payload), ?_, rfl⟩)
    rw [hframes]
    exact List.mem_map.mpr ⟨f, hf, rfl⟩
  have hrequest : f.header.clrId ∈ (s.conns c).requestIds :=
    List.count_pos_iff.mp (hreply.trans_le ((hord c).count ht _))
  rw [← hid] at hrequest ⊢
  exact ⟨hserved.mem_written (correlated_of_reach hs) hb hlt hconn hrequest, hsent⟩

/-- A request without a reply is still registered. -/
theorem registered_of_unanswered (hs : handler.Reach WellBehaved s) (hb : Bounded s) {c : ConnId}
    (ht : (s.conns c).readTask = .running) {x : ChanId} {id : UInt32}
    (hx : (x, id) ∈ (s.conns c).written.filterMap QueuedFrame.request?)
    (hid : id ∉ (s.conns c).replyIds) :
    (s.conns c).demux id = some x ∧ (s.chans x).oneshot = .empty := by
  have hcorr := correlated_of_reach hs
  have hkept := kept_of_reach hs.reachable hb
  have hserved := (served_and_orderly_of_reach hs hb).1
  have hheld : (s.conns c).heldByTask = true := by simp [Connection.heldByTask, ht]
  obtain ⟨hlt, hconn, hcorrId, hstored, -⟩ :=
    hserved.request (Connection.mem_requests_of_written hx)
  obtain ⟨hopen, hdemux⟩ := hkept.kept hlt hstored (hconn ▸ (holding_of_reach hs).task hheld)
  have hempty : (s.chans x).oneshot = .empty := by
    cases ho : (s.chans x).oneshot with
    | empty => rfl
    | closed => exact absurd ho hopen
    | sent p =>
      obtain ⟨f, n, t, hn, -, hf, -⟩ := hcorr.sent hlt ho
      rw [hconn] at hn
      refine absurd (List.mem_map.mpr ⟨(f.header, f.payload), ?_, hf.trans hcorrId⟩) hid
      exact List.mem_of_getElem? ((fed_of_reach hs c).getElem?_frames hn)
  exact ⟨hcorrId ▸ hconn ▸ hdemux hempty, hempty⟩

/-- **Every reply is delivered**: with a well-behaved backend the read loop of a connection gets
through all that was sent, whenever it is left to itself. No two replies are then for one request,
and each is with the call that wrote the request; a request without a reply is registered, and its
call waits, unless the client is gone. -/
theorem delivered_of_reach (hs : handler.Reach WellBehaved s) (hle : s.callCount ≤ 2 ^ 32)
    {c : ConnId} (hc : c < s.connCount) (ht : (s.conns c).readTask = .running) :
    ∃ as s', (∀ a ∈ as, ReadsFor c a) ∧ handler.run s as = some s' ∧ OnlyReads c s s' ∧
      (s'.conns c).replyIds.Nodup ∧
      (∀ f ∈ (s'.conns c).frames,
        ∃ x, (x, f.1.clrId) ∈ (s'.conns c).written.filterMap QueuedFrame.request? ∧
          Delivered s' (s'.chans x).call f.2) ∧
      ∀ x id, (x, id) ∈ (s'.conns c).written.filterMap QueuedFrame.request? →
        id ∉ (s'.conns c).replyIds → (s'.conns c).demux id = some x ∧
          ((s'.calls (s'.chans x).call).pc = .dropped ∨
            (s'.calls (s'.chans x).call).pc = .wait c id x) := by
  obtain ⟨as, s', hpath, ⟨hs', hreads⟩, hdrained⟩ := exists_drained hs hle hc ht
  obtain ⟨has, hrun⟩ := Machine.path_own_iff.mp hpath
  have hr' := hs'.reachable
  have hle' : s'.callCount ≤ 2 ^ 32 := hreads.callCount.trans_le hle
  have hb' := (single_of_reach hr' hle').bounded hr' hle'
  have ht' : (s'.conns c).readTask = .running := hreads.readTask.trans ht
  have hframes := (fed_of_reach hs' c).frames_of_drained ht' hdrained
  obtain ⟨hserved, hord⟩ := served_and_orderly_of_reach hs' hb'
  refine ⟨as, s', has, hrun, hreads, ?_, fun f hf => ?_, fun x id hx hid => ?_⟩
  · refine List.nodup_iff_count_le_one.mpr fun id => ((hord c).count ht' id).trans ?_
    exact hserved.count_requestIds_le_one (correlated_of_reach hs') hb' c id
  · rw [hframes] at hf
    obtain ⟨t, htaken, rfl⟩ := List.mem_map.mp hf
    obtain ⟨hx, hsent⟩ := exists_request_of_taken hs' hb' ht' hframes htaken
    exact ⟨t.chan, hx, delivered_of_sent hr' hle' (Connection.mem_requests_of_written hx) hsent⟩
  · obtain ⟨hdemux, hempty⟩ := registered_of_unanswered hs' hb' ht' hx hid
    refine ⟨hdemux, ?_⟩
    rcases pc_of_request hr' hle' (Connection.mem_requests_of_written hx) with h | h | ⟨b, -, hsent⟩
    · exact .inl h
    · exact .inr h
    · rw [hempty] at hsent
      cases hsent

/-- A reply that has arrived, to the one call. -/
theorem delivered_of_reach_one_call :
    ∃ s₁ s, handler.run (State.initial ⟨.standalone, "host", 1, 1⟩)
        [.reconnect true, .reconnect true, .reconnect true, .call "eu" false [1, 65], .exec 0,
          .exec 0, .exec 0, .exec 0, .exec 0, .write 0] = some s₁ ∧
      handler.run s₁ [.deliver 0 (prependHeader 1 [0, 0, 0])] = some s ∧
      ∃ as s', (∀ a ∈ as, ReadsFor 0 a) ∧ handler.run s as = some s' ∧
        ∀ f ∈ (s'.conns 0).frames, ∃ x, Delivered s' (s'.chans x).call f.2 := by
  have hrun₁ : ((handler.run (State.initial ⟨.standalone, "host", 1, 1⟩)
      [.reconnect true, .reconnect true, .reconnect true, .call "eu" false [1, 65], .exec 0,
        .exec 0, .exec 0, .exec 0, .exec 0, .write 0]).map fun s =>
          ((s.conns 0).requestIds, (s.conns 0).received)) = some ([1], []) := by decide
  have hrun : (((handler.run (State.initial ⟨.standalone, "host", 1, 1⟩)
      [.reconnect true, .reconnect true, .reconnect true, .call "eu" false [1, 65], .exec 0,
        .exec 0, .exec 0, .exec 0, .exec 0, .write 0]).bind fun s₁ =>
          handler.run s₁ [.deliver 0 (prependHeader 1 [0, 0, 0])]).map fun s =>
            ((s.conns 0).readTask, s.callCount, s.connCount)) = some (.running, 1, 1) := by decide
  obtain ⟨s₁, hs₁, hsent⟩ := Option.map_eq_some_iff.mp hrun₁
  obtain ⟨hids, hreceived⟩ := Prod.mk.inj hsent
  obtain ⟨s, hs, hstate⟩ := Option.map_eq_some_iff.mp hrun
  rw [hs₁, Option.bind_some] at hs
  obtain ⟨s₂, hs₂, hs₃⟩ := Option.bind_eq_some_iff.mp hs
  have hok : WellBehaved s₁ (.deliver 0 (prependHeader 1 [0, 0, 0])) := by
    refine ⟨1, [0, 0, 0], rfl, ⟨0, [0, 0], rfl, by decide, by decide⟩, ?_⟩
    rw [hids, Connection.replyIds, Connection.frames, hreceived, frameSplitter_split_nil]
    decide
  have hr₁ : handler.Reach WellBehaved s₁ :=
    Machine.Reach.run (.init ⟨_, rfl⟩) (by simp [WellBehaved]) hs₁
  have hr : handler.Reach WellBehaved s :=
    Machine.Reach.run (.step hr₁ hok hs₂) (by simp) hs₃
  have hcalls : s.callCount = 1 := congrArg (·.2.1) hstate
  have hconns : s.connCount = 1 := congrArg (·.2.2) hstate
  obtain ⟨as, s', has, hrun', -, -, hdelivered, -⟩ := delivered_of_reach hr
    (by rw [hcalls]; decide) (c := 0) (by rw [hconns]; decide) (congrArg Prod.fst hstate)
  refine ⟨s₁, s, hs₁, hs, as, s', has, hrun', fun f hf => ?_⟩
  obtain ⟨x, -, hx⟩ := hdelivered f hf
  exact ⟨x, hx⟩

end RzProxy
