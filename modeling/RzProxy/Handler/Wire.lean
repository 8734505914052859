import RzProxy.Handler.Pending

/-!
# The outgoing stream

A call frames its request for the mode of the proxy, a shard frame in standalone mode and a router
frame otherwise. The keepalive task does not know the mode: its frame is a router frame. So what a
standalone connection writes is a stream of shard frames, one for each request in the order of the
queue, for as long as no keepalive is sent.

## Main definitions

* `shardSplitter`: a parser of the frames of `prependHeader`
* `ShardStream`: the stream of a connection is read back as its requests
* `SendsRequests`: the condition on a step

## Main results

* `not_forall_shardStream`: a keepalive on an idle standalone connection
* `shardStream_iff`: of the frames that were written whole, only a keepalive spoils a stream
* `shardStream_of_reach`: streams are read back in runs whose steps meet the condition
-/

namespace RzProxy

open ByteString Streaming Machines

/-! ## Shard frames as a layout -/

theorem shardHead_pos : 0 < 9 := by decide

/-- Shard frames: the head is the magic byte, the id and the length of the payload. -/
def shardLayout : Layout UInt8 (UInt32 × Bytes) ProtocolError where
  headLen := 9
  headLen_pos := shardHead_pos
  bodyLen head :=
    if head.getD 0 0 ≠ shardMagic then .error (.missingMagic (head.getD 0 0))
    else .ok (u32FromLE ((head.drop 5).take 4)).toNat
  value head body := .ok (u32FromLE ((head.drop 1).take 4), body)

/-- The ids and payloads of a stream of shard frames, which ends in `ShortFrame`. -/
def shardSplitter : Splitter UInt8 (UInt32 × Bytes) ProtocolError :=
  shardLayout.splitter .shortFrame

theorem shardSplitter_look {payload : Bytes} (h : payload.length < 2 ^ 32) (clrid : UInt32)
    (rest : Bytes) :
    shardSplitter.look (prependHeader clrid payload ++ rest) = .item (clrid, payload) rest := by
  obtain ⟨head, hframe, hlen, hmagic, hid, hn⟩ := exists_head_prependHeader h clrid
  have hbody : shardLayout.bodyLen head = .ok payload.length := by
    simp only [shardLayout, hmagic, shardMagic, ne_eq, not_true_eq_false, if_false, hn]
  have hvalue : shardLayout.value head payload = .ok (clrid, payload) := by
    simp only [shardLayout, hid]
  rw [hframe, List.append_assoc]
  exact shardLayout.look_record hlen hbody hvalue rest

/-- A stream of shard frames does not begin like a keepalive frame. -/
theorem shardSplitter_look_keepalive (rest : Bytes) :
    shardSplitter.look (buildKeepaliveFrame ++ rest) = .fail (.missingMagic routerMagic) :=
  shardSplitter.fail_append (by decide) rest

/-- What a write that fails leaves of a shard frame on the wire: nothing, or a part of the frame. A
part of a keepalive is not meant. -/
def CutFrame (cut : Bytes) : Prop :=
  cut = [] ∨ ∃ clrid payload ys, payload.length < 2 ^ 32 ∧ ys ≠ [] ∧
    prependHeader clrid payload = cut ++ ys

theorem split_of_cutFrame {cut : Bytes} (h : CutFrame cut) :
    shardSplitter.split cut = ([], .shortFrame) := by
  rcases h with rfl | ⟨clrid, payload, ys, hlen, hne, heq⟩
  · exact Splitter.split_of_more rfl
  · have hlook := shardSplitter_look hlen clrid []
    rw [List.append_nil, heq] at hlook
    exact Splitter.split_of_more (Splitter.look_of_cut hlook hne)

/-! ## The stream of a connection -/

/-- The id and the payload of the request that a frame was made for. -/
def State.request? (s : State) : QueuedFrame → Option (UInt32 × Bytes)
  | .request x corrId _ => some (corrId, (s.calls (s.chans x).call).payload)
  | .keepalive => none

/-- The bytes of the frames that were written. -/
def Connection.stream (k : Connection) : Bytes := k.written.flatMap QueuedFrame.bytes

/-- A parser of shard frames reads from the stream of `c` the requests that were written, in the
order of the queue, and meets no other frame. -/
def ShardStream (s : State) (c : ConnId) : Prop :=
  ∀ cut, CutFrame cut → shardSplitter.split ((s.conns c).stream ++ cut) =
    ((s.conns c).written.filterMap s.request?, .shortFrame)

/-- A step that sends no keepalive, and begins no call whose payload is too long for the length
field of its frame. -/
def SendsRequests (s : State) : Action → Prop
  | .keepalive c => (s.conns c).keepalive = .sending → (s.conns c).queueOpen = false
  | .call _ _ payload => payload.length < 2 ^ 32
  | _ => True

/-- **A keepalive** on an idle standalone connection is a router frame. -/
theorem not_forall_shardStream :
    ¬ ∀ s, handler.Reachable s → s.cfg.mode = .standalone → ∀ c, ShardStream s c := by
  intro h
  have hrun : (handler.run (State.initial ⟨.standalone, "host", 1, 1⟩)
      [.reconnect true, .reconnect true, .reconnect true, .keepalive 0, .keepalive 0,
        .write 0]).map (fun s => (s.cfg.mode, (s.conns 0).written)) =
      some (.standalone, [.keepalive]) := by decide
  obtain ⟨s, hs, hstate⟩ := Option.map_eq_some_iff.mp hrun
  obtain ⟨hmode, hwritten⟩ := Prod.mk.inj hstate
  have hr : handler.Reachable s := Machine.Reach.run (.init ⟨_, rfl⟩) (fun _ _ _ => trivial) hs
  have hstream : (s.conns 0).stream = buildKeepaliveFrame ++ [] := by
    rw [Connection.stream, hwritten]
    rfl
  have hsplit := h s hr hmode 0 [] (.inl rfl)
  rw [List.append_nil, hstream,
    Splitter.split_of_fail (shardSplitter_look_keepalive [])] at hsplit
  exact absurd (congrArg Prod.snd hsplit) (by nofun)

/-! ## Frames of requests -/

variable {s : State}

/-- A frame of a request is the frame of a call, under the id of its channel. -/
def OfCall (s : State) : QueuedFrame → Prop
  | .request x corrId frame => x < s.chanCount ∧ (s.chans x).call < s.callCount ∧
      frame = s.buildFrame (s.calls (s.chans x).call) corrId
  | .keepalive => True

/-- The frames of a connection that were written or are queued. -/
def Connection.sent (k : Connection) : List QueuedFrame := k.written ++ k.queue

theorem Change.cfg {s' : State} {a : Action} (h : Change s a s') : s'.cfg = s.cfg := by
  cases h <;> rfl

/-- What a call asks for does not change. -/
theorem Change.call {s' : State} {a : Action} (h : Change s a s') {k : CallId}
    (hk : k < s.callCount) : (s'.calls k).segment = (s.calls k).segment ∧
      (s'.calls k).isWrite = (s.calls k).isWrite ∧ (s'.calls k).payload = (s.calls k).payload := by
  rcases h.calls k with he | hm
  · rw [he]
    exact ⟨rfl, rfl, rfl⟩
  · generalize s'.calls k = call' at hm
    cases hm with
    | new _ _ _ hnew => exact absurd hnew hk.ne
    | _ => exact ⟨rfl, rfl, rfl⟩

theorem OfCall.change {s' : State} {a : Action} (h : Change s a s') {frame : QueuedFrame}
    (hf : OfCall s frame) : OfCall s' frame := by
  cases frame with
  | keepalive => trivial
  | request x corrId bytes =>
    obtain ⟨hx, hcall, rfl⟩ := hf
    obtain ⟨hx', hl, -⟩ := h.chan hx
    have hcall' : (s'.chans x).call = (s.chans x).call := congrArg (·.1) hl
    obtain ⟨hseg, hwrite, hpayload⟩ := h.call hcall
    refine ⟨hx', hcall' ▸ hcall.trans_le h.callCount_le, ?_⟩
    rw [hcall', State.buildFrame, State.buildFrame, h.cfg, hseg, hwrite, hpayload]

theorem Connection.mem_sent_push {k k' : Connection} {m : ℕ} {f frame : QueuedFrame}
    (h : k.push m f = some k') : frame ∈ k'.sent ↔ frame ∈ k.sent ∨ frame = f := by
  rw [Connection.push_eq h]
  simp [Connection.sent, or_assoc]

theorem Connection.Local.sent {m : ℕ} {c : ConnId} {a : Action} {k k' : Connection}
    (h : k.Local m c a k') {frame : QueuedFrame} (hf : frame ∈ k'.sent) :
    frame ∈ k.sent ∨ frame = .keepalive ∧ a = .keepalive c ∧ k.keepalive = .sending ∧
      k.queueOpen = true := by
  cases h with
  | write task next =>
    refine .inl ?_
    simpa [Connection.sent, next] using hf
  | writeDone =>
    refine .inl (List.mem_append_left _ ?_)
    simpa [Connection.sent] using hf
  | @writeError whole first queue task next =>
    refine .inl ?_
    cases whole
    · rcases List.mem_append.mp hf with hf | hf
      · exact List.mem_append_left _ hf
      · refine List.mem_append_right _ ?_
        rw [next]
        exact List.mem_cons_of_mem _ hf
    · simpa [Connection.sent, next] using hf
  | keepaliveSend task isOpen =>
    have hf' : frame ∈ k.sent ∨ frame = .keepalive := by
      simpa [Connection.sent, or_assoc] using hf
    exact hf'.imp_right fun he => ⟨he, rfl, task, isOpen⟩
  | _ => exact .inl hf

/-- A frame is sent by a call or by the keepalive task. -/
theorem Change.sent {s' : State} {a : Action} (h : Change s a s') (hcorr : Correlated s)
    {c : ConnId} {frame : QueuedFrame} (hf : frame ∈ (s'.conns c).sent) :
    frame ∈ (s.conns c).sent ∨
      (frame = .keepalive ∧ a = .keepalive c ∧ (s.conns c).keepalive = .sending ∧
        (s.conns c).queueOpen = true) ∨
      ∃ x corrId bytes, frame = .request x corrId bytes ∧ OfCall s frame := by
  have hupd : ∀ {d : ConnId} {k : Connection}, frame ∈ (Function.update s.conns d k c).sent →
      frame ∈ (s.conns c).sent ∨ c = d ∧ frame ∈ k.sent :=
    of_update_or (P := fun k : Connection => frame ∈ k.sent)
  cases h with
  | newCall | move | answered | unanswered | cancel | cancelStore | lock | connect => exact .inl hf
  | draw | store | sendFailed | take =>
    rcases hupd hf with hold | ⟨rfl, hnew⟩
    · exact .inl hold
    · exact .inl hnew
  | @queue k d corrId x conn hk pc isOpen push =>
    rcases hupd hf with hold | ⟨rfl, hnew⟩
    · exact .inl hold
    · rcases (Connection.mem_sent_push push).mp hnew with hold | rfl
      · exact .inl hold
      · obtain ⟨hx, hcall, -⟩ := hcorr.attempt (k := k) (by rw [pc]; rfl)
        exact .inr (.inr ⟨x, corrId, _, rfl, hx, hcall.symm ▸ hk, by rw [hcall]⟩)
  | conn hd hl =>
    rcases hupd hf with hold | ⟨rfl, hnew⟩
    · exact .inl hold
    · rcases hl.sent hnew with hold | hka
      · exact .inl hold
      · exact .inr (.inl hka)

theorem sent_reap (s : State) (c : ConnId) : (s.reap.conns c).sent = (s.conns c).sent := by
  rw [conns_reap]
  split_ifs <;> rfl

theorem OfCall.reap {frame : QueuedFrame} (h : OfCall s frame) : OfCall s.reap frame := by
  cases frame with
  | keepalive => trivial
  | request x corrId bytes =>
    have hcall : (s.reap.chans x).call = (s.chans x).call := by
      show (if _ then _ else s.chans x : Chan).call = _
      split_ifs <;> rfl
    obtain ⟨hx, hlt, hframe⟩ := h
    refine ⟨hx, ?_, ?_⟩
    · rw [hcall]
      exact hlt
    · rw [hcall]
      exact hframe

/-- **Frames are those of calls**, in both modes. -/
theorem ofCall_of_reach {ok : State → Action → Prop} (hs : handler.Reach ok s) {c : ConnId}
    {frame : QueuedFrame} (hf : frame ∈ (s.conns c).sent) : OfCall s frame := by
  refine hs.invariant (P := fun s => ∀ c, ∀ frame ∈ (s.conns c).sent, OfCall s frame) ?_
    (fun s a s' hr h _ hstep => ?_) c frame hf
  · rintro s ⟨cfg, rfl⟩ c frame hf
    cases hf
  · obtain ⟨s₁, hc, rfl⟩ := step_cases hstep
    intro d f hf
    rw [sent_reap] at hf
    have hcall : OfCall s₁ f := by
      rcases hc.sent (correlated_of_reach hr) hf with hf | ⟨rfl, -⟩ | ⟨x, corrId, bytes, rfl, hf⟩
      · exact (h d f hf).change hc
      · trivial
      · exact hf.change hc
    exact OfCall.reap (s := s₁.tick) (by cases f <;> exact hcall)

/-! ## Streams that are read back -/

/-- Every payload fits the length field of its frame. -/
def PayloadsFit (s : State) : Prop := ∀ k < s.callCount, (s.calls k).payload.length < 2 ^ 32

/-- The bytes of the frames of calls, in standalone mode. -/
theorem flatMap_bytes_eq (hmode : s.cfg.mode = .standalone) {frames : List QueuedFrame}
    (hcall : ∀ frame ∈ frames, OfCall s frame) (hka : .keepalive ∉ frames) :
    frames.flatMap QueuedFrame.bytes =
      (frames.filterMap s.request?).flatMap fun f => prependHeader f.1 f.2 := by
  induction frames with
  | nil => rfl
  | cons frame frames ih =>
    have hrest := ih (fun f hf => hcall f (List.mem_cons_of_mem _ hf))
      fun hm => hka (List.mem_cons_of_mem _ hm)
    cases frame with
    | keepalive => exact absurd List.mem_cons_self hka
    | request x corrId bytes =>
      obtain ⟨-, -, rfl⟩ := hcall _ List.mem_cons_self
      rw [List.flatMap_cons, hrest]
      simp only [State.request?, List.filterMap_cons, List.flatMap_cons, QueuedFrame.bytes,
        State.buildFrame, hmode]

theorem length_payload_of_mem {frames : List QueuedFrame} (hfit : PayloadsFit s)
    (hcall : ∀ frame ∈ frames, OfCall s frame) {f : UInt32 × Bytes}
    (hf : f ∈ frames.filterMap s.request?) : f.2.length < 2 ^ 32 := by
  obtain ⟨frame, hm, heq⟩ := List.mem_filterMap.mp hf
  cases frame with
  | keepalive => cases heq
  | request x corrId bytes =>
    obtain rfl := Option.some.inj heq
    exact hfit _ (hcall _ hm).2.1

/-- The frames of calls, and anything after them, are read as their requests and the rest. -/
theorem split_frames (hmode : s.cfg.mode = .standalone) (hfit : PayloadsFit s)
    {frames : List QueuedFrame} (hcall : ∀ frame ∈ frames, OfCall s frame)
    (hka : .keepalive ∉ frames) (tail : Bytes) :
    shardSplitter.split (frames.flatMap QueuedFrame.bytes ++ tail) =
      (frames.filterMap s.request? ++ (shardSplitter.split tail).1,
        (shardSplitter.split tail).2) := by
  have hmany := shardSplitter.split_flatMap (fun f : UInt32 × Bytes => prependHeader f.1 f.2) id
    (frames.filterMap s.request?) tail fun f hf =>
      shardSplitter_look (length_payload_of_mem hfit hcall hf) f.1
  rw [flatMap_bytes_eq hmode hcall hka, hmany, List.map_id]

/-- **Only a keepalive** spoils the stream of a standalone connection, of the frames that were
written whole. The part of a keepalive that a failed write leaves behind them would spoil it as
well, which `ShardStream` does not ask about. -/
theorem shardStream_iff (hr : handler.Reachable s) (hmode : s.cfg.mode = .standalone)
    (hfit : PayloadsFit s) (c : ConnId) :
    ShardStream s c ↔ .keepalive ∉ (s.conns c).written := by
  have hcall : ∀ frame ∈ (s.conns c).written, OfCall s frame := by
    intro frame hf
    exact ofCall_of_reach hr (List.mem_append_left _ hf)
  constructor
  · intro h hka
    -- the parser stops at the first keepalive
    obtain ⟨front, rest, hw, hfront⟩ := List.eq_append_cons_of_mem hka
    have hsplit := h [] (.inl rfl)
    rw [Connection.stream, List.append_nil, hw, List.flatMap_append, List.flatMap_cons] at hsplit
    rw [split_frames hmode hfit (fun f hf => hcall f (by rw [hw]; exact List.mem_append_left _ hf))
      hfront] at hsplit
    have herror := congrArg Prod.snd hsplit
    rw [show QueuedFrame.keepalive.bytes = buildKeepaliveFrame from rfl,
      Splitter.split_of_fail (shardSplitter_look_keepalive _)] at herror
    cases herror
  · intro hka cut hcut
    rw [Connection.stream, split_frames hmode hfit hcall hka, split_of_cutFrame hcut,
      List.append_nil]

theorem Change.payloadsFit {s' : State} {a : Action} (h : Change s a s') (hfit : PayloadsFit s)
    (hok : SendsRequests s a) : PayloadsFit s' := by
  intro k hk
  by_cases hold : k < s.callCount
  · rw [(h.call hold).2.2]
    exact hfit k hold
  · cases h with
    | newCall segment isWrite payload =>
      obtain rfl : k = s.callCount :=
        Nat.le_antisymm (Nat.lt_succ_iff.mp hk) (Nat.le_of_not_lt hold)
      show (Function.update s.calls s.callCount _ s.callCount).payload.length < _
      rw [Function.update_self]
      exact hok
    | _ => exact absurd hk hold

/-- **Streams are read back** in runs of a standalone proxy that send no keepalive. -/
theorem shardStream_of_reach (hs : handler.Reach SendsRequests s)
    (hmode : s.cfg.mode = .standalone) (c : ConnId) : ShardStream s c := by
  have hinv : PayloadsFit s ∧ ∀ c, .keepalive ∉ (s.conns c).sent := by
    refine hs.invariant (P := fun s => PayloadsFit s ∧ ∀ c, .keepalive ∉ (s.conns c).sent) ?_
      fun s a s' hr h hok hstep => ?_
    · rintro s ⟨cfg, rfl⟩
      exact ⟨nofun, fun _ => List.not_mem_nil⟩
    · obtain ⟨s₁, hc, rfl⟩ := step_cases hstep
      obtain ⟨hfit, hka⟩ := h
      refine ⟨hc.payloadsFit hfit hok, fun d hm => ?_⟩
      rw [sent_reap] at hm
      rcases hc.sent (correlated_of_reach hr) hm with hm | ⟨-, rfl, htask, hopen⟩ | ⟨x, i, b, he, -⟩
      · exact hka d hm
      · rw [hok htask] at hopen
        cases hopen
      · cases he
  rw [shardStream_iff hs.reachable hmode hinv.1]
  exact fun hm => hinv.2 c (List.mem_append_left _ hm)

/-- Two requests of which the second is written in part. -/
theorem shardStream_of_reach_two_requests :
    ∃ s, handler.run (State.initial ⟨.standalone, "host", 1, 1⟩)
        [.reconnect true, .reconnect true, .reconnect true, .call "eu" false [1, 65],
          .call "eu" true [1, 66], .exec 0, .exec 0, .exec 0, .exec 0, .exec 0, .exec 1, .exec 1,
          .exec 1, .exec 1, .exec 1, .write 0, .writeError 0 false, .write 0] = some s ∧
      (s.conns 0).stream = [0xFF, 1, 0, 0, 0, 2, 0, 0, 0, 1, 65] ∧ ShardStream s 0 := by
  have hrun : (handler.run (State.initial ⟨.standalone, "host", 1, 1⟩)
      [.reconnect true, .reconnect true, .reconnect true, .call "eu" false [1, 65],
        .call "eu" true [1, 66], .exec 0, .exec 0, .exec 0, .exec 0, .exec 0, .exec 1, .exec 1,
        .exec 1, .exec 1, .exec 1, .write 0, .writeError 0 false, .write 0]).map
      (fun s => (s.cfg.mode, (s.conns 0).stream)) =
        some (.standalone, [0xFF, 1, 0, 0, 0, 2, 0, 0, 0, 1, 65]) := by decide
  obtain ⟨s, hs, hstate⟩ := Option.map_eq_some_iff.mp hrun
  obtain ⟨hmode, hstream⟩ := Prod.mk.inj hstate
  have hr : handler.Reach SendsRequests s :=
    Machine.Reach.run (.init ⟨_, rfl⟩) (by simp [SendsRequests]) hs
  exact ⟨s, hs, hstream, shardStream_of_reach hr hmode 0⟩

end RzProxy
