import RzProxy.Handler.Wire
import RzProxy.Protocol.Framing

/-!
# The outgoing stream in router mode

In router mode a keepalive is a frame like any other. As long as the segments of the calls fit the
byte for their length, the stream of a connection is read back as its frames: those of requests, and
keepalives between them.

## Main definitions

* `routerSplitter`: a parser of the frames of `prependRouterHeader`
* `SegmentsFit`: the segments and payloads of all calls fit their length fields
* `CutRouterFrame`: what a write that fails leaves on the wire

## Main results

* `routerFrames_of_reach`: the stream of a connection is read back as its frames
-/

namespace RzProxy

open ByteString Streaming Machines

/-! ## Router frames as a layout -/

theorem routerHead_pos : 0 < 5 := by decide

/-- Router frames: the head is the magic byte and the length of the rest. -/
def routerLayout : Layout UInt8 RouterFrame ProtocolError where
  headLen := 5
  headLen_pos := routerHead_pos
  bodyLen head :=
    if head.getD 0 0 ≠ routerMagic then .error (.missingMagic (head.getD 0 0))
    else .ok (ofLE (head.drop 1))
  value _ body :=
    match parseRouterBody body with
    | some f => .ok f
    | none => .error (.shortPayload "router frame")

/-- The router frames of a stream, which ends in `ShortFrame`. -/
def routerSplitter : Splitter UInt8 RouterFrame ProtocolError := routerLayout.splitter .shortFrame

/-- A segment and a payload that fit the length fields of their frame. -/
def FitsRouter (segment : String) (payload : Bytes) : Prop :=
  (utf8 segment).length ≤ 255 ∧ 16 + (utf8 segment).length + payload.length < 2 ^ 32

instance (segment : String) (payload : Bytes) : Decidable (FitsRouter segment payload) :=
  inferInstanceAs (Decidable (_ ∧ _))

theorem parseRouterBody_eq {segment : String} {payload : Bytes} (h : FitsRouter segment payload)
    (isWrite : Bool) (clrid : UInt32) :
    parseRouterBody (UInt8.ofNat (utf8 segment).length :: (utf8 segment ++
      (if isWrite then 0x01 else 0x00) :: shardMagic ::
        (le32 clrid ++ (le32 (UInt32.ofNat payload.length) ++ payload)))) =
      some { segment := utf8 segment, isWrite, clrid, payload } := by
  have hshard := parseShardFrame_shardFrame payload (by have := h.2; omega) clrid
  have hn : (UInt8.ofNat (utf8 segment).length).toNat = (utf8 segment).length :=
    UInt8.toNat_ofNat_of_lt' (by have := h.1; simp only [UInt8.size]; omega)
  have hflag : (if isWrite then (0x01 : UInt8) else 0x00) ≤ 1 ∧
      decide ((if isWrite then (0x01 : UInt8) else 0x00) = 1) = isWrite := by
    cases isWrite <;> decide
  simp only [parseRouterBody, hn, List.drop_left, List.take_left, hflag, hshard, if_true,
    Option.map_some]

theorem routerSplitter_look {segment : String} {payload : Bytes} (h : FitsRouter segment payload)
    (isWrite : Bool) (clrid : UInt32) (rest : Bytes) :
    routerSplitter.look (prependRouterHeader segment isWrite clrid payload ++ rest) =
      .item { segment := utf8 segment, isWrite, clrid, payload } rest := by
  have hlen := length_prependRouterHeader segment isWrite clrid payload
  have hlt : (prependRouterHeader segment isWrite clrid payload).length < 2 ^ 32 := by
    rw [hlen]
    have := h.2
    omega
  have hbody := parseRouterBody_eq h isWrite clrid
  rw [prependRouterHeader_eq hlt]
  set body := UInt8.ofNat (utf8 segment).length :: (utf8 segment ++
    (if isWrite then 0x01 else 0x00) :: shardMagic ::
      (le32 clrid ++ (le32 (UInt32.ofNat payload.length) ++ payload))) with hdef
  have hbl : body.length = 1 + (utf8 segment).length + 1 + (9 + payload.length) := by
    simp only [hdef, List.length_cons, List.length_append, length_le32]
    omega
  rw [← hbl]
  have hlayout : routerLayout.bodyLen (routerMagic :: toLE 4 body.length) = .ok body.length := by
    have hof : ofLE (toLE 4 body.length) = body.length :=
      ofLE_toLE_of_lt (by rw [hbl]; have := h.2; omega)
    simp only [routerLayout, List.getD_cons_zero, ne_eq, not_true_eq_false, if_false,
      List.drop_one, List.tail_cons, hof]
  have hvalue : routerLayout.value (routerMagic :: toLE 4 body.length) body =
      .ok { segment := utf8 segment, isWrite, clrid, payload } := by
    simp only [routerLayout, hbody]
  have hhead : (routerMagic :: toLE 4 body.length).length = routerLayout.headLen := by
    rw [List.length_cons, length_toLE]
    rfl
  have hrecord := routerLayout.look_record hhead hlayout hvalue rest
  rw [List.cons_append, List.append_assoc]
  exact hrecord

/-- A keepalive is a router frame. -/
theorem routerSplitter_look_keepalive (rest : Bytes) :
    routerSplitter.look (buildKeepaliveFrame ++ rest) =
      .item { segment := utf8 keepaliveSegment, isWrite := false, clrid := 0, payload := [] }
        rest := by
  have hfit : FitsRouter keepaliveSegment [] := by decide
  exact routerSplitter_look hfit false 0 rest

/-- What a write that fails leaves of a router frame on the wire: nothing, or a part of the
frame. -/
def CutRouterFrame (cut : Bytes) : Prop :=
  cut = [] ∨ ∃ segment isWrite clrid payload ys, FitsRouter segment payload ∧ ys ≠ [] ∧
    prependRouterHeader segment isWrite clrid payload = cut ++ ys

theorem split_of_cutRouterFrame {cut : Bytes} (h : CutRouterFrame cut) :
    routerSplitter.split cut = ([], .shortFrame) := by
  rcases h with rfl | ⟨segment, isWrite, clrid, payload, ys, hfit, hne, heq⟩
  · exact Splitter.split_of_more rfl
  · have hlook := routerSplitter_look hfit isWrite clrid []
    rw [List.append_nil, heq] at hlook
    exact Splitter.split_of_more (Splitter.look_of_cut hlook hne)

/-! ## The stream of a connection -/

variable {s : State}

/-- What the frame of a call carries under an id. -/
def Call.routerFrame (call : Call) (corrId : UInt32) : RouterFrame :=
  { segment := utf8 call.segment, isWrite := call.isWrite, clrid := corrId,
    payload := call.payload }

/-- What a frame that was sent carries: what its call asked for, or the control segment. -/
def State.routerFrame (s : State) : QueuedFrame → RouterFrame
  | .request x corrId _ => (s.calls (s.chans x).call).routerFrame corrId
  | .keepalive =>
    { segment := utf8 keepaliveSegment, isWrite := false, clrid := 0, payload := [] }

/-- The segments and payloads of all calls fit the length fields of their frames. -/
def SegmentsFit (s : State) : Prop :=
  ∀ k < s.callCount, FitsRouter (s.calls k).segment (s.calls k).payload

/-- The frames of calls and keepalives, and anything after them, are read as what they carry and the
rest. -/
theorem split_routerFrames (hmode : s.cfg.mode = .router) (hfit : SegmentsFit s)
    {frames : List QueuedFrame} (hcall : ∀ frame ∈ frames, OfCall s frame) (tail : Bytes) :
    routerSplitter.split (frames.flatMap QueuedFrame.bytes ++ tail) =
      (frames.map s.routerFrame ++ (routerSplitter.split tail).1,
        (routerSplitter.split tail).2) := by
  refine routerSplitter.split_flatMap QueuedFrame.bytes s.routerFrame frames tail
    fun f hf rest => ?_
  cases f with
  | keepalive => exact routerSplitter_look_keepalive rest
  | request x corrId bytes =>
    obtain ⟨-, hlt, rfl⟩ := hcall _ hf
    have hframe : (QueuedFrame.request x corrId (s.buildFrame (s.calls (s.chans x).call)
        corrId)).bytes = prependRouterHeader (s.calls (s.chans x).call).segment
          (s.calls (s.chans x).call).isWrite corrId (s.calls (s.chans x).call).payload := by
      simp only [QueuedFrame.bytes, State.buildFrame, hmode]
    rw [hframe]
    exact routerSplitter_look (hfit _ hlt) _ corrId rest

/-- **Keepalives do no harm to a router**: what a connection wrote is read back as the frames that
were put in its queue, in their order, whatever part of a frame follows. -/
theorem routerFrames_of_reach (hr : handler.Reachable s) (hmode : s.cfg.mode = .router)
    (hfit : SegmentsFit s) (c : ConnId) {cut : Bytes} (hcut : CutRouterFrame cut) :
    routerSplitter.split ((s.conns c).stream ++ cut) =
      ((s.conns c).written.map s.routerFrame, .shortFrame) := by
  have hcall : ∀ frame ∈ (s.conns c).written, OfCall s frame := by
    intro frame hf
    exact ofCall_of_reach hr (List.mem_append_left _ hf)
  rw [Connection.stream, split_routerFrames hmode hfit hcall, split_of_cutRouterFrame hcut,
    List.append_nil]

/-- A keepalive between two requests, of which the second is written in part. -/
theorem routerFrames_of_reach_keepalive :
    ∃ s, handler.run (State.initial ⟨.router, "host", 1, 1⟩)
        [.reconnect true, .reconnect true, .reconnect true, .call "eu" false [1, 65],
          .call "us" true [1, 66], .exec 0, .exec 0, .exec 0, .exec 0, .exec 0, .keepalive 0,
          .keepalive 0, .exec 1, .exec 1, .exec 1, .exec 1, .exec 1, .write 0, .write 0,
          .writeError 0 false] = some s ∧
      routerSplitter.split ((s.conns 0).stream ++ [0xFE, 15]) =
        ([{ segment := utf8 "eu", isWrite := false, clrid := 1, payload := [1, 65] },
          { segment := utf8 "__keepalive__", isWrite := false, clrid := 0, payload := [] }],
          .shortFrame) := by
  have hrun : (handler.run (State.initial ⟨.router, "host", 1, 1⟩)
      [.reconnect true, .reconnect true, .reconnect true, .call "eu" false [1, 65],
        .call "us" true [1, 66], .exec 0, .exec 0, .exec 0, .exec 0, .exec 0, .keepalive 0,
        .keepalive 0, .exec 1, .exec 1, .exec 1, .exec 1, .exec 1, .write 0, .write 0,
        .writeError 0 false]).map
      (fun s => (s.cfg.mode, s.callCount, (s.calls 0).routerFrame 0, (s.calls 1).routerFrame 0,
        (s.conns 0).written.map s.routerFrame)) = some (.router, 2,
          { segment := utf8 "eu", isWrite := false, clrid := 0, payload := [1, 65] },
          { segment := utf8 "us", isWrite := true, clrid := 0, payload := [1, 66] },
          [{ segment := utf8 "eu", isWrite := false, clrid := 1, payload := [1, 65] },
            { segment := utf8 "__keepalive__", isWrite := false, clrid := 0, payload := [] }]) := by
    decide +kernel
  obtain ⟨s, hs, hstate⟩ := Option.map_eq_some_iff.mp hrun
  simp only [Prod.mk.injEq] at hstate
  obtain ⟨hmode, hcount, hfirst, hsecond, hwritten⟩ := hstate
  have hr : handler.Reachable s := Machine.Reach.run (.init ⟨_, rfl⟩) (fun _ _ _ => trivial) hs
  have hfit : SegmentsFit s := by
    intro k hk
    rw [FitsRouter]
    obtain rfl | rfl : k = 0 ∨ k = 1 := by omega
    · rw [show utf8 (s.calls 0).segment = _ from congrArg RouterFrame.segment hfirst,
        show (s.calls 0).payload = _ from congrArg RouterFrame.payload hfirst]
      decide
    · rw [show utf8 (s.calls 1).segment = _ from congrArg RouterFrame.segment hsecond,
        show (s.calls 1).payload = _ from congrArg RouterFrame.payload hsecond]
      decide
  have hcut : CutRouterFrame [0xFE, 15] :=
    .inr ⟨"us", true, 2, [1, 66], (prependRouterHeader "us" true 2 [1, 66]).drop 2, by decide,
      by decide, by decide⟩
  refine ⟨s, hs, ?_⟩
  rw [routerFrames_of_reach hr hmode hfit 0 hcut, hwritten]

end RzProxy
