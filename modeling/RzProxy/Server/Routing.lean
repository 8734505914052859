import RzProxy.Handler.RouterWire
import RzProxy.Server.Frames

/-!
# What a router reads

A router gets the frames of many clients over one stream, and sends each on by its segment, as a
read or as a write. From what it reads it can tell all of them apart: a keepalive has no payload,
and every other frame says a command. It is marked as a write if the command is one that changes
data, and it names the segment of the request, whatever else the proxy is doing.

## Main definitions

* `Command.writes`, `Command.segment`: the commands that change data, and where a command is sent
* `Routed`: a frame that a router can send on

## Main results

* `routing_of_reach`: so are all frames that are read
-/

namespace RzProxy

open ByteString Streaming Evaluation Machines

variable {fromSlice : Bytes → Option Value} {s : Proxy}

/-! ## Commands and where they go -/

namespace Command

/-- The commands that change data. -/
def writes : Command → Bool
  | setProp | setRoomPkg | setRoomAvl | incRoomAvl | decRoomAvl => true
  | delRoomDay | delPropRoom | delProp | delSegment | delPropDay => true
  | propExist | searchProp | propRoomExist | getPropRoomDay | propRoomDateList => false
  | searchAvail | propRoomList | getSegments | getCodecs => false

/-- The segment that a command is sent to: the one that the request names, but for the two commands
that are about all segments. -/
def segment (c : Command) (json : Value) : Option String :=
  match c with
  | getSegments => some "GETSEGMENTS"
  | getCodecs => some "__codecs__"
  | _ => text json "segment"

end Command

/-- A request asks for a command as a read or as a write, and for the segment of the command. -/
def Asks (asks : Request) (c : Command) (json : Value) : Prop :=
  asks.isWrite = c.writes ∧ c.segment json = some asks.segment

section Handlers

variable {seg : String} {payload json : Value} {p : Request × Decoder}

theorem asks_texts {cmdName : String} {isWrite : Bool} {fieldCount : UInt16}
    {keys : List (UInt16 × String)} {decoder : Decoder} {c : Command}
    (h : processTexts cmdName isWrite fieldCount keys decoder seg payload = .ok p)
    (hw : isWrite = c.writes) (hseg : c.segment json = some seg) : Asks p.1 c json := by
  obtain ⟨texts, -, h⟩ := exists_of_bind h
  obtain rfl := Except.ok.inj h
  exact ⟨hw, hseg⟩

theorem asks_amount {cmdName : String} {c : Command}
    (h : processAmount cmdName seg payload = .ok p) (hw : c.writes = true)
    (hseg : c.segment json = some seg) : Asks p.1 c json := by
  obtain ⟨_, -, h⟩ := exists_of_required h
  obtain ⟨_, -, h⟩ := exists_of_required h
  obtain ⟨_, -, h⟩ := exists_of_required h
  obtain ⟨_, -, h⟩ := exists_of_required h
  obtain rfl := Except.ok.inj h
  exact ⟨hw.symm, hseg⟩

theorem asks_setProp (h : processSetProp seg payload = .ok p)
    (hseg : text json "segment" = some seg) :
    Asks p.1 .setProp json := by
  obtain ⟨_, -, h⟩ := exists_of_required h
  obtain ⟨_, -, h⟩ := exists_of_required h
  obtain ⟨_, -, h⟩ := exists_of_required h
  obtain ⟨_, -, h⟩ := exists_of_required h
  obtain ⟨_, -, h⟩ := exists_of_required h
  obtain ⟨_, -, h⟩ := exists_of_required h
  obtain ⟨_, -, h⟩ := exists_of_required h
  obtain ⟨_, -, h⟩ := exists_of_required h
  obtain rfl := Except.ok.inj h
  exact ⟨rfl, hseg⟩

theorem asks_searchProp (h : processSearchProp seg payload = .ok p)
    (hseg : text json "segment" = some seg) : Asks p.1 .searchProp json := by
  obtain ⟨_, -, h⟩ := exists_of_required h
  obtain rfl := Except.ok.inj h
  exact ⟨rfl, hseg⟩

theorem asks_setRoomPkg (h : processSetRoomPkg seg payload = .ok p)
    (hseg : text json "segment" = some seg) : Asks p.1 .setRoomPkg json := by
  obtain ⟨_, -, h⟩ := exists_of_required h
  obtain ⟨_, -, h⟩ := exists_of_required h
  obtain ⟨_, -, h⟩ := exists_of_required h
  obtain rfl := Except.ok.inj h
  exact ⟨rfl, hseg⟩

theorem asks_searchAvail (h : processSearchAvail seg payload = .ok p)
    (hseg : text json "segment" = some seg) : Asks p.1 .searchAvail json := by
  obtain ⟨_, -, h⟩ := exists_of_required h
  obtain ⟨_, -, h⟩ := exists_of_required h
  obtain rfl := Except.ok.inj h
  exact ⟨rfl, hseg⟩

theorem asks_getSegments (h : processGetSegments payload = .ok p) : Asks p.1 .getSegments json := by
  rw [processGetSegments] at h
  split_ifs at h
  obtain rfl := Except.ok.inj h
  exact ⟨rfl, rfl⟩

end Handlers

/-- **What a body asks for** is what its command is. -/
theorem asks_of_request {body : Bytes} {p : Request × Decoder} {json : Value} {c : Command}
    (h : request fromSlice body = .ok p) (hjson : fromSlice body = some json)
    (hc : text json "command" = some c.name) : Asks p.1 c json := by
  obtain ⟨json', hjson', h⟩ := exists_of_required h
  obtain rfl := Option.some.inj (hjson.symm.trans hjson')
  obtain ⟨command, hcommand, h⟩ := exists_of_required h
  obtain rfl := Option.some.inj (hc.symm.trans hcommand)
  obtain ⟨segment, hsegment, h⟩ := exists_of_required h
  cases c with
  | setProp => exact asks_setProp h hsegment
  | searchProp => exact asks_searchProp h hsegment
  | setRoomPkg => exact asks_setRoomPkg h hsegment
  | searchAvail => exact asks_searchAvail h hsegment
  | setRoomAvl | incRoomAvl | decRoomAvl => exact asks_amount h rfl hsegment
  | getSegments => exact asks_getSegments h
  | getCodecs => cases h
  | _ => exact asks_texts h rfl hsegment

/-! ## What is read from a stream -/

/-- A frame that a router can send on: a keepalive, the request for the rate features, or the
command of a request, as a read or as a write and with its segment. -/
inductive Routed (fromSlice : Bytes → Option Value) (requests : List HttpRequest)
    (f : RouterFrame) : Prop
  | keepalive (segment : f.segment = utf8 keepaliveSegment) (isWrite : f.isWrite = false)
      (payload : f.payload = [])
  | codecs (segment : f.segment = utf8 "__codecs__") (isWrite : f.isWrite = false)
      (payload : takeRequest f.payload = some (utf8 "GETCODECS", []))
  | request {r : HttpRequest} {c : Command} {json : Value} {segment : String} (req : r ∈ requests)
      (json_eq : fromSlice r.body = some json) (command : text json "command" = some c.name)
      (segment_eq : c.segment json = some segment) (target : f.segment = utf8 segment)
      (isWrite : f.isWrite = c.writes)
      (payload : takeRequest f.payload =
        some (utf8 c.name, c.fields ((json.get "body").getD .null)))

/-- The frame is marked as a write if and only if its payload says a command that changes data. -/
theorem Routed.isWrite_iff {requests : List HttpRequest} {f : RouterFrame}
    (h : Routed fromSlice requests f) : f.isWrite = true ↔
      ∃ (c : Command) (fields : List Field), c.writes = true ∧
        takeRequest f.payload = some (utf8 c.name, fields) := by
  have hname {c c' : Command} {fields fields' : List Field}
      (hc : takeRequest f.payload = some (utf8 c.name, fields))
      (hc' : takeRequest f.payload = some (utf8 c'.name, fields')) : c = c' := by
    rw [hc, Option.some.injEq, Prod.mk.injEq] at hc'
    exact Command.name_injective (utf8_injective hc'.1)
  cases h with
  | keepalive segment isWrite payload =>
    rw [isWrite, payload]
    refine ⟨fun h => (by cases h), ?_⟩
    rintro ⟨c, fields, -, hc⟩
    cases hc
  | codecs segment isWrite payload =>
    rw [isWrite]
    refine ⟨fun h => (by cases h), ?_⟩
    rintro ⟨c, fields, hwrites, hc⟩
    obtain rfl := hname (c := .getCodecs) payload hc
    cases hwrites
  | @request r c json segment req json_eq command segment_eq target isWrite payload =>
    rw [isWrite]
    refine ⟨fun hwrites => ⟨c, _, hwrites, payload⟩, ?_⟩
    rintro ⟨c', fields, hwrites, hc⟩
    obtain rfl := hname payload hc
    exact hwrites

/-- The frame of a call is one that can be sent on. -/
theorem routed_of_call (hs : (proxy fromSlice).Reachable s) {k : CallId}
    (hk : k < s.handler.callCount) (hfit : (s.handler.calls k).payload.length < 2 ^ 32)
    (corrId : UInt32) : Routed fromSlice s.requests ((s.handler.calls k).routerFrame corrId) := by
  obtain ⟨who, c, v, hmade, hbuilt⟩ := exists_madeFor hs hk
  have hpayload := (hbuilt.encodes_of_length hfit).takeRequest_eq
  generalize hasks : (s.handler.calls k).asks = asks at hmade
  have hsegment : (s.handler.calls k).segment = asks.segment := congrArg Request.segment hasks
  have hwrite : (s.handler.calls k).isWrite = asks.isWrite := congrArg Request.isWrite hasks
  cases hmade with
  | codecs =>
    refine .codecs ?_ hwrite hpayload
    exact congrArg utf8 hsegment
  | request req call asks_eq json_eq command =>
    obtain ⟨hwrites, hseg⟩ := asks_of_request asks_eq json_eq command
    refine .request (List.mem_of_getElem? req) json_eq command hseg ?_ (hwrite.trans hwrites)
      hpayload
    exact congrArg utf8 hsegment

/-- **A router can tell all frames apart**: what it reads from a connection are keepalives, requests
for the rate features and the commands of requests, each for its segment. A frame is marked as a
write if and only if it says a command that changes data. -/
theorem routing_of_reach (hs : (proxy fromSlice).Reachable s)
    (hmode : s.handler.cfg.mode = .router) (hfit : SegmentsFit s.handler) (c : ConnId) {cut : Bytes}
    (hcut : CutRouterFrame cut) :
    ∃ frames, routerSplitter.split ((s.handler.conns c).stream ++ cut) = (frames, .shortFrame) ∧
      ∀ f ∈ frames, Routed fromSlice s.requests f ∧ (f.isWrite = true ↔
        ∃ (c : Command) (fields : List Field), c.writes = true ∧
          takeRequest f.payload = some (utf8 c.name, fields)) := by
  have hcall : ∀ frame ∈ (s.handler.conns c).written, OfCall s.handler frame := by
    intro frame hf
    exact ofCall_of_reach (reach_handler hs) (List.mem_append_left _ hf)
  have hsplit := split_routerFrames hmode hfit hcall cut
  rw [split_of_cutRouterFrame hcut, List.append_nil] at hsplit
  refine ⟨_, hsplit, fun f hf => ?_⟩
  have hrouted : Routed fromSlice s.requests f := by
    obtain ⟨frame, hframe, rfl⟩ := List.mem_map.mp hf
    cases frame with
    | keepalive => exact .keepalive rfl rfl rfl
    | request x corrId bytes =>
      obtain ⟨-, hlt, -⟩ := hcall _ hframe
      have hlen := (hfit _ hlt).2
      exact routed_of_call hs hlt (by omega) corrId
  exact ⟨hrouted, hrouted.isWrite_iff⟩

/-- The request for the rate features, and one for the segments. -/
theorem routing_of_reach_segments :
    ∃ s frames, (proxy segmentsFromSlice).run
        (Proxy.initial ⟨.router, "host", 1, 1⟩ (.documented []))
        (segmentsRun ++ List.replicate 5 (.handler (.exec 1)) ++ [.handler (.write 0)]) = some s ∧
      (s.handler.conns 0).requestIds = [1, 2] ∧
      routerSplitter.split ((s.handler.conns 0).stream ++ []) = (frames, .shortFrame) ∧
      ∀ f ∈ frames, Routed segmentsFromSlice s.requests f := by
  have hrun : ((proxy segmentsFromSlice).run
      (Proxy.initial ⟨.router, "host", 1, 1⟩ (.documented []))
      (segmentsRun ++ List.replicate 5 (.handler (.exec 1)) ++ [.handler (.write 0)])).map
        (fun s => (s.handler.cfg.mode, s.handler.callCount, (s.handler.conns 0).requestIds,
          (s.handler.calls 0).asks, (s.handler.calls 1).asks)) =
      some (.router, 2, [1, 2], codecsRequest,
        ⟨"GETSEGMENTS", false, commandName "GETSEGMENTS" ++ le16 0⟩) := by decide +kernel
  obtain ⟨s, hs, hstate⟩ := Option.map_eq_some_iff.mp hrun
  simp only [Prod.mk.injEq] at hstate
  obtain ⟨hmode, hcount, hids, hfirst, hsecond⟩ := hstate
  have hfit : SegmentsFit s.handler := by
    intro k hk
    rw [FitsRouter]
    obtain rfl | rfl : k = 0 ∨ k = 1 := by omega
    · rw [show (s.handler.calls 0).segment = _ from congrArg Request.segment hfirst,
        show (s.handler.calls 0).payload = _ from congrArg Request.payload hfirst]
      decide
    · rw [show (s.handler.calls 1).segment = _ from congrArg Request.segment hsecond,
        show (s.handler.calls 1).payload = _ from congrArg Request.payload hsecond]
      decide
  obtain ⟨frames, hsplit, hframes⟩ := routing_of_reach
    (Machine.Reach.run (.init ⟨_, _, rfl⟩) (fun _ _ _ => trivial) hs) hmode hfit 0 (.inl rfl)
  exact ⟨s, frames, hs, hids, hsplit, fun f hf => (hframes f hf).1⟩

end RzProxy
