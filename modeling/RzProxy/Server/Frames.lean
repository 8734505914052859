import RzProxy.Handler.Frames
import RzProxy.Processor.Command
import RzProxy.Server.Startup

/-!
# The frames of requests

What the proxy sends to the backend are keepalives, the frames of its attempts to get the rate
features and those of requests to `/api`, as long as it has had no more than four billion of these.
A request has one frame at most, whatever was tried, and the frame says its command with the fields
for its body. Where the proxy itself is the one that answers with an error, there is no frame.

## Main definitions

* `MadeFor`: what a call is to say, and for whom
* `FewRequests`: a bound on the number of requests
* `OneFrameEach`: each frame but a keepalive is that of one call

## Main results

* `FewRequests.bounded`: no connection runs out of ids
* `frames_of_reach`: the frames that are sent, but for keepalives, are those of requests, each of
  which has one at most
-/

namespace RzProxy

open ByteString Evaluation Machines

variable {fromSlice : Bytes → Option Value} {s : Proxy}

/-! ## Commands that are read back -/

/-- A payload that fits its frame says its command and its fields, however long the texts of the
body are. -/
theorem Command.Built.encodes_of_length {c : Command} {payload : Value} {bs : Bytes}
    (h : c.Built payload bs) (hlen : bs.length < 2 ^ 32) : Encodes c payload bs where
  takeRequest_eq := by
    have hname : (utf8 c.name).length < 256 := by cases c <;> decide
    have hcount : (UInt16.ofNat (c.fields payload).length).toNat = (c.fields payload).length := by
      have := c.length_fields_le payload
      rw [UInt16.toNat_ofNat', Nat.mod_eq_of_lt (by omega)]
    have hfits : ∀ f ∈ c.fields payload, f.Fits := by
      intro f hf
      have hsub : f.bytes.Sublist bs := by
        rw [h.1]
        exact (List.sublist_flatten_of_mem (List.mem_map_of_mem hf)).trans
          (List.sublist_append_right _ _)
      have hle : f.data.length ≤ f.bytes.length := by
        simp only [Field.bytes, List.length_append, List.length_cons]
        omega
      exact (hle.trans hsub.length_le).trans_lt hlen
    have hread := takeFields_flatMap hfits []
    rw [List.append_nil] at hread
    rw [h.1, takeRequest, commandName, List.cons_append, ← headBytes, takeHead_headBytes hname]
    simp only [hcount, hread]
  isSome_required := h.2
  increasing := c.increasing payload

/-! ## The number of requests -/

/-- So few requests that no connection runs out of ids: one for each of them, and for each attempt
to get the rate features. -/
def FewRequests (s : Proxy) : Prop := s.requests.length + 60 ≤ 2 ^ 32

theorem callCount_le_of_reach (hs : (proxy fromSlice).Reachable s) :
    s.handler.callCount ≤ s.requests.length + 60 := by
  have hlen := (traced_of_reach hs).perm.length_eq
  rw [List.length_append, List.length_range] at hlen
  have hasked := (started_of_reach hs).length_asked_le
  have hcalls := List.length_filterMap_le HttpRequest.call s.requests
  omega

theorem FewRequests.callCount_le (hfew : FewRequests s) (hs : (proxy fromSlice).Reachable s) :
    s.handler.callCount ≤ 2 ^ 32 :=
  (callCount_le_of_reach hs).trans hfew

theorem FewRequests.bounded (hfew : FewRequests s) (hs : (proxy fromSlice).Reachable s) :
    Bounded s.handler :=
  have hle := hfew.callCount_le hs
  (single_of_reach (reach_handler hs) hle).bounded (reach_handler hs) hle

/-! ## Whose frame it is -/

/-- A call asks for something, which says a command with the fields for a body: for `async_main`, or
for a request. -/
inductive MadeFor (fromSlice : Bytes → Option Value) (s : Proxy) (k : CallId) :
    Option ℕ → Request → Command → Value → Prop
  | codecs (asked : k ∈ s.asked) : MadeFor fromSlice s k none codecsRequest .getCodecs .null
  | request {i : ℕ} {r : HttpRequest} {asks : Request} {D : Decoder} {c : Command} {json : Value}
      (req : s.requests[i]? = some r) (call : r.call = some k)
      (asks_eq : request fromSlice r.body = .ok (asks, D)) (json_eq : fromSlice r.body = some json)
      (command : text json "command" = some c.name) :
      MadeFor fromSlice s k (some i) asks c ((json.get "body").getD .null)

/-- Every call is made for somebody, and asks for a command. -/
theorem exists_madeFor (hs : (proxy fromSlice).Reachable s) {k : CallId}
    (hk : k < s.handler.callCount) : ∃ who c v,
      MadeFor fromSlice s k who (s.handler.calls k).asks c v ∧
        c.Built v (s.handler.calls k).payload := by
  have ht := traced_of_reach hs
  rcases List.mem_append.mp (ht.perm.mem_iff.mpr (List.mem_range.mpr hk)) with hk | hk
  · refine ⟨none, .getCodecs, .null, ht.asked k hk ▸ .codecs hk, ?_⟩
    rw [show (s.handler.calls k).payload = _ from congrArg Request.payload (ht.asked k hk)]
    exact built_getCodecs
  · obtain ⟨r, hr, hc⟩ := List.mem_filterMap.mp hk
    obtain ⟨i, hi⟩ := List.mem_iff_getElem?.mp hr
    obtain ⟨D, hreq⟩ := (ht.requests i r hi).asks k hc
    obtain ⟨c, json, hjson, hcommand, hbuilt⟩ := built_of_request hreq
    exact ⟨some i, c, _, .request hi hc hreq hjson hcommand, hbuilt⟩

/-- The frame of a call, in a queue or on the wire of a connection. -/
def Framed (h : State) (k : CallId) (c : ConnId) (x : ChanId) (id : UInt32) : Prop :=
  (x, id) ∈ (h.conns c).requests ∧ (h.chans x).call = k

/-- A request that was answered by the proxy itself has no frame. -/
theorem not_framed_of_not_replied (hs : (proxy fromSlice).Reachable s) (hfew : FewRequests s)
    {i : ℕ} {r : HttpRequest} {env : Env} {rsp : Response} {k : CallId}
    (hi : s.requests[i]? = some r) (hrsp : r.handling = .responded env rsp)
    (hc : r.call = some k) (hreplied : ¬ r.Replied s.handler) {c : ConnId} {x : ChanId}
    {id : UInt32} : ¬ Framed s.handler k c x id := by
  rintro ⟨hx, rfl⟩
  obtain ⟨hexchange, -⟩ := ((traced_of_reach hs).requests i r hi).responded env rsp hrsp
  obtain ⟨D, hreq⟩ := ((traced_of_reach hs).requests i r hi).asks _ hc
  rw [HttpRequest.result, hc, Option.bind_some] at hexchange
  cases hresult : (s.handler.calls (s.handler.chans x).call).result with
  | none => simp [exchange, hreq, hresult] at hexchange
  | some result =>
    have hpc := Call.result_eq_some_iff.mp hresult
    cases result with
    | ok payload => exact hreplied ⟨_, payload, hc, hpc⟩
    | error e =>
      exact (queued_of_reach (reach_handler hs) hx).2.2
        (queued_of_failed (reach_handler hs) (hfew.bounded hs) hpc)

/-- Of the frames in the queues and on the wires of all connections, each that is no keepalive is
that of one call. -/
structure OneFrameEach (fromSlice : Bytes → Option Value) (s : Proxy) : Prop where
  /-- The call was made for somebody, and its frame says the command that it was made for. -/
  ofCall : ∀ {c x id bytes}, .request x id bytes ∈ (s.handler.conns c).sent →
    ∃ k < s.handler.callCount, Framed s.handler k c x id ∧
      bytes = s.handler.buildFrame (s.handler.calls k) id ∧
      ∃ who command v, MadeFor fromSlice s k who (s.handler.calls k).asks command v ∧
        ((s.handler.calls k).payload.length < 2 ^ 32 →
          Encodes command v (s.handler.calls k).payload)
  /-- No call has two frames. -/
  unique : ∀ {k c d x y id id'}, Framed s.handler k c x id → Framed s.handler k d y id' →
    c = d ∧ x = y ∧ id = id'
  nodup : ∀ c, ((s.handler.conns c).requests.map fun r => (s.handler.chans r.1).call).Nodup
  /-- A request that the proxy itself answered has no frame. -/
  unsent : ∀ {i : ℕ} {r : HttpRequest} {env rsp k}, s.requests[i]? = some r →
    r.handling = .responded env rsp → r.call = some k → ¬ r.Replied s.handler →
    ∀ c x id, ¬ Framed s.handler k c x id

/-- **One frame for each request**: what the backend is sent, besides keepalives, are the commands
of the requests, each of them once at most, whatever was tried, and not at all if the client is told
an error of the proxy. -/
theorem frames_of_reach (hs : (proxy fromSlice).Reachable s) (hfew : FewRequests s) :
    OneFrameEach fromSlice s := by
  obtain ⟨hnodup, hone⟩ := requests_of_reach (reach_handler hs) (hfew.callCount_le hs)
  refine ⟨fun {c x id bytes} hf => ?_, ?_, hnodup, ?_⟩
  · obtain ⟨-, hlt, rfl⟩ := ofCall_of_reach (reach_handler hs) hf
    obtain ⟨who, command, v, hmade, hbuilt⟩ := exists_madeFor hs hlt
    have hx : (x, id) ∈ (s.handler.conns c).requests := List.mem_filterMap.mpr ⟨_, hf, rfl⟩
    exact ⟨_, hlt, ⟨hx, rfl⟩, rfl, who, command, v, hmade, hbuilt.encodes_of_length⟩
  · rintro k c d x y id id' ⟨hx, rfl⟩ ⟨hy, hcall⟩
    exact hone hx hy hcall.symm
  · intro i r env rsp k hi hrsp hc hreplied c x id
    exact not_framed_of_not_replied hs hfew hi hrsp hc hreplied

/-- The frames of the first attempt to get the rate features and of a request. -/
theorem frames_of_reach_segments :
    ∃ s, (proxy segmentsFromSlice).run
        (Proxy.initial ⟨.standalone, "host", 1, 1⟩ (.documented []))
        (segmentsRun ++ List.replicate 5 (.handler (.exec 1))) = some s ∧
      (s.handler.conns 0).requests = [(0, 1), (1, 2)] ∧ OneFrameEach segmentsFromSlice s := by
  have hrun : ((proxy segmentsFromSlice).run
      (Proxy.initial ⟨.standalone, "host", 1, 1⟩ (.documented []))
      (segmentsRun ++ List.replicate 5 (.handler (.exec 1)))).map
        (fun s => ((s.handler.conns 0).requests, s.requests.length)) =
      some ([(0, 1), (1, 2)], 1) := by decide +kernel
  obtain ⟨s, hs, hstate⟩ := Option.map_eq_some_iff.mp hrun
  obtain ⟨hrequests, hlen⟩ := Prod.mk.inj hstate
  have hfew : FewRequests s := by
    rw [FewRequests, hlen]
    decide
  exact ⟨s, hs, hrequests,
    frames_of_reach (Machine.Reach.run (.init ⟨_, _, rfl⟩) (fun _ _ _ => trivial) hs) hfew⟩

end RzProxy
