import RzProxy.Handler.Invariant

/-!
# Calls get their own answers

The frames that a read loop takes are the frames of the bytes it received, in order. With the
invariant of the registries, a call that returns `Ok` returns the payload of a frame of its own
connection and id, and no frame answers two calls.

## Main definitions

* `Connection.Fed`: what a read loop did with the bytes it received

## Main results

* `fed_of_reach`: it holds of every connection in every reachable state
* `ok_of_reachable`: whose answer a call returns
-/

namespace RzProxy

open ByteString Streaming Machines

/-- The frames the read loop found a sender for, and the one it looks up next. -/
def Connection.drained (k : Connection) : List (Header × Bytes) :=
  (k.taken.map fun f => (f.header, f.payload)) ++ k.inHand.toList

/-- Some bytes in front of the buffer were cut into frames: the ones that were taken, the one in
hand, and at most one after them at which the loop ended. -/
def Connection.Fed (k : Connection) : Prop :=
  ∃ front frames, k.received = front ++ (k.buf ++ k.inbound) ∧
    (∀ ys, (frameSplitter.split (front ++ ys)).1 = frames ++ (frameSplitter.split ys).1) ∧
    k.drained <+: frames ∧ (k.readTask = .running → frames = k.drained)

theorem Connection.fed_fresh : Connection.fresh.Fed :=
  ⟨[], [], rfl, fun _ => rfl, List.prefix_rfl, fun _ => rfl⟩

/-- The taken frames are frames of the bytes received, in their places. -/
theorem Connection.Fed.getElem?_frames {k : Connection} (h : k.Fed) {n : ℕ} {f : Taken}
    (hn : k.taken[n]? = some f) : k.frames[n]? = some (f.header, f.payload) := by
  obtain ⟨front, frames, hr, hs, hp, -⟩ := h
  -- the frames that were taken are a prefix of the frames in front of the buffer
  obtain ⟨more, rfl⟩ := hp
  have hlen := (List.getElem?_eq_some_iff.mp hn).1
  rw [Connection.frames, hr, hs, Connection.drained, List.append_assoc, List.append_assoc,
    List.getElem?_append_left (by simpa using hlen), List.getElem?_map, hn]
  rfl

theorem Connection.Fed.alone {m : ℕ} {c : ConnId} {a : Action} {k k' : Connection} (h : k.Fed)
    (hl : k.Local m c a k') : k'.Fed := by
  obtain ⟨front, frames, hr, hs, hp, hrun⟩ := h
  cases hl with
  | close | write | writeClosed | writeDone | writeError | keepaliveStop | keepaliveTick
  | keepaliveSend => exact ⟨front, frames, hr, hs, hp, hrun⟩
  | deliver bytes => exact ⟨front, frames, by simp [Connection.deliver, hr], hs, hp, hrun⟩
  | recv => exact ⟨front, frames, by simp [hr], hs, hp, hrun⟩
  | readError | malformed | readClosed | readDone => exact ⟨front, frames, hr, hs, hp, nofun⟩
  | @drain frame rest task hand look =>
    obtain rfl := hrun task
    obtain ⟨used, hu, hlook⟩ := frameLayout.exists_used_of_look look
    refine ⟨front ++ used, k.drained ++ [frame], ?_, fun ys => ?_, ?_, fun _ => ?_⟩
    · simp [hr, hu]
    · rw [List.append_assoc, hs, Splitter.split_of_item (hlook ys), List.append_assoc]
      rfl
    · simp [Connection.drained, hand]
    · simp [Connection.drained, hand]
  | unknownId task hand _ =>
    refine ⟨front, frames, hr, hs, ?_, nofun⟩
    simp only [Connection.drained, hand, Option.toList_some] at hp
    simpa [Connection.drained, Connection.unknownId] using (List.prefix_append _ _).trans hp

theorem Connection.Fed.moves {m : ℕ} {c : ConnId} {a : Action} {k k' : Connection} (h : k.Fed)
    (hm : k.Moves m c a k') : k'.Fed := by
  cases hm with
  | alone hl => exact h.alone hl
  | draw | register | refuse => exact h
  | push hp =>
    rw [Connection.push_eq hp]
    exact h
  | @take header payload x time task hand =>
    obtain ⟨front, frames, hr, hs, hp, hrun⟩ := h
    have hd : (k.take header payload x time).drained = k.drained := by
      simp [Connection.drained, Connection.take, hand]
    exact ⟨front, frames, hr, hs, hd ▸ hp, hd ▸ hrun⟩

/-- Every connection fed its read loop with the bytes the backend sent. -/
theorem fed_of_reach {ok : State → Action → Prop} {s : State} (hs : handler.Reach ok s)
    (c : ConnId) : (s.conns c).Fed := by
  refine hs.invariant (P := fun s => ∀ c, (s.conns c).Fed) ?_ (fun s a s' _ h _ hstep => ?_) c
  · rintro s ⟨cfg, rfl⟩ c
    exact Connection.fed_fresh
  · obtain ⟨s₁, hc, rfl⟩ := step_cases hstep
    intro d
    have hd : (s₁.conns d).Fed := by
      rcases hc.conns d with he | hm
      · rw [he]
        exact h d
      · exact (h d).moves hm
    show (if s₁.tick.reaped d then (s₁.conns d).drop else s₁.conns d).Fed
    split_ifs
    · exact hd
    · exact hd

/-! ## Whose answer a call returns -/

/-- What ties a call that returned `b` to the frame `n` of the connection `c`: the frame was found
for the channel of the call's last attempt, on the connection and under the id of that attempt,
after its sender was stored. -/
def AnsweredBy (s : State) (k : CallId) (b : Bytes) (c : ConnId) (n : ℕ) : Prop :=
  ∃ (x : ChanId) (t : ℕ) (f : Taken),
    (s.calls k).last = some x ∧ (s.chans x).call = k ∧ (s.chans x).conn = c ∧
    (s.chans x).storedAt = some t ∧ (s.conns c).taken[n]? = some f ∧ f.chan = x ∧
    (s.conns c).frames[n]? = some (f.header, b) ∧ f.header.clrId = (s.chans x).corrId ∧ t < f.time

/-- **Correlation.** Every call that returned `Ok` was answered by one frame of the connection of
its last attempt, and no frame answered two calls. -/
theorem ok_of_reachable {s : State} (hs : handler.Reachable s) :
    ∃ frameOf : CallId → ConnId × ℕ,
      (∀ k b, (s.calls k).pc = .finished (.ok b) →
        AnsweredBy s k b (frameOf k).1 (frameOf k).2) ∧
      ∀ j k b b', (s.calls j).pc = .finished (.ok b) → (s.calls k).pc = .finished (.ok b') →
        frameOf j = frameOf k → j = k := by
  have h := correlated_of_reach hs
  have hframe : ∀ k, ∃ cn : ConnId × ℕ, ∀ b, (s.calls k).pc = .finished (.ok b) →
      AnsweredBy s k b cn.1 cn.2 := by
    intro k
    by_cases hk : ∃ b, (s.calls k).pc = .finished (.ok b)
    · obtain ⟨b, hb⟩ := hk
      obtain ⟨x, hl, hlt, hcall, hsent⟩ := h.answered hb
      obtain ⟨f, n, t, hn, hf, hid, hp, hst, ht⟩ := h.sent hlt hsent
      refine ⟨((s.chans x).conn, n), fun b' hb' => ?_⟩
      obtain rfl : b = b' := by simpa [hb] using hb'
      have hfr := (fed_of_reach hs _).getElem?_frames hn
      exact ⟨x, t, f, hl, hcall, rfl, hst, hn, hf, by rw [hfr, hp], hid, ht⟩
    · exact ⟨(0, 0), fun b hb => absurd ⟨b, hb⟩ hk⟩
  choose frameOf hframeOf using hframe
  refine ⟨frameOf, hframeOf, fun j k b b' hj hk hjk => ?_⟩
  -- a frame was found for one channel, and a channel belongs to one call
  obtain ⟨x, t, f, -, hxj, -, -, hn, hf, -⟩ := hframeOf j b hj
  obtain ⟨x', t', f', -, hxk, -, -, hn', hf', -⟩ := hframeOf k b' hk
  rw [hjk, hn', Option.some.injEq] at hn
  rw [← hxj, ← hxk, ← hf, ← hf', hn]

/-- Two calls on two connections that both draw id 1; the second is answered first. -/
def twoCallsRun : List Action :=
  [.reconnect true, .reconnect true, .reconnect true, .reconnect true, .call "eu" false [1, 65],
    .call "us" false [1, 66], .exec 0, .exec 1, .exec 0, .exec 1, .exec 0, .exec 1, .exec 0,
    .exec 1, .exec 0, .exec 1, .write 0, .write 1, .deliver 1 (prependHeader 1 [0, 0, 1]),
    .deliver 0 (prependHeader 1 [0, 0, 0]), .recv 1 12, .recv 0 12, .read 1, .read 0, .read 1,
    .read 0, .exec 1, .exec 0]

/-- Equal ids on two connections are not confused. -/
theorem ok_of_reachable_two_calls :
    ∃ s m n, handler.run (State.initial ⟨.standalone, "host", 2, 1⟩) twoCallsRun = some s ∧
      (s.chans 0).corrId = 1 ∧ (s.chans 1).corrId = 1 ∧
      (s.calls 0).pc = .finished (.ok [0, 0, 0]) ∧ AnsweredBy s 0 [0, 0, 0] 0 m ∧
      (s.calls 1).pc = .finished (.ok [0, 0, 1]) ∧ AnsweredBy s 1 [0, 0, 1] 1 n := by
  have hrun : (handler.run (State.initial ⟨.standalone, "host", 2, 1⟩) twoCallsRun).map
      (fun s => [0, 1].map fun k =>
        ((s.calls k).pc, (s.calls k).last, (s.chans k).corrId, (s.chans k).conn)) =
      some [(.finished (.ok [0, 0, 0]), some 0, 1, 0),
        (.finished (.ok [0, 0, 1]), some 1, 1, 1)] := by decide +kernel
  obtain ⟨s, hs, hstate⟩ := Option.map_eq_some_iff.mp hrun
  simp only [List.map_cons, List.map_nil, List.cons.injEq, Prod.mk.injEq, and_true] at hstate
  obtain ⟨⟨hpc₀, hlast₀, hid₀, hconn₀⟩, hpc₁, hlast₁, hid₁, hconn₁⟩ := hstate
  obtain ⟨frameOf, hframe, -⟩ :=
    ok_of_reachable (Machine.Reach.run (.init ⟨_, rfl⟩) (fun _ _ _ => trivial) hs)
  have hanswered : ∀ k b c, (s.calls k).pc = .finished (.ok b) → (s.calls k).last = some k →
      (s.chans k).conn = c → AnsweredBy s k b c (frameOf k).2 := by
    intro k b c hpc hlast hconn
    have h := hframe k b hpc
    have hc : (frameOf k).1 = c := by
      obtain ⟨x, -, -, hx, -, hc, -⟩ := h
      rw [hlast, Option.some.injEq] at hx
      rw [← hc, ← hx, hconn]
    rwa [hc] at h
  exact ⟨s, _, _, hs, hid₀, hid₁, hpc₀, hanswered 0 _ 0 hpc₀ hlast₀ hconn₀, hpc₁,
    hanswered 1 _ 1 hpc₁ hlast₁ hconn₁⟩

end RzProxy
