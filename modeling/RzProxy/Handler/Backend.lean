import RzProxy.Handler.Pending
import Mathlib.Data.List.Nodup

/-!
# A well-behaved backend

A backend that answers each request it received at most once, and nothing else, never meets a read
loop that cannot place its frame. Every request that was written is registered until its answer is
taken, once; every reply in flight answers a written request; and no two replies have one id.

## Main definitions

* `WellBehaved`: the assumption about the backend, as a condition on its steps
* `Served`: each request in the queue or on the wire has a stored sender of its own
* `Answering`: the replies in flight

## Main results

* `lookup_of_wellBehaved`: every lookup finds a sender, and loops end only with their stream
-/

namespace RzProxy

open ByteString Streaming Machines

/-! ## Requests and replies of a connection -/

def QueuedFrame.request? : QueuedFrame → Option (ChanId × UInt32)
  | .request chan corrId _ => some (chan, corrId)
  | .keepalive => none

namespace Connection

/-- The requests that were written or are still queued. -/
def requests (k : Connection) : List (ChanId × UInt32) :=
  (k.written ++ k.queue).filterMap QueuedFrame.request?

/-- The ids of the request frames that the backend received. -/
def requestIds (k : Connection) : List UInt32 := k.written.filterMap QueuedFrame.corrId?

/-- The ids of the frames that the backend sent. -/
def replyIds (k : Connection) : List UInt32 := k.frames.map fun f => f.1.clrId

theorem requestIds_eq (k : Connection) :
    k.requestIds = (k.written.filterMap QueuedFrame.request?).map Prod.snd := by
  rw [requestIds, List.map_filterMap]
  congr 1
  funext f
  cases f <;> rfl

theorem requests_push {m : ℕ} {k k' : Connection} {frame : QueuedFrame}
    (h : k.push m frame = some k') : k'.requests = k.requests ++ frame.request?.toList := by
  rw [push_eq h, requests, requests, ← List.append_assoc, List.filterMap_append]
  cases frame <;> rfl

theorem Local.requests {m : ℕ} {c : ConnId} {a : Action} {k k' : Connection}
    (h : k.Local m c a k') :
    k'.requests.Sublist k.requests := by
  cases h with
  | close | deliver | recv | readError | malformed | drain | unknownId | readClosed | readDone
  | writeClosed | keepaliveStop | keepaliveTick => exact List.Sublist.refl _
  | write task next =>
    simp [Connection.requests, next]
  | writeDone =>
    simp only [Connection.requests, List.append_nil, List.filterMap_append]
    exact List.sublist_append_left _ _
  | @writeError whole frame queue task next =>
    cases whole
    · refine List.Sublist.filterMap _ ?_
      simp [next]
    · simp [Connection.requests, next]
  | keepaliveSend =>
    simp [Connection.requests, QueuedFrame.request?]

end Connection

/-- **A well-behaved backend** sends whole reply frames, each with the id of a request frame that it
received on the connection and has not answered yet. -/
def WellBehaved (s : State) : Action → Prop
  | .deliver c bytes => ∃ id payload, bytes = prependHeader id payload ∧
      WellFormedPayload payload ∧
      (s.conns c).replyIds.count id < (s.conns c).requestIds.count id
  | _ => True

/-! ## Requests have stored senders -/

variable {s : State}

/-- Each request in the queue or on the wire has a stored sender of its own. -/
structure Served (s : State) : Prop where
  request : ∀ {c x id}, (x, id) ∈ (s.conns c).requests → x < s.chanCount ∧
    (s.chans x).conn = c ∧ (s.chans x).corrId = id ∧ (s.chans x).storedAt ≠ none ∧
      ∀ k d i, (s.calls k).pc ≠ .send d i x
  nodup : ∀ c, ((s.conns c).requests.map Prod.fst).Nodup

/-- A connection gets a request from a call that was at `send`. -/
theorem Change.requests {s' : State} {a : Action} (h : Change s a s') (c : ConnId) :
    (s'.conns c).requests.Sublist (s.conns c).requests ∨
      ∃ k id x, (s.calls k).pc = .send c id x ∧ (s'.calls k).pc = .wait c id x ∧
        (s'.conns c).requests = (s.conns c).requests ++ [(x, id)] := by
  have hupd : ∀ {d : ConnId} {k : Connection}, k.requests.Sublist (s.conns d).requests →
      (Function.update s.conns d k c).requests.Sublist (s.conns c).requests := by
    intro d k hk
    have hor := update_eq_or (f := s.conns)
      (P := fun d (k : Connection) => k.requests.Sublist (s.conns d).requests) hk c
    rcases hor with he | hk
    · rw [he]
    · exact hk
  cases h with
  | newCall | move | answered | unanswered | cancel | cancelStore | lock | connect =>
    exact .inl (List.Sublist.refl _)
  | draw => exact .inl (hupd (List.Sublist.refl _))
  | store => exact .inl (hupd (List.Sublist.refl _))
  | @queue k d id x conn hk pc isOpen push =>
    by_cases hd : c = d
    · subst hd
      refine .inr ⟨k, id, x, pc, ?_, ?_⟩
      · rw [calls_setCall]
      · show (Function.update s.conns c conn c).requests = _
        rw [Function.update_self, Connection.requests_push push]
        rfl
    · refine .inl ?_
      show (Function.update s.conns d conn c).requests.Sublist _
      rw [Function.update_of_ne hd]
  | sendFailed => exact .inl (hupd (List.Sublist.refl _))
  | conn hc hl => exact .inl (hupd hl.requests)
  | take => exact .inl (hupd (List.Sublist.refl _))

theorem Served.change {s' : State} {a : Action} (h : Served s) (hcorr : Correlated s)
    (hkept : Kept s) (hc : Change s a s') : Served s' := by
  have hold : ∀ {c x id}, (x, id) ∈ (s.conns c).requests → x < s'.chanCount ∧
      (s'.chans x).conn = c ∧ (s'.chans x).corrId = id ∧ (s'.chans x).storedAt ≠ none ∧
        ∀ k d i, (s'.calls k).pc ≠ .send d i x := by
    intro c x id hm
    obtain ⟨hx, hcn, hid, hst, hns⟩ := h.request hm
    obtain ⟨hx', hl, hst'⟩ := hc.chan hx
    simp only [Chan.label, Prod.mk.injEq] at hl
    refine ⟨hx', hl.2.1.trans hcn, hl.2.2.1.trans hid, hst' hst, fun k d i hs => ?_⟩
    rcases hc.send hs with hs | hs
    · exact hns k d i hs
    · exact hst (hcorr.unstored hs).2
  refine ⟨fun {c x id} hm => ?_, fun c => ?_⟩
  · rcases hc.requests c with hsub | ⟨k, id', x', hpc, hpc', hreq⟩
    · exact hold (hsub.subset hm)
    · rw [hreq, List.mem_append, List.mem_singleton, Prod.mk.injEq] at hm
      rcases hm with hm | ⟨rfl, rfl⟩
      · exact hold hm
      · obtain ⟨hx, hcall, hcn, hid, -⟩ := hcorr.attempt (k := k) (by rw [hpc]; rfl)
        obtain ⟨hx', hl, hst'⟩ := hc.chan hx
        simp only [Chan.label, Prod.mk.injEq] at hl
        refine ⟨hx', hl.2.1.trans hcn, hl.2.2.1.trans hid,
          hst' (hkept.stored (k := k) (by rw [hpc]; rfl)), fun j d i hs => ?_⟩
        by_cases hjk : j = k
        · subst hjk
          rw [hpc'] at hs
          cases hs
        · have hj : (s.calls j).pc.attempt = some (d, i, x) := by
            rcases hc.send hs with hs | hs <;> rw [hs] <;> rfl
          exact hcorr.ne_of_call hjk hj (b := (c, id, x)) (by rw [hpc]; rfl) rfl
  · rcases hc.requests c with hsub | ⟨k, id', x', hpc, hpc', hreq⟩
    · exact (hsub.map _).nodup (h.nodup c)
    · rw [hreq, List.map_append, List.nodup_append]
      refine ⟨h.nodup c, by simp, fun y hy z hz => ?_⟩
      obtain rfl : z = x' := by simpa using hz
      obtain ⟨⟨y', i⟩, hm, rfl⟩ := List.mem_map.mp hy
      rintro rfl
      exact (h.request hm).2.2.2.2 k c id' hpc

theorem Served.reap (h : Served s) : Served s.reap := by
  have hreq : ∀ c, (s.reap.conns c).requests = (s.conns c).requests := by
    intro c
    rw [conns_reap]
    split_ifs <;> rfl
  have hchan : ∀ x, (s.reap.chans x).label = (s.chans x).label ∧
      (s.reap.chans x).storedAt = (s.chans x).storedAt := by
    intro x
    show (if _ then _ else s.chans x : Chan).label = _ ∧
      (if _ then _ else s.chans x : Chan).storedAt = _
    split_ifs <;> exact ⟨rfl, rfl⟩
  refine ⟨fun {c x id} hm => ?_, fun c => ?_⟩
  · rw [hreq] at hm
    obtain ⟨hl, hst⟩ := hchan x
    simp only [Chan.label, Prod.mk.injEq] at hl
    rw [hl.2.1, hl.2.2.1, hst]
    exact h.request hm
  · rw [hreq]
    exact h.nodup c

/-- Under the bound a written request is the only one with its id. -/
theorem Served.count_requestIds_le_one (h : Served s) (hcorr : Correlated s) (hb : Bounded s)
    (c : ConnId) (id : UInt32) : (s.conns c).requestIds.count id ≤ 1 := by
  have hsub : ((s.conns c).written.filterMap QueuedFrame.request?).Sublist
      (s.conns c).requests := by
    rw [Connection.requests, List.filterMap_append]
    exact List.sublist_append_left _ _
  rw [Connection.requestIds_eq]
  refine List.nodup_iff_count_le_one.mp (List.Nodup.map_on ?_ ?_) id
  · -- two requests with one id have one channel, since the counter has not come around
    rintro ⟨x, i⟩ hx ⟨y, j⟩ hy hij
    obtain ⟨hxl, hxc, hxi, -⟩ := h.request (hsub.subset hx)
    obtain ⟨hyl, hyc, hyi, -⟩ := h.request (hsub.subset hy)
    have hij' : i = j := hij
    have hxy := hcorr.eq_of_corrId hb hxl hyl (hxc.trans hyc.symm)
      (hxi.trans (hij'.trans hyi.symm))
    rw [hxy, hij']
  · exact .of_map _ ((hsub.map Prod.fst).nodup (h.nodup c))

/-- A written request is registered, or its answer was taken. -/
theorem Served.registered_or_taken (h : Served s) (hcorr : Correlated s) (hkept : Kept s)
    {c : ConnId} {id : UInt32} (hd : (s.conns c).dropped = false)
    (hid : id ∈ (s.conns c).requestIds) :
    (∃ x, (s.conns c).demux id = some x) ∨ ∃ f ∈ (s.conns c).taken, f.header.clrId = id := by
  rw [Connection.requestIds_eq, List.mem_map] at hid
  obtain ⟨⟨x, i⟩, hm, rfl⟩ := hid
  have hm' : (x, i) ∈ (s.conns c).requests := by
    rw [Connection.requests, List.filterMap_append]
    exact List.mem_append_left _ hm
  obtain ⟨hx, hc, hi, hst, -⟩ := h.request hm'
  obtain ⟨hne, hdemux⟩ := hkept.kept hx hst (hc ▸ hd)
  cases ho : (s.chans x).oneshot with
  | empty => exact .inl ⟨x, hi ▸ hc ▸ hdemux ho⟩
  | sent p =>
    obtain ⟨f, n, t, hn, -, hfid, -⟩ := hcorr.sent hx ho
    exact .inr ⟨f, hc ▸ List.mem_of_getElem? hn, hfid.trans hi⟩
  | closed => exact absurd ho hne

/-! ## Replies in flight -/

/-- The frames of a list of replies. -/
def replyBytes (replies : List (UInt32 × Bytes)) : Bytes :=
  replies.flatMap fun f => prependHeader f.1 f.2

/-- What is left to be read are whole replies. -/
def Connection.Answering (k : Connection) : Prop :=
  ∃ replies : List (UInt32 × Bytes), (∀ f ∈ replies, WellFormedPayload f.2) ∧
    k.buf ++ k.inbound = replyBytes replies

theorem split_replyBytes {replies : List (UInt32 × Bytes)}
    (h : ∀ f ∈ replies, WellFormedPayload f.2) :
    (frameSplitter.split (replyBytes replies)).1 =
      replies.map fun f => (expectedHeader f.1 f.2, f.2) := by
  have hmany := frameSplitter.split_flatMap _ _ replies []
    fun f hf => look_prependHeader (h f hf) f.1
  simpa [replyBytes] using congrArg Prod.fst hmany

theorem Connection.Fed.frames_eq {k : Connection} (h : k.Fed) (ht : k.readTask = .running) :
    k.frames = k.drained ++ (frameSplitter.split (k.buf ++ k.inbound)).1 := by
  obtain ⟨front, frames, hr, hs, -, hrun⟩ := h
  rw [Connection.frames, hr, hs, hrun ht]

/-- The ids of the replies: taken, in hand, and to be read. -/
theorem Connection.Fed.replyIds_eq {k : Connection} (h : k.Fed) (ht : k.readTask = .running)
    {replies : List (UInt32 × Bytes)} (hw : ∀ f ∈ replies, WellFormedPayload f.2)
    (hb : k.buf ++ k.inbound = replyBytes replies) :
    k.replyIds = (k.drained.map fun f => f.1.clrId) ++ replies.map Prod.fst := by
  rw [Connection.replyIds, h.frames_eq ht, hb, split_replyBytes hw, List.map_append, List.map_map]
  rfl

/-- The next frame of whole replies is a whole reply. -/
theorem look_of_replyBytes {buf inbound : Bytes} {replies : List (UInt32 × Bytes)}
    (hw : ∀ f ∈ replies, WellFormedPayload f.2) (hb : buf ++ inbound = replyBytes replies) :
    frameSplitter.look buf = .more ∨ ∃ f replies', replies = f :: replies' ∧
      ∃ rest, frameSplitter.look buf = .item (expectedHeader f.1 f.2, f.2) rest ∧
        rest ++ inbound = replyBytes replies' := by
  cases replies with
  | nil =>
    obtain ⟨rfl, -⟩ := List.append_eq_nil_iff.mp hb
    exact .inl rfl
  | cons f replies =>
    -- the bytes yet to be read decide what the buffer holds: the start of a reply, or all of it
    have hlook := look_prependHeader (hw f (by simp)) f.1 (replyBytes replies)
    have hcons : replyBytes (f :: replies) = prependHeader f.1 f.2 ++ replyBytes replies := rfl
    rw [← hcons, ← hb] at hlook
    cases hl : frameSplitter.look buf with
    | more => exact .inl rfl
    | fail e =>
      rw [frameSplitter.fail_append hl] at hlook
      cases hlook
    | item a rest =>
      rw [frameSplitter.item_append hl, Look.item.injEq] at hlook
      exact .inr ⟨f, replies, rfl, rest, by rw [hlook.1], hlook.2⟩

/-- What a running read loop has under a well-behaved backend. -/
structure Connection.Orderly (k : Connection) : Prop where
  exit : k.exit = none ∨ k.exit = some .stream
  answering : k.readTask = .running → k.Answering
  count : k.readTask = .running → ∀ id, k.replyIds.count id ≤ k.requestIds.count id

/-- The lookup finds a sender. -/
theorem lookup_of_orderly (hcorr : Correlated s) (hb : Bounded s) (hh : Holding s) (hkept : Kept s)
    (hserved : Served s) {c : ConnId} (hfed : (s.conns c).Fed) (hord : (s.conns c).Orderly)
    (ht : (s.conns c).readTask = .running) {header : Header} {payload : Bytes}
    (hand : (s.conns c).inHand = some (header, payload)) :
    ∃ x, (s.conns c).demux header.clrId = some x := by
  obtain ⟨replies, hw, hbytes⟩ := hord.answering ht
  have hcount := hord.count ht header.clrId
  -- the reply in hand is one for the id, and there is at most one request with it
  have hone := hserved.count_requestIds_le_one hcorr hb c header.clrId
  rw [hfed.replyIds_eq ht hw hbytes, Connection.drained, hand, List.map_append, List.count_append,
    List.count_append] at hcount
  simp only [List.map_map, Option.toList_some, List.map_cons, List.map_nil, List.count_singleton,
    beq_self_eq_true, if_true] at hcount
  have hheld : (s.conns c).heldByTask = true := by simp [Connection.heldByTask, ht]
  have hid : header.clrId ∈ (s.conns c).requestIds := List.count_pos_iff.mp (by omega)
  rcases hserved.registered_or_taken hcorr hkept (hh.task hheld) hid with hreg | ⟨f, hf, hfid⟩
  · exact hreg
  · -- were it taken already, there would be two replies to one request
    have hpos : 0 < List.count header.clrId ((s.conns c).taken.map
        ((fun f => f.1.clrId) ∘ fun f => (f.header, f.payload))) :=
      List.count_pos_iff.mpr (List.mem_map.mpr ⟨f, hf, hfid⟩)
    omega

theorem Connection.orderly_fresh : Connection.fresh.Orderly := by
  refine ⟨.inl rfl, fun _ => ⟨[], nofun, rfl⟩, fun _ id => ?_⟩
  simp [Connection.fresh, Connection.replyIds, Connection.frames]

theorem Connection.Orderly.deliver {k : Connection} (h : k.Orderly) (hfed : k.Fed) {id : UInt32}
    {payload : Bytes} (hp : WellFormedPayload payload)
    (hlt : k.replyIds.count id < k.requestIds.count id) :
    (k.deliver (prependHeader id payload)).Orderly := by
  have hbytes : ∀ {replies : List (UInt32 × Bytes)}, k.buf ++ k.inbound = replyBytes replies →
      k.buf ++ (k.inbound ++ prependHeader id payload) =
        replyBytes (replies ++ [(id, payload)]) := by
    intro replies hb
    rw [← List.append_assoc, hb, replyBytes, replyBytes, List.flatMap_append]
    simp
  have hwf : ∀ {replies : List (UInt32 × Bytes)}, (∀ f ∈ replies, WellFormedPayload f.2) →
      ∀ f ∈ replies ++ [(id, payload)], WellFormedPayload f.2 := by
    intro replies hw f hf
    rcases List.mem_append.mp hf with hf | hf
    · exact hw f hf
    · rw [List.mem_singleton.mp hf]
      exact hp
  refine ⟨h.exit, fun ht => ?_, fun ht i => ?_⟩
  · obtain ⟨replies, hw, hb⟩ := h.answering ht
    exact ⟨replies ++ [(id, payload)], hwf hw, hbytes hb⟩
  · obtain ⟨replies, hw, hb⟩ := h.answering ht
    have hfed' : (k.deliver (prependHeader id payload)).Fed := by
      obtain ⟨front, frames, hr, hs, hpre, hrun⟩ := hfed
      exact ⟨front, frames, by simp [Connection.deliver, hr], hs, hpre, hrun⟩
    have hreply : (k.deliver (prependHeader id payload)).replyIds = k.replyIds ++ [id] := by
      rw [hfed'.replyIds_eq ht (hwf hw) (hbytes hb), hfed.replyIds_eq ht hw hb, List.map_append,
        List.append_assoc]
      rfl
    rw [hreply, List.count_append, List.count_singleton]
    show _ ≤ k.requestIds.count i
    split_ifs with hi
    · rw [beq_iff_eq] at hi
      rw [← hi]
      omega
    · exact h.count ht i

/-- A step of a connection keeps it orderly, where the lookup finds a sender and the backend is well
behaved. -/
theorem Connection.Orderly.moves {m : ℕ} {c : ConnId} {a : Action} {k k' : Connection}
    (h : k.Orderly) (hfed : k.Fed)
    (hlookup : ∀ header payload, k.readTask = .running → k.inHand = some (header, payload) →
      ∃ x, k.demux header.clrId = some x)
    (hok : ∀ bytes, a = .deliver c bytes → ∃ id payload, bytes = prependHeader id payload ∧
      WellFormedPayload payload ∧ k.replyIds.count id < k.requestIds.count id)
    (hm : k.Moves m c a k') : k'.Orderly := by
  cases hm with
  | draw | register | refuse => exact ⟨h.exit, h.answering, h.count⟩
  | push hp =>
    rw [Connection.push_eq hp]
    exact ⟨h.exit, h.answering, h.count⟩
  | take => exact ⟨h.exit, h.answering, h.count⟩
  | alone hl =>
    cases hl with
    | close | writeClosed | writeDone | keepaliveStop | keepaliveTick | keepaliveSend =>
      exact ⟨h.exit, h.answering, h.count⟩
    | deliver bytes =>
      obtain ⟨id, payload, rfl, hp, hlt⟩ := hok bytes rfl
      exact h.deliver hfed hp hlt
    | recv =>
      refine ⟨h.exit, fun ht => ?_, h.count⟩
      obtain ⟨replies, hw, hb⟩ := h.answering ht
      exact ⟨replies, hw, by simpa using hb⟩
    | readError => exact ⟨.inr rfl, nofun, nofun⟩
    | malformed ht hand look =>
      obtain ⟨replies, hw, hb⟩ := h.answering ht
      rcases look_of_replyBytes hw hb with hl | ⟨f, replies', -, rest, hl, -⟩ <;>
        rw [look] at hl <;> cases hl
    | drain ht hand look =>
      refine ⟨h.exit, fun _ => ?_, fun _ => h.count ht⟩
      obtain ⟨replies, hw, hb⟩ := h.answering ht
      rcases look_of_replyBytes hw hb with hl | ⟨f, replies', rfl, rest', hl, hr⟩
      · rw [look] at hl
        cases hl
      · rw [look, Look.item.injEq] at hl
        exact ⟨replies', fun g hg => hw g (List.mem_cons_of_mem _ hg), by rw [hl.2]; exact hr⟩
    | unknownId ht hand unknown =>
      obtain ⟨x, hx⟩ := hlookup _ _ ht hand
      rw [unknown] at hx
      cases hx
    | readClosed => exact ⟨h.exit, nofun, nofun⟩
    | readDone => exact ⟨h.exit, nofun, nofun⟩
    | write task next =>
      refine ⟨h.exit, h.answering, fun ht id => (h.count ht id).trans ?_⟩
      exact List.Sublist.count_le _ (List.Sublist.filterMap _ (List.sublist_append_left _ _))
    | @writeError whole frame queue task next =>
      refine ⟨h.exit, h.answering, fun ht id => (h.count ht id).trans ?_⟩
      cases whole
      · exact le_refl _
      · exact List.Sublist.count_le _ (List.Sublist.filterMap _ (List.sublist_append_left _ _))

/-- Requests are served and connections orderly in every run under the bound. -/
theorem served_and_orderly_of_reach (hs : handler.Reach WellBehaved s) (hb : Bounded s) :
    Served s ∧ ∀ c, (s.conns c).Orderly := by
  refine hs.invariant_of_bound (P := fun s => Served s ∧ ∀ c, (s.conns c).Orderly)
    (fun _ _ _ hst => Bounded.of_step hst) ?_ (fun s a s' hr hb _ h hok hstep => ?_) hb
  · rintro s ⟨cfg, rfl⟩
    exact ⟨⟨nofun, fun _ => List.nodup_nil⟩, fun _ => Connection.orderly_fresh⟩
  · obtain ⟨hserved, hord⟩ := h
    obtain ⟨s₁, hc, rfl⟩ := step_cases hstep
    have hcorr := correlated_of_reach hr
    have hh := holding_of_reach hr
    have hkept := kept_of_reach hr hb
    have hserved₁ : Served s₁ := hserved.change hcorr hkept hc
    have hserved' : Served s₁.tick := ⟨hserved₁.1, hserved₁.2⟩
    refine ⟨hserved'.reap, fun c => ?_⟩
    have hord₁ : (s₁.conns c).Orderly := by
      rcases hc.conns c with he | hm
      · rw [he]
        exact hord c
      · refine (hord c).moves (fed_of_reach hr c) (fun header payload ht hand => ?_) ?_ hm
        · exact lookup_of_orderly hcorr hb hh hkept hserved (fed_of_reach hr c) (hord c) ht hand
        · rintro bytes rfl
          exact hok
    show (s₁.tick.reap.conns c).Orderly
    rw [conns_reap]
    split_ifs
    · exact ⟨hord₁.exit, hord₁.answering, hord₁.count⟩
    · exact hord₁

/-- **A well-behaved backend** never trips a connection: every lookup of a read loop finds a sender,
and a read loop ends only with its stream. -/
theorem lookup_of_wellBehaved (hs : handler.Reach WellBehaved s) (hb : Bounded s) (c : ConnId) :
    ((s.conns c).exit = none ∨ (s.conns c).exit = some .stream) ∧
      ∀ header payload, (s.conns c).readTask = .running →
        (s.conns c).inHand = some (header, payload) →
          ∃ x, (s.conns c).demux header.clrId = some x := by
  obtain ⟨hserved, hord⟩ := served_and_orderly_of_reach hs hb
  exact ⟨(hord c).exit, fun header payload ht hand =>
    lookup_of_orderly (correlated_of_reach hs) hb (holding_of_reach hs) (kept_of_reach hs hb)
      hserved (fed_of_reach hs c) (hord c) ht hand⟩

/-- Two requests on one connection, the first answered after its client went away. -/
theorem lookup_of_wellBehaved_after_cancel :
    ∃ s₁ s, handler.run (State.initial ⟨.standalone, "host", 1, 1⟩)
        [.reconnect true, .reconnect true, .reconnect true, .call "eu" false [1, 65],
          .call "eu" true [1, 66], .exec 0, .exec 0, .exec 1, .exec 1, .exec 0, .exec 1, .exec 0,
          .exec 1, .exec 0, .exec 1, .cancel 0, .write 0, .write 0] = some s₁ ∧
      handler.run s₁ [.deliver 0 (prependHeader 1 [0, 0, 0]), .recv 0 12, .read 0] = some s ∧
      ∃ x, (s.conns 0).demux 1 = some x := by
  have hrun₁ : (handler.run (State.initial ⟨.standalone, "host", 1, 1⟩)
      [.reconnect true, .reconnect true, .reconnect true, .call "eu" false [1, 65],
        .call "eu" true [1, 66], .exec 0, .exec 0, .exec 1, .exec 1, .exec 0, .exec 1, .exec 0,
        .exec 1, .exec 0, .exec 1, .cancel 0, .write 0, .write 0]).map
      (fun s => ((s.conns 0).requestIds, (s.conns 0).received)) = some ([1, 2], []) := by decide
  have hrun : ((handler.run (State.initial ⟨.standalone, "host", 1, 1⟩)
      [.reconnect true, .reconnect true, .reconnect true, .call "eu" false [1, 65],
        .call "eu" true [1, 66], .exec 0, .exec 0, .exec 1, .exec 1, .exec 0, .exec 1, .exec 0,
        .exec 1, .exec 0, .exec 1, .cancel 0, .write 0, .write 0]).bind fun s₁ => handler.run s₁
          [.deliver 0 (prependHeader 1 [0, 0, 0]), .recv 0 12, .read 0]).map
      (fun s => ((s.conns 0).readTask, (s.conns 0).inHand, s.clock)) =
        some (.running, some (⟨1, 0, 0⟩, [0, 0, 0]), 21) := by decide
  obtain ⟨s₁, hs₁, hreq⟩ := Option.map_eq_some_iff.mp hrun₁
  obtain ⟨hids, hreceived⟩ := Prod.mk.inj hreq
  obtain ⟨s, hs, hstate⟩ := Option.map_eq_some_iff.mp hrun
  rw [hs₁, Option.bind_some] at hs
  have hr₁ : handler.Reach WellBehaved s₁ :=
    Machine.Reach.run (.init ⟨_, rfl⟩) (by simp [WellBehaved]) hs₁
  obtain ⟨s₂, hs₂, hs₃⟩ := Option.bind_eq_some_iff.mp hs
  have hok : WellBehaved s₁ (.deliver 0 (prependHeader 1 [0, 0, 0])) := by
    refine ⟨1, [0, 0, 0], rfl, ⟨0, [0, 0], rfl, by decide, by decide⟩, ?_⟩
    rw [hids, Connection.replyIds, Connection.frames, hreceived, frameSplitter_split_nil]
    decide
  have hr : handler.Reach WellBehaved s :=
    Machine.Reach.run (.step hr₁ hok hs₂) (by simp [WellBehaved]) hs₃
  have hclock : s.clock = 21 := congrArg (·.2.2) hstate
  have hb := bounded_of_clock hr.reachable (by rw [hclock]; decide)
  exact ⟨s₁, s, hs₁, hs, (lookup_of_wellBehaved hr hb 0).2 ⟨1, 0, 0⟩ [0, 0, 0]
    (congrArg Prod.fst hstate) (congrArg (·.2.1) hstate)⟩

end RzProxy
