import RzProxy.Server.Requests

/-!
# The start of the proxy

Before it serves anything, the proxy asks for the rate features: sixty times at most, and again only
after a call that failed. They are set once, to what the backend said in reply to one of these
calls, and are the same for all responses to come.

## Main definitions

* `Refused`: an attempt to get the rate features that failed
* `Started`: how far `async_main` has come

## Main results

* `started_of_reach`: the invariant of `async_main`
* `asked_of_reach`: how often the proxy asks, and why it gives up
* `rateFeatures_of_run`: the rate features are those of the backend, and stay
-/

namespace RzProxy

open ByteString Machines

variable {fromSlice : Bytes → Option Value} {s s' : Proxy} {ev : Event}

/-- A call for the rate features that is over, and has failed or was answered by something else. -/
def Refused (h : State) (k : CallId) : Prop :=
  ∃ result e, (h.calls k).pc = .finished result ∧
    (processGetCodecs fun _ => result) = .ok (.error e)

/-- The rate features are not known, and nobody was served. -/
def Unset (s : Proxy) : Prop := s.env.rateFeatures = none ∧ s.requests = []

/-- The rate features are those that the backend replied to a call for them, and all responses were
made with them. -/
structure Known (s : Proxy) : Prop where
  told : ∃ k ∈ s.asked, ∃ payload codecs, (s.handler.calls k).pc = .finished (.ok payload) ∧
    decodeGetCodecsResponse payload = .ok (.ok codecs) ∧
      s.env.rateFeatures = some codecs.rateFeatures
  used : ∀ r ∈ s.requests, ∀ env rsp, r.handling = .responded env rsp →
    env.rateFeatures = s.env.rateFeatures

/-- What was done when `async_main` is where it is. -/
def Started (s : Proxy) : Prop :=
  match s.phase with
  | .begin => s.asked.length = s.attempt ∧ s.attempt ≤ 60 ∧ Unset s ∧
      ∀ k ∈ s.asked, Refused s.handler k
  | .asking k => ∃ ks, s.asked = ks ++ [k] ∧ ks.length = s.attempt ∧ s.attempt < 60 ∧ Unset s ∧
      ∀ j ∈ ks, Refused s.handler j
  | .sleeping => s.asked.length = s.attempt + 1 ∧ s.attempt < 60 ∧ Unset s ∧
      ∀ k ∈ s.asked, Refused s.handler k
  | .serving | .returned (.ok ()) => s.asked.length ≤ 60 ∧ Known s
  | .returned (.error e) => s.asked.length ≤ 60 ∧ Unset s ∧
      (e = .internal "Shutdown while waiting for codecs" ∧ s.cancelled = true ∨
        e = .internal "Max attempts reached waiting for codecs" ∧ s.asked.length = 60 ∧
          ∀ k ∈ s.asked, Refused s.handler k)

/-- The calls that were over are over. -/
def Keeps (s s' : Proxy) : Prop := ∀ k ∈ s.asked, ∀ result,
  (s.handler.calls k).pc = .finished result → (s'.handler.calls k).pc = .finished result

theorem Refused.keeps {k : CallId} (hr : Refused s.handler k) (hk : k ∈ s.asked)
    (h : Keeps s s') : Refused s'.handler k := by
  obtain ⟨result, e, hpc, hcodecs⟩ := hr
  exact ⟨result, e, h k hk result hpc, hcodecs⟩

theorem Unset.congr (h : Unset s) (hfeatures : s'.env.rateFeatures = s.env.rateFeatures)
    (hrequests : s'.requests = s.requests) : Unset s' :=
  ⟨hfeatures.trans h.1, hrequests.trans h.2⟩

theorem Known.congr (h : Known s) (hasked : s'.asked = s.asked)
    (hfeatures : s'.env.rateFeatures = s.env.rateFeatures) (hkeeps : Keeps s s')
    (hrequests : ∀ r ∈ s'.requests, r ∈ s.requests ∨ ∀ env rsp, r.handling = .responded env rsp →
      env.rateFeatures = s.env.rateFeatures) : Known s' := by
  obtain ⟨⟨k, hk, payload, codecs, hpc, hdecode, htold⟩, hused⟩ := h
  refine ⟨⟨k, hasked ▸ hk, payload, codecs, hkeeps k hk _ hpc, hdecode, hfeatures.trans htold⟩, ?_⟩
  intro r hr env rsp hrsp
  rw [hfeatures]
  rcases hrequests r hr with hold | hnew
  · exact hused r hold env rsp hrsp
  · exact hnew env rsp hrsp

/-- What others do leaves `async_main` where it is. -/
theorem Started.congr (h : Started s) (hphase : s'.phase = s.phase) (hasked : s'.asked = s.asked)
    (hattempt : s'.attempt = s.attempt) (hrequests : s'.requests = s.requests)
    (hfeatures : s'.env.rateFeatures = s.env.rateFeatures)
    (hcancelled : s.cancelled = true → s'.cancelled = true) (hkeeps : Keeps s s') : Started s' := by
  have hknown (h : Known s) : Known s' :=
    h.congr hasked hfeatures hkeeps fun r hr => .inl (hrequests ▸ hr)
  have hrefused (h : ∀ k ∈ s.asked, Refused s.handler k) : ∀ k ∈ s.asked, Refused s'.handler k :=
    fun k hk => (h k hk).keeps hk hkeeps
  unfold Started at h ⊢
  rw [hphase, hasked, hattempt]
  cases hp : s.phase with
  | begin | sleeping =>
    rw [hp] at h
    exact ⟨h.1, h.2.1, h.2.2.1.congr hfeatures hrequests, hrefused h.2.2.2⟩
  | asking k =>
    rw [hp] at h
    obtain ⟨ks, hks, hlen, hlt, hunset, hall⟩ := h
    refine ⟨ks, hks, hlen, hlt, hunset.congr hfeatures hrequests, fun j hj => ?_⟩
    exact (hall j hj).keeps (hks ▸ List.mem_append_left _ hj) hkeeps
  | serving =>
    rw [hp] at h
    exact ⟨h.1, hknown h.2⟩
  | returned result =>
    rw [hp] at h
    cases result with
    | ok => exact ⟨h.1, hknown h.2⟩
    | error e =>
      refine ⟨h.1, h.2.1.congr hfeatures hrequests, ?_⟩
      exact h.2.2.imp (fun hdown => ⟨hdown.1, hcancelled hdown.2⟩)
        fun hmax => ⟨hmax.1, hmax.2.1, hrefused hmax.2.2⟩

theorem started_of_known (hphase : s.phase = .serving ∨ s.phase = .returned (.ok ()))
    (hlen : s.asked.length ≤ 60) (h : Known s) : Started s := by
  unfold Started
  rcases hphase with hp | hp <;> rw [hp] <;> exact ⟨hlen, h⟩

/-- A request is there only once the rate features are. -/
theorem Started.known (h : Started s) (hne : s.requests ≠ []) :
    (s.phase = .serving ∨ s.phase = .returned (.ok ())) ∧ s.asked.length ≤ 60 ∧ Known s := by
  unfold Started at h
  cases hp : s.phase with
  | begin | sleeping =>
    rw [hp] at h
    exact absurd h.2.2.1.2 hne
  | asking k =>
    rw [hp] at h
    obtain ⟨ks, -, -, -, hunset, -⟩ := h
    exact absurd hunset.2 hne
  | serving =>
    rw [hp] at h
    exact ⟨.inl rfl, h⟩
  | returned result =>
    rw [hp] at h
    cases result with
    | ok => exact ⟨.inr rfl, h⟩
    | error e => exact absurd h.2.1.2 hne

theorem keeps_of_step {a : Action} (ht : Traced fromSlice s.handler s.asked s.requests)
    (hstep : s.handler.step a = some s'.handler) : Keeps s s' := fun k hk result hpc =>
  calls_of_step hstep (ht.lt_of_asked hk) (by rw [hpc]; rfl) ▸ hpc

theorem Proxy.Moves.keeps (hm : s.Moves fromSlice ev s')
    (ht : Traced fromSlice s.handler s.asked s.requests) : Keeps s s' := by
  rcases hm.handler_cases with ⟨he, -⟩ | ⟨a, ha, -⟩
  · intro k _ result hpc
    rwa [he]
  · exact keeps_of_step ht ha

/-- A response that is there after a step was there before, or is made in the environment of now. -/
theorem Proxy.Moves.request_cases (hm : s.Moves fromSlice ev s') {r : HttpRequest}
    (hr : r ∈ s'.requests) :
    r ∈ s.requests ∨ ∀ env rsp, r.handling = .responded env rsp → env = s.env := by
  cases hm with
  | tooLong | reject | accept =>
    rcases List.mem_append.mp hr with hr | hr
    · exact .inl hr
    · obtain rfl := List.mem_singleton.mp hr
      exact .inr fun env rsp hrsp => by cases hrsp <;> rfl
  | respond | hangUp =>
    rcases List.mem_or_eq_of_mem_set hr with hr | rfl
    · exact .inl hr
    · exact .inr fun env rsp hrsp => by cases hrsp <;> rfl
  | _ => exact .inl hr

theorem length_asked_of_asking {ks : List CallId} {k : CallId} (hks : s.asked = ks ++ [k])
    (hlen : ks.length = s.attempt) : s.asked.length = s.attempt + 1 := by
  rw [hks, List.length_append, hlen, List.length_singleton]

/-- **A step of the proxy** keeps to the order in which things are done. -/
theorem Proxy.Moves.started (hm : s.Moves fromSlice ev s')
    (ht : Traced fromSlice s.handler s.asked s.requests) (h : Started s) : Started s' := by
  have hkeeps := hm.keeps ht
  have hrequests : ∀ r ∈ s'.requests, r ∈ s.requests ∨ ∀ env rsp,
      r.handling = .responded env rsp → env.rateFeatures = s.env.rateFeatures := fun r hr =>
    (hm.request_cases hr).imp_right fun h env rsp hrsp => by rw [h env rsp hrsp]
  have hold := h
  unfold Started at hold
  cases hm with
  | handler | cancel =>
    exact h.congr rfl rfl rfl rfl rfl (fun hc => by first | exact hc | rfl) hkeeps
  | year crates features => exact h.congr rfl rfl rfl rfl features id hkeeps
  | ask phase left step =>
    rw [phase] at hold
    obtain ⟨hlen, -, hunset, hall⟩ := hold
    exact ⟨s.asked, rfl, hlen, left, hunset, fun k hk => (hall k hk).keeps hk hkeeps⟩
  | giveUp phase left =>
    rw [phase] at hold
    obtain ⟨hlen, hle, hunset, hall⟩ := hold
    exact ⟨hlen.trans_le hle, hunset, .inr ⟨rfl, hlen.trans (Nat.le_antisymm hle left), hall⟩⟩
  | fail phase pc failed =>
    rw [phase] at hold
    obtain ⟨ks, hks, hlen, hlt, hunset, hall⟩ := hold
    refine ⟨length_asked_of_asking hks hlen, hlt, hunset, fun j hj => ?_⟩
    change j ∈ s.asked at hj
    rw [hks] at hj
    rcases List.mem_append.mp hj with hj | hj
    · exact hall j hj
    · obtain rfl := List.mem_singleton.mp hj
      exact ⟨_, _, pc, failed⟩
  | @serve k result codecs env phase pc received set =>
    rw [phase] at hold
    obtain ⟨ks, hks, hlen, hlt, hunset, -⟩ := hold
    have hk : k ∈ s.asked := hks ▸ List.mem_append_right _ List.mem_cons_self
    refine ⟨(length_asked_of_asking hks hlen).trans_le hlt, ⟨k, hk, ?_⟩, ?_⟩
    · cases result with
      | error e => cases received
      | ok payload =>
        refine ⟨payload, codecs, pc, received, ?_⟩
        rw [Env.setCodecs, hunset.1] at set
        obtain rfl := Except.ok.inj set
        rfl
    · show ∀ r ∈ s.requests, _
      rw [hunset.2]
      intro r hr
      cases hr
  | refuse phase set =>
    rw [phase] at hold
    obtain ⟨ks, -, -, -, hunset, -⟩ := hold
    rw [Env.setCodecs, hunset.1] at set
    cases set
  | retry phase =>
    rw [phase] at hold
    exact ⟨hold.1, hold.2.1, hold.2.2⟩
  | stop cancelled phase =>
    rcases phase with ⟨phase, rfl⟩ | ⟨phase, rfl⟩ <;> rw [phase] at hold
    · exact ⟨hold.1.trans_le hold.2.1, hold.2.2.1, .inl ⟨rfl, cancelled⟩⟩
    · exact ⟨hold.1, hold.2.told, hold.2.used⟩
  | interrupt cancelled phase step =>
    rw [phase] at hold
    obtain ⟨ks, hks, hlen, hlt, hunset, -⟩ := hold
    exact ⟨(length_asked_of_asking hks hlen).trans_le hlt, hunset, .inl ⟨rfl, cancelled⟩⟩
  | tooLong phase | reject phase | accept phase =>
    rw [phase] at hold
    exact started_of_known (.inl phase) hold.1 (hold.2.congr rfl rfl hkeeps hrequests)
  | respond req | hangUp req =>
    obtain ⟨hphase, hlen, hknown⟩ := h.known (List.ne_nil_of_mem (List.mem_of_getElem? req))
    exact started_of_known hphase hlen (hknown.congr rfl rfl hkeeps hrequests)

theorem started_of_reach (hs : (proxy fromSlice).Reachable s) : Started s := by
  refine hs.invariant (P := Started) ?_ fun s ev s' hr h _ hstep =>
    (Proxy.moves_of_step hstep).started (traced_of_reach hr) h
  rintro s ⟨cfg, env, rfl⟩
  exact ⟨rfl, Nat.zero_le _, ⟨rfl, rfl⟩, nofun⟩

/-! ## Attempts -/

/-- What `async_main` has in hand while it goes on with its attempts. -/
structure Tries (s : Proxy) : Prop where
  backoff : s.backoff = min (2 ^ s.attempt) 5
  refused : ∀ k ∈ s.asked.dropLast, Refused s.handler k

theorem Proxy.Moves.tries (hm : s.Moves fromSlice ev s')
    (ht : Traced fromSlice s.handler s.asked s.requests) (hstarted : Started s) (h : Tries s) :
    Tries s' := by
  have hkeeps := hm.keeps ht
  have hrefused : ∀ k ∈ s.asked.dropLast, Refused s'.handler k := fun k hk =>
    (h.refused k hk).keeps (List.mem_of_mem_dropLast hk) hkeeps
  cases hm with
  | ask phase =>
    refine ⟨h.backoff, fun k hk => ?_⟩
    unfold Started at hstarted
    rw [phase] at hstarted
    change k ∈ (s.asked ++ [s.handler.callCount]).dropLast at hk
    rw [List.dropLast_concat] at hk
    exact (hstarted.2.2.2 k hk).keeps hk hkeeps
  | retry phase =>
    refine ⟨?_, hrefused⟩
    show min (s.backoff * 2) 5 = min (2 ^ (s.attempt + 1)) 5
    rw [h.backoff, pow_succ]
    omega
  | _ => exact ⟨h.backoff, hrefused⟩

theorem tries_of_reach (hs : (proxy fromSlice).Reachable s) : Tries s := by
  refine hs.invariant (P := Tries) ?_ fun s ev s' hr h _ hstep =>
    (Proxy.moves_of_step hstep).tries (traced_of_reach hr) (started_of_reach hr) h
  rintro s ⟨cfg, env, rfl⟩
  exact ⟨rfl, nofun⟩

theorem Started.length_asked_le (h : Started s) : s.asked.length ≤ 60 := by
  unfold Started at h
  cases hp : s.phase with
  | begin =>
    rw [hp] at h
    exact h.1.trans_le h.2.1
  | asking k =>
    rw [hp] at h
    obtain ⟨ks, hks, hlen, hlt, -⟩ := h
    rw [hks, List.length_append, hlen]
    exact hlt
  | sleeping =>
    rw [hp] at h
    exact h.1.trans_le h.2.1
  | serving =>
    rw [hp] at h
    exact h.1
  | returned result =>
    rw [hp] at h
    cases result <;> exact h.1

/-- **The rate features are asked for** sixty times at most, again only after a call that failed,
and with a pause that doubles up to five seconds. The proxy gives up only when it is shut down or
has failed sixty times, and then it has served nobody. -/
theorem asked_of_reach (hs : (proxy fromSlice).Reachable s) :
    s.asked.length ≤ 60 ∧ s.backoff = min (2 ^ s.attempt) 5 ∧
      (∀ k ∈ s.asked.dropLast, Refused s.handler k) ∧
      ∀ e, s.phase = .returned (.error e) → s.requests = [] ∧
        (e = .internal "Shutdown while waiting for codecs" ∧ s.cancelled = true ∨
          e = .internal "Max attempts reached waiting for codecs" ∧ s.asked.length = 60 ∧
            ∀ k ∈ s.asked, Refused s.handler k) := by
  have hstarted := started_of_reach hs
  refine ⟨hstarted.length_asked_le, (tries_of_reach hs).backoff, (tries_of_reach hs).refused, ?_⟩
  intro e hp
  unfold Started at hstarted
  rw [hp] at hstarted
  exact ⟨hstarted.2.1.2, hstarted.2.2⟩

/-- The proxy is shut down in its second attempt, while the backend cannot be reached. -/
theorem asked_of_reach_shutdown :
    ∃ s, (proxy segmentsFromSlice).run
        (Proxy.initial ⟨.standalone, "host", 1, 1⟩ (.documented []))
        (.main :: List.replicate 5 (.handler (.exec 0)) ++
          [.main, .main, .main, .cancel, .shutDown]) =
          some s ∧
      s.asked = [0, 1] ∧ Refused s.handler 0 ∧ s.requests = [] := by
  have hrun : ((proxy segmentsFromSlice).run
      (Proxy.initial ⟨.standalone, "host", 1, 1⟩ (.documented []))
      (.main :: List.replicate 5 (.handler (.exec 0)) ++
        [.main, .main, .main, .cancel, .shutDown])).map
      (fun s => (s.asked, match s.phase with
        | .returned (.error e) => some e
        | _ => none)) =
      some ([0, 1], some (.internal "Shutdown while waiting for codecs")) := by decide +kernel
  obtain ⟨s, hs, hstate⟩ := Option.map_eq_some_iff.mp hrun
  obtain ⟨hasked, hphase⟩ := Prod.mk.inj hstate
  obtain ⟨-, -, hrefused, hreturned⟩ :=
    asked_of_reach (Machine.Reach.run (.init ⟨_, _, rfl⟩) (fun _ _ _ => trivial) hs)
  refine ⟨s, hs, hasked, hrefused 0 (by rw [hasked]; decide), ?_⟩
  split at hphase
  next e hp => exact (hreturned e hp).1
  · cases hphase

/-! ## Rate features -/

theorem Started.known_of_some (h : Started s) {features : List String}
    (hset : s.env.rateFeatures = some features) : Known s := by
  have hunset (hu : Unset s) : False := by
    rw [hu.1] at hset
    cases hset
  unfold Started at h
  cases hp : s.phase with
  | begin | sleeping =>
    rw [hp] at h
    exact (hunset h.2.2.1).elim
  | asking k =>
    rw [hp] at h
    obtain ⟨ks, -, -, -, hu, -⟩ := h
    exact (hunset hu).elim
  | serving =>
    rw [hp] at h
    exact h.2
  | returned result =>
    rw [hp] at h
    cases result with
    | ok => exact h.2
    | error e => exact (hunset h.2.1).elim

theorem Proxy.Moves.rateFeatures (hm : s.Moves fromSlice ev s') {features : List String}
    (hset : s.env.rateFeatures = some features) : s'.env.rateFeatures = some features := by
  cases hm with
  | serve phase pc received set =>
    rw [Env.setCodecs, hset] at set
    cases set
  | year crates same => exact same.trans hset
  | _ => exact hset

/-- **The rate features stay**: once they are set, they are for the rest of the run what the backend
said in reply to a call for them, and all responses are made with them. -/
theorem rateFeatures_of_run (hs : (proxy fromSlice).Reachable s) {es : List Event}
    (hrun : (proxy fromSlice).run s es = some s') {features : List String}
    (hset : s.env.rateFeatures = some features) :
    s'.env.rateFeatures = some features ∧
      (∀ r ∈ s'.requests, ∀ env rsp, r.handling = .responded env rsp →
        env.rateFeatures = some features) ∧
      ∃ k ∈ s'.asked, ∃ payload, (s'.handler.calls k).pc = .finished (.ok payload) ∧
        decodeGetCodecsResponse payload = .ok (.ok ⟨features⟩) := by
  have hpath := Machine.path_iff_run.mpr hrun
  have hset' : s'.env.rateFeatures = some features := by
    clear hrun
    induction hpath with
    | nil => exact hset
    | cons _ hstep _ ih =>
      exact ih (hs.step trivial hstep) ((Proxy.moves_of_step hstep).rateFeatures hset)
  have hknown := (started_of_reach (hs.path hpath)).known_of_some hset'
  refine ⟨hset', fun r hr env rsp hrsp => (hknown.used r hr env rsp hrsp).trans hset', ?_⟩
  obtain ⟨k, hk, payload, ⟨rateFeatures⟩, hpc, hdecode, htold⟩ := hknown.told
  obtain rfl := Option.some.inj (hset'.symm.trans htold)
  exact ⟨k, hk, payload, hpc, hdecode⟩

/-- The rate features are set, and a request is rejected. -/
theorem rateFeatures_of_run_wifi :
    ∃ s s', (proxy segmentsFromSlice).run
        (Proxy.initial ⟨.standalone, "host", 1, 1⟩ (.documented [])) segmentsRun = some s ∧
      (proxy segmentsFromSlice).run s [.request [], .year 2027] = some s' ∧
      s'.env.rateFeatures = some ["wifi"] := by
  have hrun : ((proxy segmentsFromSlice).run
      (Proxy.initial ⟨.standalone, "host", 1, 1⟩ (.documented [])) segmentsRun).map
        (fun s => (s.env.rateFeatures, ((proxy segmentsFromSlice).run s
          [.request [], .year 2027]).isSome)) = some (some ["wifi"], true) := by decide +kernel
  obtain ⟨s, hs, hstate⟩ := Option.map_eq_some_iff.mp hrun
  obtain ⟨hset, hsome⟩ := Prod.mk.inj hstate
  obtain ⟨s', hs'⟩ := Option.isSome_iff_exists.mp hsome
  have hr : (proxy segmentsFromSlice).Reachable s :=
    Machine.Reach.run (.init ⟨_, _, rfl⟩) (fun _ _ _ => trivial) hs
  exact ⟨s, s', hs, hs', (rateFeatures_of_run hr hs' hset).1⟩

end RzProxy
