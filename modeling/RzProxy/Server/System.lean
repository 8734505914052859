import RzProxy.Handler.System
import RzProxy.Processor.Features
import RzProxy.Processor.Request

/-!
# The proxy as a system

`async_main` asks the backend for the rate features, until it has them, and then serves HTTP
requests. A request is answered by `process`, which makes one call of `Handler::execute` at most.
The handler, the requests and `async_main` take their steps in any order, and so do the clients, who
go away when they like, and the clock.

A body that is too long for the route is refused before `process_request`, which does not hear of
it. A request is rejected in one step, since no `await` stands before the answer. So is it answered
once its call is over: no `await` stands behind `execute`. A panic, which would stop the task, is no
step at all. Once the token is noticed the server takes no more requests, and those in flight may
still be answered, or are dropped.

## Main definitions

* `bodyLimit`: the longest body that the route takes
* `HttpRequest`, `Phase`: where a request is, and where `async_main` is
* `Proxy`, `Event`: the state of the proxy, and what happens
* `Proxy.getCodecsWithRetry`, `Proxy.processRequest`, `Proxy.respond`: the steps
* `proxy`: the machine
* `Proxy.Moves`: the cases of a step

## Main results

* `Proxy.moves_of_step`: the cases are all
-/

namespace RzProxy

open ByteString Machines

/-- The call of `Handler::execute` for a request. -/
def Request.action (r : Request) : Action := .call r.segment r.isWrite r.payload

/-- A step that the handler and the backend take by themselves. -/
def Action.internal : Action → Bool
  | .call _ _ _ | .cancel _ => false
  | _ => true

/-- The default limit of the framework for the argument `body: Bytes` of `process_request`. -/
def bodyLimit : ℕ := 2097152

/-- Where a request is. -/
inductive Handling
  /-- The body was too long: the framework answered 413. -/
  | refused
  /-- at `handler.execute(..).await` -/
  | waiting (k : CallId)
  /-- With the environment that the answer was made in, as history. -/
  | responded (env : Env) (rsp : Response)
  /-- the client went away, and the future was dropped -/
  | dropped

/-- The call that is awaited. -/
def Handling.waits : Handling → Option CallId
  | .waiting k => some k
  | .refused | .responded _ _ | .dropped => none

/-- A POST request to `/api`, whose body has arrived. -/
structure HttpRequest where
  body : Bytes
  handling : Handling
  /-- History: the call that was made for it. -/
  call : Option CallId

/-- Where `async_main` is. -/
inductive Phase
  /-- at the head of the loop of `get_codecs_with_retry` -/
  | begin
  /-- at `process_get_codecs(handler)` -/
  | asking (k : CallId)
  /-- at `sleep(..).await` -/
  | sleeping
  /-- in `server::run` -/
  | serving
  | returned (result : Except RZError Unit)

/-- The state of the proxy. -/
structure Proxy where
  handler : State
  phase : Phase
  attempt : ℕ
  backoff : ℕ
  /-- The environment of the decoders: `RATE_FEATURES`, and the clock. -/
  env : Env
  /-- The token is cancelled. -/
  cancelled : Bool
  requests : List HttpRequest
  commands : ℕ
  bytesReceived : ℕ
  metrics : Metrics
  /-- History: the calls for GETCODECS. -/
  asked : List CallId

/-- What happens next. -/
inductive Event
  /-- The handler or the backend takes a step. -/
  | handler (a : Action)
  /-- `async_main` takes a step. -/
  | main
  /-- The token is cancelled. -/
  | cancel
  /-- `async_main` notices that it is. -/
  | shutDown
  | request (body : Bytes)
  | respond (i : ℕ)
  | hangUp (i : ℕ)
  /-- The clock is in another year. -/
  | year (year : ℕ)
  deriving DecidableEq

namespace Proxy

/-! ## `async_main` -/

/-- The next step of `get_codecs_with_retry`, and of `set_codecs` after it. -/
def getCodecsWithRetry (s : Proxy) : Option Proxy :=
  match s.phase with
  | .begin =>
    if s.attempt < 60 then
      (s.handler.step codecsRequest.action).map fun handler =>
        { s with handler, phase := .asking s.handler.callCount
                 asked := s.asked ++ [s.handler.callCount] }
    else
      some { s with
        phase := .returned (.error (.internal "Max attempts reached waiting for codecs")) }
  | .asking k =>
    match (s.handler.calls k).pc with
    | .finished result =>
      match processGetCodecs fun _ => result with
      | .error _ => none
      | .ok (.error _) => some { s with phase := .sleeping }
      | .ok (.ok codecs) =>
        match s.env.setCodecs codecs with
        | .error e => some { s with phase := .returned (.error e) }
        | .ok env => some { s with env, phase := .serving }
    | _ => none
  | .sleeping =>
    some { s with phase := .begin, attempt := s.attempt + 1, backoff := min (s.backoff * 2) 5 }
  | .serving | .returned _ => none

/-- The token is noticed in `tokio::select!`, which drops the future of the attempt, or by the
server. Nobody looks at it during `sleep`. -/
def shutDown (s : Proxy) : Option Proxy :=
  let result : Except RZError Unit := .error (.internal "Shutdown while waiting for codecs")
  if s.cancelled then
    match s.phase with
    | .begin => some { s with phase := .returned result }
    | .asking k =>
      (s.handler.step (.cancel k)).map fun handler => { s with handler, phase := .returned result }
    | .serving => some { s with phase := .returned (.ok ()) }
    | .sleeping | .returned _ => none
  else none

/-! ## Requests -/

variable (fromSlice : Bytes → Option Value)

/-- The route `/api`: a body that it takes goes to `process_request`, up to its `await`. -/
def processRequest (s : Proxy) (body : Bytes) : Option Proxy :=
  match s.phase with
  | .serving =>
    if bodyLimit < body.length then
      some { s with requests := s.requests ++ [{ body, handling := .refused, call := none }] }
    else
      let s := { s with commands := s.commands + 1, bytesReceived := s.bytesReceived + body.length }
      match request fromSlice body with
      | .error e =>
        let (rsp, metrics) := errorResponse s.metrics e
        some { s with
          metrics
          requests := s.requests ++ [{ body, handling := .responded s.env rsp, call := none }] }
      | .ok (r, _) =>
        let k := s.handler.callCount
        (s.handler.step r.action).map fun handler =>
          { s with
            handler, requests := s.requests ++ [{ body, handling := .waiting k, call := some k }] }
  | _ => none

/-- The answer to a request whose call is over. -/
def respond (s : Proxy) (i : ℕ) : Option Proxy :=
  match s.requests[i]? with
  | some ⟨body, .waiting k, call⟩ =>
    match (s.handler.calls k).pc with
    | .finished result =>
      match process s.env s.metrics fromSlice (fun _ => result) body with
      | .error _ => none
      | .ok (rsp, metrics) =>
        some { s with metrics, requests := s.requests.set i ⟨body, .responded s.env rsp, call⟩ }
    | _ => none
  | _ => none

/-- A client goes away, and the future of its request is dropped. -/
def hangUp (s : Proxy) (i : ℕ) : Option Proxy :=
  match s.requests[i]? with
  | some ⟨body, .waiting k, call⟩ =>
    (s.handler.step (.cancel k)).map fun handler =>
      { s with handler, requests := s.requests.set i ⟨body, .dropped, call⟩ }
  | _ => none

/-! ## The machine -/

/-- The clock is in a year of four digits. -/
def setYear (s : Proxy) (year : ℕ) : Option Proxy :=
  if h : year ≤ 9992 then
    some { s with env := { s.env with
      currentYear := year, currentYear_nonneg := Int.natCast_nonneg _
      currentYear_le := Int.ofNat_le.mpr h } }
  else none

/-- One step of the proxy. -/
def step (s : Proxy) : Event → Option Proxy
  | .handler a =>
    if a.internal then (s.handler.step a).map fun handler => { s with handler } else none
  | .main => s.getCodecsWithRetry
  | .cancel => some { s with cancelled := true }
  | .shutDown => s.shutDown
  | .request body => s.processRequest fromSlice body
  | .respond i => s.respond fromSlice i
  | .hangUp i => s.hangUp i
  | .year year => s.setYear year

/-- `async_main` begins: the rate features are not set yet. -/
def initial (cfg : Config) (env : Env) : Proxy where
  handler := .initial cfg
  phase := .begin
  attempt := 0
  backoff := 1
  env := { env with rateFeatures := none }
  cancelled := false
  requests := []
  commands := 0
  bytesReceived := 0
  metrics := ⟨0, 0⟩
  asked := []

end Proxy

/-- The proxy, with the parser of JSON that it uses. -/
def proxy (fromSlice : Bytes → Option Value) : Machine Proxy Event where
  init s := ∃ cfg env, s = Proxy.initial cfg env
  step := Proxy.step fromSlice

/-! ## The cases of a step -/

variable {fromSlice : Bytes → Option Value} {s s' : Proxy}

/-- What happens in a step. -/
inductive Proxy.Moves (fromSlice : Bytes → Option Value) (s : Proxy) : Event → Proxy → Prop
  | handler {a : Action} {handler : State} (internal : a.internal = true)
      (step : s.handler.step a = some handler) : Moves fromSlice s (.handler a) { s with handler }
  /-- An attempt begins. -/
  | ask {handler : State} (phase : s.phase = .begin) (left : s.attempt < 60)
      (step : s.handler.step codecsRequest.action = some handler) :
      Moves fromSlice s .main { s with
        handler, phase := .asking s.handler.callCount, asked := s.asked ++ [s.handler.callCount] }
  | giveUp (phase : s.phase = .begin) (left : 60 ≤ s.attempt) :
      Moves fromSlice s .main { s with
        phase := .returned (.error (.internal "Max attempts reached waiting for codecs")) }
  /-- An attempt fails. -/
  | fail {k : CallId} {result : Except RZError Bytes} {e : RZError} (phase : s.phase = .asking k)
      (pc : (s.handler.calls k).pc = .finished result)
      (failed : (processGetCodecs fun _ => result) = .ok (.error e)) :
      Moves fromSlice s .main { s with phase := .sleeping }
  /-- The rate features are there. -/
  | serve {k : CallId} {result : Except RZError Bytes} {codecs : Codecs} {env : Env}
      (phase : s.phase = .asking k) (pc : (s.handler.calls k).pc = .finished result)
      (received : (processGetCodecs fun _ => result) = .ok (.ok codecs))
      (set : s.env.setCodecs codecs = .ok env) :
      Moves fromSlice s .main { s with env, phase := .serving }
  /-- The rate features are there for the second time. -/
  | refuse {k : CallId} {codecs : Codecs} {e : RZError} (phase : s.phase = .asking k)
      (set : s.env.setCodecs codecs = .error e) :
      Moves fromSlice s .main { s with phase := .returned (.error e) }
  | retry (phase : s.phase = .sleeping) :
      Moves fromSlice s .main { s with
        phase := .begin, attempt := s.attempt + 1, backoff := min (s.backoff * 2) 5 }
  | cancel : Moves fromSlice s .cancel { s with cancelled := true }
  /-- The token is noticed between two attempts, or by the server. -/
  | stop {result : Except RZError Unit} (cancelled : s.cancelled = true)
      (phase : s.phase = .begin ∧
          result = .error (.internal "Shutdown while waiting for codecs") ∨
        s.phase = .serving ∧ result = .ok ()) :
      Moves fromSlice s .shutDown { s with phase := .returned result }
  /-- The token is noticed in an attempt. -/
  | interrupt {k : CallId} {handler : State} (cancelled : s.cancelled = true)
      (phase : s.phase = .asking k) (step : s.handler.step (.cancel k) = some handler) :
      Moves fromSlice s .shutDown { s with
        handler, phase := .returned (.error (.internal "Shutdown while waiting for codecs")) }
  | tooLong {body : Bytes} (phase : s.phase = .serving) (long : bodyLimit < body.length) :
      Moves fromSlice s (.request body) { s with
        requests := s.requests ++ [⟨body, .refused, none⟩] }
  | reject {body : Bytes} {e : RZError} (phase : s.phase = .serving)
      (fits : body.length ≤ bodyLimit) (req : request fromSlice body = .error e) :
      Moves fromSlice s (.request body) { s with
        commands := s.commands + 1
        bytesReceived := s.bytesReceived + body.length
        metrics := (errorResponse s.metrics e).2
        requests := s.requests ++
          [⟨body, .responded s.env (errorResponse s.metrics e).1, none⟩] }
  | accept {body : Bytes} {r : Request} {D : Decoder} {handler : State} (phase : s.phase = .serving)
      (fits : body.length ≤ bodyLimit) (req : request fromSlice body = .ok (r, D))
      (step : s.handler.step r.action = some handler) :
      Moves fromSlice s (.request body) { s with
        handler
        commands := s.commands + 1
        bytesReceived := s.bytesReceived + body.length
        requests := s.requests ++
          [⟨body, .waiting s.handler.callCount, some s.handler.callCount⟩] }
  | respond {i : ℕ} {k : CallId} {body : Bytes} {call : Option CallId}
      {result : Except RZError Bytes} {rsp : Response} {metrics : Metrics}
      (req : s.requests[i]? = some ⟨body, .waiting k, call⟩)
      (pc : (s.handler.calls k).pc = .finished result)
      (rsp_eq : process s.env s.metrics fromSlice (fun _ => result) body = .ok (rsp, metrics)) :
      Moves fromSlice s (.respond i) { s with
        metrics, requests := s.requests.set i ⟨body, .responded s.env rsp, call⟩ }
  | hangUp {i : ℕ} {k : CallId} {body : Bytes} {call : Option CallId} {handler : State}
      (req : s.requests[i]? = some ⟨body, .waiting k, call⟩)
      (step : s.handler.step (.cancel k) = some handler) :
      Moves fromSlice s (.hangUp i) { s with
        handler, requests := s.requests.set i ⟨body, .dropped, call⟩ }
  | year {year : ℕ} {env : Env} (crates : env.crates = s.env.crates)
      (features : env.rateFeatures = s.env.rateFeatures) :
      Moves fromSlice s (.year year) { s with env }

theorem Proxy.moves_of_main (h : s.getCodecsWithRetry = some s') : s.Moves fromSlice .main s' := by
  unfold Proxy.getCodecsWithRetry at h
  split at h
  next hp =>
    split_ifs at h with hlt
    · obtain ⟨handler, hstep, rfl⟩ := Option.map_eq_some_iff.mp h
      exact .ask hp hlt hstep
    · obtain rfl := Option.some.inj h
      exact .giveUp hp (Nat.le_of_not_lt hlt)
  next k hp =>
    split at h
    next result hpc =>
      split at h
      · cases h
      next e hcodecs =>
        obtain rfl := Option.some.inj h
        exact .fail hp hpc hcodecs
      next codecs hcodecs =>
        split at h <;> obtain rfl := Option.some.inj h
        next hset => exact .refuse hp hset
        next hset => exact .serve hp hpc hcodecs hset
    · cases h
  next hp =>
    obtain rfl := Option.some.inj h
    exact .retry hp
  · cases h
  · cases h

theorem Proxy.moves_of_shutDown (h : s.shutDown = some s') : s.Moves fromSlice .shutDown s' := by
  simp only [Proxy.shutDown] at h
  split_ifs at h with hc
  split at h
  next hp =>
    obtain rfl := Option.some.inj h
    exact .stop hc (.inl ⟨hp, rfl⟩)
  next k hp =>
    obtain ⟨handler, hstep, rfl⟩ := Option.map_eq_some_iff.mp h
    exact .interrupt hc hp hstep
  next hp =>
    obtain rfl := Option.some.inj h
    exact .stop hc (.inr ⟨hp, rfl⟩)
  · cases h
  · cases h

theorem Proxy.moves_of_request {body : Bytes} (h : s.processRequest fromSlice body = some s') :
    s.Moves fromSlice (.request body) s' := by
  unfold Proxy.processRequest at h
  split at h
  next hp =>
    split_ifs at h with hlong
    · obtain rfl := Option.some.inj h
      exact .tooLong hp hlong
    · have hfits := Nat.le_of_not_lt hlong
      cases hreq : request fromSlice body with
      | error e =>
        simp only [hreq, Option.some.injEq] at h
        subst h
        exact .reject hp hfits hreq
      | ok p =>
        simp only [hreq] at h
        obtain ⟨handler, hstep, rfl⟩ := Option.map_eq_some_iff.mp h
        exact .accept hp hfits hreq hstep
  · cases h

theorem Proxy.moves_of_respond {i : ℕ} (h : s.respond fromSlice i = some s') :
    s.Moves fromSlice (.respond i) s' := by
  unfold Proxy.respond at h
  split at h
  next body k call hreq =>
    split at h
    next result hpc =>
      split at h
      · cases h
      next rsp metrics hrsp =>
        obtain rfl := Option.some.inj h
        exact .respond hreq hpc hrsp
    · cases h
  · cases h

theorem Proxy.moves_of_hangUp {i : ℕ} (h : s.hangUp i = some s') :
    s.Moves fromSlice (.hangUp i) s' := by
  unfold Proxy.hangUp at h
  split at h
  next body k call hreq =>
    obtain ⟨handler, hstep, rfl⟩ := Option.map_eq_some_iff.mp h
    exact .hangUp hreq hstep
  · cases h

/-- **The cases of a step.** -/
theorem Proxy.moves_of_step {ev : Event} (h : (proxy fromSlice).step s ev = some s') :
    s.Moves fromSlice ev s' := by
  cases ev with
  | handler a =>
    obtain ⟨hint, h⟩ := Option.ite_none_right_eq_some.mp h
    obtain ⟨handler, hstep, rfl⟩ := Option.map_eq_some_iff.mp h
    exact .handler hint hstep
  | main => exact moves_of_main h
  | cancel =>
    obtain rfl := Option.some.inj h
    exact .cancel
  | shutDown => exact moves_of_shutDown h
  | request body => exact moves_of_request h
  | respond i => exact moves_of_respond h
  | hangUp i => exact moves_of_hangUp h
  | year year =>
    change s.setYear year = some s' at h
    unfold Proxy.setYear at h
    split_ifs at h with hy
    obtain rfl := Option.some.inj h
    exact .year rfl rfl

end RzProxy
