import StellarFeeTracker.General.Unwinding
import StellarFeeTracker.Middleware.Auth
import StellarFeeTracker.Middleware.Isolation

/-!
# The router and its layers

A request goes to the route that its method and path fit, and no other route fits them
(`Route.find_eq_some_iff`); one that no route fits reaches no handler, and is not modelled.  The routes
are in tiers: `/health` is always answered, `/metrics` is behind the rate limit, and every other route is
behind the rate limit and then the API key.

What is behind the layers is a service with handlers.  A handler runs some time after its request has
passed, so the requests that have passed and are not answered yet are part of the state.
-/

namespace StellarFeeTracker

open Machine Net

/-! ## Routes -/

inductive Method where
  | get
  | head
  | post
  | patch
  | delete
  deriving DecidableEq, Repr

/-- The routes, under the names of their handlers. -/
inductive Route where
  | health
  | metrics
  | currentFees
  | feeHistory
  | feeTrend
  | accountFeeHistory
  | transactionFeeLookup
  | waitAdvisory
  | getRecommend
  | recommend
  | recommendHistory
  | getCurrentInsights
  | getRollingAverages
  | getExtremes
  | getCongestionTrends
  | getInsightsHealth
  | createAlert
  | listAlerts
  | updateAlert
  | deleteAlert
  | getAlertHistory
  deriving DecidableEq, Repr

/-- A part of the path of a route: a fixed text, or a parameter. -/
inductive Segment where
  | fixed (text : String)
  | param
  deriving DecidableEq, Repr

def Segment.fits : Segment → String → Bool
  | .fixed text, part => part == text
  | .param, part => part != ""

/-- From the least to the most restricted. -/
inductive Tier where
  | unlimited
  | rateLimited
  | keyed
  deriving DecidableEq, Repr

namespace Route

def all : List Route :=
  [health, metrics, currentFees, feeHistory, feeTrend, accountFeeHistory, transactionFeeLookup,
    waitAdvisory, getRecommend, recommend, recommendHistory, getCurrentInsights,
    getRollingAverages, getExtremes, getCongestionTrends, getInsightsHealth, createAlert,
    listAlerts, updateAlert, deleteAlert, getAlertHistory]

def method : Route → Method
  | recommend | createAlert => .post
  | updateAlert => .patch
  | deleteAlert => .delete
  | _ => .get

def path : Route → List Segment
  | health => [.fixed "health"]
  | metrics => [.fixed "metrics"]
  | currentFees => [.fixed "fees", .fixed "current"]
  | feeHistory => [.fixed "fees", .fixed "history"]
  | feeTrend => [.fixed "fees", .fixed "trend"]
  | accountFeeHistory => [.fixed "fees", .fixed "account", .param]
  | transactionFeeLookup => [.fixed "fees", .fixed "transaction", .param]
  | waitAdvisory => [.fixed "fees", .fixed "wait-advisory"]
  | getRecommend | recommend => [.fixed "fees", .fixed "recommend"]
  | recommendHistory => [.fixed "fees", .fixed "recommend", .fixed "history"]
  | getCurrentInsights => [.fixed "insights"]
  | getRollingAverages => [.fixed "insights", .fixed "averages"]
  | getExtremes => [.fixed "insights", .fixed "extremes"]
  | getCongestionTrends => [.fixed "insights", .fixed "congestion"]
  | getInsightsHealth => [.fixed "insights", .fixed "health"]
  | createAlert | listAlerts => [.fixed "alerts", .fixed "config"]
  | updateAlert | deleteAlert => [.fixed "alerts", .fixed "config", .param]
  | getAlertHistory => [.fixed "alerts", .fixed "history"]

def tier : Route → Tier
  | health => .unlimited
  | metrics => .rateLimited
  | _ => .keyed

/-- A `GET` route answers `HEAD` too. -/
def accepts (route : Route) (method : Method) : Bool :=
  method == route.method || (method == .head && route.method == .get)

/-- The route is the one for a method and the parts of a path. -/
def fits (route : Route) (method : Method) (parts : List String) : Bool :=
  route.accepts method && route.path.length == parts.length &&
    (route.path.zip parts).all fun pair => pair.1.fits pair.2

def find (method : Method) (parts : List String) : Option Route :=
  all.find? fun route => route.fits method parts

theorem mem_all (route : Route) : route ∈ all := by
  cases route <;> decide

/-- No request fits both routes: they accept no method in common, or their paths have different
lengths or different texts at some place. -/
def apart (route route' : Route) : Bool :=
  [Method.get, .head, .post, .patch, .delete].all
      (fun method => !(route.accepts method && route'.accepts method)) ||
    route.path.length != route'.path.length ||
    (route.path.zip route'.path).any fun pair =>
      match pair with
      | (.fixed text, .fixed text') => text != text'
      | _ => false

theorem apart_of_ne {route route' : Route} (h : route ≠ route') : route.apart route' = true := by
  have hpairs : ∀ route ∈ all, ∀ route' ∈ all, route ≠ route' → route.apart route' = true := by
    decide +kernel
  exact hpairs route (mem_all route) route' (mem_all route') h

/-- Two paths that fit the same parts have the same text wherever both have one. -/
theorem text_eq_of_fits {segments segments' : List Segment} {parts : List String} {text text' : String}
    (h : ∀ pair ∈ segments.zip parts, pair.1.fits pair.2 = true)
    (h' : ∀ pair ∈ segments'.zip parts, pair.1.fits pair.2 = true)
    (hlength : segments.length = parts.length)
    (hmem : (Segment.fixed text, Segment.fixed text') ∈ segments.zip segments') : text = text' := by
  obtain ⟨k, hk, hpair⟩ := List.getElem_of_mem hmem
  rw [List.getElem_zip, Prod.mk.injEq] at hpair
  have hkzip : k < segments.length ∧ k < segments'.length := by
    rw [List.length_zip] at hk
    omega
  have hkparts : k < parts.length := by omega
  have hfit := h (segments[k], parts[k]) (List.mem_iff_getElem.2 ⟨k, by simp; omega, by simp⟩)
  have hfit' := h' (segments'[k], parts[k]) (List.mem_iff_getElem.2 ⟨k, by simp; omega, by simp⟩)
  simp only [hpair.1, hpair.2, Segment.fits, beq_iff_eq] at hfit hfit'
  rw [← hfit, ← hfit']

theorem eq_of_fits {route route' : Route} {method : Method} {parts : List String}
    (h : route.fits method parts = true) (h' : route'.fits method parts = true) : route = route' := by
  by_contra hne
  have hapart := apart_of_ne hne
  simp only [fits, Bool.and_eq_true, beq_iff_eq, List.all_eq_true] at h h'
  obtain ⟨⟨haccepts, hlength⟩, hfits⟩ := h
  obtain ⟨⟨haccepts', hlength'⟩, hfits'⟩ := h'
  simp only [apart, Bool.or_eq_true, List.all_eq_true, List.any_eq_true, bne_iff_ne] at hapart
  rcases hapart with (hmethods | hlengths) | ⟨pair, hmem, htexts⟩
  · have hnone := hmethods method (by cases method <;> decide)
    rw [haccepts, haccepts'] at hnone
    cases hnone
  · exact hlengths (hlength.trans hlength'.symm)
  · match pair with
    | (.fixed text, .fixed text') =>
      exact (bne_iff_ne.1 htexts) (text_eq_of_fits hfits hfits' hlength hmem)
    | (.fixed _, .param) | (.param, .fixed _) | (.param, .param) => cases htexts

theorem fits_of_find {method : Method} {parts : List String} {route : Route}
    (h : find method parts = some route) : route.fits method parts = true := by
  unfold find at h
  have hfits := List.find?_some h
  exact hfits

/-- The order in which the routes were added does not matter. -/
theorem find_eq_some_iff {method : Method} {parts : List String} {route : Route} :
    find method parts = some route ↔ route.fits method parts = true := by
  refine ⟨fits_of_find, fun h => ?_⟩
  cases hfind : find method parts with
  | none => exact absurd h (List.find?_eq_none.1 hfind route (mem_all route))
  | some route' => rw [eq_of_fits (fits_of_find hfind) h]

example : find .delete ["alerts", "config", "7"] = some deleteAlert ∧
    find .delete ["alerts", "config", ""] = none := by
  decide +kernel

end Route

/-! ## Requests and replies -/

/-- A request that a route fits: its method and the parts of its path, the route they find, what the
layers read of it, the readings of the clock that the limiter makes, and what the handler reads of it. -/
structure ApiRequest (ρ : Type*) where
  method : Method
  parts : List String
  route : Route
  route_eq : Route.find method parts = some route
  forwarded : ForwardedRequest
  keyed : KeyedRequest
  evictedAt : Instant
  createdAt : Instant
  now : Instant
  evictedAt_le : evictedAt ≤ createdAt
  createdAt_le : createdAt ≤ now
  payload : ρ

/-- The address that it is counted for. -/
def ApiRequest.client {ρ : Type*} (request : ApiRequest ρ) : IpAddr :=
  extractClientIp request.forwarded

/-- The request as the limiter meets it. -/
def ApiRequest.arrival {ρ : Type*} (request : ApiRequest ρ) : LimitedRequest where
  ip := request.client
  evictedAt := request.evictedAt
  createdAt := request.createdAt
  now := request.now
  evictedAt_le := request.evictedAt_le
  createdAt_le := request.createdAt_le

/-- The reply of a handler, or of the layer that turns the request away. -/
inductive ApiReply (β : Type*) where
  | health
  | metrics (body : β) (headers : RateLimitHeaders)
  | handled (route : Route) (body : β) (headers : RateLimitHeaders)
  | rejected (status : ℕ) (error : String) (headers : RateLimitHeaders)
  | tooManyRequests (error : String) (headers : RateLimitHeaders) (retryAfter : ℕ)

structure ApiAnswer (β : Type*) where
  client : IpAddr
  now : Instant
  reply : ApiReply β

/-- A request that has passed the layers and whose handler is still to run. -/
structure RunningRequest (ρ : Type*) where
  request : ApiRequest ρ
  headers : RateLimitHeaders

/-! ## The application -/

/-- What is behind the layers: the handlers, what else works on the shared state, and the rendering of
the metrics, which only reads it. -/
structure Backend (σ ρ κ β : Type*) where
  handle : Route → ρ → σ → σ × β
  work : κ → σ → σ
  render : σ → β

structure Application (σ ρ : Type*) where
  limiter : RateLimitState
  service : σ
  running : List (RunningRequest ρ)

/-- A request comes in; the handler of the `k`-th running request runs; a background task works on the
shared state; stale buckets of some addresses are removed. -/
inductive ApiEvent (ρ κ : Type*) where
  | request (request : ApiRequest ρ)
  | handle (k : ℕ) (now : Instant)
  | work (job : κ) (now : Instant)
  | evict (now : Instant) (ips : List IpAddr)

def ApiEvent.now {ρ κ : Type*} : ApiEvent ρ κ → Instant
  | .request incoming => incoming.now
  | .handle _ now => now
  | .work _ now => now
  | .evict now _ => now

namespace Application

variable {σ ρ κ β : Type*}

/-- The application at the start. -/
def new (rateLimitPerMinute : ℕ) (service : σ) : Application σ ρ where
  limiter := .new rateLimitPerMinute
  service := service
  running := []

/-- The API key of a request that has passed the limiter is looked at. -/
def authenticate (apiKey : Option String) (app : Application σ ρ) (request : ApiRequest ρ)
    (headers : RateLimitHeaders) : Application σ ρ × List (ApiAnswer β) :=
  match requireApiKey apiKey request.keyed with
  | .next => ({ app with running := app.running ++ [{ request, headers }] }, [])
  | .rejected status error =>
    (app, [{ client := request.client, now := request.now, reply := .rejected status error headers }])

/-- What the limiter has let through goes on to the handler of the metrics or to the next layer. -/
def forward (backend : Backend σ ρ κ β) (apiKey : Option String) (app : Application σ ρ)
    (request : ApiRequest ρ) : RateLimitResponse → Application σ ρ × List (ApiAnswer β)
  | .tooManyRequests error headers retryAfter =>
    (app,
      [{ client := request.client
         now := request.now
         reply := .tooManyRequests error headers retryAfter }])
  | .forwarded headers =>
    if request.route.tier = .keyed then authenticate apiKey app request headers
    else
      (app,
        [{ client := request.client
           now := request.now
           reply := .metrics (backend.render app.service) headers }])

/-- The request is taken through the layers of its tier. -/
def receive (backend : Backend σ ρ κ β) (apiKey : Option String) (app : Application σ ρ)
    (request : ApiRequest ρ) : Application σ ρ × List (ApiAnswer β) :=
  if request.route.tier = .unlimited then
    (app, [{ client := request.client, now := request.now, reply := .health }])
  else
    let (limiter, response) := app.limiter.enforce request.arrival
    forward backend apiKey { app with limiter } request response

/-- The handler of a running request runs. -/
def handleRunning (backend : Backend σ ρ κ β) (app : Application σ ρ) (k : ℕ) (now : Instant) :
    Application σ ρ × List (ApiAnswer β) :=
  match app.running[k]? with
  | none => (app, [])
  | some { request, headers } =>
    let (service, body) := backend.handle request.route request.payload app.service
    ({ app with service, running := app.running.eraseIdx k },
      [{ client := request.client, now, reply := .handled request.route body headers }])

def step (backend : Backend σ ρ κ β) (apiKey : Option String) (app : Application σ ρ) :
    ApiEvent ρ κ → Application σ ρ × List (ApiAnswer β)
  | .request request => app.receive backend apiKey request
  | .handle k now => app.handleRunning backend k now
  | .work job _ => ({ app with service := backend.work job app.service }, [])
  | .evict now ips => ({ app with limiter := (app.limiter.step (.evict now ips)).1 }, [])

/-- The handlers that a request makes run. -/
def unlocked (apiKey : Option String) (request : ApiRequest ρ) :
    RateLimitResponse → List (RunningRequest ρ)
  | .tooManyRequests _ _ _ => []
  | .forwarded headers =>
    if request.route.tier = .keyed ∧ requireApiKey apiKey request.keyed = .next then
      [{ request, headers }]
    else []

section Forward

variable {backend : Backend σ ρ κ β} {apiKey : Option String}

theorem forward_fst (app : Application σ ρ) (request : ApiRequest ρ) (response : RateLimitResponse) :
    (forward backend apiKey app request response).1 =
      { app with running := app.running ++ unlocked apiKey request response } := by
  cases response with
  | tooManyRequests error headers retryAfter => simp [forward, unlocked]
  | forwarded headers =>
    by_cases htier : request.route.tier = .keyed
    · cases hkey : requireApiKey apiKey request.keyed with
      | next => simp [forward, unlocked, authenticate, htier, hkey]
      | rejected status error => simp [forward, unlocked, authenticate, htier, hkey]
    · simp [forward, unlocked, htier]

/-- The reply is a matter of the shared state only. -/
theorem forward_snd_congr {app app' : Application σ ρ} (h : app.service = app'.service)
    (request : ApiRequest ρ) (response : RateLimitResponse) :
    (forward backend apiKey app request response).2 =
      (forward backend apiKey app' request response).2 := by
  cases response with
  | tooManyRequests error headers retryAfter => rfl
  | forwarded headers =>
    unfold forward authenticate
    rw [h]
    split_ifs
    · cases requireApiKey apiKey request.keyed <;> rfl
    · rfl

theorem length_forward_snd_le (app : Application σ ρ) (request : ApiRequest ρ)
    (response : RateLimitResponse) :
    (forward backend apiKey app request response).2.length ≤ 1 := by
  cases response with
  | tooManyRequests error headers retryAfter => exact le_rfl
  | forwarded headers =>
    unfold forward authenticate
    split_ifs
    · cases requireApiKey apiKey request.keyed <;> simp
    · exact le_rfl

theorem of_mem_forward_snd {app : Application σ ρ} {request : ApiRequest ρ}
    {response : RateLimitResponse} {answer : ApiAnswer β}
    (h : answer ∈ (forward backend apiKey app request response).2) :
    answer.client = request.client ∧ answer.now = request.now ∧
      ∀ route body headers, answer.reply ≠ .handled route body headers := by
  cases response with
  | tooManyRequests error headers retryAfter =>
    rw [List.mem_singleton.1 h]
    exact ⟨rfl, rfl, fun _ _ _ => nofun⟩
  | forwarded headers =>
    unfold forward authenticate at h
    split_ifs at h
    · cases hkey : requireApiKey apiKey request.keyed with
      | next =>
        rw [hkey] at h
        cases h
      | rejected status error =>
        rw [hkey] at h
        rw [List.mem_singleton.1 h]
        exact ⟨rfl, rfl, fun _ _ _ => nofun⟩
    · rw [List.mem_singleton.1 h]
      exact ⟨rfl, rfl, fun _ _ _ => nofun⟩

theorem receive_of_unlimited {app : Application σ ρ} {request : ApiRequest ρ}
    (h : request.route.tier = .unlimited) :
    app.receive backend apiKey request =
      (app, [{ client := request.client, now := request.now, reply := .health }]) :=
  if_pos h

theorem receive_of_limited {app : Application σ ρ} {request : ApiRequest ρ}
    (h : request.route.tier ≠ .unlimited) :
    app.receive backend apiKey request =
      forward backend apiKey { app with limiter := (app.limiter.enforce request.arrival).1 } request
        (app.limiter.enforce request.arrival).2 :=
  if_neg h

end Forward

end Application

end StellarFeeTracker
