import Mathlib.Data.Finset.Max
import StellarFeeTracker.Api.Router

/-!
# What passes the layers

Clients without the API key are invisible to the others: a run in which their requests are left out
gives every other client the same answers, bodies and rate limit headers included, and leaves the
service in the same state (`Application.outsiders_unobservable`).  They get no answer of a keyed
handler, and the rate limit bounds the keys that an address can try in any interval
(`Application.guesses_bounded`).
-/

namespace StellarFeeTracker

open Machine Net

namespace Application

variable {σ ρ κ β : Type*} {backend : Backend σ ρ κ β} {apiKey : Option String}

/-! ## Outsiders -/

/-- The events but for the requests of other addresses. -/
def concerns (mine : IpAddr → Bool) : ApiEvent ρ κ → Bool
  | .request incoming => mine incoming.client
  | _ => true

/-- An event is no request that the API key lets through to a handler. -/
def Locked (apiKey : Option String) : ApiEvent ρ κ → Prop
  | .request incoming => incoming.route.tier = .keyed → requireApiKey apiKey incoming.keyed ≠ .next
  | _ => True

/-- What clients of some addresses are answered. -/
def seenBy (mine : IpAddr → Bool) (answer : ApiAnswer β) : Option (ApiAnswer β) :=
  if mine answer.client then some answer else none

/-- Two applications look the same to some addresses. -/
structure LooksSame (capacity : ℕ) (mine : IpAddr → Bool) (t : ℚ) (app app' : Application σ ρ) :
    Prop where
  limiter : app.limiter.SameFor capacity mine app'.limiter t
  service : app.service = app'.service
  running : app.running = app'.running

variable {capacity : ℕ} {mine : IpAddr → Bool} {app app' : Application σ ρ}
  {incoming : ApiRequest ρ}

theorem unlocked_of_locked (h : Locked apiKey (.request incoming : ApiEvent ρ κ))
    (response : RateLimitResponse) : unlocked apiKey incoming response = [] := by
  cases response with
  | tooManyRequests error headers retryAfter => rfl
  | forwarded headers => exact if_neg fun hkey => h hkey.1 hkey.2

theorem filterMap_seenBy_of_other {answers : List (ApiAnswer β)}
    (h : ∀ answer ∈ answers, mine answer.client = false) : answers.filterMap (seenBy mine) = [] := by
  rw [List.filterMap_eq_nil_iff]
  intro answer hanswer
  simp [seenBy, h answer hanswer]

theorem LooksSame.receive_other
    (h : LooksSame capacity mine (secs incoming.now) app app') (hmine : mine incoming.client = false)
    (hlocked : Locked apiKey (.request incoming : ApiEvent ρ κ)) :
    LooksSame capacity mine (secs incoming.now) (app.receive backend apiKey incoming).1 app' ∧
      (app.receive backend apiKey incoming).2.filterMap (seenBy mine) = [] := by
  by_cases htier : incoming.route.tier = .unlimited
  · rw [receive_of_unlimited htier]
    refine ⟨h, filterMap_seenBy_of_other fun answer hanswer => ?_⟩
    rw [List.mem_singleton.1 hanswer]
    exact hmine
  · rw [receive_of_limited htier]
    constructor
    · rw [forward_fst, unlocked_of_locked hlocked, List.append_nil]
      have hlimiter : app.limiter.SameFor capacity mine app'.limiter (secs incoming.arrival.now) :=
        h.limiter
      exact ⟨hlimiter.enforce_other hmine, h.service, h.running⟩
    · refine filterMap_seenBy_of_other fun answer hanswer => ?_
      rw [(of_mem_forward_snd hanswer).1]
      exact hmine

theorem LooksSame.receive (backend : Backend σ ρ κ β) (apiKey : Option String)
    (h : LooksSame capacity mine (secs incoming.now) app app')
    (hmine : mine incoming.client = true) :
    LooksSame capacity mine (secs incoming.now) (app.receive backend apiKey incoming).1
        (app'.receive backend apiKey incoming).1 ∧
      (app.receive backend apiKey incoming).2 = (app'.receive backend apiKey incoming).2 := by
  by_cases htier : incoming.route.tier = .unlimited
  · rw [receive_of_unlimited htier, receive_of_unlimited htier]
    exact ⟨h, rfl⟩
  · have hsame : app.limiter.SameFor capacity mine app'.limiter (secs incoming.arrival.now) :=
      h.limiter
    obtain ⟨hlimiter, hresponse⟩ := hsame.enforce hmine
    rw [receive_of_limited htier, receive_of_limited htier, ← hresponse]
    constructor
    · rw [forward_fst, forward_fst]
      exact ⟨hlimiter, h.service, congrArg (· ++ _) h.running⟩
    · apply forward_snd_congr
      exact h.service

theorem LooksSame.handleRunning (backend : Backend σ ρ κ β) {t : ℚ}
    (h : LooksSame capacity mine t app app') (k : ℕ) (now : Instant) :
    LooksSame capacity mine t (app.handleRunning backend k now).1
        (app'.handleRunning backend k now).1 ∧
      (app.handleRunning backend k now).2 = (app'.handleRunning backend k now).2 := by
  obtain ⟨hlimiter, hservice, hrunning⟩ := h
  unfold Application.handleRunning
  rw [← hrunning, ← hservice]
  cases app.running[k]? with
  | none => exact ⟨⟨hlimiter, hservice, hrunning⟩, rfl⟩
  | some request => exact ⟨⟨hlimiter, rfl, rfl⟩, rfl⟩

/-- Clients of some addresses cannot tell whether the others send requests without the key. -/
theorem unwinding (backend : Backend σ ρ κ β) (apiKey : Option String) (capacity : ℕ)
    (mine : IpAddr → Bool) :
    Unwinding (step backend apiKey) (fun event => secs event.now) (concerns mine) (Locked apiKey)
      (seenBy mine) (LooksSame capacity mine) where
  later t u app app' h htu := ⟨h.limiter.mono htu, h.service, h.running⟩
  other app app' event hother hlocked h := by
    cases event with
    | request incoming => exact h.receive_other hother hlocked
    | handle k now => cases hother
    | work job now => cases hother
    | evict now ips => cases hother
  own app app' event hown h := by
    cases event with
    | request incoming =>
      obtain ⟨hnext, hanswers⟩ := h.receive backend apiKey hown
      exact ⟨hnext, congrArg _ hanswers⟩
    | handle k now =>
      obtain ⟨hnext, hanswers⟩ := h.handleRunning backend k now
      exact ⟨hnext, congrArg _ hanswers⟩
    | work job now => exact ⟨⟨h.limiter, congrArg (backend.work job) h.service, h.running⟩, rfl⟩
    | evict now ips => exact ⟨⟨h.limiter.evict ips, h.service, h.running⟩, rfl⟩

theorem exists_le_event (events : List (ApiEvent ρ κ)) (s : Instant) :
    ∃ c ≤ s, ∀ event ∈ events, c ≤ event.now := by
  obtain ⟨c, -, hc⟩ :=
    (s :: events.map ApiEvent.now).toFinset.exists_min_image id ⟨s, by simp⟩
  simp only [List.mem_toFinset, List.forall_mem_cons, List.forall_mem_map] at hc
  exact ⟨c, hc⟩

theorem pairwise_secs {events : List (ApiEvent ρ κ)}
    (hsorted : (events.map ApiEvent.now).Pairwise (· ≤ ·)) :
    (events.map fun event => secs event.now).Pairwise (· ≤ ·) := by
  rw [List.pairwise_map] at hsorted ⊢
  exact hsorted.imp secs_le_secs.2

/-- Leave out the requests of some addresses, none of which has the key: the clients of the other
addresses get the same answers, and the service and the handlers to run are the same at the end. -/
theorem outsiders_unobservable (backend : Backend σ ρ κ β) (apiKey : Option String)
    (rateLimitPerMinute : ℕ) (service : σ) (events : List (ApiEvent ρ κ)) (mine : IpAddr → Bool)
    (hsorted : (events.map ApiEvent.now).Pairwise (· ≤ ·))
    (hlocked : ∀ event ∈ events, concerns mine event = false → Locked apiKey event) :
    let app := Application.new rateLimitPerMinute service
    let kept := events.filter (concerns mine)
    (emitted (step backend apiKey) app events).filter (fun answer => mine answer.client) =
        (emitted (step backend apiKey) app kept).filter (fun answer => mine answer.client) ∧
      (final (step backend apiKey) app events).service =
        (final (step backend apiKey) app kept).service ∧
      (final (step backend apiKey) app events).running =
        (final (step backend apiKey) app kept).running := by
  intro app kept
  obtain ⟨c, -, hc⟩ := exists_le_event events 0
  have hstart : LooksSame (max rateLimitPerMinute 1) mine (secs c) app app :=
    ⟨RateLimitState.sameFor_new rateLimitPerMinute mine (secs c), rfl, rfl⟩
  obtain ⟨hseen, t, hend⟩ := (unwinding backend apiKey (max rateLimitPerMinute 1) mine).run hstart
    (fun event hevent => secs_le_secs.2 (hc event hevent)) (pairwise_secs hsorted) hlocked
  refine ⟨?_, hend.service, hend.running⟩
  have hfilter : ∀ answers : List (ApiAnswer β),
      answers.filterMap (seenBy mine) = answers.filter fun answer => mine answer.client := by
    intro answers
    rw [← List.filterMap_eq_filter]
    rfl
  rw [← hfilter, ← hfilter]
  exact hseen

/-- A client with the key, and another one that tries a wrong key. -/
theorem outsiders_unobservable_one_guess :
    let backend : Backend ℕ Unit Unit ℕ :=
      { handle := fun _ _ polls => (polls, polls), work := fun _ polls => polls + 1, render := id }
    let requestOf := fun (ip : IpAddr) (key : String) => (
      { method := .get
        parts := ["fees", "current"]
        route := .currentFees
        route_eq := Route.find_eq_some_iff.2 (by decide)
        forwarded := { peer := some ip, xForwardedFor := [] }
        keyed := { xApiKey := [bytes key] }
        evictedAt := 0
        createdAt := 0
        now := 0
        evictedAt_le := Int.le_refl _
        createdAt_le := Int.le_refl _
        payload := () } : ApiRequest Unit)
    let events : List (ApiEvent Unit Unit) :=
      [.request (requestOf (.v4 ⟨203, 0, 113, 8⟩) "guess"),
        .request (requestOf (.v4 ⟨203, 0, 113, 7⟩) "secret"), .work () 1, .handle 0 2]
    let mine := fun ip => ip == .v4 ⟨203, 0, 113, 7⟩
    let app := Application.new 1 0
    let kept := events.filter (concerns mine)
    (emitted (step backend (some "secret")) app events).filter (fun answer => mine answer.client) =
        (emitted (step backend (some "secret")) app kept).filter (fun answer => mine answer.client) ∧
      (final (step backend (some "secret")) app events).service =
        (final (step backend (some "secret")) app kept).service ∧
      (final (step backend (some "secret")) app events).running =
        (final (step backend (some "secret")) app kept).running := by
  intro backend requestOf events mine app kept
  refine outsiders_unobservable backend (some "secret") 1 0 events mine (by decide) ?_
  simp only [events, List.forall_mem_cons]
  exact ⟨fun _ _ => by decide, fun h => absurd h (by decide), nofun, nofun,
    List.forall_mem_nil _⟩

/-! ## Guesses -/

/-- A layer has looked at a request of an address, and the answer is no handler's but the one of the
metrics. -/
def probes (ip : IpAddr) (answer : ApiAnswer β) : Bool :=
  answer.client = ip &&
    match answer.reply with
    | .metrics _ _ | .rejected _ _ _ => true
    | _ => false

/-- A step leaves the limiter as it is and probes nothing, or the limiter admits what is probed. -/
theorem step_limiter (backend : Backend σ ρ κ β) (apiKey : Option String) (ip : IpAddr)
    (app : Application σ ρ) (event : ApiEvent ρ κ) :
    (app.step backend apiKey event).1.limiter = app.limiter ∧
        (app.step backend apiKey event).2.countP (probes ip) = 0 ∨
      ∃ event' : RateLimitEvent, secs event'.now = secs event.now ∧
        (app.step backend apiKey event).1.limiter = (app.limiter.step event').1 ∧
        (app.step backend apiKey event).2.countP (probes ip) ≤
          (app.limiter.step event').2.countP (RateLimitState.admits ip) := by
  cases event with
  | work job now => exact .inl ⟨rfl, rfl⟩
  | evict now ips => exact .inr ⟨.evict now ips, rfl, rfl, le_rfl⟩
  | handle k now =>
    refine .inl ?_
    show (app.handleRunning backend k now).1.limiter = app.limiter ∧
      (app.handleRunning backend k now).2.countP (probes ip) = 0
    unfold handleRunning
    cases app.running[k]? with
    | none => exact ⟨rfl, rfl⟩
    | some request => exact ⟨rfl, by simp [probes]⟩
  | request incoming =>
    show (app.receive backend apiKey incoming).1.limiter = app.limiter ∧
        (app.receive backend apiKey incoming).2.countP (probes ip) = 0 ∨ _
    by_cases htier : incoming.route.tier = .unlimited
    · rw [receive_of_unlimited htier]
      exact .inl ⟨rfl, by simp [probes]⟩
    · refine .inr ⟨.request incoming.arrival, rfl, ?_⟩
      show (app.receive backend apiKey incoming).1.limiter = _ ∧
        (app.receive backend apiKey incoming).2.countP (probes ip) ≤ _
      rw [receive_of_limited htier, forward_fst, RateLimitState.step_eq_enforce]
      refine ⟨rfl, ?_⟩
      rw [List.countP_singleton]
      cases (app.limiter.enforce incoming.arrival).2 with
      | tooManyRequests error headers retryAfter => simp [forward, probes]
      | forwarded headers =>
        by_cases hip : incoming.client = ip
        · have hadmits : RateLimitState.admits ip
              { ip := incoming.arrival.ip
                now := incoming.arrival.now
                response := .forwarded headers } = true := by
            simp [RateLimitState.admits, RateLimitResponse.isForwarded, ApiRequest.arrival, hip]
          rw [if_pos hadmits]
          exact (List.countP_le_length).trans (length_forward_snd_le _ incoming _)
        · have hnone : (forward backend apiKey
              { app with limiter := (app.limiter.enforce incoming.arrival).1 } incoming
              (.forwarded headers)).2.countP (probes ip) = 0 := by
            rw [List.countP_eq_zero]
            intro answer hanswer
            simp [probes, (of_mem_forward_snd hanswer).1, hip]
          rw [hnone]
          exact Nat.zero_le _

theorem now_of_mem_step {app : Application σ ρ} {event : ApiEvent ρ κ} {answer : ApiAnswer β}
    (h : answer ∈ (app.step backend apiKey event).2) : answer.now = event.now := by
  cases event with
  | work job now => cases h
  | evict now ips => cases h
  | handle k now =>
    replace h : answer ∈ (app.handleRunning backend k now).2 := h
    unfold handleRunning at h
    cases hrunning : app.running[k]? with
    | none =>
      rw [hrunning] at h
      cases h
    | some request =>
      rw [hrunning] at h
      rw [List.mem_singleton.1 h]
      rfl
  | request incoming =>
    replace h : answer ∈ (app.receive backend apiKey incoming).2 := h
    by_cases htier : incoming.route.tier = .unlimited
    · rw [receive_of_unlimited htier] at h
      rw [List.mem_singleton.1 h]
      rfl
    · rw [receive_of_limited htier] at h
      exact (of_mem_forward_snd h).2.1

/-- The level of the bucket of an address pays for what is probed from it. -/
theorem budget (backend : Backend σ ρ κ β) (apiKey : Option String) (capacity : ℕ) (ip : IpAddr) :
    Tokens.Budget (step backend apiKey) (fun event => secs event.now)
      (fun answer => secs answer.now) (probes ip) (capacity / 60 : ℚ)
      (fun app t => app.limiter.Valid capacity t) (fun app => app.limiter.levelAt ip) :=
  (RateLimitState.budget capacity ip).comap (fun app : Application σ ρ => app.limiter)
    (fun _ _ _ hvalid hle => hvalid.mono hle)
    (fun _ _ _ hanswer => congrArg secs (now_of_mem_step hanswer))
    (step_limiter backend apiKey ip)

/-! ## Handlers -/

/-- A request of an address for a keyed route, with the API key. -/
def carriesKey (apiKey : String) (ip : IpAddr) : ApiEvent ρ κ → Bool
  | .request incoming =>
    incoming.client = ip && incoming.route.tier = .keyed &&
      incoming.keyed.xApiKey.head? = some (utf8 apiKey.toList)
  | _ => false

/-- The answer of a handler to an address. -/
def isHandled (ip : IpAddr) (answer : ApiAnswer β) : Bool :=
  answer.client = ip &&
    match answer.reply with
    | .handled _ _ _ => true
    | _ => false

/-- The handlers to run for an address. -/
def runningFor (ip : IpAddr) (app : Application σ ρ) : ℕ :=
  app.running.countP fun request => request.request.client = ip

theorem countP_unlocked_le {apiKey : String} {incoming : ApiRequest ρ} (response : RateLimitResponse)
    (ip : IpAddr) :
    (unlocked (some apiKey) incoming response).countP (fun request => request.request.client = ip) ≤
      [(.request incoming : ApiEvent ρ κ)].countP (carriesKey apiKey ip) := by
  cases response with
  | tooManyRequests error headers retryAfter => exact Nat.zero_le _
  | forwarded headers =>
    unfold unlocked
    split_ifs with hkey
    · obtain ⟨htier, hnext⟩ := hkey
      obtain ⟨value, hhead, -, -, rfl⟩ := (requireApiKey_eq_next_iff apiKey incoming.keyed).1 hnext
      simp [List.countP_singleton, carriesKey, htier, hhead]
    · exact Nat.zero_le _

/-- A handler answers a request that has the key, and answers it once. -/
theorem step_handled (backend : Backend σ ρ κ β) (apiKey : String) (ip : IpAddr)
    (app : Application σ ρ) (event : ApiEvent ρ κ) :
    (app.step backend (some apiKey) event).2.countP (isHandled ip) +
        runningFor ip (app.step backend (some apiKey) event).1 ≤
      runningFor ip app + [event].countP (carriesKey apiKey ip) := by
  cases event with
  | work job now => simp [step, runningFor]
  | evict now ips => simp [step, runningFor]
  | handle k now =>
    show (app.handleRunning backend k now).2.countP (isHandled ip) +
      runningFor ip (app.handleRunning backend k now).1 ≤ _
    unfold handleRunning
    cases hrunning : app.running[k]? with
    | none => simp
    | some request =>
      obtain ⟨hk, rfl⟩ := List.getElem?_eq_some_iff.1 hrunning
      -- the request that is answered is one of those that were running
      have hcount := (List.getElem_cons_eraseIdx_perm hk).countP_eq
        fun request => decide (request.request.client = ip)
      unfold runningFor
      dsimp only
      rw [List.countP_cons] at hcount
      rw [List.countP_singleton, ← hcount, Nat.add_comm]
      refine Nat.le_add_right_of_le (Nat.add_le_add_left ?_ _)
      by_cases hip : app.running[k].request.client = ip
      · simp [isHandled, hip]
      · simp [isHandled, hip]
  | request incoming =>
    show (app.receive backend (some apiKey) incoming).2.countP (isHandled ip) +
      runningFor ip (app.receive backend (some apiKey) incoming).1 ≤ _
    by_cases htier : incoming.route.tier = .unlimited
    · rw [receive_of_unlimited htier]
      simp [isHandled]
    · have hnone : (app.receive backend (some apiKey) incoming).2.countP (isHandled ip) = 0 := by
        rw [receive_of_limited htier, List.countP_eq_zero]
        intro answer hanswer
        have hreply := (of_mem_forward_snd hanswer).2.2
        unfold isHandled
        cases hcase : answer.reply with
        | handled route body headers => exact absurd hcase (hreply route body headers)
        | _ => simp
      rw [hnone, receive_of_limited htier, forward_fst]
      unfold runningFor
      rw [List.countP_append, Nat.zero_add]
      exact Nat.add_le_add_left (countP_unlocked_le _ ip) _

/-- For every address, the handlers' answers and the handlers still to run are no more than its requests
for keyed routes that have the key byte for byte; and what the layers look at from the address in an
interval, the wrong keys it tries included, is no more than the capacity of a bucket and what the rate
adds in that time. -/
theorem guesses_bounded (backend : Backend σ ρ κ β) (apiKey : String) (rateLimitPerMinute : ℕ)
    (service : σ) (events : List (ApiEvent ρ κ)) (ip : IpAddr) (s t : Instant)
    (hsorted : (events.map ApiEvent.now).Pairwise (· ≤ ·)) (hst : s ≤ t) :
    let app := Application.new rateLimitPerMinute service
    let answers := emitted (step backend (some apiKey)) app events
    answers.countP (isHandled ip) +
          runningFor ip (final (step backend (some apiKey)) app events) ≤
        events.countP (carriesKey apiKey ip) ∧
      (answers.countP fun answer =>
          probes ip answer && decide (s ≤ answer.now ∧ answer.now ≤ t) : ℚ) ≤
        (max rateLimitPerMinute 1 : ℕ) +
          secs (t - s) * ((max rateLimitPerMinute 1 : ℕ) / 60) := by
  intro app answers
  constructor
  · have hhandled := countP_emitted_le (step backend (some apiKey)) (runningFor ip)
      (carriesKey apiKey ip) (isHandled ip) (step_handled backend apiKey ip) app events
    have hnone : runningFor ip app = 0 := rfl
    rwa [hnone, Nat.zero_add] at hhandled
  · obtain ⟨c, hcs, hc⟩ := exists_le_event events s
    have hmax : max (secs c) (secs s) = secs s := max_eq_right (secs_le_secs.2 hcs)
    have hspent := (budget backend (some apiKey) (max rateLimitPerMinute 1) ip).countP_emitted_le
      (by positivity) (u := secs s) (v := secs t) (s := app)
      (RateLimitState.valid_new rateLimitPerMinute (secs c))
      (fun event hevent => secs_le_secs.2 (hc event hevent)) (pairwise_secs hsorted)
      (hmax.trans_le (secs_le_secs.2 hst))
    have hlevel : app.limiter.levelAt ip (secs s) = (max rateLimitPerMinute 1 : ℕ) :=
      RateLimitState.levelAt_new rateLimitPerMinute ip (secs s)
    rw [hmax, hlevel, ← secs_sub] at hspent
    refine le_trans (Nat.cast_le.2 (List.countP_mono_left fun answer _ h => ?_)) hspent
    simpa [Tokens.countedIn, secs_le_secs] using h

/-- One address tries a wrong key twice, with one request a minute. -/
theorem guesses_bounded_two_tries :
    let backend : Backend ℕ Unit Unit ℕ :=
      { handle := fun _ _ polls => (polls, polls), work := fun _ polls => polls + 1, render := id }
    let ip : IpAddr := .v4 ⟨203, 0, 113, 8⟩
    let guess := fun (now : Instant) => (
      { method := .get
        parts := ["fees", "current"]
        route := .currentFees
        route_eq := Route.find_eq_some_iff.2 (by decide)
        forwarded := { peer := some ip, xForwardedFor := [] }
        keyed := { xApiKey := [bytes "guess"] }
        evictedAt := now
        createdAt := now
        now := now
        evictedAt_le := Int.le_refl _
        createdAt_le := Int.le_refl _
        payload := () } : ApiRequest Unit)
    let events : List (ApiEvent Unit Unit) := [.request (guess 0), .request (guess (seconds 1))]
    let app := Application.new 1 0
    let answers := emitted (step backend (some "secret")) app events
    answers.countP (isHandled ip) +
          runningFor ip (final (step backend (some "secret")) app events) ≤
        events.countP (carriesKey "secret" ip) ∧
      (answers.countP fun answer =>
          probes ip answer && decide (0 ≤ answer.now ∧ answer.now ≤ seconds 1) : ℚ) ≤
        (max 1 1 : ℕ) + secs (seconds 1 - 0) * ((max 1 1 : ℕ) / 60) := by
  intro backend ip guess events app answers
  exact guesses_bounded backend "secret" 1 0 events ip 0 (seconds 1) (by decide) (by decide)

end Application

end StellarFeeTracker
