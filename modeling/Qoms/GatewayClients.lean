import Qoms.Gateway
import Qoms.RateLimitBucket
import Qoms.RateLimitWindow

/-!
# Clients behind nginx

The rate limiter's keys are made of `principal`. On the routes of `AuthController` it runs before
a user is known, `/auth/me` included, where the guard that knows the user is a guard of the
method; and the address it falls back on is that of nginx. So all clients share one key for each
policy (`arrive_auth`).

`Separated` says that what the limiter decides on the requests of a client does not depend on the
requests of others : a property of any two runs. Whoever uses up the key first denies it to the
others, so it fails for every client that sends a request at all (`separated_iff`).
-/

set_option autoImplicit false

namespace Qoms.Gateway

/-! ## Runs of requests -/

/-- A request that comes to nginx : the address of its client, and its token if it has one. -/
structure Arrival where
  route : GatewayRoute
  address : String
  authorization : Option Jwt
  time : ℤ

/-- A client : its address and its token. -/
structure Client where
  address : String
  token : Jwt

/-- The request is one of the client's : by its address where there is no token yet. -/
def Client.sent (client : Client) (r : Arrival) : Bool :=
  match r.route with
  | .register => r.address == client.address
  | .login => r.address == client.address
  | _ => r.authorization == some client.token

/-- Whether the rate limiter denied a request. -/
def limited : Except HttpException GatewayRequest → Bool
  | .error (.tooManyRequests _ _) => true
  | _ => false

variable (signed : List Jwt) (nginx : String)

/-- A request comes through nginx : whether it was denied, and the store after. -/
def arrive (redis : Redis) (r : Arrival) : Bool × Redis :=
  let (outcome, redis) := canActivate signed redis r.route (fromNginx nginx r.authorization) r.time
  (limited outcome, redis)

/-- What the rate limiter decides on the requests of the client. -/
def decisionsOn (client : Client) : Redis → List Arrival → List Bool
  | _, [] => []
  | redis, r :: rs =>
    if client.sent r then
      (arrive signed nginx redis r).1 :: decisionsOn client (arrive signed nginx redis r).2 rs
    else decisionsOn client (arrive signed nginx redis r).2 rs

/-- Requests in the order of their times. -/
def InOrder (as : List Arrival) : Prop :=
  as.Pairwise fun a b => a.time ≤ b.time

/-- In any two runs in which the client sends these requests, whatever the others send, the
limiter decides the same on them. -/
def Separated (client : Client) (own : List Arrival) : Prop :=
  ∀ as bs, InOrder as → InOrder bs → as.filter client.sent = own → bs.filter client.sent = own →
    decisionsOn signed nginx client .empty as = decisionsOn signed nginx client .empty bs

/-! ## One key for all clients -/

/-- The routes of `AuthController`. -/
def authRoutes : List GatewayRoute :=
  [.register, .login, .me]

theorem mem_authRoutes {route : GatewayRoute} :
    route ∈ authRoutes ↔ route = .register ∨ route = .login ∨ route = .me := by
  simp [authRoutes]

/-- The policy of a route. -/
def GatewayRoute.policyName (route : GatewayRoute) : RatePolicyName :=
  route.metadata.ratePolicy.getD .defaultRead

/-- The check of a route's policy for all that comes from nginx. -/
def sharedCheck (route : GatewayRoute) (redis : Redis) (now : ℤ) :
    RateLimitService.CheckResult × Redis :=
  RateLimitService.check redis route.policyName nginx now

variable {signed nginx} {redis : Redis} {client : Client} {r : Arrival} {own rest : List Arrival}

theorem authGuard_error {route : RouteMetadata} {request : GatewayRequest} {now : ℤ}
    {e : HttpException} (h : authGuard signed route request now = .error e) :
    ∃ message, e = .unauthorized message ∨ e = .forbidden message := by
  unfold authGuard at h
  cases hpublic : route.isPublic with
  | true => simp [hpublic, pure, Except.pure] at h
  | false =>
    cases htoken : request.authorization with
    | none =>
      simp only [hpublic, htoken] at h
      exact ⟨_, Or.inl (Except.error.inj h).symm⟩
    | some token =>
      cases hverify : verify signed token now with
      | none =>
        simp only [hpublic, htoken, hverify] at h
        exact ⟨_, Or.inl (Except.error.inj h).symm⟩
      | some claims =>
        simp only [hpublic, htoken, hverify] at h
        by_cases hrole : route.roles ≠ [] ∧ claims.role ∉ route.roles
        · simp only [if_pos hrole] at h
          exact ⟨_, Or.inr (Except.error.inj h).symm⟩
        · simp [if_neg hrole, pure, Except.pure] at h

/-- The other guard neither reads the store nor answers for the limiter. -/
theorem runGuards_authGuard {route : RouteMetadata} {request : GatewayRequest} {now : ℤ} :
    limited (runGuards signed route now [.gatewayAuth] request redis).1 = false ∧
      (runGuards signed route now [.gatewayAuth] request redis).2 = redis := by
  rw [runGuards]
  cases h : authGuard signed route request now with
  | ok request => exact ⟨rfl, rfl⟩
  | error e =>
    obtain ⟨message, rfl | rfl⟩ := authGuard_error h
    · exact ⟨rfl, rfl⟩
    · exact ⟨rfl, rfl⟩

theorem runGuards_rateLimit {route : RouteMetadata} {authorization : Option Jwt} {now : ℤ}
    {guards : List Guard}
    (hrest : ∀ request redis, limited (runGuards signed route now guards request redis).1 = false ∧
      (runGuards signed route now guards request redis).2 = redis) :
    let checked := RateLimitService.check redis (route.ratePolicy.getD .defaultRead) nginx now
    let outcome := runGuards signed route now (.rateLimit :: guards)
      (fromNginx nginx authorization) redis
    limited outcome.1 = !checked.1.isAllowed ∧ outcome.2 = checked.2 := by
  have hprincipal : principal (fromNginx nginx authorization) = nginx := rfl
  simp only [runGuards, rateLimitGuard, hprincipal]
  obtain ⟨result, redis'⟩ :=
    RateLimitService.check redis (route.ratePolicy.getD .defaultRead) nginx now
  cases result with
  | allowed => exact hrest _ _
  | denied retryAfterSeconds => exact ⟨rfl, rfl⟩

/-- On the routes of `AuthController` the limiter checks the key of nginx, whoever sent the
request. -/
theorem arrive_auth (signed : List Jwt) (nginx : String) (redis : Redis)
    (hroute : r.route ∈ authRoutes) :
    arrive signed nginx redis r = (!(sharedCheck nginx r.route redis r.time).1.isAllowed,
      (sharedCheck nginx r.route redis r.time).2) := by
  have hnone : ∀ {route : RouteMetadata} {now : ℤ} (request redis),
      limited (runGuards signed route now [] request redis).1 = false ∧
        (runGuards signed route now [] request redis).2 = redis := fun _ _ => ⟨rfl, rfl⟩
  have hguards : limited (canActivate signed redis r.route (fromNginx nginx r.authorization)
        r.time).1 = !(sharedCheck nginx r.route redis r.time).1.isAllowed ∧
      (canActivate signed redis r.route (fromNginx nginx r.authorization) r.time).2 =
        (sharedCheck nginx r.route redis r.time).2 := by
    rcases mem_authRoutes.mp hroute with heq | heq | heq
    · rw [heq]
      exact runGuards_rateLimit hnone
    · rw [heq]
      exact runGuards_rateLimit hnone
    · rw [heq]
      exact runGuards_rateLimit fun _ _ => runGuards_authGuard
  exact Prod.ext hguards.1 hguards.2

/-! ## Using up the key -/

/-- The first request on a route of `AuthController` is let through. -/
theorem sharedCheck_empty_isAllowed {route : GatewayRoute} (hroute : route ∈ authRoutes)
    (now : ℤ) : (sharedCheck nginx route .empty now).1.isAllowed = true := by
  rcases mem_authRoutes.mp hroute with rfl | rfl | rfl
  · exact RateLimitService.checkTokenBucket_empty_isAllowed
  · exact RateLimitService.checkSlidingWindow_empty_isAllowed (by decide)
  · exact RateLimitService.checkTokenBucket_empty_isAllowed

/-- After some requests at one time the next is denied. -/
theorem exists_sharedCheck_denied (nginx : String) {route : GatewayRoute}
    (hroute : route ∈ authRoutes) (now : ℤ) : ∃ n, (sharedCheck nginx route
      (RateLimitService.afterChecks (sharedCheck nginx route) .empty now n) now).1.isAllowed =
        false := by
  rcases mem_authRoutes.mp hroute with rfl | rfl | rfl
  · exact RateLimitService.exists_tokenBucket_denied _ .defaultWrite nginx now
  · exact RateLimitService.exists_slidingWindow_denied _ .login nginx now
  · exact RateLimitService.exists_tokenBucket_denied _ .defaultRead nginx now

/-- A request of a client that is not this one, at the time and on the route of `r`. -/
def intrusion (client : Client) (r : Arrival) : Arrival where
  route := r.route
  address := client.address ++ "0"
  authorization := none
  time := r.time

theorem not_sent_intrusion (client : Client) (r : Arrival) :
    client.sent (intrusion client r) = false := by
  have haddress : client.address ++ "0" ≠ client.address := fun h => by
    have hlength := congrArg String.length h
    have hone : "0".length = 1 := rfl
    rw [String.length_append] at hlength
    omega
  unfold Client.sent intrusion
  cases r.route <;> simp [haddress]

/-- What such requests leave of the store. -/
theorem decisionsOn_intrusions (hroute : r.route ∈ authRoutes) (n : ℕ) (as : List Arrival) :
    decisionsOn signed nginx client redis (List.replicate n (intrusion client r) ++ as) =
      decisionsOn signed nginx client
        (RateLimitService.afterChecks (sharedCheck nginx r.route) redis r.time n) as := by
  induction n generalizing as with
  | zero => rfl
  | succ n ih =>
    have hshared : (intrusion client r).route ∈ authRoutes := hroute
    rw [List.replicate_succ', List.append_assoc, ih, List.singleton_append, decisionsOn,
      not_sent_intrusion, if_neg Bool.false_ne_true, arrive_auth signed nginx _ hshared]
    rfl

theorem decisionsOn_cons (hsent : client.sent r = true) (hroute : r.route ∈ authRoutes) :
    decisionsOn signed nginx client redis (r :: rest) =
      (!(sharedCheck nginx r.route redis r.time).1.isAllowed) ::
        decisionsOn signed nginx client (sharedCheck nginx r.route redis r.time).2 rest := by
  rw [decisionsOn, if_pos hsent, arrive_auth signed nginx redis hroute]

/-- If the client sends a request, others can use up the key before it. -/
theorem not_separated (hsent : ∀ x ∈ r :: rest, client.sent x = true)
    (hroute : r.route ∈ authRoutes) (horder : InOrder (r :: rest)) :
    ¬Separated signed nginx client (r :: rest) := by
  intro h
  obtain ⟨n, hdenied⟩ := exists_sharedCheck_denied nginx hroute r.time
  have hr := hsent r List.mem_cons_self
  have hown : (r :: rest).filter client.sent = r :: rest := List.filter_eq_self.mpr hsent
  have hothers : (List.replicate n (intrusion client r)).filter client.sent = [] := by
    rw [List.filter_eq_nil_iff]
    intro x hx
    rw [List.eq_of_mem_replicate hx, not_sent_intrusion]
    exact Bool.false_ne_true
  have hafter : InOrder (List.replicate n (intrusion client r) ++ r :: rest) := by
    refine List.pairwise_append.mpr ⟨List.pairwise_replicate.mpr (Or.inr le_rfl), horder, ?_⟩
    intro x hx y hy
    rw [List.eq_of_mem_replicate hx]
    rcases List.mem_cons.mp hy with rfl | hy
    · exact le_rfl
    · exact (List.pairwise_cons.mp horder).1 y hy
  have hsame := h (r :: rest) _ horder hafter hown (by rw [List.filter_append, hothers, hown]; rfl)
  -- alone the first request is let through, after the others it is denied
  rw [decisionsOn_intrusions hroute, decisionsOn_cons hr hroute, decisionsOn_cons hr hroute,
    sharedCheck_empty_isAllowed hroute, hdenied] at hsame
  exact absurd (List.head_eq_of_cons_eq hsame) (by decide)

/-- The decisions on the requests that a client sends on the routes of `AuthController` do not
depend on the requests of others, exactly when there are none. -/
theorem separated_iff (signed : List Jwt) (nginx : String) (client : Client)
    (own : List Arrival) (hsent : ∀ r ∈ own, client.sent r = true)
    (hroute : ∀ r ∈ own, r.route ∈ authRoutes) (horder : InOrder own) :
    Separated signed nginx client own ↔ own = [] := by
  cases own with
  | nil =>
    refine iff_of_true (fun as bs _ _ has hbs => ?_) rfl
    have hnothing : ∀ (redis : Redis) (cs : List Arrival), cs.filter client.sent = [] →
        decisionsOn signed nginx client redis cs = [] := by
      intro redis cs hcs
      induction cs generalizing redis with
      | nil => rfl
      | cons c cs ih =>
        have hc := List.filter_eq_nil_iff.mp hcs c List.mem_cons_self
        rw [List.filter_cons_of_neg hc] at hcs
        rw [decisionsOn, if_neg hc, ih _ hcs]
    rw [hnothing _ as has, hnothing _ bs hbs]
  | cons r rest =>
    exact iff_of_false (not_separated hsent (hroute r List.mem_cons_self) horder)
      (List.cons_ne_nil r rest)

/-- A client with an address and a token of its own. -/
def someClient : Client :=
  ⟨"10.0.0.1", ⟨⟨7, "student@example.com", .student⟩, 0, 604800⟩⟩

/-- It logs in once. -/
def firstLogin : List Arrival :=
  [⟨.login, "10.0.0.1", none, 1000⟩]

/-- Others can lock the client out. -/
theorem firstLogin_not_separated : ¬Separated [] "172.18.0.2" someClient firstLogin :=
  not_separated (by decide) (by decide) (List.pairwise_singleton _ _)

/-- With a request there is no separation, without one there is. -/
theorem separated_iff_firstLogin : ¬Separated [] "172.18.0.2" someClient firstLogin ∧
    Separated [] "172.18.0.2" someClient [] :=
  ⟨fun h => List.cons_ne_nil _ _ ((separated_iff [] "172.18.0.2" someClient firstLogin
      (by decide) (by decide) (List.pairwise_singleton _ _)).mp h),
    (separated_iff [] "172.18.0.2" someClient [] (by simp) (by simp) List.Pairwise.nil).mpr rfl⟩

end Qoms.Gateway
