import Scoopdope.Async.Pool
import Scoopdope.Reviews.Service
import Scoopdope.Server.Http

/-!
# Rate limits: the service and the guard

`UserRateLimitService` (`rate-limit/user-rate-limit.service.ts`) and `UserRateLimitGuard`
(`rate-limit/user-rate-limit.guard.ts`), which runs before every handler.

The cache has a clock of its own that does not go back. `get` and `set` are one step each, and an
entry expires when its ttl has passed since it was set.

Parameters are the metadata of the handlers and how a date is written.
-/

namespace Scoopdope.RateLimit

open Async Server

/-! ## The cache -/

inductive CacheOp
  | get (key : String)
  | set (key : String) (count ttl : Nat)
deriving DecidableEq

abbrev cacheInterface : Interface where
  Op := CacheOp
  Answer
    | .get _ => Option Nat
    | .set _ _ _ => Unit

structure Entry where
  count : Nat
  expiresAt : Nat
deriving DecidableEq

structure Cache where
  clock : Nat
  entries : String → Option Entry

def Cache.empty : Cache := ⟨0, fun _ => none⟩

/-- The time of the next operation. -/
def Cache.at (cache : Cache) (now : Nat) : Nat := max cache.clock now

/-- What is read of an entry. -/
def Entry.read (now : Nat) (entry : Entry) : Option Nat :=
  if now < entry.expiresAt then some entry.count else none

/-- The environment is the time in milliseconds. -/
def handle (now : Nat) (cache : Cache) : (o : CacheOp) → cacheInterface.Answer o × Cache
  | .get key =>
    ((cache.entries key).bind (Entry.read (cache.at now)), { cache with clock := cache.at now })
  | .set key count ttl =>
    ((), ⟨cache.at now,
      Function.update cache.entries key (some ⟨count, cache.at now + ttl⟩)⟩)

/-! ## `UserRateLimitService` -/

structure RateLimitConfig where
  limit : Nat
  windowMs : Nat
deriving DecidableEq

/-- `Partial<RateLimitConfig>` -/
structure PartialConfig where
  limit : Option Nat
  windowMs : Option Nat
deriving DecidableEq

inductive UserRateLimitRole
  | admin | instructor | student | guest
deriving DecidableEq

def defaultRateLimits : UserRateLimitRole → RateLimitConfig
  | .admin => ⟨10000, 60000⟩
  | .instructor => ⟨5000, 60000⟩
  | .student => ⟨1000, 60000⟩
  | .guest => ⟨100, 60000⟩

/-- `{ ...DEFAULT_RATE_LIMITS[role], ...overrideConfig }` -/
def configOf (role : UserRateLimitRole) (overrideConfig : Option PartialConfig) :
    RateLimitConfig where
  limit := (overrideConfig.bind PartialConfig.limit).getD (defaultRateLimits role).limit
  windowMs := (overrideConfig.bind PartialConfig.windowMs).getD (defaultRateLimits role).windowMs

def roleKey (userId ip : String) : String :=
  "rate-limit:" ++ (truthy (some userId)).getD ip

/-- `roleKey(userId || ip, ip)` -/
def clientKey (userId : Option String) (ip : String) : String :=
  roleKey ((truthy userId).getD ip) ip

abbrev Method (X A : Type) : Type := Process cacheInterface Nat X A

section Service

variable {X : Type}

def checkRateLimit (userId : Option String) (ip : String) (role : UserRateLimitRole)
    (overrideConfig : Option PartialConfig) : Method X Bool := do
  let config := configOf role overrideConfig
  let key := clientKey userId ip
  let current ← Process.perform (I := cacheInterface) (.get key)
  let count := current.getD 0 + 1
  if config.limit < count then pure false
  else do
    Process.perform (I := cacheInterface) (.set key count config.windowMs)
    pure true

structure RateLimitStatus where
  limit : Nat
  current : Nat
  remaining : Nat
  /-- A date, in milliseconds. -/
  resetTime : Nat
deriving DecidableEq

def getRateLimitStatus (userId : Option String) (ip : String) (role : UserRateLimitRole)
    (overrideConfig : Option PartialConfig) : Method X RateLimitStatus := do
  let config := configOf role overrideConfig
  let current ← Process.perform (I := cacheInterface) (.get (clientKey userId ip))
  let count := current.getD 0
  let now ← Process.env
  pure
    { limit := config.limit
      current := count
      remaining := config.limit - count
      resetTime := now + config.windowMs }

end Service

/-- Letters outside ASCII are not mapped to letters of the two names. -/
def resolveRole (userRole : Option String) (authenticated : Bool) : UserRateLimitRole :=
  if authenticated = false then .guest
  else
    let normalized := ((truthy userRole).getD "student").toLower
    if normalized = "admin" then .admin
    else if normalized = "instructor" then .instructor
    else .student

/-! ## `UserRateLimitGuard` -/

structure User where
  id : Option String
  role : Option String
deriving DecidableEq

structure Request where
  user : Option User
  ip : Option String
  /-- The header `x-forwarded-for`. -/
  xForwardedFor : Option String
  /-- `connection?.remoteAddress` -/
  remoteAddress : Option String
deriving DecidableEq

def Request.userId (request : Request) : Option String := truthy (request.user.bind User.id)

/-- `header.split(',')[0].trim()` -/
def firstAddress (header : String) : String :=
  Reviews.trim (.ofList (header.toList.takeWhile fun c => c ≠ ','))

def Request.clientIp (request : Request) : String :=
  (truthy request.ip <|> truthy (request.xForwardedFor.map firstAddress) <|>
    truthy request.remoteAddress).getD "unknown"

def Request.role (request : Request) : UserRateLimitRole :=
  resolveRole (request.user.bind User.role) request.userId.isSome

/-- The headers `X-RateLimit-Limit`, `X-RateLimit-Remaining` and `X-RateLimit-Reset`. -/
structure Headers where
  limit : String
  remaining : String
  reset : String
deriving DecidableEq

/-- The exception with status 429, and the headers that are set by then. -/
structure TooManyRequests where
  headers : Headers
  message : String
  retryAfter : String
deriving DecidableEq

variable {H : Type}

/-- A request to the endpoint of a handler. -/
structure Call (H : Type) where
  request : Request
  handler : H
deriving DecidableEq

section Guard

variable (metadata : H → Option PartialConfig) (toISOString : Nat → String)

def canActivate (call : Call H) : Method TooManyRequests Headers := do
  let request := call.request
  let userId := request.userId
  let ip := request.clientIp
  let overrideConfig := metadata call.handler
  let role := request.role
  let allowed ← checkRateLimit userId ip role overrideConfig
  let status ← getRateLimitStatus userId ip role overrideConfig
  let headers : Headers :=
    { limit := toString status.limit
      remaining := toString status.remaining
      reset := toISOString status.resetTime }
  if allowed = false then
    .fail
      { headers
        message := "Rate limit exceeded. Please slow down your requests."
        retryAfter := toISOString status.resetTime }
  else pure headers

def system : System cacheInterface Nat TooManyRequests Headers Cache (Call H) where
  start := canActivate metadata toISOString
  handle := handle

end Guard

/-- The client of a request, by the key of its counter. -/
def Call.client (call : Call H) : String := clientKey call.request.userId call.request.clientIp

/-- The limit and the window of the endpoint for the role of the user. -/
def Call.config (metadata : H → Option PartialConfig) (call : Call H) : RateLimitConfig :=
  configOf call.request.role (metadata call.handler)

end Scoopdope.RateLimit
