import Mathlib.Data.Int.Notation
import PulseWatch.Lib.ExpiringStore

/-!
# Redis keys and commands of the session code (`app/redis_client.py`)

Redis keeps deadlines in milliseconds; `now` is its clock. Every function below
is one command or one MULTI/EXEC pipeline of the source, so a step of the
protocols built on top runs exactly one of them.
-/

namespace PulseWatch.RedisClient
open ExpiringStore

/- The key families of redis_client.py, one constructor for each of its key
functions. -/
inductive RedisKey where
  | dashboard (userId : ℕ)
  | tgLink (code : String)
  | mute (serverId : ℕ) (channel : String)
  | pendingDelete (chatId : ℤ)
  | refresh (userId : ℕ) (jti : String)
  | refreshUsed (userId : ℕ) (jti : String)
  | ruleDraft (chatId : ℤ)
  | passwordReset (token : String)
  deriving DecidableEq, Repr

/- Stored strings, decoded: "1", `str(user_id)`. -/
inductive RedisValue where
  | flag
  | userId (n : ℕ)
  deriving DecidableEq, Repr

abbrev Redis := Store RedisKey RedisValue ℕ

/-- `ex=ttl` of a SET executed at `now`. -/
def expiry (now ttlSeconds : ℕ) : ℕ := now + 1000 * ttlSeconds

def storeRefreshJti (now userId : ℕ) (jti : String) (ttl : ℕ) (r : Redis) : Redis :=
  set (.refresh userId jti) .flag (expiry now ttl) r

def isRefreshJtiValid (now userId : ℕ) (jti : String) (r : Redis) : Bool :=
  alive now (.refresh userId jti) r

def isRefreshJtiUsed (now userId : ℕ) (jti : String) (r : Redis) : Bool :=
  alive now (.refreshUsed userId jti) r

def revokeRefreshJti (userId : ℕ) (jti : String) (r : Redis) : Redis :=
  del (.refresh userId jti) r

/- The pipeline of `rotate_refresh_jti`: DEL old, SET new, atomically. The flag
is `deleted == 1`; an expired key counts as absent. -/
def rotatePipeline (now userId : ℕ) (old new : String) (ttl : ℕ) (r : Redis) : Bool × Redis :=
  (alive now (.refresh userId old) r,
    set (.refresh userId new) .flag (expiry now ttl) (del (.refresh userId old) r))

/- The second round trip of `rotate_refresh_jti`. -/
def markRefreshUsed (now userId : ℕ) (old : String) (ttl : ℕ) (r : Redis) : Redis :=
  set (.refreshUsed userId old) .flag (expiry now ttl) r

def storePasswordResetToken (now : ℕ) (token : String) (userId ttl : ℕ) (r : Redis) : Redis :=
  set (.passwordReset token) (.userId userId) (expiry now ttl) r

/- GET and DEL in one pipeline. -/
def consumePasswordResetToken (now : ℕ) (token : String) (r : Redis) : Option ℕ × Redis :=
  (match get? now (.passwordReset token) r with
    | some (.userId n) => some n
    | _ => none,
    del (.passwordReset token) r)

/-- The glob `refresh:<user_id>:*`. -/
def matchesRefresh (userId : ℕ) : RedisKey → Bool
  | .refresh u _ => u = userId
  | _ => false

/- Keys `scan_iter` is bound to return when its iteration starts at `now`: SCAN
returns every key present from the beginning to the end of the iteration, and
may or may not return keys added meanwhile. -/
def scanRefresh (now userId : ℕ) (r : Redis) : List RedisKey :=
  (liveKeys now r).filter (matchesRefresh userId)

theorem mem_scanRefresh (now u : ℕ) (k : RedisKey) (r : Redis) :
    k ∈ scanRefresh now u r ↔ alive now k r = true ∧ ∃ j, k = .refresh u j := by
  unfold scanRefresh
  rw [List.mem_filter, mem_liveKeys]
  cases k <;> simp [matchesRefresh]

/- How the commands move the deadline of a key. -/
section
variable (now u ttl : ℕ) (j old new token : String) (k : RedisKey) (r : Redis)

theorem deadline_rotate (hold : k ≠ .refresh u old) (hnew : k ≠ .refresh u new) :
    deadline? k (rotatePipeline now u old new ttl r).2 = deadline? k r := by
  rw [rotatePipeline, deadline?_set_ne _ _ _ _ _ hnew, deadline?_del_ne _ _ _ hold]

theorem deadline_rotate_new :
    deadline? (.refresh u new) (rotatePipeline now u old new ttl r).2 =
      some (expiry now ttl) := deadline?_set_self _ _ _ _

theorem rotate_hit : (rotatePipeline now u old new ttl r).1 = isRefreshJtiValid now u old r := rfl

end

end PulseWatch.RedisClient
