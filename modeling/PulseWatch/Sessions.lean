import Mathlib.Data.Fintype.EquivFin
import Mathlib.Logic.Function.Basic
import PulseWatch.Lib.Runs
import PulseWatch.RedisClient
import PulseWatch.Auth

/-!
# The session protocol: login, refresh, logout, reset-password

`app/api/auth.py` over `app/redis_client.py` as one labelled machine. Any number
of calls, named by numbers, are in flight; a label runs one Redis command (or
MULTI/EXEC pipeline) or one database statement of one call, together with the
local computation in front of it. Decoding a JWT and minting one are local.

A refresh token is known to the world only once a call has returned it, so a
call presents a token from `returned`. `clock` counts steps; it, the stamps of a call
and the provenance fields of a token (`family`, `maker`, `verified`, `born`) are
read by no handler, only by statements about runs.
-/

namespace PulseWatch

structure Settings where
  refreshTokenExpireDays : ℕ := 7
  accessTokenExpireMinutes : ℕ := 30
  passwordResetTokenTtlSeconds : ℕ := 3600

/-- `_REFRESH_TTL_SECONDS` of auth.py. -/
def Settings.refreshTtl (cfg : Settings) : ℕ := cfg.refreshTokenExpireDays * 24 * 60 * 60

namespace Sessions
open RedisClient ExpiringStore

/- A refresh JWT: the claims `sub`, `jti`, `exp`. `family` is the jti of the
login the token descends from, `maker` the call that minted it, `verified` the
step at which that login loaded the user row it checked the password on and
`born` the step at which the token was made. -/
structure Minted where
  sub : ℕ
  jti : String
  exp : ℕ
  family : String
  maker : ℕ
  verified : ℕ
  born : ℕ
  deriving DecidableEq, Repr

def Minted.key (m : Minted) : RedisKey := .refresh m.sub m.jti
def Minted.usedKey (m : Minted) : RedisKey := .refreshUsed m.sub m.jti

/- `jwt.decode`: python-jose truncates `exp` and the clock to whole seconds and
rejects only `exp < now`. -/
def Minted.unexpired (now : ℕ) (m : Minted) : Bool := now / 1000 ≤ m.exp

/-- When a step was taken: its number and the clock reading. -/
structure Stamp where
  step : ℕ
  time : ℕ
  deriving DecidableEq, Repr

/- Why `revoke_all_refresh_for_user` runs. -/
inductive Why where
  | reuse (m : Minted) (checked : Stamp)
  | reset (userId committed : ℕ)
  deriving DecidableEq, Repr

def Why.user : Why → ℕ
  | .reuse m _ => m.sub
  | .reset u _ => u

/- Where a call stands, named by what it has done last. -/
inductive Call where
  | idle
  | loginVerified (userId verified : ℕ)
  | loginStored (m : Minted)
  | loggedIn (m : Minted)
  | unused (m : Minted) (checked : Stamp)
  | rotated (m new : Minted) (checked : Stamp)
  | refreshed (m new : Minted) (checked marked : Stamp)
  | stale (m new : Minted) (checked : Stamp)
  | refused (m new : Minted) (checked : Stamp)
  | reuseFound (m : Minted) (checked : Stamp)
  | revoking (why : Why) (began : ℕ) (scan : List RedisKey)
  | reuseRefused (m : Minted) (checked : Stamp) (began : ℕ)
  | resetConsumed (userId : ℕ) (newPassword : String)
  | resetCommitted (userId committed : ℕ)
  | resetDone (userId committed began : ℕ)
  | loggedOut
  | forgotten
  | failed (status : ℕ)
  deriving DecidableEq, Repr

structure Sys where
  now : ℕ
  clock : ℕ
  redis : Redis
  users : List User
  minted : List Minted
  returned : List Minted
  calls : ℕ → Call

def init (now : ℕ) (users : List User) : Sys :=
  ⟨now, 0, [], users, [], [], fun _ => .idle⟩

inductive Label where
  | tick (ms : ℕ)
  | loginVerify (c : ℕ) (email password : String) (totpCode : Option String)
  | loginStore (c : ℕ) (jti : String)
  | loginReturn (c : ℕ)
  | refreshCheck (c : ℕ) (m : Minted)
  | refreshRotate (c : ℕ) (jti : String)
  | refreshMark (c : ℕ)
  | refreshRollback (c : ℕ)
  | revokeBegin (c : ℕ)
  | revokeDelete (c : ℕ) (key : RedisKey)
  | revokeEnd (c : ℕ)
  | logout (c : ℕ) (m : Minted)
  | forgot (c : ℕ) (email token : String)
  | resetConsume (c : ℕ) (token newPassword : String)
  | resetCommit (c : ℕ) (salt : String)
  deriving DecidableEq, Repr

def Sys.goto (s : Sys) (c : ℕ) (p : Call) : Sys :=
  { s with calls := Function.update s.calls c p, clock := s.clock + 1 }

@[simp] theorem Sys.goto_self (s : Sys) (c : ℕ) (p : Call) : (s.goto c p).calls c = p := by
  show Function.update s.calls c p c = p
  rw [Function.update_self]

@[simp] theorem Sys.goto_ne (s : Sys) {c x : ℕ} (h : x ≠ c) (p : Call) :
    (s.goto c p).calls x = s.calls x := by
  show Function.update s.calls c p x = s.calls x
  rw [Function.update_of_ne h]

def Sys.stamp (s : Sys) : Stamp := ⟨s.clock, s.now⟩

section
variable (cfg : Settings) (cr : Crypto)

/- `create_refresh_token`, run by call `c` at `now`. -/
def mint (s : Sys) (c userId : ℕ) (jti family : String) (verified : ℕ) : Minted :=
  ⟨userId, jti, s.now / 1000 + cfg.refreshTtl, family, c, verified, s.clock⟩

/- `jti` has not been made before. -/
def Sys.fresh (s : Sys) (jti : String) : Bool := !(s.minted.map Minted.jti).contains jti

theorem Sys.exists_fresh (s : Sys) : ∃ jti, s.fresh jti = true := by
  obtain ⟨jti, hjti⟩ := Infinite.exists_notMem_finset (s.minted.map Minted.jti).toFinset
  refine ⟨jti, ?_⟩
  simpa [Sys.fresh] using hjti

def setPasswordHash (userId : ℕ) (hash : String) (users : List User) : List User :=
  users.map fun u => if u.id = userId then { u with passwordHash := hash } else u

/- The handlers, cut at their round trips.

* `login`: the SELECT with the checks on the loaded row; SET refresh; the answer.
* `refresh_tokens`: decoding and EXISTS refresh_used; minting and the pipeline
  of `rotate_refresh_jti`; then either SET refresh_used and 200, or, the old jti
  not having been valid, DEL of the new key and 401.
* `revoke_all_refresh_for_user`: SCAN `refresh:<u>:*` with a DEL for each key it
  returns; it ends when every key SCAN was bound to return is gone.
* `logout`: DEL of the presented jti; an undecodable token is ignored.
* `forgot_password`: always 200, a token is stored when the e-mail is known.
* `reset_password`: the length check, GET and DEL of the token; then SELECT of
  the user, hash, UPDATE and COMMIT; then the revocation. -/
def step (s : Sys) : Label → Option Sys
  | .tick ms => some { s with now := s.now + ms, clock := s.clock + 1 }
  | .loginVerify c email password totpCode =>
    match s.calls c with
    | .idle =>
      match Auth.loginCheck cr (s.users.find? fun u => u.email = email) password totpCode s.now with
      | .accepted u => some (s.goto c (.loginVerified u s.clock))
      | .serverError => some (s.goto c (.failed 500))
      | _ => some (s.goto c (.failed 401))
    | _ => none
  | .loginStore c jti =>
    match s.calls c with
    | .loginVerified u v =>
      if s.fresh jti then
        let m := mint cfg s c u jti jti v
        some { s.goto c (.loginStored m) with
          redis := storeRefreshJti s.now u jti cfg.refreshTtl s.redis
          minted := m :: s.minted }
      else none
    | _ => none
  | .loginReturn c =>
    match s.calls c with
    | .loginStored m => some { s.goto c (.loggedIn m) with returned := m :: s.returned }
    | _ => none
  | .refreshCheck c m =>
    match s.calls c with
    | .idle =>
      if m ∈ s.returned then
        if m.unexpired s.now then
          if isRefreshJtiUsed s.now m.sub m.jti s.redis then
            some (s.goto c (.reuseFound m s.stamp))
          else some (s.goto c (.unused m s.stamp))
        else some (s.goto c (.failed 401))
      else none
    | _ => none
  | .refreshRotate c jti =>
    match s.calls c with
    | .unused m ck =>
      if s.fresh jti then
        let new := mint cfg s c m.sub jti m.family m.verified
        let out := rotatePipeline s.now m.sub m.jti jti cfg.refreshTtl s.redis
        some { s.goto c (if out.1 then .rotated m new ck else .stale m new ck) with
          redis := out.2
          minted := new :: s.minted }
      else none
    | _ => none
  | .refreshMark c =>
    match s.calls c with
    | .rotated m new ck =>
      some { s.goto c (.refreshed m new ck s.stamp) with
        redis := markRefreshUsed s.now m.sub m.jti cfg.refreshTtl s.redis
        returned := new :: s.returned }
    | _ => none
  | .refreshRollback c =>
    match s.calls c with
    | .stale m new ck =>
      some { s.goto c (.refused m new ck) with
        redis := revokeRefreshJti m.sub new.jti s.redis }
    | _ => none
  | .revokeBegin c =>
    match s.calls c with
    | .reuseFound m ck =>
      some (s.goto c (.revoking (.reuse m ck) s.clock (scanRefresh s.now m.sub s.redis)))
    | .resetCommitted u cm =>
      some (s.goto c (.revoking (.reset u cm) s.clock (scanRefresh s.now u s.redis)))
    | _ => none
  | .revokeDelete c key =>
    match s.calls c with
    | .revoking why began scan =>
      if matchesRefresh why.user key then
        some { s.goto c (.revoking why began scan) with redis := del key s.redis }
      else none
    | _ => none
  | .revokeEnd c =>
    match s.calls c with
    | .revoking why began scan =>
      if scan.all fun k => !alive s.now k s.redis then
        match why with
        | .reuse m ck => some (s.goto c (.reuseRefused m ck began))
        | .reset u cm => some (s.goto c (.resetDone u cm began))
      else none
    | _ => none
  | .logout c m =>
    match s.calls c with
    | .idle =>
      if m ∈ s.returned then
        some { s.goto c .loggedOut with
          redis := if m.unexpired s.now then revokeRefreshJti m.sub m.jti s.redis else s.redis }
      else none
    | _ => none
  | .forgot c email token =>
    match s.calls c with
    | .idle =>
      match s.users.find? fun u => u.email = email with
      | some u => some { s.goto c .forgotten with
          redis := storePasswordResetToken s.now token u.id cfg.passwordResetTokenTtlSeconds
            s.redis }
      | none => some (s.goto c .forgotten)
    | _ => none
  | .resetConsume c token newPassword =>
    match s.calls c with
    | .idle =>
      if newPassword.toList.length < 6 then some (s.goto c (.failed 422))
      else
        let out := consumePasswordResetToken s.now token s.redis
        some { s.goto c (match out.1 with
            | some u => .resetConsumed u newPassword
            | none => .failed 400) with redis := out.2 }
    | _ => none
  | .resetCommit c salt =>
    match s.calls c with
    | .resetConsumed u newPassword =>
      if s.users.any fun x => x.id = u then
        match cr.hashpw newPassword salt with
        | some hash => some { s.goto c (.resetCommitted u s.clock) with
            users := setPasswordHash u hash s.users }
        | none => some (s.goto c (.failed 500))
      else some (s.goto c (.failed 400))
    | _ => none

end

end Sessions
end PulseWatch
