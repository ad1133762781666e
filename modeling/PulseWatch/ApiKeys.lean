import Mathlib.Data.List.Nodup
import Mathlib.Data.List.TakeWhile
import PulseWatch.AlertRules
import PulseWatch.Fleet
import PulseWatch.Lib.KeyedTable
import PulseWatch.Lib.PyInt

/-!
# API keys as texts (`app/api/deps.py`)

`Fleet` takes an API key as the id of a server and a secret. The handlers are given a
text, from a header or from a query parameter, and take it apart themselves:
`verify_api_key` for the REST calls, `authenticate_ws_agent`, a second copy of it, for
the log connections.
-/

namespace PulseWatch.ApiKeys
open Fleet
open Alerts (storeInt)

/- What a call can raise: the HTTPException 401, the driver's error for an argument
that is no 32-bit integer, the ValueError of bcrypt. -/
inductive Raised where
  | invalidKey
  | outOfRange
  | valueError
  deriving DecidableEq, Repr

/- The table `servers` with its primary key. -/
structure Servers where
  rows : List Server
  ids : (rows.map Server.id).Nodup

/-- `api_key.split(".", 1)`, unpacked; `none` is the ValueError of a text without a dot. -/
def splitDot (key : String) : Option (String × String) :=
  match key.toList.dropWhile (· ≠ '.') with
  | [] => none
  | _ :: secret => some (String.ofList (key.toList.takeWhile (· ≠ '.')), String.ofList secret)

/-- `select(Server).where(Server.id == server_id)`. -/
def selectServer (serverId : ℤ) (db : Servers) : Except Raised (Option Server) :=
  if (storeInt serverId).isSome then .ok (db.rows.find? fun r => (r.id : ℤ) = serverId)
  else .error .outOfRange

section
variable (cr : Crypto)

def verifyApiKey (apiKey : Option String) (db : Servers) : Except Raised Server :=
  match PyText.present apiKey with
  | none => .error .invalidKey
  | some apiKey => match splitDot apiKey with
    | none => .error .invalidKey
    | some (serverIdStr, secret) => match PyInt.int serverIdStr with
      | none => .error .invalidKey
      | some serverId => match selectServer serverId db with
        | .error e => .error e
        | .ok none => .error .invalidKey
        | .ok (some server) =>
          if !server.isActive then .error .invalidKey
          else match cr.checkpw secret server.apiKeyHash with
            | none => .error .valueError
            | some false => .error .invalidKey
            | some true => .ok server

def authenticateWsAgent (apiKey : Option String) (db : Servers) :
    Except Raised (Option Server) :=
  match PyText.present apiKey with
  | none => .ok none
  | some apiKey => match splitDot apiKey with
    | none => .ok none
    | some (serverIdStr, secret) => match PyInt.int serverIdStr with
      | none => .ok none
      | some serverId => match selectServer serverId db with
        | .error e => .error e
        | .ok none => .ok none
        | .ok (some server) =>
          if !server.isActive then .ok none
          else match cr.checkpw secret server.apiKeyHash with
            | none => .error .valueError
            | some false => .ok none
            | some true => .ok (some server)

/- The text is `<n>.<secret>` for the id and the secret of an active server. -/
def Opens (apiKey : Option String) (db : Servers) (server : Server) : Prop :=
  ∃ n secret, apiKey = some (n ++ "." ++ secret) ∧ '.' ∉ n.toList ∧
    PyInt.int n = some (server.id : ℤ) ∧ server ∈ db.rows ∧ server.isActive = true ∧
    cr.checkpw secret server.apiKeyHash = some true

/- The two handlers accept the same keys and refuse the others, each in its own way. -/
structure Agree (apiKey : Option String) (db : Servers) : Prop where
  verify : ∀ e, verifyApiKey cr apiKey db = .error e → e = .invalidKey
  authenticate : ∀ e, authenticateWsAgent cr apiKey db ≠ .error e
  verified : ∀ server, verifyApiKey cr apiKey db = .ok server ↔ Opens cr apiKey db server
  authenticated : ∀ server,
    authenticateWsAgent cr apiKey db = .ok (some server) ↔ Opens cr apiKey db server

/- Where the part before the first dot is a number, the driver takes it, and bcrypt takes
the rest if the number is the id of an active server. -/
def Bindable (apiKey : Option String) (db : Servers) : Prop :=
  ∀ n secret serverId, apiKey = some (n ++ "." ++ secret) → '.' ∉ n.toList →
    PyInt.int n = some serverId → (storeInt serverId).isSome = true ∧
      ∀ server ∈ db.rows, (server.id : ℤ) = serverId → server.isActive = true →
        cr.checkpw secret server.apiKeyHash ≠ none

end

/-! ### Taking a key apart -/

theorem splitDot_append {n secret : String} (hn : '.' ∉ n.toList) :
    splitDot (n ++ "." ++ secret) = some (n, secret) := by
  have hall : ∀ c ∈ n.toList, (decide (c ≠ '.')) = true := by
    intro c hc
    refine decide_eq_true ?_
    rintro rfl
    exact hn hc
  have hdrop : (n ++ "." ++ secret).toList.dropWhile (· ≠ '.') = '.' :: secret.toList := by
    rw [String.toList_append, String.toList_append, List.append_assoc,
      List.dropWhile_append_of_pos hall]
    rfl
  have htake : (n ++ "." ++ secret).toList.takeWhile (· ≠ '.') = n.toList := by
    rw [String.toList_append, String.toList_append, List.append_assoc,
      List.takeWhile_append_of_pos hall]
    simp
  rw [splitDot, hdrop, htake]
  simp

theorem splitDot_some {key n secret : String} (h : splitDot key = some (n, secret)) :
    key = n ++ "." ++ secret ∧ '.' ∉ n.toList := by
  unfold splitDot at h
  split at h
  · cases h
  · next c rest hdrop =>
    obtain ⟨rfl, rfl⟩ := Prod.mk.inj (Option.some.inj h)
    have hdot : c = '.' := by
      have hhead := List.head?_dropWhile_not (p := fun d => decide (d ≠ '.')) key.toList
      rw [hdrop] at hhead
      simpa using hhead
    constructor
    · have hwhole := List.takeWhile_append_dropWhile (p := fun d => decide (d ≠ '.'))
        (l := key.toList)
      rw [hdrop, hdot] at hwhole
      rw [← String.toList_inj]
      simp only [String.toList_append, String.toList_ofList, List.append_assoc]
      exact hwhole.symm
    · intro hin
      rw [String.toList_ofList] at hin
      have hne := List.mem_takeWhile_imp hin
      simp at hne

/-! ### The two copies -/

section
variable {cr : Crypto} {apiKey : Option String} {db : Servers}

/-- `verify_api_key` is `authenticate_ws_agent` with 401 for None. -/
theorem verifyApiKey_eq : verifyApiKey cr apiKey db =
    (authenticateWsAgent cr apiKey db).bind fun server =>
      server.elim (.error .invalidKey) .ok := by
  unfold verifyApiKey authenticateWsAgent
  split
  · rfl
  · split
    · rfl
    · split
      · rfl
      · split
        · rfl
        · rfl
        · split
          · rfl
          · split <;> rfl

theorem Servers.find (db : Servers) {server : Server} (h : server ∈ db.rows) :
    (db.rows.find? fun r => (r.id : ℤ) = server.id) = some server := by
  simp only [Int.natCast_inj]
  exact KeyedTable.get?_of_mem db.ids h rfl

theorem selectServer_some {serverId : ℤ} {server : Server}
    (h : selectServer serverId db = .ok (some server)) :
    server ∈ db.rows ∧ (server.id : ℤ) = serverId := by
  unfold selectServer at h
  split at h
  · have hfind := Except.ok.inj h
    exact ⟨List.mem_of_find?_eq_some hfind, by simpa using List.find?_some hfind⟩
  · cases h

theorem parsed_or_none (cr : Crypto) (apiKey : Option String) (db : Servers) :
    (∃ n secret serverId, apiKey = some (n ++ "." ++ secret) ∧ '.' ∉ n.toList ∧
      PyInt.int n = some serverId) ∨ authenticateWsAgent cr apiKey db = .ok none := by
  unfold authenticateWsAgent
  split
  · exact Or.inr rfl
  · next key hkey =>
    rw [PyText.present, Option.filter_eq_some_iff] at hkey
    split
    · exact Or.inr rfl
    · next n secret hsplit =>
      obtain ⟨rfl, hdot⟩ := splitDot_some hsplit
      split
      · exact Or.inr rfl
      · next serverId hint => exact Or.inl ⟨n, secret, serverId, hkey.1, hdot, hint⟩

theorem authenticate_parsed {n secret : String} {serverId : ℤ} (hn : '.' ∉ n.toList)
    (hint : PyInt.int n = some serverId) :
    authenticateWsAgent cr (some (n ++ "." ++ secret)) db = match selectServer serverId db with
      | .error e => .error e
      | .ok none => .ok none
      | .ok (some server) =>
        if !server.isActive then .ok none
        else match cr.checkpw secret server.apiKeyHash with
          | none => .error .valueError
          | some false => .ok none
          | some true => .ok (some server) := by
  have hpresent : PyText.present (some (n ++ "." ++ secret)) = some (n ++ "." ++ secret) := by
    rw [PyText.present, Option.filter_some, if_pos]
    refine decide_eq_true fun hempty => ?_
    have hlen := congrArg (fun s => s.toList.length) hempty
    simp at hlen
  simp only [authenticateWsAgent, hpresent, splitDot_append hn, hint]

theorem authenticate_opens {server : Server}
    (h : authenticateWsAgent cr apiKey db = .ok (some server)) : Opens cr apiKey db server := by
  rcases parsed_or_none cr apiKey db with ⟨n, secret, serverId, rfl, hdot, hint⟩ | hnone
  · rw [authenticate_parsed hdot hint] at h
    split at h
    · cases h
    · cases h
    · next r hselect =>
      obtain ⟨hmem, rfl⟩ := selectServer_some hselect
      split at h
      · cases h
      · next hactive =>
        split at h
        · cases h
        · cases h
        · next hcheck =>
          obtain rfl := Option.some.inj (Except.ok.inj h)
          exact ⟨n, secret, rfl, hdot, hint, hmem, by simpa using hactive, hcheck⟩
  · cases hnone.symm.trans h

theorem authenticate_row {n secret : String} {server : Server} (hn : '.' ∉ n.toList)
    (hint : PyInt.int n = some (server.id : ℤ)) (hfit : (storeInt server.id).isSome = true)
    (hmem : server ∈ db.rows) (hactive : server.isActive = true) :
    authenticateWsAgent cr (some (n ++ "." ++ secret)) db =
      match cr.checkpw secret server.apiKeyHash with
        | none => .error .valueError
        | some false => .ok none
        | some true => .ok (some server) := by
  rw [authenticate_parsed hn hint, selectServer, if_pos hfit, db.find hmem]
  simp only [hactive]
  rfl

theorem opens_authenticate {server : Server} (hb : Bindable cr apiKey db)
    (h : Opens cr apiKey db server) : authenticateWsAgent cr apiKey db = .ok (some server) := by
  obtain ⟨n, secret, rfl, hdot, hint, hmem, hactive, hcheck⟩ := h
  rw [authenticate_row hdot hint (hb n secret server.id rfl hdot hint).1 hmem hactive, hcheck]

/- The driver and bcrypt are the only ones that raise. -/
theorem authenticate_returns (hb : Bindable cr apiKey db) (e : Raised) :
    authenticateWsAgent cr apiKey db ≠ .error e := by
  intro he
  rcases parsed_or_none cr apiKey db with ⟨n, secret, serverId, rfl, hdot, hint⟩ | hnone
  · obtain ⟨hfit, hcheck⟩ := hb n secret serverId rfl hdot hint
    rw [authenticate_parsed hdot hint] at he
    split at he
    · next e' hselect =>
      rw [selectServer, if_pos hfit] at hselect
      cases hselect
    · cases he
    · next server hselect =>
      obtain ⟨hmem, hid⟩ := selectServer_some hselect
      split at he
      · cases he
      · next hactive =>
        split at he
        · next hraise => exact hcheck server hmem hid (by simpa using hactive) hraise
        · cases he
        · cases he
  · cases hnone.symm.trans he

theorem authenticate_bindable (h : ∀ e, authenticateWsAgent cr apiKey db ≠ .error e) :
    Bindable cr apiKey db := by
  rintro n secret serverId rfl hdot hint
  have hfit : (storeInt serverId).isSome = true := by
    by_contra hfit
    refine h .outOfRange ?_
    rw [authenticate_parsed hdot hint, selectServer, if_neg hfit]
  refine ⟨hfit, ?_⟩
  rintro server hmem rfl hactive hcheck
  refine h .valueError ?_
  rw [authenticate_row hdot hint hfit hmem hactive, hcheck]

/- The handlers agree on the keys that the driver and bcrypt take, and on no other. -/
theorem agree_iff_bindable (cr : Crypto) (apiKey : Option String) (db : Servers) :
    Agree cr apiKey db ↔ Bindable cr apiKey db := by
  constructor
  · intro h
    exact authenticate_bindable h.authenticate
  · intro hb
    have hws : ∀ server, authenticateWsAgent cr apiKey db = .ok (some server) ↔
        Opens cr apiKey db server :=
      fun server => ⟨authenticate_opens, opens_authenticate hb⟩
    cases ha : authenticateWsAgent cr apiKey db with
    | error e => exact absurd ha (authenticate_returns hb e)
    | ok found =>
      have hrest : verifyApiKey cr apiKey db = found.elim (.error .invalidKey) .ok := by
        rw [verifyApiKey_eq, ha]
        rfl
      refine ⟨?_, authenticate_returns hb, ?_, hws⟩
      · intro e he
        rw [hrest] at he
        cases found with
        | none => exact (Except.error.inj he).symm
        | some server => cases he
      · intro server
        rw [← hws server, hrest, ha]
        cases found with
        | none => simp
        | some server' => simp

theorem key_out_of_range :
    ¬ Agree tabledCrypto (some "2147483648.secret") ⟨[], List.nodup_nil⟩ := by
  intro h
  exact h.authenticate .outOfRange (by decide)

end

/-! ### Keys taken apart -/

section
variable {cr : Crypto} {db : Servers}

def raisedOf : Response → Raised
  | .serverError => .valueError
  | _ => .invalidKey

/- On a key that parses the handlers do what `Fleet` does with its parts. -/
theorem verifyApiKey_parsed {n secret : String} {serverId : ℕ} (hn : '.' ∉ n.toList)
    (hint : PyInt.int n = some (serverId : ℤ)) (hfit : (storeInt serverId).isSome = true) :
    verifyApiKey cr (some (n ++ "." ++ secret)) db =
      (Fleet.verifyApiKey cr ⟨serverId, secret⟩ db.rows).mapError raisedOf := by
  have hfind : (db.rows.find? fun r => (r.id : ℤ) = serverId) =
      db.rows.find? fun r => r.id = serverId := by
    simp only [Nat.cast_inj]
  rw [verifyApiKey_eq, authenticate_parsed hn hint, selectServer, if_pos hfit, hfind,
    Fleet.verifyApiKey]
  cases db.rows.find? fun r => r.id = serverId with
  | none => rfl
  | some server =>
    cases hactive : server.isActive with
    | false => simp [hactive, Except.bind, Except.mapError, raisedOf]
    | true =>
      cases hcheck : cr.checkpw secret server.apiKeyHash with
      | none => simp [hactive, hcheck, Except.bind, Except.mapError, raisedOf]
      | some b =>
        cases b with
        | false => simp [hactive, hcheck, Except.bind, Except.mapError, raisedOf]
        | true => simp [hactive, hcheck, Except.bind, Except.mapError]

theorem dot_not_digit (n : ℕ) : '.' ∉ (toString n).toList := by
  rw [Nat.toString_eq_repr, Nat.toList_repr]
  intro hin
  have hdigit := PyInt.toDigits_isDigit n '.' hin
  simp at hdigit

/- The key `register_server` shows, `f"{new_server.id}.{secret}"`, opens its server. -/
theorem issued_opens {server : Server} {secret : String} (hmem : server ∈ db.rows)
    (hactive : server.isActive = true) (hfit : (storeInt server.id).isSome = true)
    (hcheck : cr.checkpw secret server.apiKeyHash = some true) :
    Opens cr (some (toString server.id ++ "." ++ secret)) db server := by
  refine ⟨toString server.id, secret, rfl, dot_not_digit server.id, ?_, hmem, hactive, hcheck⟩
  refine PyInt.int_toString ?_
  have hten : (Nat.toDigits 10 server.id).length ≤ 10 := by
    rw [Nat.length_toDigits_le_iff (by decide) (by decide)]
    unfold storeInt at hfit
    split at hfit
    · omega
    · cases hfit
  omega

end
end PulseWatch.ApiKeys
