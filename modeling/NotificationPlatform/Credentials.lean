import NotificationPlatform.Lib.Program
import NotificationPlatform.Lib.Run
import NotificationPlatform.Hub
import NotificationPlatform.Roles

/-!
# Sessions and one-time tokens

`auth.Service` and the handlers of one-time tokens, as programs of single SQL statements, random
tokens and readings of the clock: `Login`, `Refresh`, `RevokeRefreshToken`, `ResetPassword`,
`VerifyEmail` and the token check of a websocket connection. None of them uses a transaction, so
the statements of concurrent requests interleave.
-/

namespace NotificationPlatform

open Lib

structure Account where
  email : String
  passwordHash : String
  isPlatformAdmin : Bool
  status : String
  failedLoginCount : Nat
  lockedUntil : Option Nat
  passwordChangedAt : Option Nat
  emailVerifiedAt : Option Nat
  deriving DecidableEq

structure TenantUser where
  tenantID : String
  userID : Nat
  status : String

inductive SessionStatus where
  | active
  | rotated
  | revoked
  deriving DecidableEq, Repr

structure Session where
  userID : Nat
  tenantID : Option String
  refreshTokenHash : String
  userAgent : String
  ipAddress : String
  status : SessionStatus
  expiresAt : Nat
  revokedAt : Option Nat
  revokedReason : Option String
  traceID : String
  deriving DecidableEq

/-- `websocket_connection_tokens`, `password_reset_tokens` and `email_verification_tokens`. -/
inductive TokenKind where
  | webSocket
  | passwordReset
  | emailVerification
  deriving DecidableEq, Repr

/-- Whom a token speaks for: a websocket client, or a user. -/
abbrev TokenKind.Owner : TokenKind → Type
  | .webSocket => WsClient
  | .passwordReset | .emailVerification => Nat

/-- A row of one of the three token tables; the status of a spent token is `used` in the first
table and `consumed` in the others. -/
structure OneTimeToken (α : Type) where
  owner : α
  tokenHash : String
  active : Bool
  expiresAt : Nat
  spentAt : Option Nat

deriving instance DecidableEq for Principal

/-- `auth.Principal` with the fields that no permission check reads. -/
structure Claims where
  principal : Principal
  email : String
  sessionID : String
  deriving DecidableEq

structure AccessToken where
  claims : Claims
  exp : Nat
  deriving DecidableEq

structure CredDb where
  auth : AuthDb
  accounts : Table Account
  tenantUsers : List TenantUser
  sessions : Table Session
  tokens : (k : TokenKind) → Table (OneTimeToken k.Owner)
  cacheVersions : List ((Nat × Option String) × Nat)
  now : Nat

/-- The service's configuration, SHA-256, the comparison of bcrypt, and the signing and parsing
of a JWT with the configured secret. -/
structure AuthConfig where
  hashSecret : String → String
  compareHash : String → String → Bool
  signJWT : AccessToken → String
  parseJWT : String → Option AccessToken
  accessTokenTTL : Nat
  refreshTokenTTL : Nat
  loginMaxFailures : Nat
  loginLockout : Nat

structure LoginRow where
  userID : Nat
  tenantID : String
  email : String
  passwordHash : String
  isPlatform : Bool
  lockedUntil : Option Nat

structure SessionRow where
  id : Nat
  sessionID : String
  userID : Nat
  tenantID : String
  email : String
  isPlatform : Bool
  deriving DecidableEq

/-- What `createSession` inserts; the database sets the rest. -/
structure NewSession where
  userID : Nat
  tenantID : Option String
  refreshTokenHash : String
  userAgent : String
  ipAddress : String
  traceID : String

/-- One statement, or one call that the environment decides. -/
inductive AuthStmt where
  | now
  | selectLogin (email : String)
  | recordFailedPassword (userID : Nat)
  | clearFailures (userID : Nat)
  | selectPermissions (userID : Nat) (tenantID : String)
  | randomToken (pre : String) (bytes : Nat)
  | insertSession (row : NewSession)
  | sign (claims : Claims)
  | selectSession (hash : String)
  | rotateSession (id : Nat)
  | revokeSessions (hash : String)
  | selectToken (kind : TokenKind) (hash : String)
  | spendToken (kind : TokenKind) (hash : String)
  | hashPassword (password : String)
  | setPassword (userID : Nat) (hash : String)
  | setEmailVerified (userID : Nat)

abbrev AuthStmt.Result : AuthStmt → Type
  | .now => Nat
  | .selectLogin _ => LoginRow
  | .selectPermissions _ _ => List String
  | .randomToken _ _ | .hashPassword _ => String
  | .sign _ => AccessToken
  | .selectSession _ => SessionRow
  | .selectToken kind _ => kind.Owner
  | .recordFailedPassword _ | .clearFailures _ | .insertSession _ | .rotateSession _
  | .revokeSessions _ | .spendToken _ _ | .setPassword _ _ | .setEmailVerified _ => Unit

def AuthStmt.canFail : AuthStmt → Bool
  | .now | .sign _ => false
  | _ => true

abbrev AuthReply (s : AuthStmt) : Type := Except String s.Result

abbrev AuthCode := Prog AuthStmt AuthReply
abbrev AuthGo := ExceptT String AuthCode

def ask (s : AuthStmt) : AuthCode (Except String s.Result) := Prog.perform s

def query (s : AuthStmt) : AuthGo s.Result := ExceptT.mk (ask s)

def tryQuery (s : AuthStmt) : AuthGo (Except String s.Result) := ExceptT.lift (ask s)

structure TokenPair where
  accessToken : String
  refreshToken : String
  claims : Claims

namespace Auth

variable (cfg : AuthConfig)

def createSession (c : Claims) (ipAddress userAgent : String) : AuthGo String := do
  let token ← query (.randomToken "rft" 32)
  let sessionID ← if c.sessionID = "" then query (.randomToken "sess" 24) else pure c.sessionID
  query (.insertSession ⟨c.principal.userID, nullIfEmpty c.principal.tenantID,
    cfg.hashSecret token, userAgent, ipAddress, sessionID⟩)
  return token

/-- The principal that `Login` and `Refresh` sign for. -/
def claimsOf (userID : Nat) (tenantID email : String) (isPlatform : Bool) (sessionID : String)
    (permissions : List String) : Claims :=
  ⟨⟨userID, tenantID, isPlatform, permissions⟩, email, sessionID⟩

/-- `Login`, without the rows of `login_attempts`. -/
def login (email password ipAddress userAgent : String) : AuthGo TokenPair := do
  match ← tryQuery (.selectLogin email) with
  | .error _ => throw "invalid credentials"
  | .ok row =>
    let now ← query .now
    if row.lockedUntil.any fun lockedUntil => now < lockedUntil then
      throw "account temporarily locked"
    else if !cfg.compareHash row.passwordHash password then
      let _ ← tryQuery (.recordFailedPassword row.userID)
      throw "invalid credentials"
    else
      let permissions ← query (.selectPermissions row.userID row.tenantID)
      let sessionID ← query (.randomToken "sess" 24)
      let c := claimsOf row.userID row.tenantID row.email row.isPlatform sessionID permissions
      let refreshToken ← createSession cfg c ipAddress userAgent
      let accessToken ← query (.sign c)
      let _ ← tryQuery (.clearFailures row.userID)
      return ⟨cfg.signJWT accessToken, refreshToken, c⟩

def refresh (refreshToken ipAddress userAgent : String) : AuthGo TokenPair := do
  match ← tryQuery (.selectSession (cfg.hashSecret refreshToken)) with
  | .error _ => throw "invalid refresh token"
  | .ok row =>
    let permissions ← query (.selectPermissions row.userID row.tenantID)
    let c := claimsOf row.userID row.tenantID row.email row.isPlatform row.sessionID permissions
    query (.rotateSession row.id)
    let accessToken ← query (.sign c)
    let nextRefresh ← createSession cfg c ipAddress userAgent
    return ⟨cfg.signJWT accessToken, nextRefresh, c⟩

def revokeRefreshToken (refreshToken : String) : AuthGo Unit :=
  query (.revokeSessions (cfg.hashSecret refreshToken))

def verifyJWT (token : String) (now : Nat) : Option Claims :=
  match cfg.parseJWT token with
  | some access => if now < access.exp then some access.claims else none
  | none => none

end Auth

inductive ConnectionKind where
  | wsToken
  | jwt
  deriving DecidableEq, Repr

namespace Auth

variable (cfg : AuthConfig)

/-- The end of `ResetPassword` and of `VerifyEmail`: consume the token, then write the user, with
the texts of the three answers. -/
def consumeThen (kind : TokenKind) (hash : String) (write : AuthStmt)
    (unconsumed unwritten done : String) : AuthCode Response := do
  match ← ask (.spendToken kind hash) with
  | .error _ => return .error 500 unconsumed
  | .ok _ =>
    match ← ask write with
    | .error _ => return .error 500 unwritten
    | .ok _ => return .message 200 done

def resetPassword (token newPassword : String) : AuthCode Response :=
  if token = "" ∨ newPassword = "" then
    return .error 400 "token and new_password are required"
  else if newPassword.utf8ByteSize < 8 then
    return .error 400 "password must be at least 8 characters"
  else do
    match ← ask (.selectToken .passwordReset (cfg.hashSecret token)) with
    | .error _ => return .error 400 "invalid or expired token"
    | .ok userID =>
      match ← ask (.hashPassword newPassword) with
      | .error _ => return .error 500 "password hashing failed"
      | .ok hash =>
        consumeThen .passwordReset (cfg.hashSecret token) (.setPassword userID hash)
          "token consumption failed" "password update failed" "password has been reset"

def verifyEmail (token : String) : AuthCode Response :=
  if token = "" then return .error 400 "token is required"
  else do
    match ← ask (.selectToken .emailVerification (cfg.hashSecret token)) with
    | .error _ => return .error 400 "invalid or expired token"
    | .ok userID =>
      consumeThen .emailVerification (cfg.hashSecret token) (.setEmailVerified userID)
        "token consumption failed" "verification failed" "email verified"

/-- `validateToken` of a websocket connection; the error of the update is ignored. -/
def validateToken (token : String) : AuthCode (Option (ConnectionKind × WsClient)) := do
  match ← ask (.selectToken .webSocket (cfg.hashSecret token)) with
  | .ok client =>
    let _ ← ask (.spendToken .webSocket (cfg.hashSecret token))
    return some (.wsToken, client)
  | .error _ =>
    match ← ask .now with
    | .error _ => return none
    | .ok now =>
      match verifyJWT cfg token now with
      | some c => return some (.jwt, ⟨c.principal.tenantID, toString c.principal.userID, "", ""⟩)
      | none => return none

end Auth

/-- What the environment decides about a statement: whether it fails and with which text, a fresh
random value or hash, and the identifier of a new row. -/
structure AuthOutcome where
  fail : Bool := false
  detail : String := ""
  random : String := ""
  newID : Nat := 0

namespace CredDb

variable (cfg : AuthConfig)

/-- The query of `Login`: the active user with this email, in the tenant joined first. -/
def selectLogin (db : CredDb) (email : String) : Option LoginRow :=
  match db.accounts.rows.find? fun u => u.2.email == email && u.2.status == "active" with
  | none => none
  | some (userID, u) =>
      let tenant := db.tenantUsers.find? fun tu => tu.userID == userID && tu.status == "active"
      some ⟨userID, (tenant.map TenantUser.tenantID).getD "", u.email, u.passwordHash,
        u.isPlatformAdmin, u.lockedUntil⟩

/-- The session a refresh token stands for: active, not expired, of an active user. -/
def liveSession (db : CredDb) (hash : String) (s : Nat × Session) : Bool :=
  s.2.refreshTokenHash == hash && s.2.status == .active && db.now < s.2.expiresAt &&
    ((db.accounts.get? s.2.userID).any fun u => u.status == "active")

def selectSession (db : CredDb) (hash : String) : Option SessionRow :=
  match db.sessions.rows.find? (db.liveSession hash) with
  | none => none
  | some (id, s) =>
      (db.accounts.get? s.userID).map fun u =>
        ⟨id, s.traceID, s.userID, s.tenantID.getD "", u.email, u.isPlatformAdmin⟩

/-- `INSERT INTO auth_sessions`, with its foreign keys, primary key and unique hash. -/
def insertSession (db : CredDb) (id : Nat) (row : NewSession) : Option CredDb :=
  if (db.accounts.get? row.userID).isSome && db.auth.tenantExists row.tenantID &&
      (db.sessions.get? id).isNone &&
      !db.sessions.rows.any fun s => s.2.refreshTokenHash == row.refreshTokenHash
  then some { db with
    sessions := db.sessions.insert id
      { userID := row.userID
        tenantID := row.tenantID
        refreshTokenHash := row.refreshTokenHash
        userAgent := row.userAgent
        ipAddress := row.ipAddress
        status := .active
        expiresAt := db.now + cfg.refreshTokenTTL
        revokedAt := none
        revokedReason := none
        traceID := row.traceID } }
  else none

/-- `UPDATE auth_sessions SET status = 'rotated'` -/
def rotateSession (db : CredDb) (id : Nat) : CredDb :=
  { db with
    sessions := db.sessions.update (fun s => s.1 == id) fun s =>
      { s with
        status := .rotated
        revokedAt := some db.now
        revokedReason := some "refresh_rotation" } }

/-- `UPDATE auth_sessions SET status = 'revoked'` -/
def revokeSessions (db : CredDb) (hash : String) : CredDb :=
  { db with
    sessions := db.sessions.update (fun s => s.2.refreshTokenHash == hash) fun s =>
      { s with
        status := .revoked
        revokedAt := some db.now
        revokedReason := some "logout" } }

/-- The three queries for a token: its hash, active and not expired. -/
def selectToken (db : CredDb) (kind : TokenKind) (hash : String) : Option kind.Owner :=
  ((db.tokens kind).rows.find? fun row =>
    row.2.tokenHash == hash && row.2.active && db.now < row.2.expiresAt).map fun row => row.2.owner

def spendToken (db : CredDb) (kind : TokenKind) (hash : String) : CredDb :=
  { db with
    tokens := Function.update db.tokens kind
      ((db.tokens kind).update (fun row => row.2.tokenHash == hash) fun row =>
        { row with active := false, spentAt := some db.now }) }

def withAccount (db : CredDb) (userID : Nat) (f : Account → Account) : CredDb :=
  { db with accounts := db.accounts.modify userID f }

def failPassword (db : CredDb) (userID : Nat) : CredDb :=
  db.withAccount userID fun u =>
    { u with
      failedLoginCount := u.failedLoginCount + 1
      lockedUntil := if cfg.loginMaxFailures ≤ u.failedLoginCount + 1 then
        some (db.now + cfg.loginLockout) else u.lockedUntil }

def row {α : Type} : Option α → Except String α
  | some a => .ok a
  | none => .error "no rows in result set"

def answer (o : AuthOutcome) (db : CredDb) : (s : AuthStmt) → AuthReply s × CredDb
  | .now => (.ok db.now, db)
  | .selectLogin email => (row (db.selectLogin email), db)
  | .recordFailedPassword userID => (.ok (), db.failPassword cfg userID)
  | .clearFailures userID =>
      (.ok (), db.withAccount userID fun u =>
        { u with failedLoginCount := 0, lockedUntil := none })
  | .selectPermissions userID tenantID => (.ok (db.auth.effectivePermissions userID tenantID), db)
  | .randomToken _ _ => (.ok o.random, db)
  | .insertSession new =>
      match db.insertSession cfg o.newID new with
      | some db' => (.ok (), db')
      | none => (.error o.detail, db)
  | .sign c => (.ok ⟨c, db.now + cfg.accessTokenTTL⟩, db)
  | .selectSession hash => (row (db.selectSession hash), db)
  | .rotateSession id => (.ok (), db.rotateSession id)
  | .revokeSessions hash => (.ok (), db.revokeSessions hash)
  | .selectToken kind hash => (row (db.selectToken kind hash), db)
  | .spendToken kind hash => (.ok (), db.spendToken kind hash)
  | .hashPassword _ => (.ok o.random, db)
  | .setPassword userID hash =>
      (.ok (), db.withAccount userID fun u =>
        { u with passwordHash := hash, passwordChangedAt := some db.now })
  | .setEmailVerified userID =>
      (.ok (), db.withAccount userID fun u => { u with emailVerifiedAt := some db.now })

/-- Execute a statement; one that fails changes nothing. -/
def exec (o : AuthOutcome) (db : CredDb) (s : AuthStmt) : AuthReply s × CredDb :=
  if o.fail && s.canFail then (.error o.detail, db) else db.answer cfg o s

def invalidatePermissionCache (db : CredDb) (userID : Nat) (tenantID : String) : CredDb :=
  let key := (userID, nullIfEmpty tenantID)
  { db with
    cacheVersions :=
      if db.cacheVersions.any fun v => v.1 == key then
        db.cacheVersions.map fun v => if v.1 = key then (v.1, v.2 + 1) else v
      else db.cacheVersions ++ [(key, 2)] }

/-- A request to the handlers of roles; `AssignUserRole` and `RemoveUserRole` end with the new
version of the user's permissions. -/
def serveRoles (db : CredDb) (p : Principal) (env : RoleEnv) (req : RoleRequest) : CredDb :=
  let r := Roles.serve p env db.auth req
  let db' := { db with auth := r.2 }
  match req with
  | .assignUserRole userID tenantID _ =>
      if r.1.status = 201 then
        db'.invalidatePermissionCache userID (if p.isPlatform then tenantID else p.tenantID)
      else db'
  | .removeUserRole userID _ =>
      if r.1.status = 200 then db'.invalidatePermissionCache userID p.tenantID else db'
  | _ => db'

theorem exec_ok {cfg : AuthConfig} {o : AuthOutcome} {db : CredDb} {s : AuthStmt} {a : s.Result}
    (h : (db.exec cfg o s).1 = .ok a) :
    db.exec cfg o s = db.answer cfg o s := by
  unfold exec at h ⊢
  split
  · next hfail =>
      rw [if_pos hfail] at h
      simp at h
  · rfl

theorem serveRoles_frame (db : CredDb) (p : Principal) (env : RoleEnv) (req : RoleRequest) :
    (db.serveRoles p env req).now = db.now ∧ (db.serveRoles p env req).sessions = db.sessions ∧
      (db.serveRoles p env req).tokens = db.tokens := by
  unfold serveRoles
  dsimp only
  split
  · split <;> exact ⟨rfl, rfl, rfl⟩
  · split <;> exact ⟨rfl, rfl, rfl⟩
  · exact ⟨rfl, rfl, rfl⟩

theorem liveSession_eq_true {db : CredDb} {hash : String} {s : Nat × Session} :
    db.liveSession hash s = true ↔ s.2.refreshTokenHash = hash ∧ s.2.status = .active ∧
      db.now < s.2.expiresAt ∧ ∃ u, db.accounts.get? s.2.userID = some u ∧ u.status = "active" := by
  simp [liveSession, Option.any_eq_true, and_assoc]

theorem selectSession_eq_some {db : CredDb} {hash : String} {found : SessionRow}
    (h : db.selectSession hash = some found) :
    ∃ s, db.sessions.get? found.id = some s ∧ db.liveSession hash (found.id, s) = true := by
  unfold selectSession at h
  split at h
  · simp at h
  · next id s hs =>
      obtain ⟨u, -, rfl⟩ := Option.map_eq_some_iff.mp h
      exact ⟨s, Table.get?_eq_some.mpr (List.mem_of_find?_eq_some hs), List.find?_some hs⟩

theorem selectSession_eq_none {db : CredDb} {hash : String}
    (h : ∀ s ∈ db.sessions.rows, db.liveSession hash s = false) :
    db.selectSession hash = none := by
  have hnone : db.sessions.rows.find? (db.liveSession hash) = none := by
    rw [List.find?_eq_none]
    intro s hs
    simp [h s hs]
  simp only [selectSession, hnone]

theorem selectToken_eq_some {db : CredDb} {kind : TokenKind} {hash : String} {owner : kind.Owner}
    (h : db.selectToken kind hash = some owner) :
    ∃ id token, (db.tokens kind).get? id = some token ∧ token.tokenHash = hash ∧
      token.active = true ∧ db.now < token.expiresAt ∧ token.owner = owner := by
  obtain ⟨⟨id, token⟩, hfind, hown⟩ := Option.map_eq_some_iff.mp h
  have hmatch := List.find?_some hfind
  simp only [Bool.and_eq_true, beq_iff_eq, decide_eq_true_eq] at hmatch
  exact ⟨id, token, Table.get?_eq_some.mpr (List.mem_of_find?_eq_some hfind), hmatch.1.1,
    hmatch.1.2, hmatch.2, hown⟩

theorem get?_rotateSession (db : CredDb) (id k : Nat) :
    (db.rotateSession id).sessions.get? k = (db.sessions.get? k).map fun s =>
      if k = id then { s with
        status := .rotated
        revokedAt := some db.now
        revokedReason := some "refresh_rotation" } else s := by
  simp [rotateSession, Table.get?_update]

theorem get?_spendToken (db : CredDb) (kind : TokenKind) (hash : String) (k : Nat) :
    ((db.spendToken kind hash).tokens kind).get? k = ((db.tokens kind).get? k).map fun row =>
      if row.tokenHash = hash then { row with active := false, spentAt := some db.now } else row := by
  simp [spendToken, Table.get?_update]

theorem spendToken_of_ne {db : CredDb} {kind kind' : TokenKind} (hash : String)
    (h : kind' ≠ kind) : (db.spendToken kind hash).tokens kind' = db.tokens kind' := by
  simp [spendToken, Function.update_of_ne h]

end CredDb

inductive AuthRequest where
  | login (email password ipAddress userAgent : String)
  | refresh (token ipAddress userAgent : String)
  | revoke (token : String)
  | resetPassword (token newPassword : String)
  | verifyEmail (token : String)
  | connect (token : String)

inductive AuthAnswer where
  | tokens (r : Except String TokenPair)
  | revoked (r : Except String Unit)
  | response (r : Response)
  | connection (r : Option (ConnectionKind × WsClient))

def AuthRequest.prog (cfg : AuthConfig) : AuthRequest → AuthCode AuthAnswer
  | .login email password ip agent =>
      (Auth.login cfg email password ip agent).run >>= fun r => .ret (.tokens r)
  | .refresh token ip agent => (Auth.refresh cfg token ip agent).run >>= fun r => .ret (.tokens r)
  | .revoke token => (Auth.revokeRefreshToken cfg token).run >>= fun r => .ret (.revoked r)
  | .resetPassword token password =>
      Auth.resetPassword cfg token password >>= fun r => .ret (.response r)
  | .verifyEmail token => Auth.verifyEmail cfg token >>= fun r => .ret (.response r)
  | .connect token => Auth.validateToken cfg token >>= fun r => .ret (.connection r)

structure AuthThread where
  req : AuthRequest
  prog : AuthCode AuthAnswer

/-- The database, the requests in progress and the access tokens signed so far. -/
structure AuthWorld where
  db : CredDb
  threads : List AuthThread
  issued : List AccessToken

inductive AuthEvent where
  | start (req : AuthRequest)
  | call (i : Nat) (o : AuthOutcome)
  | clock (seconds : Nat)
  | roles (p : Principal) (env : RoleEnv) (req : RoleRequest)

def signed : (s : AuthStmt) → AuthReply s → List AccessToken
  | .sign _, .ok access => [access]
  | _, _ => []

namespace AuthWorld

def step (cfg : AuthConfig) (w : AuthWorld) : AuthEvent → Option AuthWorld
  | .start req => some { w with threads := w.threads ++ [⟨req, req.prog cfg⟩] }
  | .call i o =>
      match w.threads[i]? with
      | some ⟨req, .call s k⟩ =>
          let r := w.db.exec cfg o s
          some ⟨r.2, w.threads.set i ⟨req, k r.1⟩, w.issued ++ signed s r.1⟩
      | _ => none
  | .clock seconds => some { w with db := { w.db with now := w.db.now + seconds } }
  | .roles p env req => some { w with db := w.db.serveRoles p env req }

/-- A run whose events all meet a condition on the state they are taken in. -/
abbrev RunOf (cfg : AuthConfig) (ok : AuthWorld → AuthEvent → Prop) :
    AuthWorld → List AuthEvent → AuthWorld → Prop :=
  Run (step cfg) ok

def fresh (db : CredDb) : AuthWorld := ⟨db, [], []⟩

/-- What an event can do: a request comes in, a thread executes its next statement, time passes,
or the roles change. -/
theorem step_cases {cfg : AuthConfig} {w w' : AuthWorld} {e : AuthEvent}
    (h : w.step cfg e = some w') :
    (∃ req, e = .start req ∧ w' = { w with threads := w.threads ++ [⟨req, req.prog cfg⟩] }) ∨
      (∃ i o req s k, e = .call i o ∧ w.threads[i]? = some ⟨req, .call s k⟩ ∧
        w' = ⟨(w.db.exec cfg o s).2, w.threads.set i ⟨req, k (w.db.exec cfg o s).1⟩,
          w.issued ++ signed s (w.db.exec cfg o s).1⟩) ∨
      (∃ seconds, e = .clock seconds ∧
        w' = { w with db := { w.db with now := w.db.now + seconds } }) ∨
      ∃ p env req, e = .roles p env req ∧ w' = { w with db := w.db.serveRoles p env req } := by
  cases e with
  | start req =>
      obtain rfl := Option.some.inj h
      exact .inl ⟨req, rfl, rfl⟩
  | call i o =>
      simp only [step] at h
      split at h
      · next req s k hthread =>
          obtain rfl := Option.some.inj h
          exact .inr (.inl ⟨i, o, req, s, k, rfl, hthread, rfl⟩)
      · simp at h
  | clock seconds =>
      obtain rfl := Option.some.inj h
      exact .inr (.inr (.inl ⟨seconds, rfl, rfl⟩))
  | roles p env req =>
      obtain rfl := Option.some.inj h
      exact .inr (.inr (.inr ⟨p, env, req, rfl, rfl⟩))

def calls (i n : Nat) : List AuthEvent := List.replicate n (.call i {})

theorem exists_guarded_run {cfg : AuthConfig} {db : CredDb} {es : List AuthEvent}
    {guard : AuthWorld → AuthEvent → Bool} {p : AuthWorld → Bool}
    (h : (execute (step cfg) guard (.fresh db) es).any p = true) :
    ∃ w, (fresh db).RunOf cfg (fun w e => guard w e = true) es w ∧ p w = true :=
  Run.exists_of_execute (fun _ _ hguard => hguard) h

theorem exists_run {cfg : AuthConfig} {db : CredDb} {es : List AuthEvent} {p : AuthWorld → Bool}
    (h : (execute (step cfg) (fun _ _ => true) (.fresh db) es).any p = true) :
    ∃ w, (fresh db).RunOf cfg (fun _ _ => True) es w ∧ p w = true :=
  Run.exists_of_execute (fun _ _ _ => trivial) h

end AuthWorld

def sampleCredDb : CredDb where
  auth := sampleAuthDb "templates.view" "users.create"
  accounts := Table.empty.insert 7
    ⟨"ann@example.org", "bcrypt:secret", false, "active", 0, none, none, none⟩
  tenantUsers := [⟨"t1", 7, "active"⟩]
  sessions := Table.empty
  tokens := fun _ => Table.empty
  cacheVersions := []
  now := 1000

def sampleAccess : AccessToken :=
  ⟨⟨⟨7, "t1", false, ["templates.view"]⟩, "ann@example.org", "sess_1"⟩, 1900⟩

def sampleAuthConfig : AuthConfig where
  hashSecret := fun text => "sha256:" ++ text
  compareHash := fun hash password => hash == "bcrypt:" ++ password
  signJWT := fun access => "jwt." ++ access.claims.sessionID
  parseJWT := fun text => if text = "jwt.sess_1" then some sampleAccess else none
  accessTokenTTL := 900
  refreshTokenTTL := 604800
  loginMaxFailures := 5
  loginLockout := 900

def sampleTokenDb : CredDb :=
  { sampleCredDb with
    sessions := Table.empty.insert 0
      ⟨7, some "t1", "sha256:rft_0", "browser", "10.0.0.1", .active, 5000, none, none, "sess_0"⟩
    tokens := fun
      | .webSocket => Table.empty.insert 0 ⟨⟨"t1", "7", "", "x"⟩, "sha256:wst_0", true, 5000, none⟩
      | .passwordReset => Table.empty.insert 0 ⟨7, "sha256:prt_0", true, 5000, none⟩
      | .emailVerification => Table.empty.insert 0 ⟨7, "sha256:evt_0", true, 5000, none⟩ }

end NotificationPlatform
