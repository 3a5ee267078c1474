import NotificationPlatform.OneTimeTokens
import NotificationPlatform.TokenProvenance

/-!
# Where one-time tokens come from

`ForgotPassword`, `RequestEmailVerification` and `WebSocketToken` store the hash of a new token, and
a request that presents a token acts for the owner that its row names. So a password is set, an
email verified and a connection authorised only for somebody for whom a token was asked for, with
that token, and within its lifetime.
-/

namespace NotificationPlatform

open Lib

/-- The configuration with the lifetime of websocket tokens. -/
structure TokenConfig extends AuthConfig where
  webSocketTokenTTL : Nat

inductive TokenRequest where
  | forgotPassword (email : String)
  | requestEmailVerification (p : Principal)
  | webSocketToken (p : Principal) (tenantID externalUserID : String)

/-- When a token expires: so many seconds after its insertion, or at a time computed before. -/
inductive Expiry where
  | inSeconds (seconds : Nat)
  | fixed (time : Nat)

/-- One statement of such a request, or one call that the environment decides. -/
inductive IssueStmt where
  | selectActiveUser (email : String)
  | selectEmail (userID : Nat)
  | selectVerifiedAt (userID : Nat)
  | randomToken (pre : String) (bytes : Nat)
  | now
  | insertToken (kind : TokenKind) (owner : kind.Owner) (hash : String) (expiry : Expiry)
  | logInfo (message : String) (fields : List (String × String))

abbrev IssueStmt.Result : IssueStmt → Type
  | .selectActiveUser _ | .now => Nat
  | .selectEmail _ | .randomToken _ _ => String
  | .selectVerifiedAt _ => Option Nat
  | .insertToken _ _ _ _ | .logInfo _ _ => Unit

def IssueStmt.canFail : IssueStmt → Bool
  | .now | .logInfo _ _ => false
  | _ => true

abbrev IssueReply (s : IssueStmt) : Type := Except String s.Result

abbrev IssueCode := Prog IssueStmt IssueReply

namespace Issue

def ask (s : IssueStmt) : IssueCode (IssueReply s) := Prog.perform s

variable (cfg : TokenConfig)

/-- The end of `ForgotPassword` and of `RequestEmailVerification`: store a new token and log it. -/
def storeThen (pre : String) (kind : TokenKind) (owner : kind.Owner) (seconds : Nat)
    (event : String) (fields : String → List (String × String)) (done : String) :
    IssueCode Response := do
  match ← ask (.randomToken pre 32) with
  | .error _ => return .error 500 "token generation failed"
  | .ok token =>
    match ← ask (.insertToken kind owner (cfg.hashSecret token) (.inSeconds seconds)) with
    | .error _ => return .error 500 "token creation failed"
    | .ok _ =>
      let _ ← ask (.logInfo event (fields token))
      return .message 200 done

/-- `ForgotPassword`, without the rows of the audit. The token itself goes to the log. -/
def forgotPassword (email : String) : IssueCode Response := do
  if email = "" then return .error 400 "email is required"
  else
    match ← ask (.selectActiveUser email) with
    | .error _ => return .message 200 "if the email exists, a reset link has been sent"
    | .ok userID =>
      storeThen cfg "prt" .passwordReset userID 3600 "password reset token created"
        (fun token => [("user_id", toString userID), ("token", token)])
        "if the email exists, a reset link has been sent"

/-- `RequestEmailVerification`. The error of the second query leaves the time null, and nobody is
told the token. -/
def requestEmailVerification (p : Principal) : IssueCode Response := do
  match ← ask (.selectEmail p.userID) with
  | .error _ => return .error 500 "user not found"
  | .ok email =>
    let verifiedAt := match ← ask (.selectVerifiedAt p.userID) with
      | .ok verifiedAt => verifiedAt
      | .error _ => none
    if verifiedAt.isSome then return .message 200 "email already verified"
    else
      storeThen cfg "evt" .emailVerification p.userID 86400 "email verification token created"
        (fun _ => [("user_id", toString p.userID), ("email", email)]) "verification email sent"

def createWebSocketToken (p : Principal) (externalUserID : String) :
    ExceptT String IssueCode String := do
  let token ← ExceptT.mk (ask (.randomToken "wst" 32))
  let _ ← ExceptT.mk (ask (.randomToken "" 16))
  let now ← ExceptT.mk (ask .now)
  ExceptT.mk (ask (.insertToken .webSocket
    ⟨p.tenantID, toString p.userID, "", externalUserID⟩ (cfg.hashSecret token)
    (.fixed (now + cfg.webSocketTokenTTL))))
  return token

def actingFor (p : Principal) (tenantID : String) : Principal :=
  if p.isPlatform then { p with tenantID := tenantID } else p

def webSocketToken (p : Principal) (tenantID externalUserID : String) : IssueCode Response := do
  if !p.isPlatform && tenantID != "" && tenantID != p.tenantID then
    return .error 403 "cross-tenant websocket token denied"
  else
    if (actingFor p tenantID).tenantID = "" then return .error 400 "tenant_id required"
    else
      match ← (createWebSocketToken cfg (actingFor p tenantID) externalUserID).run with
      | .error _ => return .error 500 "token creation failed"
      | .ok token =>
        return ⟨201, .obj [("connection_token", .str token), ("expires_in", .num 60)]⟩

end Issue

def TokenRequest.prog (cfg : TokenConfig) : TokenRequest → IssueCode Response
  | .forgotPassword email => Issue.forgotPassword cfg email
  | .requestEmailVerification p => Issue.requestEmailVerification cfg p
  | .webSocketToken p tenantID externalUserID =>
      Issue.webSocketToken cfg p tenantID externalUserID

namespace CredDb

def references (db : CredDb) : (kind : TokenKind) → kind.Owner → Bool
  | .webSocket, client => db.auth.tenantExists (some client.tenantID) &&
      db.accounts.rows.any fun u => toString u.1 == client.userID
  | .passwordReset, userID | .emailVerification, userID => (db.accounts.get? userID).isSome

/-- The insertion into the table of a kind, with its foreign keys, primary key and unique hash. -/
def insertToken (db : CredDb) (id : Nat) (kind : TokenKind) (owner : kind.Owner) (hash : String)
    (expiresAt : Nat) : Option CredDb :=
  if db.references kind owner && ((db.tokens kind).get? id).isNone &&
      !(db.tokens kind).rows.any fun row => row.2.tokenHash == hash
  then some { db with
    tokens := Function.update db.tokens kind
      ((db.tokens kind).insert id ⟨owner, hash, true, expiresAt, none⟩) }
  else none

def expiresAt (db : CredDb) : Expiry → Nat
  | .inSeconds seconds => db.now + seconds
  | .fixed time => time

def answerIssue (o : AuthOutcome) (db : CredDb) : (s : IssueStmt) → IssueReply s × CredDb
  | .selectActiveUser email =>
      (row ((db.accounts.rows.find? fun u =>
        u.2.email == email && u.2.status == "active").map Prod.fst), db)
  | .selectEmail userID => (row ((db.accounts.get? userID).map Account.email), db)
  | .selectVerifiedAt userID => (row ((db.accounts.get? userID).map Account.emailVerifiedAt), db)
  | .randomToken _ _ => (.ok o.random, db)
  | .now => (.ok db.now, db)
  | .insertToken kind owner hash expiry =>
      match db.insertToken o.newID kind owner hash (db.expiresAt expiry) with
      | some db' => (.ok (), db')
      | none => (.error o.detail, db)
  | .logInfo _ _ => (.ok (), db)

def execIssue (o : AuthOutcome) (db : CredDb) (s : IssueStmt) : IssueReply s × CredDb :=
  if o.fail && s.canFail then (.error o.detail, db) else db.answerIssue o s

end CredDb

structure IssueThread where
  req : TokenRequest
  prog : IssueCode Response

/-- The requests of `AuthWorld`, and those for tokens that are in progress beside them. -/
structure TokenWorld where
  auth : AuthWorld
  asking : List IssueThread

inductive TokenEvent where
  | auth (e : AuthEvent)
  | ask (req : TokenRequest)
  | issue (i : Nat) (o : AuthOutcome)

namespace TokenWorld

def step (cfg : TokenConfig) (w : TokenWorld) : TokenEvent → Option TokenWorld
  | .auth e => (w.auth.step cfg.toAuthConfig e).map fun auth => { w with auth := auth }
  | .ask req => some { w with asking := w.asking ++ [⟨req, req.prog cfg⟩] }
  | .issue i o =>
      match w.asking[i]? with
      | some ⟨req, .call s k⟩ =>
          let r := w.auth.db.execIssue o s
          some ⟨{ w.auth with db := r.2 }, w.asking.set i ⟨req, k r.1⟩⟩
      | _ => none

abbrev RunOf (cfg : TokenConfig) (ok : TokenWorld → TokenEvent → Prop) :
    TokenWorld → List TokenEvent → TokenWorld → Prop :=
  Run (step cfg) ok

def fresh (db : CredDb) : TokenWorld := ⟨.fresh db, []⟩

theorem step_cases {cfg : TokenConfig} {w w' : TokenWorld} {e : TokenEvent}
    (h : w.step cfg e = some w') :
    (∃ e' auth, e = .auth e' ∧ w.auth.step cfg.toAuthConfig e' = some auth ∧
        w' = { w with auth := auth }) ∨
      (∃ req, e = .ask req ∧ w' = { w with asking := w.asking ++ [⟨req, req.prog cfg⟩] }) ∨
      ∃ i o req s k, e = .issue i o ∧ w.asking[i]? = some ⟨req, .call s k⟩ ∧
        w' = ⟨{ w.auth with db := (w.auth.db.execIssue o s).2 },
          w.asking.set i ⟨req, k (w.auth.db.execIssue o s).1⟩⟩ := by
  cases e with
  | auth e' =>
      obtain ⟨auth, hauth, rfl⟩ := Option.map_eq_some_iff.mp h
      exact .inl ⟨e', auth, rfl, hauth, rfl⟩
  | ask req =>
      obtain rfl := Option.some.inj h
      exact .inr (.inl ⟨req, rfl, rfl⟩)
  | issue i o =>
      simp only [step] at h
      split at h
      · next req s k hthread =>
          obtain rfl := Option.some.inj h
          exact .inr (.inr ⟨i, o, req, s, k, rfl, hthread, rfl⟩)
      · simp at h

end TokenWorld

def TokenConfig.lifetime (cfg : TokenConfig) : TokenKind → Nat
  | .webSocket => cfg.webSocketTokenTTL
  | .passwordReset => 3600
  | .emailVerification => 86400

/-- The request asks for a token of this kind for this owner: for the active account with an email,
as some database with `P` has it, or for the user who makes the request. -/
def TokenRequest.AsksFor (P : CredDb → Prop) : TokenRequest → (kind : TokenKind) → kind.Owner → Prop
  | .forgotPassword email, .passwordReset, userID =>
      ∃ db u, P db ∧ db.accounts.get? userID = some u ∧ u.email = email ∧ u.status = "active"
  | .requestEmailVerification p, .emailVerification, userID => userID = p.userID
  | .webSocketToken p tenantID externalUserID, .webSocket, client =>
      client = ⟨(Issue.actingFor p tenantID).tenantID, toString p.userID, "", externalUserID⟩
  | _, _, _ => False

def AuthRequest.PresentsFor (cfg : AuthConfig) (P : CredDb → Prop) (req : AuthRequest)
    (kind : TokenKind) (owner : kind.Owner) : Prop :=
  ∃ hash db, req.presents cfg kind hash = true ∧ P db ∧ db.selectToken kind hash = some owner

/-- The thread does what a token of this kind is for: it is about to set the password or to mark
the email of the owner, or has authorised the connection of the owner. -/
def AuthThread.ActsFor (th : AuthThread) : (kind : TokenKind) → kind.Owner → Prop
  | .passwordReset, userID => ∃ hash k, th.prog = .call (.setPassword userID hash) k
  | .emailVerification, userID => ∃ k, th.prog = .call (.setEmailVerified userID) k
  | .webSocket, client => th.prog = .ret (.connection (some (.wsToken, client)))

/-- The replies of databases with `P` to the statements of a request for a token. -/
def IssuedBy (P : CredDb → Prop) (s : IssueStmt) (r : IssueReply s) : Prop :=
  ∃ db o, P db ∧ r = (db.execIssue o s).1

/-- Only tokens that the request asked for are inserted, by their hashes, after a reply that was the
token. -/
def insertsAsked (cfg : TokenConfig) (P : CredDb → Prop) (A : (s : IssueStmt) → IssueReply s → Prop)
    (req : TokenRequest) (s : IssueStmt) : Prop :=
  ∀ kind owner hash expiry, s = .insertToken kind owner hash expiry →
    req.AsksFor P kind owner ∧
      (∃ token pre bytes, A (.randomToken pre bytes) (.ok token) ∧ hash = cfg.hashSecret token) ∧
      (expiry = .inSeconds (cfg.lifetime kind) ∨
        ∃ db, P db ∧ expiry = .fixed (db.now + cfg.lifetime kind))

/-- The password and the email are written only for the owner of the token presented. -/
def writesPresented (cfg : AuthConfig) (P : CredDb → Prop) (req : AuthRequest) (s : AuthStmt) :
    Prop :=
  (∀ userID hash, s = .setPassword userID hash → req.PresentsFor cfg P .passwordReset userID) ∧
    ∀ userID, s = .setEmailVerified userID → req.PresentsFor cfg P .emailVerification userID

def connectsPresented (cfg : AuthConfig) (P : CredDb → Prop) (req : AuthRequest)
    (a : AuthAnswer) : Prop :=
  ∀ client, a = .connection (some (.wsToken, client)) → req.PresentsFor cfg P .webSocket client

section

variable {cfg : TokenConfig} {P : CredDb → Prop}

section

variable {A : (s : IssueStmt) → IssueReply s → Prop}

private theorem issuedBy_ok {s : IssueStmt} {a : s.Result} (h : IssuedBy P s (.ok a)) :
    ∃ db o, P db ∧ (db.answerIssue o s).1 = .ok a := by
  obtain ⟨db, o, hP, hr⟩ := h
  unfold CredDb.execIssue at hr
  split at hr
  · simp at hr
  · exact ⟨db, o, hP, hr.symm⟩

private theorem selectActiveUser_ok {email : String} {userID : Nat}
    (h : IssuedBy P (.selectActiveUser email) (.ok userID)) :
    (TokenRequest.forgotPassword email).AsksFor P .passwordReset userID := by
  obtain ⟨db, o, hP, hr⟩ := issuedBy_ok h
  obtain ⟨⟨_, u⟩, hfind, rfl⟩ := Option.map_eq_some_iff.mp (CredDb.row_eq_ok hr)
  have hmatch := List.find?_some hfind
  simp only [Bool.and_eq_true, beq_iff_eq] at hmatch
  exact ⟨db, u, hP, Table.get?_eq_some.mpr (List.mem_of_find?_eq_some hfind), hmatch⟩

private theorem insertsAsked_other {req : TokenRequest} {s : IssueStmt}
    (h : ∀ kind owner hash expiry, s ≠ .insertToken kind owner hash expiry) :
    insertsAsked cfg P A req s :=
  fun kind owner hash expiry hs => absurd hs (h kind owner hash expiry)

private theorem storeThen_makes {req : TokenRequest} {kind : TokenKind} {owner : kind.Owner}
    (hasks : req.AsksFor P kind owner) (pre event done : String)
    (fields : String → List (String × String)) :
    (Issue.storeThen cfg pre kind owner (cfg.lifetime kind) event fields done).Makes A
      (insertsAsked cfg P A req) := by
  unfold Issue.storeThen
  refine ⟨insertsAsked_other nofun, fun r hr => ?_⟩
  cases r with
  | error e => trivial
  | ok token =>
      refine ⟨?_, fun r _ => ?_⟩
      · intro kind' owner' hash expiry hs
        cases hs
        exact ⟨hasks, ⟨token, pre, 32, hr, rfl⟩, .inl rfl⟩
      · cases r with
        | error e => trivial
        | ok _ => exact ⟨insertsAsked_other nofun, fun _ _ => trivial⟩

variable (hA : ∀ s r, A s r → IssuedBy P s r)

include hA

private theorem forgotPassword_makes (email : String) :
    (Issue.forgotPassword cfg email).Makes A
      (insertsAsked cfg P A (.forgotPassword email)) := by
  unfold Issue.forgotPassword
  split
  · trivial
  · refine ⟨insertsAsked_other nofun, fun r hr => ?_⟩
    cases r with
    | error e => trivial
    | ok userID => exact storeThen_makes (selectActiveUser_ok (hA _ _ hr)) _ _ _ _

omit hA in
private theorem requestEmailVerification_makes (p : Principal) :
    (Issue.requestEmailVerification cfg p).Makes A
      (insertsAsked cfg P A (.requestEmailVerification p)) := by
  unfold Issue.requestEmailVerification
  refine ⟨insertsAsked_other nofun, fun r _ => ?_⟩
  cases r with
  | error e => trivial
  | ok email =>
      refine ⟨insertsAsked_other nofun, fun r _ => ?_⟩
      have hasks : (TokenRequest.requestEmailVerification p).AsksFor P .emailVerification
          p.userID := rfl
      cases r with
      | error e => exact storeThen_makes hasks _ _ _ _
      | ok verifiedAt =>
          cases verifiedAt with
          | some time => trivial
          | none => exact storeThen_makes hasks _ _ _ _

private theorem createWebSocketToken_makes (p : Principal) (tenantID externalUserID : String) :
    (Issue.createWebSocketToken cfg (Issue.actingFor p tenantID) externalUserID).run.Makes
      A (insertsAsked cfg P A (.webSocketToken p tenantID externalUserID)) := by
  unfold Issue.createWebSocketToken
  refine ⟨insertsAsked_other nofun, fun r hdrawn => ?_⟩
  cases r with
  | error e => trivial
  | ok token =>
      refine ⟨insertsAsked_other nofun, fun r _ => ?_⟩
      cases r with
      | error e => trivial
      | ok nonce =>
          refine ⟨insertsAsked_other nofun, fun r hr => ?_⟩
          cases r with
          | error e => trivial
          | ok now =>
              refine ⟨?_, fun r _ => by cases r <;> trivial⟩
              intro kind owner hash expiry hs
              cases hs
              obtain ⟨db, o, hP, hnow⟩ := issuedBy_ok (hA _ _ hr)
              have hnow' : db.now = now := Except.ok.inj hnow
              refine ⟨?_, ⟨token, "wst", 32, hdrawn, rfl⟩, .inr ⟨db, hP, by rw [hnow']; rfl⟩⟩
              have huser : (Issue.actingFor p tenantID).userID = p.userID := by
                unfold Issue.actingFor
                split <;> rfl
              simp [TokenRequest.AsksFor, huser]

private theorem webSocketToken_makes (p : Principal) (tenantID externalUserID : String) :
    (Issue.webSocketToken cfg p tenantID externalUserID).Makes A
      (insertsAsked cfg P A (.webSocketToken p tenantID externalUserID)) := by
  unfold Issue.webSocketToken
  split
  · trivial
  · split
    · trivial
    · refine (createWebSocketToken_makes hA p tenantID externalUserID).bind fun r => ?_
      cases r <;> trivial

theorem TokenRequest.makes (req : TokenRequest) :
    (req.prog cfg).Makes A (insertsAsked cfg P A req) := by
  cases req with
  | forgotPassword email => exact forgotPassword_makes hA email
  | requestEmailVerification p => exact requestEmailVerification_makes p
  | webSocketToken p tenantID externalUserID => exact webSocketToken_makes hA p tenantID externalUserID

end

private theorem writesPresented_plain {req : AuthRequest} {s : AuthStmt} (h : s.plain = true) :
    writesPresented cfg.toAuthConfig P req s := by
  constructor
  · rintro userID hash rfl
    simp [AuthStmt.plain] at h
  · rintro userID rfl
    simp [AuthStmt.plain] at h

private theorem selectToken_ok {kind : TokenKind} {hash : String} {owner : kind.Owner}
    (h : AnsweredBy cfg.toAuthConfig P (.selectToken kind hash) (.ok owner)) :
    ∃ db, P db ∧ db.selectToken kind hash = some owner := by
  obtain ⟨db, o, hP, hr⟩ := h
  exact ⟨db, hP, CredDb.exec_selectToken hr.symm⟩

private theorem consumeThen_presented {req : AuthRequest} (kind : TokenKind) (hash : String)
    {write : AuthStmt} (unconsumed unwritten done : String)
    (hwrite : writesPresented cfg.toAuthConfig P req write) :
    (Auth.consumeThen kind hash write unconsumed unwritten done).Makes
      (AnsweredBy cfg.toAuthConfig P) (writesPresented cfg.toAuthConfig P req) := by
  refine ⟨writesPresented_plain rfl, fun r _ => ?_⟩
  cases r with
  | error e => trivial
  | ok _ => exact ⟨hwrite, fun r _ => by cases r <;> trivial⟩

private theorem resetPassword_presented (token password : String) :
    (Auth.resetPassword cfg.toAuthConfig token password).Makes (AnsweredBy cfg.toAuthConfig P)
      (writesPresented cfg.toAuthConfig P (.resetPassword token password)) := by
  unfold Auth.resetPassword
  split
  · trivial
  · split
    · trivial
    · refine ⟨writesPresented_plain rfl, fun r hr => ?_⟩
      cases r with
      | error e => trivial
      | ok userID =>
          obtain ⟨db, hP, hselect⟩ := selectToken_ok hr
          refine ⟨writesPresented_plain rfl, fun r _ => ?_⟩
          cases r with
          | error e => trivial
          | ok hash =>
              refine consumeThen_presented _ _ _ _ _ ⟨?_, nofun⟩
              intro userID' hash' hs
              cases hs
              exact ⟨_, db, by simp [AuthRequest.presents], hP, hselect⟩

private theorem verifyEmail_presented (token : String) :
    (Auth.verifyEmail cfg.toAuthConfig token).Makes (AnsweredBy cfg.toAuthConfig P)
      (writesPresented cfg.toAuthConfig P (.verifyEmail token)) := by
  unfold Auth.verifyEmail
  split
  · trivial
  · refine ⟨writesPresented_plain rfl, fun r hr => ?_⟩
    cases r with
    | error e => trivial
    | ok userID =>
        obtain ⟨db, hP, hselect⟩ := selectToken_ok hr
        refine consumeThen_presented _ _ _ _ _ ⟨nofun, ?_⟩
        intro userID' hs
        cases hs
        exact ⟨_, db, by simp [AuthRequest.presents], hP, hselect⟩

private theorem validateToken_presented (token : String) :
    (Auth.validateToken cfg.toAuthConfig token).Yields (AnsweredBy cfg.toAuthConfig P)
      (writesPresented cfg.toAuthConfig P (.connect token))
      (fun r => ∀ client, r = some (.wsToken, client) →
        (AuthRequest.connect token).PresentsFor cfg.toAuthConfig P .webSocket client) := by
  unfold Auth.validateToken
  refine ⟨writesPresented_plain rfl, fun r hr => ?_⟩
  cases r with
  | ok client =>
      obtain ⟨db, hP, hselect⟩ := selectToken_ok hr
      refine ⟨writesPresented_plain rfl, fun _ _ => ?_⟩
      intro client' hclient
      cases hclient
      exact ⟨_, db, by simp [AuthRequest.presents], hP, hselect⟩
  | error e =>
      refine ⟨writesPresented_plain rfl, fun r _ => ?_⟩
      cases r with
      | error e =>
          intro client hclient
          simp at hclient
      | ok now =>
          -- the claims of an access token authorise the connection as `jwt`
          simp only [Prog.bind]
          split
          · intro client hclient
            simp at hclient
          · intro client hclient
            simp at hclient

theorem AuthRequest.presented (req : AuthRequest) :
    (req.prog cfg.toAuthConfig).Yields (AnsweredBy cfg.toAuthConfig P)
      (writesPresented cfg.toAuthConfig P req) (connectsPresented cfg.toAuthConfig P req) := by
  cases req with
  | login email password ip agent =>
      have hlogin : (Auth.login cfg.toAuthConfig email password ip agent).run.Makes
          (AnsweredBy cfg.toAuthConfig P)
          (writesPresented cfg.toAuthConfig P (.login email password ip agent)) :=
        login_makes (fun _ => writesPresented_plain) (fun _ _ => ⟨nofun, nofun⟩) _ _ _ _
      exact Prog.Yields.bind hlogin fun _ _ => nofun
  | refresh token ip agent =>
      have hrefresh : (Auth.refresh cfg.toAuthConfig token ip agent).run.Makes
          (AnsweredBy cfg.toAuthConfig P)
          (writesPresented cfg.toAuthConfig P (.refresh token ip agent)) :=
        refresh_makes (fun _ => writesPresented_plain) (fun _ _ => ⟨nofun, nofun⟩) _ _ _
      exact Prog.Yields.bind hrefresh fun _ _ => nofun
  | revoke token =>
      refine Prog.Yields.bind (Q := fun _ => True) ?_ fun _ _ => nofun
      exact ⟨writesPresented_plain rfl, fun r _ => by cases r <;> trivial⟩
  | resetPassword token password =>
      exact Prog.Yields.bind (resetPassword_presented token password) fun _ _ => nofun
  | verifyEmail token => exact Prog.Yields.bind (verifyEmail_presented token) fun _ _ => nofun
  | connect token =>
      refine (validateToken_presented token).bind fun r hr => ?_
      intro client hclient
      cases hclient
      exact hr client rfl

end

def SameGrant {α : Type} (row row' : OneTimeToken α) : Prop :=
  row.owner = row'.owner ∧ row.tokenHash = row'.tokenHash ∧ row.expiresAt = row'.expiresAt

theorem SameGrant.trans {α : Type} {row row' row'' : OneTimeToken α} (h : SameGrant row row')
    (h' : SameGrant row' row'') : SameGrant row row'' :=
  ⟨h.1.trans h'.1, h.2.1.trans h'.2.1, h.2.2.trans h'.2.2⟩

namespace CredDb

variable {db db' : CredDb}

def TokensFrom (db db' : CredDb) : Prop :=
  ∀ kind, ∀ row ∈ (db'.tokens kind).rows, ∃ row' ∈ (db.tokens kind).rows, SameGrant row.2 row'.2

theorem tokensFrom_of_eq (h : db'.tokens = db.tokens) : db.TokensFrom db' :=
  fun _ row hrow => ⟨row, h ▸ hrow, rfl, rfl, rfl⟩

theorem spendToken_tokensFrom (kind : TokenKind) (hash : String) :
    db.TokensFrom (db.spendToken kind hash) := by
  intro kind' row hrow
  by_cases hkind : kind' = kind
  · subst hkind
    simp only [spendToken, Function.update_self, Table.update, List.mem_map] at hrow
    obtain ⟨row', hrow', rfl⟩ := hrow
    refine ⟨row', hrow', ?_⟩
    split <;> exact ⟨rfl, rfl, rfl⟩
  · rw [spendToken_of_ne hash hkind] at hrow
    exact ⟨row, hrow, rfl, rfl, rfl⟩

theorem exec_tokensFrom (cfg : AuthConfig) (o : AuthOutcome) (s : AuthStmt) :
    db.TokensFrom (db.exec cfg o s).2 := by
  rcases exec_tokens cfg o db s with hsame | ⟨kind, hash, -, hspent⟩
  · exact tokensFrom_of_eq hsame
  · rw [hspent]
    exact spendToken_tokensFrom kind hash

theorem insertToken_rows {id expiresAt : Nat} {kind kind' : TokenKind} {owner : kind'.Owner}
    {hash : String} (h : db.insertToken id kind' owner hash expiresAt = some db')
    {row : Nat × OneTimeToken kind.Owner} (hrow : row ∈ (db'.tokens kind).rows) :
    row ∈ (db.tokens kind).rows ∨
      ∃ hkind : kind' = kind, row.2 = hkind ▸ ⟨owner, hash, true, expiresAt, none⟩ ∧
        ∀ old ∈ (db.tokens kind).rows, old.2.tokenHash ≠ hash := by
  unfold insertToken at h
  split at h
  · next hguard =>
      obtain rfl := Option.some.inj h
      obtain ⟨hplaced, hunique⟩ := Bool.and_eq_true_iff.mp hguard
      dsimp only at hrow
      by_cases hkind : kind' = kind
      · subst hkind
        have hfree : (db.tokens kind').get? id = none := by
          simpa using (Bool.and_eq_true_iff.mp hplaced).2
        rw [Function.update_self, Table.rows_insert hfree] at hrow
        rcases List.mem_append.mp hrow with hold | hnew
        · exact .inl hold
        · obtain rfl := List.mem_singleton.mp hnew
          refine .inr ⟨rfl, rfl, ?_⟩
          intro old hold heq
          have hany : (db.tokens kind').rows.any (fun row => row.2.tokenHash == hash) = true :=
            List.any_eq_true.mpr ⟨old, hold, beq_iff_eq.mpr heq⟩
          rw [hany] at hunique
          simp at hunique
      · rw [Function.update_of_ne (Ne.symm hkind)] at hrow
        exact .inl hrow
  · simp at h

theorem execIssue_tokens {o : AuthOutcome} {s : IssueStmt} {kind : TokenKind}
    {row : Nat × OneTimeToken kind.Owner}
    (hrow : row ∈ ((db.execIssue o s).2.tokens kind).rows) :
    row ∈ (db.tokens kind).rows ∨ ∃ owner hash expiry,
      s = .insertToken kind owner hash expiry ∧
        row.2 = ⟨owner, hash, true, db.expiresAt expiry, none⟩ ∧
        ∀ old ∈ (db.tokens kind).rows, old.2.tokenHash ≠ hash := by
  unfold execIssue at hrow
  split at hrow
  · exact .inl hrow
  · cases s with
    | insertToken kind' owner hash expiry =>
        simp only [answerIssue] at hrow
        split at hrow
        · next db' hdb' =>
            rcases insertToken_rows hdb' hrow with hold | ⟨rfl, hnew, hunique⟩
            · exact .inl hold
            · exact .inr ⟨owner, hash, expiry, rfl, hnew, hunique⟩
        · exact .inl hrow
    | _ => exact .inl hrow

theorem execIssue_now (o : AuthOutcome) (s : IssueStmt) : (db.execIssue o s).2.now = db.now := by
  unfold execIssue
  split
  · rfl
  · cases s with
    | insertToken kind owner hash expiry =>
        simp only [answerIssue]
        split
        · next db' hdb' =>
            unfold insertToken at hdb'
            split at hdb'
            · obtain rfl := Option.some.inj hdb'
              rfl
            · simp at hdb'
        · rfl
    | _ => rfl

end CredDb

theorem AuthWorld.step_tokensFrom {cfg : AuthConfig} {w w' : AuthWorld} {e : AuthEvent}
    (h : w.step cfg e = some w') : w.db.TokensFrom w'.db := by
  rcases step_cases h with ⟨req, -, rfl⟩ | ⟨i, o, req, s, k, -, -, rfl⟩ | ⟨seconds, -, rfl⟩ |
    ⟨p, env, req, -, rfl⟩
  · exact CredDb.tokensFrom_of_eq rfl
  · exact CredDb.exec_tokensFrom cfg o s
  · exact CredDb.tokensFrom_of_eq rfl
  · exact CredDb.tokensFrom_of_eq (CredDb.serveRoles_tokens p env req)

namespace TokenWorld

variable {cfg : TokenConfig} {ok : TokenWorld → TokenEvent → Prop} {w w' : TokenWorld}
  {es : List TokenEvent}

def ServedAt (cfg : TokenConfig) (ok : TokenWorld → TokenEvent → Prop) (w : TokenWorld)
    (es : List TokenEvent) (w' : TokenWorld) (i : Nat) (db : CredDb) : Prop :=
  ∃ u o, Takes (step cfg) ok w es w' u (.auth (.call i o)) ∧ u.auth.db = db

/-- The databases that the `j`th request for a token has put its statements to. -/
def AskedAt (cfg : TokenConfig) (ok : TokenWorld → TokenEvent → Prop) (w : TokenWorld)
    (es : List TokenEvent) (w' : TokenWorld) (j : Nat) (db : CredDb) : Prop :=
  ∃ u o, Takes (step cfg) ok w es w' u (.issue j o) ∧ u.auth.db = db

def Replied (cfg : TokenConfig) (ok : TokenWorld → TokenEvent → Prop) (w : TokenWorld)
    (es : List TokenEvent) (w' : TokenWorld) (j : Nat) (s : IssueStmt) (r : IssueReply s) : Prop :=
  ∃ u o req k, Takes (step cfg) ok w es w' u (.issue j o) ∧
    u.asking[j]? = some ⟨req, .call s k⟩ ∧ r = (u.auth.db.execIssue o s).1

/-- Everything in progress keeps to what its code does, on what it was told itself. -/
structure Sound (cfg : TokenConfig) (S P : Nat → CredDb → Prop)
    (A : Nat → (s : IssueStmt) → IssueReply s → Prop) (w : TokenWorld) : Prop where
  asking : ∀ (j : Nat) th, w.asking[j]? = some th →
    th.prog.Makes (A j) (insertsAsked cfg (P j) (A j) th.req)
  acting : ∀ (i : Nat) th, w.auth.threads[i]? = some th →
    th.prog.Yields (AnsweredBy cfg.toAuthConfig (S i))
      (writesPresented cfg.toAuthConfig (S i) th.req)
      (connectsPresented cfg.toAuthConfig (S i) th.req)

theorem sound_of_run {db : CredDb} (h : (fresh db).RunOf cfg ok es w) :
    w.Sound cfg (ServedAt cfg ok (fresh db) es w) (AskedAt cfg ok (fresh db) es w)
      (Replied cfg ok (fresh db) es w) := by
  have hstart : (fresh db).Sound cfg (ServedAt cfg ok (fresh db) es w)
      (AskedAt cfg ok (fresh db) es w) (Replied cfg ok (fresh db) es w) :=
    ⟨by simp [fresh], by simp [fresh, AuthWorld.fresh]⟩
  have hreplied : ∀ j s r, Replied cfg ok (fresh db) es w j s r →
      IssuedBy (AskedAt cfg ok (fresh db) es w j) s r := by
    rintro j s r ⟨u, o, req, k, htakes, -, hr⟩
    exact ⟨u.auth.db, o, ⟨u, o, htakes, rfl⟩, hr⟩
  refine Run.invariant h.taking ?_ hstart
  rintro v e v' hv ⟨-, htakes⟩ hstep
  rcases step_cases hstep with ⟨e', auth, rfl, hauth, rfl⟩ | ⟨req, rfl, rfl⟩ |
    ⟨j, o, req, s, k, rfl, hthread, rfl⟩
  · refine ⟨hv.asking, ?_⟩
    rcases AuthWorld.step_cases hauth with ⟨req, rfl, rfl⟩ | ⟨i, o, req, s, k, rfl, hthread, rfl⟩ |
      ⟨seconds, rfl, rfl⟩ | ⟨p, env, req, rfl, rfl⟩
    · intro i th hth
      rcases getElem?_concat_cases hth with hold | rfl
      · exact hv.acting i th hold
      · exact AuthRequest.presented req
    · intro i' th hth
      rcases getElem?_set_cases hth with hold | ⟨rfl, rfl⟩
      · exact hv.acting i' th hold
      · exact (hv.acting i _ hthread).2 _ ⟨v.auth.db, o, ⟨v, o, htakes, rfl⟩, rfl⟩
    · exact hv.acting
    · exact hv.acting
  · refine ⟨?_, hv.acting⟩
    intro j th hth
    rcases getElem?_concat_cases hth with hold | rfl
    · exact hv.asking j th hold
    · exact TokenRequest.makes (hreplied j) req
  · refine ⟨?_, hv.acting⟩
    intro j' th hth
    rcases getElem?_set_cases hth with hold | ⟨rfl, rfl⟩
    · exact hv.asking j' th hold
    · exact (hv.asking j _ hthread).2 _ ⟨v, o, req, k, htakes, hthread, rfl⟩

/-- A token that is there stems from one that was there before, or has been inserted on the way by a
request for a token. -/
theorem inserted_on_the_way (h : w.RunOf cfg ok es w') {kind : TokenKind}
    {row : Nat × OneTimeToken kind.Owner} (hrow : row ∈ (w'.auth.db.tokens kind).rows) :
    (∃ row' ∈ (w.auth.db.tokens kind).rows, SameGrant row.2 row'.2) ∨
      ∃ before j o rest u v req owner hash expiry k, es = before ++ .issue j o :: rest ∧
        w.RunOf cfg ok before u ∧ u.step cfg (.issue j o) = some v ∧ v.RunOf cfg ok rest w' ∧
        u.asking[j]? = some ⟨req, .call (.insertToken kind owner hash expiry) k⟩ ∧
        (∀ old ∈ (u.auth.db.tokens kind).rows, old.2.tokenHash ≠ hash) ∧
        SameGrant row.2 ⟨owner, hash, true, u.auth.db.expiresAt expiry, none⟩ ∧
        ∃ id, (v.auth.db.tokens kind).get? id =
          some ⟨owner, hash, true, u.auth.db.expiresAt expiry, none⟩ := by
  induction h with
  | nil w => exact .inl ⟨row, hrow, rfl, rfl, rfl⟩
  | @cons w v w' e es hok hstep hrest ih =>
      rcases ih hrow with ⟨row', hrow', hsame⟩ | ⟨before, j, o, rest, u, u', req, owner, hash,
        expiry, k, rfl, hbefore, hinsert⟩
      · rcases step_cases hstep with ⟨e', auth, rfl, hauth, rfl⟩ | ⟨req, rfl, rfl⟩ |
          ⟨j, o, req, s, k, rfl, hthread, rfl⟩
        · obtain ⟨row₀, hrow₀, hsame₀⟩ := AuthWorld.step_tokensFrom hauth kind row' hrow'
          exact .inl ⟨row₀, hrow₀, hsame.trans hsame₀⟩
        · exact .inl ⟨row', hrow', hsame⟩
        · rcases CredDb.execIssue_tokens hrow' with hold | ⟨owner, hash, expiry, rfl, hnew, hunique⟩
          · exact .inl ⟨row', hold, hsame⟩
          · refine .inr ⟨[], j, o, es, w, _, req, owner, hash, expiry, k, rfl, .nil w, hstep, hrest,
              hthread, hunique, hnew ▸ hsame, row'.1, ?_⟩
            exact hnew ▸ Table.get?_eq_some.mpr hrow'
      · exact .inr ⟨e :: before, j, o, rest, u, u', req, owner, hash, expiry, k, rfl,
          .cons hok hstep hbefore, hinsert⟩

theorem now_le_run (h : w.RunOf cfg ok es w') : w.auth.db.now ≤ w'.auth.db.now := by
  refine Run.invariant (I := fun v => w.auth.db.now ≤ v.auth.db.now) h ?_ (Nat.le_refl _)
  intro v e v' hv _ hstep
  rcases step_cases hstep with ⟨e', auth, -, hauth, rfl⟩ | ⟨req, -, rfl⟩ |
    ⟨j, o, req, s, k, -, -, rfl⟩
  · exact hv.trans (AuthWorld.now_le_step hauth)
  · exact hv
  · exact hv.trans (Nat.le_of_eq (CredDb.execIssue_now o s).symm)

/-- At the event a request that asked for the token, by what it had read, and drew it itself has its
hash stored for the owner; no row had this hash. -/
structure Grants (cfg : TokenConfig) (ok : TokenWorld → TokenEvent → Prop) (w : TokenWorld)
    (before : List TokenEvent) (u : TokenWorld) (e : TokenEvent) (v : TokenWorld)
    (kind : TokenKind) (owner : kind.Owner) (token : String) : Prop where
  step : u.step cfg e = some v
  asked : ∃ j o req expiry k, e = .issue j o ∧
    u.asking[j]? = some ⟨req, .call (.insertToken kind owner (cfg.hashSecret token) expiry) k⟩ ∧
    req.AsksFor (AskedAt cfg ok w before u j) kind owner ∧
    ∃ pre bytes, Replied cfg ok w before u j (.randomToken pre bytes) (.ok token)
  unused : ∀ old ∈ (u.auth.db.tokens kind).rows, old.2.tokenHash ≠ cfg.hashSecret token
  stored : ∃ id expiresAt, expiresAt ≤ u.auth.db.now + cfg.lifetime kind ∧
    (v.auth.db.tokens kind).get? id =
      some ⟨owner, cfg.hashSecret token, true, expiresAt, none⟩

theorem granted_on_the_way {db : CredDb} (hempty : ∀ kind, (db.tokens kind).rows = [])
    (h : (fresh db).RunOf cfg ok es w) {kind : TokenKind} {row : Nat × OneTimeToken kind.Owner}
    (hrow : row ∈ (w.auth.db.tokens kind).rows) :
    ∃ before e rest u v token, es = before ++ e :: rest ∧ (fresh db).RunOf cfg ok before u ∧
      Grants cfg ok (fresh db) before u e v kind row.2.owner token ∧ v.RunOf cfg ok rest w ∧
      row.2.tokenHash = cfg.hashSecret token ∧
      row.2.expiresAt ≤ u.auth.db.now + cfg.lifetime kind := by
  rcases inserted_on_the_way h hrow with ⟨row', hrow', -⟩ | ⟨before, j, o, rest, u, v, req, owner,
    hash, expiry, k, rfl, hbefore, hstep, hafter, hthread, hunique, hsame, hstored⟩
  · simp [fresh, AuthWorld.fresh, hempty kind] at hrow'
  · obtain ⟨howner, hhash, hexpires⟩ := hsame
    obtain ⟨hasks, ⟨token, pre, bytes, hdrawn, rfl⟩, hexpiry⟩ :=
      ((sound_of_run hbefore).asking j _ hthread).1 kind owner hash expiry rfl
    have hlife : u.auth.db.expiresAt expiry ≤ u.auth.db.now + cfg.lifetime kind := by
      rcases hexpiry with rfl | ⟨_, ⟨v', o', ⟨_, _, -, -, hlater⟩, rfl⟩, rfl⟩
      · exact Nat.le_refl _
      · exact Nat.add_le_add_right (now_le_run hlater) _
    obtain ⟨id, hid⟩ := hstored
    subst howner
    exact ⟨before, .issue j o, rest, u, v, token, rfl, hbefore,
      ⟨hstep, ⟨j, o, req, expiry, k, rfl, hthread, hasks, pre, bytes, hdrawn⟩, hunique, id, _,
        hlife, hid⟩, hafter, hhash, hexpires ▸ hlife⟩

/-- **Nothing is done with a token that was not asked for.** In every run from a system without
tokens, whenever a request sets a password, marks an email as verified or has authorised a
connection by a token, it presents a token of that kind for that owner. Before it found the hash, a
request had asked for the token, by the email of the account that it found active, or as the user
whose email or connection it is, had drawn it and stored its hash, at most the lifetime of such a
token before. -/
theorem acts_as_asked {cfg : TokenConfig} {ok : TokenWorld → TokenEvent → Prop} {db : CredDb}
    {es : List TokenEvent} {w : TokenWorld} (hempty : ∀ kind, (db.tokens kind).rows = [])
    (hrun : (fresh db).RunOf cfg ok es w) {i : Nat} {th : AuthThread}
    (hth : w.auth.threads[i]? = some th) {kind : TokenKind} {owner : kind.Owner}
    (hacts : th.ActsFor kind owner) :
    ∃ before e between o rest u v found token,
      es = before ++ e :: between ++ .auth (.call i o) :: rest ∧
      (fresh db).RunOf cfg ok before u ∧ Grants cfg ok (fresh db) before u e v kind owner token ∧
      v.RunOf cfg ok between found ∧ found.RunOf cfg ok (.auth (.call i o) :: rest) w ∧
      th.req.presents cfg.toAuthConfig kind (cfg.hashSecret token) = true ∧
      found.auth.db.selectToken kind (cfg.hashSecret token) = some owner ∧
      found.auth.db.now < u.auth.db.now + cfg.lifetime kind := by
  have hacting := (sound_of_run hrun).acting i th hth
  have hpresents : th.req.PresentsFor cfg.toAuthConfig (ServedAt cfg ok (fresh db) es w i) kind
      owner := by
    cases kind with
    | webSocket =>
        have hprog : th.prog = .ret (.connection (some (.wsToken, owner))) := hacts
        rw [hprog] at hacting
        exact hacting owner rfl
    | passwordReset =>
        obtain ⟨hash, k, hprog⟩ := hacts
        rw [hprog] at hacting
        exact hacting.1.1 owner hash rfl
    | emailVerification =>
        obtain ⟨k, hprog⟩ := hacts
        rw [hprog] at hacting
        exact hacting.1.2 owner rfl
  obtain ⟨hash, _, hhash, ⟨found, o, ⟨earlier, rest, rfl, hbefore, hafter⟩, rfl⟩, hselect⟩ :=
    hpresents
  obtain ⟨id, row, hrow, rfl, hactive, hlive, rfl⟩ := CredDb.selectToken_eq_some hselect
  obtain ⟨before, e, between, u, v, token, rfl, hstart, hgrants, hbetween, htoken, hexpires⟩ :=
    granted_on_the_way hempty hbefore (Table.get?_eq_some.mp hrow)
  exact ⟨before, e, between, o, rest, u, v, found, token, rfl, hstart, hgrants, hbetween, hafter,
    htoken ▸ hhash, htoken ▸ hselect, Nat.lt_of_lt_of_le hlive hexpires⟩

def sampleTokenConfig : TokenConfig := { sampleAuthConfig with webSocketTokenTTL := 60 }

def sampleForgotten : List TokenEvent :=
  [.ask (.forgotPassword "ann@example.org"), .issue 0 {}, .issue 0 { random := "prt_1" },
    .issue 0 {}, .auth (.clock 1200), .auth (.start (.resetPassword "prt_1" "new secret")),
    .auth (.call 0 {}), .auth (.call 0 { random := "bcrypt:new secret" }), .auth (.call 0 {})]

def setsPassword (userID : Nat) (w : TokenWorld) : Bool :=
  match w.auth.threads with
  | [⟨_, .call (.setPassword u _) _⟩] => u == userID
  | _ => false

theorem acts_as_asked_reset : ∃ w before e rest u v token,
    (fresh sampleCredDb).RunOf sampleTokenConfig (fun _ _ => True) sampleForgotten w ∧
      setsPassword 7 w = true ∧ sampleForgotten = before ++ e :: rest ∧
      Grants sampleTokenConfig (fun _ _ => True) (fresh sampleCredDb) before u e v .passwordReset 7
        token := by
  have hexecuted : (execute (step sampleTokenConfig) (fun _ _ => true) (fresh sampleCredDb)
      sampleForgotten).any (setsPassword 7) = true := by decide +kernel
  have hguard (_ : TokenWorld) (_ : TokenEvent) (_ : true = true) : True := trivial
  obtain ⟨w, hrun, hsets⟩ := Run.exists_of_execute hguard hexecuted
  have hat := hsets
  unfold setsPassword at hat
  split at hat
  · next req userID hash k hthreads =>
      obtain rfl : userID = 7 := beq_iff_eq.mp hat
      have hempty : ∀ kind, (sampleCredDb.tokens kind).rows = [] := fun _ => rfl
      have hth : w.auth.threads[0]? = some ⟨req, .call (.setPassword 7 hash) k⟩ := by
        rw [hthreads]
        rfl
      have hacts : AuthThread.ActsFor ⟨req, .call (.setPassword 7 hash) k⟩ .passwordReset 7 :=
        ⟨hash, k, rfl⟩
      obtain ⟨before, e, between, o, rest, u, v, found, token, hes, -, hgrants, -⟩ :=
        acts_as_asked hempty hrun hth hacts
      rw [List.append_assoc, List.cons_append] at hes
      exact ⟨w, before, e, _, u, v, token, hrun, hsets, hes, hgrants⟩
  · simp at hat

end TokenWorld

end NotificationPlatform
