import NotificationPlatform.Credentials

/-!
# Credential operations that fail half-way

`Refresh`, `ResetPassword` and `VerifyEmail` first spend what they were given and then write
again, each in a statement of its own. Run alone under a plan that says which statements fail, they
leave everything as it was unless the failure comes after the first of these writes.
-/

namespace NotificationPlatform

open Lib

section

variable {cfg : AuthConfig} {plan : AuthStmt → AuthOutcome} {db : CredDb} {α β : Type}

/-- How each statement of a request ends when nothing else happens in between. No request executes
a statement twice. -/
def answers (cfg : AuthConfig) (plan : AuthStmt → AuthOutcome) (s : AuthStmt) (db : CredDb) :
    AuthReply s × CredDb :=
  db.exec cfg (plan s) s

def runAlone (cfg : AuthConfig) (plan : AuthStmt → AuthOutcome) (p : AuthGo α) (db : CredDb) :
    Except String α × CredDb :=
  p.run.eval (answers cfg plan) db

theorem runAlone_bind (p : AuthGo α) (f : α → AuthGo β) :
    runAlone cfg plan (p >>= f) db =
      match runAlone cfg plan p db with
      | (.ok a, db') => runAlone cfg plan (f a) db'
      | (.error e, db') => (.error e, db') := by
  rw [runAlone, ExceptT.run_bind, Prog.eval_bind, runAlone]
  cases hr : p.run.eval (answers cfg plan) db with
  | mk r db' => cases r <;> rfl

theorem runAlone_query_bind (s : AuthStmt) (f : s.Result → AuthGo α) :
    runAlone cfg plan (query s >>= f) db =
      match db.exec cfg (plan s) s with
      | (.ok a, db') => runAlone cfg plan (f a) db'
      | (.error e, db') => (.error e, db') := by
  have hquery : runAlone cfg plan (query s) db = db.exec cfg (plan s) s := rfl
  rw [runAlone_bind, hquery]
  cases hr : db.exec cfg (plan s) s with
  | mk r db' => cases r <;> rfl

theorem runAlone_tryQuery_bind (s : AuthStmt) (f : Except String s.Result → AuthGo α) :
    runAlone cfg plan (tryQuery s >>= f) db =
      runAlone cfg plan (f (db.exec cfg (plan s) s).1) (db.exec cfg (plan s) s).2 := rfl

@[simp] theorem runAlone_pure (a : α) : runAlone cfg plan (pure a) db = (.ok a, db) := rfl

@[simp] theorem runAlone_throw (e : String) :
    runAlone cfg plan (throw e : AuthGo α) db = (.error e, db) := rfl

theorem exec_fails {s : AuthStmt} (hfail : (plan s).fail = true) (hcan : s.canFail = true) :
    db.exec cfg (plan s) s = (.error (plan s).detail, db) := by
  simp [CredDb.exec, hfail, hcan]

theorem exec_succeeds {s : AuthStmt} (hfail : (plan s).fail = false) :
    db.exec cfg (plan s) s = db.answer cfg (plan s) s := by
  simp [CredDb.exec, hfail]

theorem exec_sign (c : Claims) :
    db.exec cfg (plan (.sign c)) (.sign c) = (.ok ⟨c, db.now + cfg.accessTokenTTL⟩, db) := by
  simp [CredDb.exec, AuthStmt.canFail, CredDb.answer]

end

/-- The row that `createSession` inserts under a plan. -/
def plannedSession (cfg : AuthConfig) (plan : AuthStmt → AuthOutcome) (c : Claims)
    (ipAddress userAgent : String) : NewSession where
  userID := c.principal.userID
  tenantID := nullIfEmpty c.principal.tenantID
  refreshTokenHash := cfg.hashSecret (plan (.randomToken "rft" 32)).random
  userAgent := userAgent
  ipAddress := ipAddress
  traceID := if c.sessionID = "" then (plan (.randomToken "sess" 24)).random else c.sessionID

def InsertFails (cfg : AuthConfig) (plan : AuthStmt → AuthOutcome) (db : CredDb)
    (new : NewSession) : Prop :=
  (plan (.insertSession new)).fail = true ∨
    db.insertSession cfg (plan (.insertSession new)).newID new = none

/-- One of the random tokens or the insertion of `createSession` fails. -/
def CreateFails (cfg : AuthConfig) (plan : AuthStmt → AuthOutcome) (db : CredDb) (c : Claims)
    (ipAddress userAgent : String) : Prop :=
  (plan (.randomToken "rft" 32)).fail = true ∨
    (c.sessionID = "" ∧ (plan (.randomToken "sess" 24)).fail = true) ∨
    InsertFails cfg plan db (plannedSession cfg plan c ipAddress userAgent)

section

variable {cfg : AuthConfig}

private theorem insert_alone (plan : AuthStmt → AuthOutcome) (db : CredDb) (new : NewSession)
    (token : String) :
    (InsertFails cfg plan db new →
      ∃ e, runAlone cfg plan (query (.insertSession new) >>= fun _ => pure token) db =
        (.error e, db)) ∧
    (¬InsertFails cfg plan db new →
      ∃ db', runAlone cfg plan (query (.insertSession new) >>= fun _ => pure token) db =
        (.ok token, db')) := by
  rw [runAlone_query_bind]
  cases hfail : (plan (.insertSession new)).fail with
  | true =>
      rw [exec_fails hfail rfl]
      exact ⟨fun _ => ⟨_, rfl⟩, fun hok => absurd (.inl hfail) hok⟩
  | false =>
      rw [exec_succeeds hfail]
      cases hdb : db.insertSession cfg (plan (.insertSession new)).newID new with
      | none =>
          simp only [CredDb.answer, hdb]
          exact ⟨fun _ => ⟨_, rfl⟩, fun hok => absurd (.inr hdb) hok⟩
      | some db' =>
          simp only [CredDb.answer, hdb]
          refine ⟨?_, fun _ => ⟨db', rfl⟩⟩
          rintro (h | h)
          · simp [hfail] at h
          · simp [hdb] at h

theorem createSession_alone (cfg : AuthConfig) (plan : AuthStmt → AuthOutcome) (db : CredDb)
    (c : Claims)
    (ip agent : String) :
    (CreateFails cfg plan db c ip agent →
      ∃ e, runAlone cfg plan (Auth.createSession cfg c ip agent) db = (.error e, db)) ∧
    (¬CreateFails cfg plan db c ip agent →
      ∃ token db', runAlone cfg plan (Auth.createSession cfg c ip agent) db = (.ok token, db')) := by
  unfold Auth.createSession
  rw [runAlone_query_bind]
  cases htoken : (plan (.randomToken "rft" 32)).fail with
  | true =>
      rw [exec_fails htoken rfl]
      exact ⟨fun _ => ⟨_, rfl⟩, fun hok => absurd (.inl htoken) hok⟩
  | false =>
      rw [exec_succeeds htoken]
      dsimp only [CredDb.answer]
      by_cases htrace : c.sessionID = ""
      · rw [if_pos htrace, runAlone_query_bind]
        cases hsess : (plan (.randomToken "sess" 24)).fail with
        | true =>
            rw [exec_fails hsess rfl]
            exact ⟨fun _ => ⟨_, rfl⟩, fun hok => absurd (.inr (.inl ⟨htrace, hsess⟩)) hok⟩
        | false =>
            rw [exec_succeeds hsess]
            have hiff : CreateFails cfg plan db c ip agent ↔
                InsertFails cfg plan db (plannedSession cfg plan c ip agent) := by
              simp [CreateFails, htoken, hsess]
            rw [hiff]
            have hplanned : plannedSession cfg plan c ip agent =
                ⟨c.principal.userID, nullIfEmpty c.principal.tenantID,
                  cfg.hashSecret (plan (.randomToken "rft" 32)).random, agent, ip,
                  (plan (.randomToken "sess" 24)).random⟩ := by
              simp [plannedSession, htrace]
            rw [hplanned]
            obtain ⟨herror, hok⟩ := insert_alone plan db _ (plan (.randomToken "rft" 32)).random
            exact ⟨herror, fun h => ⟨_, hok h⟩⟩
      · rw [if_neg htrace]
        have hiff : CreateFails cfg plan db c ip agent ↔
            InsertFails cfg plan db (plannedSession cfg plan c ip agent) := by
          simp [CreateFails, htoken, htrace]
        rw [hiff]
        have hplanned : plannedSession cfg plan c ip agent =
            ⟨c.principal.userID, nullIfEmpty c.principal.tenantID,
              cfg.hashSecret (plan (.randomToken "rft" 32)).random, agent, ip, c.sessionID⟩ := by
          simp [plannedSession, htrace]
        rw [hplanned]
        obtain ⟨herror, hok⟩ := insert_alone plan db _ (plan (.randomToken "rft" 32)).random
        exact ⟨herror, fun h => ⟨_, hok h⟩⟩

end

/-- `auth_sessions`, `users` and the two token tables are as they were. -/
structure SameCredentials (db db' : CredDb) : Prop where
  sessions : db'.sessions = db.sessions
  accounts : db'.accounts = db.accounts
  resets : db'.tokens .passwordReset = db.tokens .passwordReset
  verifications : db'.tokens .emailVerification = db.tokens .emailVerification

theorem SameCredentials.refl (db : CredDb) : SameCredentials db db := ⟨rfl, rfl, rfl, rfl⟩

def refreshedClaims (db : CredDb) (found : SessionRow) : Claims :=
  Auth.claimsOf found.userID found.tenantID found.email found.isPlatform found.sessionID
    (db.auth.effectivePermissions found.userID found.tenantID)

/-- `Refresh` rotates the session it found, and then cannot create the next one. -/
def RefreshBreaks (cfg : AuthConfig) (plan : AuthStmt → AuthOutcome) (db : CredDb)
    (refreshToken ipAddress userAgent : String) : Prop :=
  ∃ found, db.selectSession (cfg.hashSecret refreshToken) = some found ∧
    (plan (.selectSession (cfg.hashSecret refreshToken))).fail = false ∧
    (plan (.selectPermissions found.userID found.tenantID)).fail = false ∧
    (plan (.rotateSession found.id)).fail = false ∧
    CreateFails cfg plan (db.rotateSession found.id) (refreshedClaims db found) ipAddress userAgent

def ConsumedInVain (cfg : AuthConfig) (plan : AuthStmt → AuthOutcome) (db : CredDb)
    (kind : TokenKind) (token : String) (write : kind.Owner → AuthStmt) : Prop :=
  ∃ userID, db.selectToken kind (cfg.hashSecret token) = some userID ∧
    (plan (.selectToken kind (cfg.hashSecret token))).fail = false ∧
    (plan (.spendToken kind (cfg.hashSecret token))).fail = false ∧
    (plan (write userID)).fail = true

/-- `ResetPassword` consumes the token and does not change the password. -/
def ResetBreaks (cfg : AuthConfig) (plan : AuthStmt → AuthOutcome) (db : CredDb)
    (token newPassword : String) : Prop :=
  token ≠ "" ∧ newPassword ≠ "" ∧ 8 ≤ newPassword.utf8ByteSize ∧
    (plan (.hashPassword newPassword)).fail = false ∧
    ConsumedInVain cfg plan db .passwordReset token fun userID =>
      .setPassword userID (plan (.hashPassword newPassword)).random

/-- `VerifyEmail` consumes the token and does not mark the email as verified. -/
def VerifyBreaks (cfg : AuthConfig) (plan : AuthStmt → AuthOutcome) (db : CredDb)
    (token : String) : Prop :=
  token ≠ "" ∧ ConsumedInVain cfg plan db .emailVerification token .setEmailVerified

section

variable {cfg : AuthConfig} {plan : AuthStmt → AuthOutcome} {db : CredDb} {α : Type}

private theorem rotateSession_ne {hash : String} {found : SessionRow}
    (h : db.selectSession hash = some found) : (db.rotateSession found.id).sessions ≠ db.sessions := by
  obtain ⟨s, hs, hlive⟩ := CredDb.selectSession_eq_some h
  intro heq
  have hrotated := db.get?_rotateSession found.id found.id
  rw [heq, hs] at hrotated
  have hstatus : s.status = .rotated := by
    simpa using congrArg (Option.map Session.status) hrotated
  have hactive := (CredDb.liveSession_eq_true.mp hlive).2.1
  simp [hstatus] at hactive

private theorem spendToken_ne {kind : TokenKind} {hash : String} {owner : kind.Owner}
    (h : db.selectToken kind hash = some owner) :
    (db.spendToken kind hash).tokens kind ≠ db.tokens kind := by
  obtain ⟨id, token, hid, hhash, hactive, -, -⟩ := CredDb.selectToken_eq_some h
  intro heq
  have hspent := db.get?_spendToken kind hash id
  rw [heq, hid] at hspent
  have hinactive : token.active = false := by
    simpa [hhash] using congrArg (Option.map OneTimeToken.active) hspent
  simp [hactive] at hinactive

private theorem clean_of_eq {r : Except String α × CredDb} {e : String} (h : r = (.error e, db)) :
    ∀ e' db', r = (.error e', db') → SameCredentials db db' := by
  intro e' db' h'
  rw [h] at h'
  obtain ⟨-, rfl⟩ := Prod.mk.inj h'
  exact .refl db

theorem refresh_atomic_iff (refreshToken ip agent : String) :
    (∀ e db', runAlone cfg plan (Auth.refresh cfg refreshToken ip agent) db = (.error e, db') →
      SameCredentials db db') ↔ ¬RefreshBreaks cfg plan db refreshToken ip agent := by
  unfold Auth.refresh
  rw [runAlone_tryQuery_bind]
  cases hlook : (plan (.selectSession (cfg.hashSecret refreshToken))).fail with
  | true =>
      rw [exec_fails hlook rfl]
      refine iff_of_true (clean_of_eq rfl) ?_
      rintro ⟨found, -, hnot, -⟩
      simp [hlook] at hnot
  | false =>
      rw [exec_succeeds hlook]
      cases hfound : db.selectSession (cfg.hashSecret refreshToken) with
      | none =>
          simp only [CredDb.answer, hfound, CredDb.row]
          refine iff_of_true (clean_of_eq rfl) ?_
          rintro ⟨found, hsome, -⟩
          simp [hfound] at hsome
      | some found =>
          simp only [CredDb.answer, hfound, CredDb.row]
          have honly : RefreshBreaks cfg plan db refreshToken ip agent ↔
              (plan (.selectPermissions found.userID found.tenantID)).fail = false ∧
              (plan (.rotateSession found.id)).fail = false ∧
              CreateFails cfg plan (db.rotateSession found.id) (refreshedClaims db found)
                ip agent := by
            simp [RefreshBreaks, hfound, hlook]
          rw [honly, runAlone_query_bind]
          cases hread : (plan (.selectPermissions found.userID found.tenantID)).fail with
          | true =>
              rw [exec_fails hread rfl]
              exact iff_of_true (clean_of_eq rfl) (by simp)
          | false =>
              rw [exec_succeeds hread]
              simp only [CredDb.answer]
              rw [runAlone_query_bind]
              cases hrotate : (plan (.rotateSession found.id)).fail with
              | true =>
                  rw [exec_fails hrotate rfl]
                  exact iff_of_true (clean_of_eq rfl) (by simp)
              | false =>
                  rw [exec_succeeds hrotate]
                  simp only [CredDb.answer]
                  rw [runAlone_query_bind, exec_sign]
                  simp only
                  rw [runAlone_bind]
                  obtain ⟨herror, hok⟩ := createSession_alone cfg plan
                    (db.rotateSession found.id) (refreshedClaims db found) ip agent
                  by_cases hcreate : CreateFails cfg plan (db.rotateSession found.id)
                    (refreshedClaims db found) ip agent
                  · obtain ⟨e, he⟩ := herror hcreate
                    rw [refreshedClaims] at he
                    rw [he]
                    refine iff_of_false ?_ (by simp [hcreate])
                    intro hclean
                    exact rotateSession_ne hfound (hclean e _ rfl).sessions
                  · obtain ⟨token, db', he⟩ := hok hcreate
                    rw [refreshedClaims] at he
                    rw [he]
                    refine iff_of_true ?_ (by simp [hcreate])
                    intro e db'' heq
                    simp at heq

/-- The result of a handler that runs alone, and the database it leaves. -/
def handleAlone (cfg : AuthConfig) (plan : AuthStmt → AuthOutcome) (p : AuthCode Response)
    (db : CredDb) : Response × CredDb :=
  p.eval (answers cfg plan) db

theorem handleAlone_ask_bind (s : AuthStmt) (f : Except String s.Result → AuthCode Response) :
    handleAlone cfg plan (ask s >>= f) db =
      handleAlone cfg plan (f (db.exec cfg (plan s) s).1) (db.exec cfg (plan s) s).2 := rfl

@[simp] theorem handleAlone_pure (r : Response) : handleAlone cfg plan (pure r) db = (r, db) := rfl

private theorem clean_response {r : Response} :
    ∀ r' db', (r, db) = (r', db') → r'.status ≠ 200 → SameCredentials db db' := by
  intro r' db' h _
  obtain ⟨-, rfl⟩ := Prod.mk.inj h
  exact .refl db

private theorem consumeThen_iff {kind : TokenKind} {hash : String} {owner : kind.Owner}
    (write : AuthStmt) {unspent unwritten done : String} (hkind : kind ≠ .webSocket)
    (hfound : db.selectToken kind hash = some owner) (hcan : write.canFail = true)
    (hwrite : ∀ db : CredDb, ∃ a db', db.answer cfg (plan write) write = (.ok a, db')) :
    (∀ r db', handleAlone cfg plan (Auth.consumeThen kind hash write unspent unwritten done) db =
        (r, db') → r.status ≠ 200 → SameCredentials db db') ↔
      ¬((plan (.spendToken kind hash)).fail = false ∧ (plan write).fail = true) := by
  rw [Auth.consumeThen, handleAlone_ask_bind]
  cases hspend : (plan (.spendToken kind hash)).fail with
  | true =>
      rw [exec_fails hspend rfl]
      exact iff_of_true clean_response (by simp)
  | false =>
      rw [exec_succeeds hspend]
      simp only [CredDb.answer]
      rw [handleAlone_ask_bind]
      cases hfail : (plan write).fail with
      | true =>
          rw [exec_fails hfail hcan]
          refine iff_of_false ?_ (by simp)
          intro hclean
          have hsame := hclean _ _ rfl (by simp [Response.error])
          have hne := spendToken_ne hfound
          cases kind with
          | webSocket => exact hkind rfl
          | passwordReset => exact hne hsame.resets
          | emailVerification => exact hne hsame.verifications
      | false =>
          rw [exec_succeeds hfail]
          obtain ⟨a, db', hdone⟩ := hwrite (db.spendToken kind hash)
          rw [hdone]
          refine iff_of_true ?_ (by simp)
          intro r db'' h hstatus
          obtain ⟨rfl, -⟩ := Prod.mk.inj h
          exact absurd rfl hstatus

theorem verifyEmail_atomic_iff (token : String) :
    (∀ r db', handleAlone cfg plan (Auth.verifyEmail cfg token) db = (r, db') → r.status ≠ 200 →
      SameCredentials db db') ↔ ¬VerifyBreaks cfg plan db token := by
  unfold Auth.verifyEmail
  by_cases htoken : token = ""
  · rw [if_pos htoken]
    exact iff_of_true clean_response (by simp [VerifyBreaks, htoken])
  · rw [if_neg htoken, handleAlone_ask_bind]
    cases hlook : (plan (.selectToken .emailVerification (cfg.hashSecret token))).fail with
    | true =>
        rw [exec_fails hlook rfl]
        exact iff_of_true clean_response (by simp [VerifyBreaks, ConsumedInVain, hlook])
    | false =>
        rw [exec_succeeds hlook]
        cases hfound : db.selectToken .emailVerification (cfg.hashSecret token) with
        | none =>
            simp only [CredDb.answer, hfound, CredDb.row]
            exact iff_of_true clean_response (by simp [VerifyBreaks, ConsumedInVain, hfound])
        | some userID =>
            simp only [CredDb.answer, hfound, CredDb.row]
            rw [consumeThen_iff _ (by simp) hfound rfl fun _ => ⟨(), _, rfl⟩]
            simp [VerifyBreaks, ConsumedInVain, htoken, hfound, hlook]

theorem resetPassword_atomic_iff (token newPassword : String) :
    (∀ r db', handleAlone cfg plan (Auth.resetPassword cfg token newPassword) db = (r, db') →
      r.status ≠ 200 → SameCredentials db db') ↔ ¬ResetBreaks cfg plan db token newPassword := by
  unfold Auth.resetPassword
  by_cases hempty : token = "" ∨ newPassword = ""
  · rw [if_pos hempty]
    refine iff_of_true clean_response ?_
    rintro ⟨htoken, hpassword, -⟩
    exact hempty.elim htoken hpassword
  · rw [if_neg hempty]
    by_cases hshort : newPassword.utf8ByteSize < 8
    · rw [if_pos hshort]
      refine iff_of_true clean_response ?_
      rintro ⟨-, -, hlong, -⟩
      omega
    · rw [if_neg hshort, handleAlone_ask_bind]
      obtain ⟨htoken, hpassword⟩ := not_or.mp hempty
      have hlong : 8 ≤ newPassword.utf8ByteSize := Nat.le_of_not_lt hshort
      cases hlook : (plan (.selectToken .passwordReset (cfg.hashSecret token))).fail with
      | true =>
          rw [exec_fails hlook rfl]
          exact iff_of_true clean_response (by simp [ResetBreaks, ConsumedInVain, hlook])
      | false =>
          rw [exec_succeeds hlook]
          cases hfound : db.selectToken .passwordReset (cfg.hashSecret token) with
          | none =>
              simp only [CredDb.answer, hfound, CredDb.row]
              exact iff_of_true clean_response (by simp [ResetBreaks, ConsumedInVain, hfound])
          | some userID =>
              simp only [CredDb.answer, hfound, CredDb.row]
              rw [handleAlone_ask_bind]
              cases hhash : (plan (.hashPassword newPassword)).fail with
              | true =>
                  rw [exec_fails hhash rfl]
                  exact iff_of_true clean_response (by simp [ResetBreaks, hhash])
              | false =>
                  rw [exec_succeeds hhash]
                  simp only [CredDb.answer]
                  rw [consumeThen_iff _ (by simp) hfound rfl fun _ => ⟨(), _, rfl⟩]
                  simp [ResetBreaks, ConsumedInVain, htoken, hpassword, hlong, hhash, hfound, hlook]

end

/-- Under every plan of failures, each of the three operations that reports an error leaves the
sessions, the token tables and the users as they were, exactly when its failure does not come
after the statement that rotates the session or consumes the token. -/
theorem credentials_atomic_iff (cfg : AuthConfig) (plan : AuthStmt → AuthOutcome) (db : CredDb)
    (token newPassword ipAddress userAgent : String) :
    ((∀ e db', runAlone cfg plan (Auth.refresh cfg token ipAddress userAgent) db =
        (.error e, db') → SameCredentials db db') ↔
      ¬RefreshBreaks cfg plan db token ipAddress userAgent) ∧
    ((∀ r db', handleAlone cfg plan (Auth.resetPassword cfg token newPassword) db = (r, db') →
        r.status ≠ 200 → SameCredentials db db') ↔
      ¬ResetBreaks cfg plan db token newPassword) ∧
    ((∀ r db', handleAlone cfg plan (Auth.verifyEmail cfg token) db = (r, db') →
        r.status ≠ 200 → SameCredentials db db') ↔ ¬VerifyBreaks cfg plan db token) :=
  ⟨refresh_atomic_iff token ipAddress userAgent, resetPassword_atomic_iff token newPassword,
    verifyEmail_atomic_iff token⟩

def noRandomToken : AuthStmt → AuthOutcome
  | .randomToken "rft" _ => { fail := true }
  | _ => {}

theorem refresh_loses_session : ¬∀ (cfg : AuthConfig) (plan : AuthStmt → AuthOutcome) (db : CredDb)
    (token newPassword ipAddress userAgent : String),
    (∀ e db', runAlone cfg plan (Auth.refresh cfg token ipAddress userAgent) db = (.error e, db') →
      SameCredentials db db') ∧
    (∀ r db', handleAlone cfg plan (Auth.resetPassword cfg token newPassword) db = (r, db') →
      r.status ≠ 200 → SameCredentials db db') ∧
    (∀ r db', handleAlone cfg plan (Auth.verifyEmail cfg token) db = (r, db') →
      r.status ≠ 200 → SameCredentials db db') := by
  intro hclaim
  have hclean := (hclaim sampleAuthConfig noRandomToken sampleTokenDb "rft_0" "" "" "").1
  have hbreaks : ¬RefreshBreaks sampleAuthConfig noRandomToken sampleTokenDb "rft_0" "" "" :=
    (refresh_atomic_iff "rft_0" "" "").mp hclean
  exact hbreaks ⟨⟨0, "sess_0", 7, "t1", "ann@example.org", false⟩, by decide +kernel, rfl, rfl, rfl,
    .inl rfl⟩

end NotificationPlatform
