import NotificationPlatform.Revocation
import NotificationPlatform.Sessions

/-!
# What an access token certifies

An access token is believed for as long as it lives, without a look at the database. What it says
was read from the database by the `Login` or `Refresh` that signed it: the account was active, the
tenant was the user's, and the permissions were the effective ones. So a change of roles has
reached every token in use once the time to live of a token has passed.
-/

namespace NotificationPlatform

open Lib

def AnsweredBy (cfg : AuthConfig) (P : CredDb → Prop) (s : AuthStmt) (r : AuthReply s) : Prop :=
  ∃ db o, P db ∧ r = (db.exec cfg o s).1

/-- The user may act for the tenant: as one of its active users, by a live session for it, or for
no tenant at all. -/
def ActsFor (db : CredDb) (userID : Nat) (tenantID : String) : Prop :=
  tenantID = "" ∨
  (∃ tu ∈ db.tenantUsers, tu.userID = userID ∧ tu.tenantID = tenantID ∧ tu.status = "active") ∨
  ∃ id s, db.sessions.get? id = some s ∧ s.userID = userID ∧ s.tenantID = some tenantID ∧
    s.status = .active ∧ db.now < s.expiresAt

def AccountClaims (P : CredDb → Prop) (c : Claims) : Prop :=
  ∃ db u, P db ∧ db.accounts.get? c.principal.userID = some u ∧ u.status = "active" ∧
    u.email = c.email ∧ u.isPlatformAdmin = c.principal.isPlatform ∧
    ActsFor db c.principal.userID c.principal.tenantID

def CurrentPermissions (P : CredDb → Prop) (c : Claims) : Prop :=
  ∃ db, P db ∧ c.principal.permissions =
    db.auth.effectivePermissions c.principal.userID c.principal.tenantID

def Certified (P : CredDb → Prop) (c : Claims) : Prop :=
  AccountClaims P c ∧ CurrentPermissions P c

/-- A statement that neither signs nor acts for the owner of a one-time token. -/
def AuthStmt.plain : AuthStmt → Bool
  | .sign _ | .setPassword _ _ | .setEmailVerified _ => false
  | _ => true

def signsCertified (P : CredDb → Prop) (s : AuthStmt) : Prop := ∀ c, s = .sign c → Certified P c

namespace CredDb

variable {cfg : AuthConfig} {db : CredDb}

theorem selectLogin_eq_some {email : String} {row : LoginRow}
    (h : db.selectLogin email = some row) :
    ∃ u, db.accounts.get? row.userID = some u ∧ u.status = "active" ∧ u.email = row.email ∧
      u.isPlatformAdmin = row.isPlatform ∧ ActsFor db row.userID row.tenantID := by
  unfold selectLogin at h
  split at h
  · simp at h
  · next userID u hfind =>
      obtain rfl := Option.some.inj h
      have hmatch := List.find?_some hfind
      simp only [Bool.and_eq_true, beq_iff_eq] at hmatch
      refine ⟨u, Table.get?_eq_some.mpr (List.mem_of_find?_eq_some hfind), hmatch.2, rfl, rfl, ?_⟩
      cases htenant : db.tenantUsers.find? fun tu =>
          tu.userID == userID && tu.status == "active" with
      | none => exact .inl rfl
      | some tu =>
          have htu := List.find?_some htenant
          simp only [Bool.and_eq_true, beq_iff_eq] at htu
          exact .inr (.inl ⟨tu, List.mem_of_find?_eq_some htenant, htu.1, rfl, htu.2⟩)

theorem selectSession_account {hash : String} {row : SessionRow}
    (h : db.selectSession hash = some row) :
    ∃ u, db.accounts.get? row.userID = some u ∧ u.status = "active" ∧ u.email = row.email ∧
      u.isPlatformAdmin = row.isPlatform ∧ ActsFor db row.userID row.tenantID := by
  unfold selectSession at h
  split at h
  · simp at h
  · next id s hfind =>
      obtain ⟨u, hu, rfl⟩ := Option.map_eq_some_iff.mp h
      obtain ⟨-, hactive, hlive, u', hu', hstatus⟩ := liveSession_eq_true.mp (List.find?_some hfind)
      obtain rfl : u = u' := Option.some.inj (hu.symm.trans hu')
      refine ⟨u, hu, hstatus, rfl, rfl, ?_⟩
      cases htenant : s.tenantID with
      | none => exact .inl rfl
      | some tenantID =>
          exact .inr (.inr ⟨id, s, Table.get?_eq_some.mpr (List.mem_of_find?_eq_some hfind), rfl,
            htenant, hactive, hlive⟩)

end CredDb

section

variable {cfg : AuthConfig} {P : CredDb → Prop}

private theorem AnsweredBy.answer {s : AuthStmt} {a : s.Result} (h : AnsweredBy cfg P s (.ok a)) :
    ∃ db o, P db ∧ (db.answer cfg o s).1 = .ok a := by
  obtain ⟨db, o, hP, hr⟩ := h
  exact ⟨db, o, hP, by rw [← CredDb.exec_ok hr.symm]; exact hr.symm⟩

theorem CredDb.row_eq_ok {α : Type} {x : Option α} {a : α} (h : CredDb.row x = .ok a) :
    x = some a := by
  cases x with
  | none => simp [CredDb.row] at h
  | some b => simpa [CredDb.row] using h

section

variable {A : (s : AuthStmt) → AuthReply s → Prop} {C : AuthStmt → Prop} {α β : Type}

private theorem makes_bind {p : AuthGo α} {f : α → AuthGo β} (hp : p.run.Makes A C)
    (hf : ∀ a, (f a).run.Makes A C) : (p >>= f).run.Makes A C := by
  refine hp.bind fun r => ?_
  cases r with
  | error e => trivial
  | ok a => exact hf a

private theorem makes_query {s : AuthStmt} {f : s.Result → AuthGo β} (hs : C s)
    (hf : ∀ a, A s (.ok a) → (f a).run.Makes A C) : (query s >>= f).run.Makes A C := by
  refine ⟨hs, fun r hr => ?_⟩
  cases r with
  | error e => trivial
  | ok a => exact hf a hr

private theorem makes_tryQuery {s : AuthStmt} {f : Except String s.Result → AuthGo β} (hs : C s)
    (hf : ∀ r, A s r → (f r).run.Makes A C) : (tryQuery s >>= f).run.Makes A C :=
  ⟨hs, hf⟩

private theorem makes_pure (a : α) : (pure a : AuthGo α).run.Makes A C := trivial

private theorem makes_throw (e : String) : (throw e : AuthGo α).run.Makes A C := trivial

private theorem makes_ask {s : AuthStmt} {f : AuthReply s → AuthCode α} (hs : C s)
    (hf : ∀ r, A s r → (f r).Makes A C) : (ask s >>= f).Makes A C :=
  ⟨hs, hf⟩

end

private theorem certified_of_read {userID : Nat} {tenantID email sessionID : String}
    {isPlatform : Bool} {permissions : List String}
    (haccount : ∃ db u, P db ∧ db.accounts.get? userID = some u ∧ u.status = "active" ∧
      u.email = email ∧ u.isPlatformAdmin = isPlatform ∧ ActsFor db userID tenantID)
    (hread : AnsweredBy cfg P (.selectPermissions userID tenantID) (.ok permissions)) :
    Certified P (Auth.claimsOf userID tenantID email isPlatform sessionID permissions) := by
  obtain ⟨db, o, hP, hanswer⟩ := hread.answer
  have hpermissions : db.auth.effectivePermissions userID tenantID = permissions := by
    simpa [CredDb.answer] using hanswer
  exact ⟨haccount, db, hP, hpermissions.symm⟩

section

variable {C : AuthStmt → Prop} (hplain : ∀ s, s.plain = true → C s)

include hplain

private theorem createSession_makes (c : Claims) (ip agent : String) :
    (Auth.createSession cfg c ip agent).run.Makes (AnsweredBy cfg P) C := by
  unfold Auth.createSession
  refine makes_query (hplain _ rfl) fun token _ => ?_
  dsimp only
  split
  · exact makes_query (hplain _ rfl) fun sessionID _ =>
      makes_query (hplain _ rfl) fun _ _ => makes_pure _
  · exact makes_bind (makes_pure _) fun sessionID =>
      makes_query (hplain _ rfl) fun _ _ => makes_pure _

variable (hsign : ∀ c, Certified P c → C (.sign c))

include hsign

theorem login_makes (email password ip agent : String) :
    (Auth.login cfg email password ip agent).run.Makes (AnsweredBy cfg P) C := by
  unfold Auth.login
  refine makes_tryQuery (hplain _ rfl) fun r hr => ?_
  cases r with
  | error e => exact makes_throw _
  | ok row =>
      obtain ⟨db, o, hP, hanswer⟩ := hr.answer
      obtain ⟨u, hu⟩ := CredDb.selectLogin_eq_some (CredDb.row_eq_ok hanswer)
      refine makes_query (hplain _ rfl) fun now _ => ?_
      split
      · exact makes_throw _
      · split
        · exact makes_tryQuery (hplain _ rfl) fun _ _ => makes_throw _
        · refine makes_query (hplain _ rfl) fun permissions hread => ?_
          refine makes_query (hplain _ rfl) fun sessionID _ => ?_
          refine makes_bind (createSession_makes hplain _ _ _) fun refreshToken => ?_
          exact makes_query (hsign _ (certified_of_read ⟨db, u, hP, hu⟩ hread))
            fun accessToken _ => makes_tryQuery (hplain _ rfl) fun _ _ => makes_pure _

theorem refresh_makes (token ip agent : String) :
    (Auth.refresh cfg token ip agent).run.Makes (AnsweredBy cfg P) C := by
  unfold Auth.refresh
  refine makes_tryQuery (hplain _ rfl) fun r hr => ?_
  cases r with
  | error e => exact makes_throw _
  | ok row =>
      obtain ⟨db, o, hP, hanswer⟩ := hr.answer
      obtain ⟨u, hu⟩ := CredDb.selectSession_account (CredDb.row_eq_ok hanswer)
      refine makes_query (hplain _ rfl) fun permissions hread => ?_
      refine makes_query (hplain _ rfl) fun _ _ => ?_
      exact makes_query (hsign _ (certified_of_read ⟨db, u, hP, hu⟩ hread)) fun accessToken _ =>
        makes_bind (createSession_makes hplain _ _ _) fun _ => makes_pure _

end

private theorem consumeThen_makes (kind : TokenKind) (hash : String) {write : AuthStmt}
    (unconsumed unwritten done : String) (hwrite : signsCertified P write) :
    (Auth.consumeThen kind hash write unconsumed unwritten done).Makes (AnsweredBy cfg P)
      (signsCertified P) := by
  unfold Auth.consumeThen
  refine makes_ask (by simp [signsCertified]) fun r _ => ?_
  cases r with
  | error e => trivial
  | ok _ =>
      refine makes_ask hwrite fun r _ => ?_
      cases r <;> trivial

private theorem signsCertified_plain {s : AuthStmt} (h : s.plain = true) : signsCertified P s := by
  rintro c rfl
  simp [AuthStmt.plain] at h

private theorem signsCertified_sign {c : Claims} (h : Certified P c) :
    signsCertified P (.sign c) := by
  intro c' hc
  obtain rfl := AuthStmt.sign.inj hc
  exact h

theorem AuthRequest.makes (req : AuthRequest) :
    (req.prog cfg).Makes (AnsweredBy cfg P) (signsCertified P) := by
  cases req with
  | login email password ip agent =>
      exact (login_makes (fun _ => signsCertified_plain) (fun _ => signsCertified_sign) email
        password ip agent).bind fun _ => trivial
  | refresh token ip agent =>
      exact (refresh_makes (fun _ => signsCertified_plain) (fun _ => signsCertified_sign) token ip
        agent).bind fun _ => trivial
  | revoke token =>
      refine Prog.Makes.bind ?_ fun _ => trivial
      exact ⟨by simp [signsCertified], fun r _ => by cases r <;> trivial⟩
  | resetPassword token password =>
      refine Prog.Makes.bind ?_ fun _ => trivial
      unfold Auth.resetPassword
      split
      · trivial
      · split
        · trivial
        · refine makes_ask (by simp [signsCertified]) fun r _ => ?_
          cases r with
          | error e => trivial
          | ok userID =>
              refine makes_ask (by simp [signsCertified]) fun r _ => ?_
              cases r with
              | error e => trivial
              | ok hash => exact consumeThen_makes _ _ _ _ _ (by simp [signsCertified])
  | verifyEmail token =>
      refine Prog.Makes.bind ?_ fun _ => trivial
      unfold Auth.verifyEmail
      split
      · trivial
      · refine makes_ask (by simp [signsCertified]) fun r _ => ?_
        cases r with
        | error e => trivial
        | ok userID => exact consumeThen_makes _ _ _ _ _ (by simp [signsCertified])
  | connect token =>
      refine Prog.Makes.bind ?_ fun _ => trivial
      unfold Auth.validateToken
      refine makes_ask (by simp [signsCertified]) fun r _ => ?_
      cases r with
      | ok client => exact makes_ask (by simp [signsCertified]) fun _ _ => trivial
      | error e =>
          refine makes_ask (by simp [signsCertified]) fun r _ => ?_
          cases r with
          | error e => trivial
          | ok now =>
              dsimp only
              split <;> trivial

end

namespace AuthWorld

variable {cfg : AuthConfig} {ok : AuthWorld → AuthEvent → Prop} {w w' : AuthWorld}
  {es : List AuthEvent}

def PassesDb (cfg : AuthConfig) (ok : AuthWorld → AuthEvent → Prop) (w : AuthWorld)
    (es : List AuthEvent) (w' : AuthWorld) (db : CredDb) : Prop :=
  ∃ u, Passes (step cfg) ok w es w' u ∧ u.db = db

def quiet (w : AuthWorld) : Prop := ∀ th ∈ w.threads, th.prog.next? = none

/-- The event is the call of a request that signs the token. -/
structure Signs (cfg : AuthConfig) (u : AuthWorld) (e : AuthEvent) (v : AuthWorld)
    (access : AccessToken) : Prop where
  asked : ∃ i o req k, e = .call i o ∧ u.threads[i]? = some ⟨req, .call (.sign access.claims) k⟩
  step : u.step cfg e = some v
  issued : access ∈ v.issued
  exp : access.exp = u.db.now + cfg.accessTokenTTL

theorem signed_on_the_way (h : w.RunOf cfg ok es w') {access : AccessToken}
    (hissued : access ∈ w'.issued) : access ∈ w.issued ∨
      ∃ before e rest u v, es = before ++ e :: rest ∧ w.RunOf cfg ok before u ∧
        Signs cfg u e v access ∧ u.RunOf cfg ok (e :: rest) w' := by
  induction h with
  | nil w => exact .inl hissued
  | @cons w v w' e es hok hstep hrest ih =>
      rcases ih hissued with hold | ⟨before, e', rest, u, v', rfl, hbefore, hsigns, hafter⟩
      · rcases step_cases hstep with ⟨req, -, rfl⟩ | ⟨i, o, req, s, k, rfl, hth, rfl⟩ |
          ⟨seconds, -, rfl⟩ | ⟨p, env, req, -, rfl⟩
        · exact .inl hold
        · rcases List.mem_append.mp hold with hkept | hnew
          · exact .inl hkept
          · cases s with
            | sign c =>
                have haccess : access = ⟨c, w.db.now + cfg.accessTokenTTL⟩ := by
                  simpa [CredDb.exec, AuthStmt.canFail, CredDb.answer, signed] using hnew
                subst haccess
                exact .inr ⟨[], _, es, w, _, rfl, .nil w,
                  ⟨⟨i, o, req, k, rfl, hth⟩, hstep, hold, rfl⟩, .cons hok hstep hrest⟩
            | _ => simp [signed] at hnew
        · exact .inl hold
        · exact .inl hold
      · exact .inr ⟨e :: before, e', rest, u, v', rfl, .cons hok hstep hbefore, hsigns, hafter⟩

theorem makes_of_quiet (hquiet : w.quiet) (h : w.RunOf cfg ok es w') :
    ∀ th ∈ w'.threads, th.prog.Makes (AnsweredBy cfg (PassesDb cfg ok w es w'))
      (signsCertified (PassesDb cfg ok w es w')) := by
  let honest (v : AuthWorld) : Prop := ∀ th ∈ v.threads,
    th.prog.Makes (AnsweredBy cfg (PassesDb cfg ok w es w'))
      (signsCertified (PassesDb cfg ok w es w'))
  have hstart : honest w := by
    intro th hth
    have hnext := hquiet th hth
    cases hprog : th.prog with
    | ret a => trivial
    | call s k => simp [hprog, Prog.next?] at hnext
  refine Run.invariant (I := honest) h.passing ?_ hstart
  intro v e v' hv hok hstep
  rcases step_cases hstep with ⟨req, -, rfl⟩ | ⟨i, o, req, s, k, -, hth, rfl⟩ |
    ⟨seconds, -, rfl⟩ | ⟨p, env, req, -, rfl⟩
  · intro th hth
    rcases List.mem_append.mp hth with hth | hth
    · exact hv th hth
    · obtain rfl := List.mem_singleton.mp hth
      exact AuthRequest.makes req
  · intro th hmem
    rcases List.mem_or_eq_of_mem_set hmem with hmem | rfl
    · exact hv th hmem
    · exact (hv _ (List.mem_of_getElem? hth)).2 _ ⟨v.db, o, ⟨v, hok.2, rfl⟩, rfl⟩
  · exact hv
  · exact hv

/-- A token that is signed in a run that begins quietly certifies what databases of the run said
before it was signed. -/
theorem certified_of_signed (hquiet : w.quiet) (h : w.RunOf cfg ok es w') {access : AccessToken}
    (hissued : access ∈ w'.issued) (hnew : access ∉ w.issued) :
    ∃ before e rest u v, es = before ++ e :: rest ∧ w.RunOf cfg ok before u ∧
      Signs cfg u e v access ∧ u.RunOf cfg ok (e :: rest) w' ∧
      Certified (PassesDb cfg ok w before u) access.claims := by
  obtain ⟨before, e, rest, u, v, hes, hbefore, hsigns, hafter⟩ :=
    (signed_on_the_way h hissued).resolve_left hnew
  obtain ⟨i, o, req, k, -, hth⟩ := hsigns.asked
  have hmakes := makes_of_quiet hquiet hbefore _ (List.mem_of_getElem? hth)
  exact ⟨before, e, rest, u, v, hes, hbefore, hsigns, hafter, hmakes.1 _ rfl⟩

theorem issued_of_verifyJWT {text : String} {c : Claims} {now : Nat}
    (hsigned : ∀ access, cfg.parseJWT text = some access → access ∈ w.issued)
    (h : Auth.verifyJWT cfg text now = some c) :
    ∃ access ∈ w.issued, cfg.parseJWT text = some access ∧ access.claims = c ∧
      now < access.exp := by
  unfold Auth.verifyJWT at h
  split at h
  · next access hparse =>
      split at h
      · next hlive => exact ⟨access, hsigned access hparse, hparse, Option.some.inj h, hlive⟩
      · simp at h
  · simp at h

/-- **What is accepted was so.** In every run from an empty system, a token text that `JWT`
accepts, and that only the service can have signed, was signed at a step of the run, less than the
time to live of a token ago; it speaks for an account that was active at a read before that step,
with its email, its platform flag and a tenant it could act for, and with the permissions that were
effective at a read before that step. -/
theorem accepted_claims_certified {cfg : AuthConfig} {ok : AuthWorld → AuthEvent → Prop}
    {db : CredDb} {es : List AuthEvent} {w : AuthWorld} (hrun : (fresh db).RunOf cfg ok es w)
    {text : String} {c : Claims}
    (hsigned : ∀ access, cfg.parseJWT text = some access → access ∈ w.issued)
    (haccepted : Auth.verifyJWT cfg text w.db.now = some c) :
    ∃ access before e rest u v, cfg.parseJWT text = some access ∧ access.claims = c ∧
      w.db.now < access.exp ∧ es = before ++ e :: rest ∧ (fresh db).RunOf cfg ok before u ∧
      Signs cfg u e v access ∧ u.RunOf cfg ok (e :: rest) w ∧
      Certified (PassesDb cfg ok (fresh db) before u) c := by
  obtain ⟨access, hissued, hparse, rfl, hlive⟩ := issued_of_verifyJWT hsigned haccepted
  obtain ⟨before, e, rest, u, v, hes, hbefore, hsigns, hafter, hcertified⟩ :=
    certified_of_signed (w := fresh db) (by simp [quiet, fresh]) hrun hissued (by simp [fresh])
  exact ⟨access, before, e, rest, u, v, hparse, rfl, hlive, hes, hbefore, hsigns, hafter,
    hcertified⟩

theorem exp_le {db : CredDb} (h : (fresh db).RunOf cfg ok es w) {access : AccessToken}
    (hissued : access ∈ w.issued) : access.exp ≤ w.db.now + cfg.accessTokenTTL := by
  obtain ⟨before, e, rest, u, v, -, -, hsigns, hafter⟩ :=
    (signed_on_the_way h hissued).resolve_left (by simp [fresh])
  rw [hsigns.exp]
  exact Nat.add_le_add_right (now_le_run hafter) _

/-- **A change of roles is complete after one time to live.** Where no request is in progress, and from
then on the effective permissions of a user in a tenant never grant `k`, no token of the user for
the tenant that does not speak for the platform passes `RequirePermission(k)` once the time to
live of a token has passed, whatever requests come in meanwhile. -/
theorem permission_gone_after_ttl {cfg : AuthConfig} {ok₀ ok : AuthWorld → AuthEvent → Prop}
    {db : CredDb} {es₀ es : List AuthEvent} {w w' : AuthWorld} {userID : Nat}
    {tenantID k : String} (hstart : (fresh db).RunOf cfg ok₀ es₀ w) (hquiet : w.quiet)
    (hrun : w.RunOf cfg ok es w')
    (hgone : ∀ u, Passes (step cfg) ok w es w' u → hasPermission
      ⟨userID, tenantID, false, u.db.auth.effectivePermissions userID tenantID⟩ k = false)
    (helapsed : w.db.now + cfg.accessTokenTTL ≤ w'.db.now) {text : String} {c : Claims}
    (hsigned : ∀ access, cfg.parseJWT text = some access → access ∈ w'.issued)
    (haccepted : Auth.verifyJWT cfg text w'.db.now = some c)
    (huser : c.principal.userID = userID) (htenant : c.principal.tenantID = tenantID)
    (hplatform : c.principal.isPlatform = false) : w'.passes cfg text k = false := by
  obtain ⟨access, hissued, -, rfl, hlive⟩ := issued_of_verifyJWT hsigned haccepted
  have hnew : access ∉ w.issued := by
    intro hold
    have hle := exp_le hstart hold
    omega
  obtain ⟨before, e, rest, u, u', rfl, hbefore, -, hafter, -, _, ⟨v, hpass, rfl⟩,
    hpermissions⟩ := certified_of_signed hquiet hrun hissued hnew
  have hnone := hgone v (hpass.append hafter)
  have hsame : access.claims.principal =
      ⟨userID, tenantID, false, v.db.auth.effectivePermissions userID tenantID⟩ := by
    rw [← huser, ← htenant, ← hpermissions, ← hplatform]
  rw [passes, haccepted, ← hnone, ← hsame]

/-- The user logs in and the service signs what it reads. -/
theorem accepted_claims_certified_login : ∃ w before e rest u v,
    (fresh sampleCredDb).RunOf sampleAuthConfig (fun _ _ => True) sampleLogin w ∧
    sampleLogin = before ++ e :: rest ∧
    (fresh sampleCredDb).RunOf sampleAuthConfig (fun _ _ => True) before u ∧
    Signs sampleAuthConfig u e v sampleAccess ∧ w.db.now < sampleAccess.exp ∧
    Certified (PassesDb sampleAuthConfig (fun _ _ => True) (fresh sampleCredDb) before u)
      sampleAccess.claims := by
  have hexecuted : (execute (step sampleAuthConfig) (fun _ _ => true) (fresh sampleCredDb)
      sampleLogin).any (fun w => w.issued == [sampleAccess] && w.db.now == 1000) = true := by
    decide +kernel
  obtain ⟨w, hrun, hw⟩ := exists_run hexecuted
  obtain ⟨hissued, hnow⟩ := Bool.and_eq_true_iff.mp hw
  have hparse : ∀ access, sampleAuthConfig.parseJWT "jwt.sess_1" = some access →
      sampleAccess = access := by
    intro access haccess
    simpa [sampleAuthConfig] using haccess
  have hsigned : ∀ access, sampleAuthConfig.parseJWT "jwt.sess_1" = some access →
      access ∈ w.issued := by
    intro access haccess
    rw [← hparse access haccess, beq_iff_eq.mp hissued]
    exact List.mem_singleton.mpr rfl
  have haccepted : Auth.verifyJWT sampleAuthConfig "jwt.sess_1" w.db.now =
      some sampleAccess.claims := by
    rw [beq_iff_eq.mp hnow]
    decide +kernel
  obtain ⟨access, before, e, rest, u, v, haccess, -, hlive, hes, hbefore, hsigns, -,
    hcertified⟩ := accepted_claims_certified hrun hsigned haccepted
  obtain rfl := hparse access haccess
  exact ⟨w, before, e, rest, u, v, hrun, hes, hbefore, hsigns, hlive, hcertified⟩

def sampleLaterAccess : AccessToken :=
  ⟨⟨⟨7, "t1", false, []⟩, "ann@example.org", "sess_2"⟩, 2800⟩

def sampleLaterConfig : AuthConfig :=
  { sampleAuthConfig with
    parseJWT := fun text => if text = "jwt.sess_2" then some sampleLaterAccess else none }

def sampleLaterLogin : List AuthEvent :=
  List.flatten [
    [.clock 900, .start (.login "ann@example.org" "secret" "10.0.0.1" "browser")], calls 1 3,
    [.call 1 { random := "sess_2" }, .call 1 { random := "rft_2" }, .call 1 { newID := 1 }],
    calls 1 2]

def noRoles : AuthEvent → Bool
  | .roles _ _ _ => false
  | _ => true

private theorem auth_step {e : AuthEvent} (hroles : noRoles e = true)
    (h : w.step cfg e = some w') : w'.db.auth = w.db.auth := by
  rcases step_cases h with ⟨req, -, rfl⟩ | ⟨i, o, req, s, k, -, -, rfl⟩ | ⟨seconds, -, rfl⟩ |
    ⟨p, env, req, rfl, -⟩
  · rfl
  · simp only [CredDb.exec]
    split
    · rfl
    · cases s with
      | insertSession new =>
          simp only [CredDb.answer]
          split
          · next db' hdb' =>
              obtain ⟨-, -, _, -, -, rfl⟩ := CredDb.insertSession_eq_some hdb'
              rfl
          · rfl
      | _ => rfl
  · rfl
  · simp [noRoles] at hroles

/-- After the removal the second login brings no permission back. -/
theorem permission_gone_after_ttl_removal : ∃ w',
    (fresh sampleCredDb).RunOf sampleLaterConfig (fun _ _ => True)
      (sampleLogin ++ [sampleRemoval] ++ sampleLaterLogin) w' ∧
    (Auth.verifyJWT sampleLaterConfig "jwt.sess_2" w'.db.now).isSome = true ∧
    w'.passes sampleLaterConfig "jwt.sess_2" "templates.view" = false := by
  let granted (v : AuthWorld) : Bool := hasPermission
    ⟨7, "t1", false, v.db.auth.effectivePermissions 7 "t1"⟩ "templates.view"
  have hexecuted : (execute (step sampleLaterConfig) (fun _ _ => true) (fresh sampleCredDb)
      (sampleLogin ++ [sampleRemoval])).any
        (fun w => w.threads.all (fun th => th.prog.next?.isNone) && !granted w &&
          w.db.now == 1000 &&
          (execute (step sampleLaterConfig) (fun _ e => noRoles e) w sampleLaterLogin).any
            fun w' => w'.db.now == 1900 && w'.issued == [sampleAccess, sampleLaterAccess])
      = true := by decide +kernel
  obtain ⟨w, hrun, hw⟩ := exists_run hexecuted
  simp only [Bool.and_eq_true, List.all_eq_true, Option.isNone_iff_eq_none, beq_iff_eq,
    Bool.not_eq_true'] at hw
  obtain ⟨⟨⟨hquiet, hgone⟩, hnow⟩, hlater⟩ := hw
  have hguard (_ : AuthWorld) (e : AuthEvent) (h : noRoles e = true) : noRoles e = true := h
  obtain ⟨w', hrun', hw'⟩ := Run.exists_of_execute hguard hlater
  simp only [Bool.and_eq_true, beq_iff_eq] at hw'
  obtain ⟨hnow', hissued⟩ := hw'
  have haccepted : Auth.verifyJWT sampleLaterConfig "jwt.sess_2" w'.db.now =
      some sampleLaterAccess.claims := by
    rw [hnow']
    decide +kernel
  refine ⟨w', hrun.append (hrun'.mono fun _ _ _ => trivial), by rw [haccepted]; rfl, ?_⟩
  refine permission_gone_after_ttl hrun hquiet hrun' ?_ ?_ ?_ haccepted rfl rfl rfl
  · rintro u ⟨before, after, -, hbefore, -⟩
    refine Run.invariant (I := fun v => granted v = false) hbefore ?_ hgone
    intro v e v' hv hok hstep
    simp only [granted, auth_step hok hstep]
    exact hv
  · rw [hnow, hnow']
    decide
  · intro access haccess
    obtain rfl : sampleLaterAccess = access := by simpa [sampleLaterConfig] using haccess
    rw [hissued]
    simp

end AuthWorld

end NotificationPlatform
