import NotificationPlatform.CredentialFaults

/-!
# The lockout of a login

`Login` reads the lock of the user in one statement and counts a wrong password in another. Called
one after the other, its calls compare a password exactly when fewer than `loginMaxFailures` wrong
ones came before since the last success, or when the last wrong one is a lockout ago: the count
goes on over a lock that has expired, and every further wrong password locks again.
-/

namespace NotificationPlatform

open Lib

section

variable {cfg : AuthConfig} {plan : AuthStmt → AuthOutcome} {db : CredDb} {α β : Type}

def NoErrors (cfg : AuthConfig) (plan : AuthStmt → AuthOutcome) (p : AuthGo α) (db : CredDb) : Prop :=
  p.run.Ends (answers cfg plan) (fun _ r => r.isOk = true) (fun _ _ => True) db

theorem noErrors_bind {p : AuthGo α} {f : α → AuthGo β} (h : NoErrors cfg plan (p >>= f) db) :
    NoErrors cfg plan p db ∧
        ∀ a db', runAlone cfg plan p db = (.ok a, db') → NoErrors cfg plan (f a) db' := by
  unfold NoErrors at h
  rw [ExceptT.run_bind] at h
  have hfirst := h.of_bind
  refine ⟨hfirst.mono fun _ _ _ => trivial, ?_⟩
  intro a db' hrun
  have hrest := hfirst.eval
  unfold runAlone at hrun
  rw [hrun] at hrest
  exact hrest

theorem noErrors_query {s : AuthStmt} (h : NoErrors cfg plan (query s) db) :
    ∃ a, db.exec cfg (plan s) s = (.ok a, (db.answer cfg (plan s) s).2) ∧
      (db.answer cfg (plan s) s).1 = .ok a := by
  have hok : (db.exec cfg (plan s) s).1.isOk = true := h.1
  cases hr : (db.exec cfg (plan s) s).1 with
  | error e => simp [hr, Except.isOk, Except.toBool] at hok
  | ok a =>
      have hexec := CredDb.exec_ok hr
      refine ⟨a, ?_, hexec ▸ hr⟩
      rw [← hexec, ← hr]

theorem noErrors_query_bind {s : AuthStmt} {f : s.Result → AuthGo α}
    (h : NoErrors cfg plan (query s >>= f) db) :
    ∃ a, (db.answer cfg (plan s) s).1 = .ok a ∧
      NoErrors cfg plan (f a) (db.answer cfg (plan s) s).2 ∧
      runAlone cfg plan (query s >>= f) db =
        runAlone cfg plan (f a) (db.answer cfg (plan s) s).2 := by
  obtain ⟨hquery, hrest⟩ := noErrors_bind h
  obtain ⟨a, hexec, hanswer⟩ := noErrors_query hquery
  have hrun : runAlone cfg plan (query s) db = db.exec cfg (plan s) s := rfl
  refine ⟨a, hanswer, hrest a _ (hrun.trans hexec), ?_⟩
  rw [runAlone_query_bind, hexec]

theorem noErrors_tryQuery_bind {s : AuthStmt} {f : Except String s.Result → AuthGo α}
    (h : NoErrors cfg plan (tryQuery s >>= f) db) :
    ∃ a, (db.answer cfg (plan s) s).1 = .ok a ∧
      NoErrors cfg plan (f (.ok a)) (db.answer cfg (plan s) s).2 ∧
      runAlone cfg plan (tryQuery s >>= f) db =
        runAlone cfg plan (f (.ok a)) (db.answer cfg (plan s) s).2 := by
  have hquery : NoErrors cfg plan (query s) db := ⟨h.1, trivial⟩
  obtain ⟨a, hexec, hanswer⟩ := noErrors_query hquery
  have hrun : runAlone cfg plan (tryQuery s) db =
      (.ok (.ok a), (db.answer cfg (plan s) s).2) := by
    show (Except.ok (db.exec cfg (plan s) s).1, (db.exec cfg (plan s) s).2) = _
    rw [hexec]
  refine ⟨a, hanswer, (noErrors_bind h).2 _ _ hrun, ?_⟩
  rw [runAlone_bind, hrun]

end

/-- The active user that the query of `Login` finds. -/
def CredDb.FindsUser (db : CredDb) (email : String) (userID : Nat) (u : Account) : Prop :=
  db.accounts.rows.find? (fun r => r.2.email == email && r.2.status == "active") = some (userID, u)

def CredDb.SameUsers (db db' : CredDb) : Prop :=
  db'.accounts = db.accounts ∧ db'.tenantUsers = db.tenantUsers

section

variable {db db' : CredDb} {email : String} {userID : Nat} {u : Account}

theorem CredDb.FindsUser.get? (h : db.FindsUser email userID u) :
    db.accounts.get? userID = some u :=
  Table.get?_eq_some.mpr (List.mem_of_find?_eq_some h)

theorem CredDb.FindsUser.selectLogin (h : db.FindsUser email userID u) :
    ∃ row, db.selectLogin email = some row ∧ row.userID = userID ∧
      row.passwordHash = u.passwordHash ∧ row.lockedUntil = u.lockedUntil := by
  unfold CredDb.FindsUser at h
  unfold CredDb.selectLogin
  rw [h]
  exact ⟨_, rfl, rfl, rfl, rfl⟩

theorem CredDb.FindsUser.modify (h : db.FindsUser email userID u) {f : Account → Account}
    (hf : ∀ a, (f a).email = a.email ∧ (f a).status = a.status)
    (haccounts : db'.accounts = db.accounts.modify userID f) : db'.FindsUser email userID (f u) := by
  have hsame : (fun r : Nat × Account => r.2.email == email && r.2.status == "active") ∘
      (fun r : Nat × Account => (r.1, if r.1 = userID then f r.2 else r.2)) =
      fun r => r.2.email == email && r.2.status == "active" := by
    funext r
    by_cases hr : r.1 = userID
    · simp [hr, hf]
    · simp [hr]
  unfold CredDb.FindsUser at h ⊢
  rw [haccounts]
  unfold Table.modify
  dsimp only
  rw [List.find?_map, hsame, h]
  simp

end

def Account.fail (cfg : AuthConfig) (now : Nat) (u : Account) : Account :=
  { u with
    failedLoginCount := u.failedLoginCount + 1
    lockedUntil := if cfg.loginMaxFailures ≤ u.failedLoginCount + 1 then
      some (now + cfg.loginLockout) else u.lockedUntil }

def Account.clear (u : Account) : Account := { u with failedLoginCount := 0, lockedUntil := none }

section

variable {cfg : AuthConfig} {plan : AuthStmt → AuthOutcome} {db : CredDb} {email : String}
  {userID : Nat} {u : Account} {password ip agent : String}

private theorem createSession_clean {c : Claims}
    (h : NoErrors cfg plan (Auth.createSession cfg c ip agent) db) :
    ∃ token db', runAlone cfg plan (Auth.createSession cfg c ip agent) db = (.ok token, db') ∧
      db.SameUsers db' := by
  have hinsert : ∀ (new : NewSession) (token : String),
      NoErrors cfg plan (query (.insertSession new) >>= fun _ => pure token) db →
      ∃ db', runAlone cfg plan (query (.insertSession new) >>= fun _ => pure token) db =
        (.ok token, db') ∧ db.SameUsers db' := by
    intro new token hclean
    obtain ⟨done, hanswer, -, hrun⟩ := noErrors_query_bind hclean
    refine ⟨_, hrun, ?_⟩
    cases hnew : db.insertSession cfg (plan (.insertSession new)).newID new with
    | none => simp [CredDb.answer, hnew] at hanswer
    | some db' =>
        simp only [CredDb.answer, hnew]
        unfold CredDb.insertSession at hnew
        split at hnew
        · obtain rfl := Option.some.inj hnew
          exact ⟨rfl, rfl⟩
        · simp at hnew
  unfold Auth.createSession at h ⊢
  obtain ⟨token, -, hclean, hrun⟩ := noErrors_query_bind h
  rw [hrun]
  by_cases hsession : c.sessionID = ""
  · rw [if_pos hsession] at hclean ⊢
    obtain ⟨sessionID, -, hclean', hrun'⟩ := noErrors_query_bind hclean
    rw [hrun']
    obtain ⟨db', hdone, hsame⟩ := hinsert _ token hclean'
    exact ⟨token, db', hdone, hsame⟩
  · rw [if_neg hsession] at hclean ⊢
    obtain ⟨db', hdone, hsame⟩ := hinsert _ token hclean
    exact ⟨token, db', hdone, hsame⟩

def Account.locked (u : Account) (now : Nat) : Bool :=
  u.lockedUntil.any fun lockedUntil => now < lockedUntil

/-- What a call does that no statement fails of: it is refused before the end of the lock; it
counts a wrong password; it succeeds with a right one, and clears the count and the lock. -/
theorem login_alone (hfound : db.FindsUser email userID u)
    (hclean : NoErrors cfg plan (Auth.login cfg email password ip agent) db) :
    (u.locked db.now = true → runAlone cfg plan (Auth.login cfg email password ip agent) db =
      (.error "account temporarily locked", db)) ∧
    (u.locked db.now = false → cfg.compareHash u.passwordHash password = false →
      runAlone cfg plan (Auth.login cfg email password ip agent) db =
        (.error "invalid credentials", db.failPassword cfg userID)) ∧
    (u.locked db.now = false → cfg.compareHash u.passwordHash password = true →
      ∃ pair db', runAlone cfg plan (Auth.login cfg email password ip agent) db = (.ok pair, db') ∧
        db'.accounts = db.accounts.modify userID Account.clear ∧
        db'.tenantUsers = db.tenantUsers) := by
  obtain ⟨row, hrow, rfl, hhash, hlock⟩ := hfound.selectLogin
  unfold Auth.login at hclean ⊢
  obtain ⟨found, hanswer, hnext, hrun⟩ := noErrors_tryQuery_bind hclean
  simp only [CredDb.answer, hrow, CredDb.row] at hanswer
  obtain rfl := Except.ok.inj hanswer
  have hread : (db.answer cfg (plan (.selectLogin email)) (.selectLogin email)).2 = db := rfl
  rw [hread] at hnext hrun
  obtain ⟨now, hnow, hrest, hrun'⟩ := noErrors_query_bind hnext
  obtain rfl := Except.ok.inj hnow
  have hclock : (db.answer cfg (plan .now) .now).2 = db := rfl
  rw [hclock] at hrest hrun'
  unfold Account.locked
  rw [hrun, hrun', ← hlock, ← hhash]
  refine ⟨?_, ?_, ?_⟩
  · intro hlocked
    rw [if_pos hlocked]
    rfl
  · intro hlocked hwrong
    rw [if_neg (by simp [hlocked]), if_pos (by simp [hwrong])] at hrest ⊢
    obtain ⟨done, -, -, hfail⟩ := noErrors_tryQuery_bind hrest
    rw [hfail]
    rfl
  · intro hlocked hright
    rw [if_neg (by simp [hlocked]), if_neg (by simp [hright])] at hrest ⊢
    obtain ⟨permissions, -, hrest, hrun⟩ := noErrors_query_bind hrest
    rw [hrun]
    obtain ⟨sessionID, -, hrest, hrun⟩ := noErrors_query_bind hrest
    rw [hrun]
    dsimp only at hrest ⊢
    obtain ⟨hcreate, hafter⟩ := noErrors_bind hrest
    obtain ⟨token, db', hcreated, haccounts, htenants⟩ := createSession_clean hcreate
    rw [runAlone_bind, hcreated]
    obtain ⟨access, -, hrest, hrun⟩ := noErrors_query_bind (hafter token db' hcreated)
    dsimp only
    rw [hrun]
    obtain ⟨done, -, -, hrun⟩ := noErrors_tryQuery_bind hrest
    rw [hrun]
    refine ⟨_, _, rfl, ?_, ?_⟩
    · show db'.accounts.modify row.userID Account.clear = _
      rw [haccounts]
      rfl
    · exact htenants

end

/-- A call of `Login`: when it comes, what it brings, and how its statements end. -/
structure LoginCall where
  time : Nat
  password : String
  ipAddress : String
  userAgent : String
  plan : AuthStmt → AuthOutcome

/-- What became of a call: it was refused as locked, or the password was compared. -/
inductive LoginVerdict where
  | refused
  | wrong
  | right
  deriving DecidableEq, Repr

def loginVerdict : Except String TokenPair → LoginVerdict
  | .ok _ => .right
  | .error e => if e = "account temporarily locked" then .refused else .wrong

section

variable (cfg : AuthConfig) (email : String)

namespace CredDb

def serveLogin (db : CredDb) (c : LoginCall) : Except String TokenPair × CredDb :=
  runAlone cfg c.plan (Auth.login cfg email c.password c.ipAddress c.userAgent)
    { db with now := c.time }

def serveLogins (db : CredDb) (calls : List LoginCall) : CredDb :=
  calls.foldl (fun db c => (db.serveLogin cfg email c).2) db

def loginHistory (db : CredDb) : List LoginCall → List (Nat × LoginVerdict)
  | [] => []
  | c :: rest =>
      (c.time, loginVerdict (db.serveLogin cfg email c).1) ::
        loginHistory (db.serveLogin cfg email c).2 rest

/-- No statement of any of the calls returns an error. -/
def CleanLogins (db : CredDb) : List LoginCall → Prop
  | [] => True
  | c :: rest =>
      NoErrors cfg c.plan (Auth.login cfg email c.password c.ipAddress c.userAgent)
          { db with now := c.time } ∧
        CleanLogins (db.serveLogin cfg email c).2 rest

end CredDb

end

def LoginVerdict.count (n : Nat) : LoginVerdict → Nat
  | .refused => n
  | .wrong => n + 1
  | .right => 0

def wrongSinceRight (h : List (Nat × LoginVerdict)) : Nat :=
  h.foldl (fun n c => c.2.count n) 0

def lastWrong (h : List (Nat × LoginVerdict)) : Option Nat :=
  h.foldl (fun last c => if c.2 = .wrong then some c.1 else last) none

/-- A call at this time has its password compared: fewer wrong ones than the limit came before, or
the last of them is a lockout ago. -/
def MayCompare (cfg : AuthConfig) (h : List (Nat × LoginVerdict)) (time : Nat) : Prop :=
  wrongSinceRight h < cfg.loginMaxFailures ∨
    ∀ last, lastWrong h = some last → last + cfg.loginLockout ≤ time

structure Account.Tracks (cfg : AuthConfig) (h : List (Nat × LoginVerdict)) (u : Account) : Prop where
  count : u.failedLoginCount = wrongSinceRight h
  unlocked : wrongSinceRight h < cfg.loginMaxFailures → u.lockedUntil = none
  lock : cfg.loginMaxFailures ≤ wrongSinceRight h →
    ∃ last, lastWrong h = some last ∧ u.lockedUntil = some (last + cfg.loginLockout)

section

variable {cfg : AuthConfig} {email : String} {db : CredDb} {userID : Nat} {u : Account}
  {h : List (Nat × LoginVerdict)} {c : LoginCall}

private theorem wrongSinceRight_concat (time : Nat) (v : LoginVerdict) :
    wrongSinceRight (h ++ [(time, v)]) = v.count (wrongSinceRight h) := by
  simp [wrongSinceRight]

private theorem lastWrong_concat (time : Nat) (v : LoginVerdict) :
    lastWrong (h ++ [(time, v)]) = if v = .wrong then some time else lastWrong h := by
  simp [lastWrong]

theorem Account.Tracks.locked_iff (htracks : u.Tracks cfg h) (time : Nat) :
    u.locked time = false ↔ MayCompare cfg h time := by
  unfold Account.locked MayCompare
  by_cases hcount : wrongSinceRight h < cfg.loginMaxFailures
  · rw [htracks.unlocked hcount]
    simp [hcount]
  · obtain ⟨last, hlast, hlock⟩ := htracks.lock (not_lt.mp hcount)
    rw [hlock, hlast]
    simp [hcount]

theorem serveLogin_step (hN : 1 ≤ cfg.loginMaxFailures) (hfound : db.FindsUser email userID u)
    (htracks : u.Tracks cfg h)
    (hclean : NoErrors cfg c.plan (Auth.login cfg email c.password c.ipAddress c.userAgent)
      { db with now := c.time }) :
    ∃ u', (db.serveLogin cfg email c).2.FindsUser email userID u' ∧
      u'.passwordHash = u.passwordHash ∧
      u'.Tracks cfg (h ++ [(c.time, loginVerdict (db.serveLogin cfg email c).1)]) := by
  have hfound' : CredDb.FindsUser { db with now := c.time } email userID u := hfound
  obtain ⟨hlocked, hwrong, hright⟩ := login_alone hfound' hclean
  cases hlock : u.locked c.time with
  | true =>
      have hserve := hlocked hlock
      unfold CredDb.serveLogin
      rw [hserve]
      refine ⟨u, hfound', rfl, ?_⟩
      have hverdict : loginVerdict (.error "account temporarily locked") = .refused := rfl
      have hcount := wrongSinceRight_concat (h := h) c.time .refused
      have hlast := lastWrong_concat (h := h) c.time .refused
      rw [hverdict]
      refine ⟨?_, ?_, ?_⟩
      · rw [hcount]
        exact htracks.count
      · rw [hcount]
        exact htracks.unlocked
      · rw [hcount, hlast]
        exact htracks.lock
  | false =>
      cases hmatch : cfg.compareHash u.passwordHash c.password with
      | false =>
          have hserve := hwrong hlock hmatch
          unfold CredDb.serveLogin
          rw [hserve]
          have hmodify : (CredDb.failPassword cfg { db with now := c.time } userID).FindsUser email
              userID (u.fail cfg c.time) :=
            hfound'.modify (f := Account.fail cfg c.time) (fun _ => ⟨rfl, rfl⟩) rfl
          refine ⟨u.fail cfg c.time, hmodify, rfl, ?_⟩
          have hverdict : loginVerdict (.error "invalid credentials") = .wrong := rfl
          have hcount := wrongSinceRight_concat (h := h) c.time .wrong
          have hlast := lastWrong_concat (h := h) c.time .wrong
          have hfail : (u.fail cfg c.time).lockedUntil =
              if cfg.loginMaxFailures ≤ wrongSinceRight h + 1 then
                some (c.time + cfg.loginLockout) else u.lockedUntil := by
            rw [← htracks.count]
            rfl
          rw [hverdict]
          refine ⟨?_, ?_, ?_⟩
          · rw [hcount, ← htracks.count]
            rfl
          · rw [hcount, hfail]
            intro hlt
            have hlt' : wrongSinceRight h + 1 < cfg.loginMaxFailures := hlt
            rw [if_neg (by omega)]
            exact htracks.unlocked (by omega)
          · rw [hcount, hfail, hlast]
            intro hle
            exact ⟨c.time, rfl, if_pos hle⟩
      | true =>
          obtain ⟨pair, db', hserve, haccounts, -⟩ := hright hlock hmatch
          unfold CredDb.serveLogin
          rw [hserve]
          have hcleared := hfound'.modify (f := Account.clear) (fun _ => ⟨rfl, rfl⟩) haccounts
          refine ⟨u.clear, hcleared, rfl, ?_⟩
          have hverdict : loginVerdict (.ok pair) = .right := rfl
          have hcount := wrongSinceRight_concat (h := h) c.time .right
          rw [hverdict]
          refine ⟨?_, ?_, ?_⟩
          · show 0 = _
            exact hcount.symm
          · intro _
            rfl
          · intro hle
            rw [hcount] at hle
            have hzero : cfg.loginMaxFailures ≤ 0 := hle
            omega

theorem serveLogins_tracks (hN : 1 ≤ cfg.loginMaxFailures) {calls : List LoginCall}
    (hfound : db.FindsUser email userID u) (htracks : u.Tracks cfg h)
    (hclean : db.CleanLogins cfg email calls) :
    ∃ u', (db.serveLogins cfg email calls).FindsUser email userID u' ∧
      u'.passwordHash = u.passwordHash ∧ u'.Tracks cfg (h ++ db.loginHistory cfg email calls) := by
  induction calls generalizing db u h with
  | nil => exact ⟨u, hfound, rfl, by simpa [CredDb.loginHistory] using htracks⟩
  | cons c rest ih =>
      obtain ⟨u₁, hfound₁, hhash₁, htracks₁⟩ := serveLogin_step hN hfound htracks hclean.1
      obtain ⟨u₂, hfound₂, hhash₂, htracks₂⟩ := ih hfound₁ htracks₁ hclean.2
      refine ⟨u₂, hfound₂, hhash₂.trans hhash₁, ?_⟩
      simpa [CredDb.loginHistory] using htracks₂

private theorem cleanLogins_concat {before : List LoginCall}
    (hclean : db.CleanLogins cfg email (before ++ [c])) :
    db.CleanLogins cfg email before ∧
      NoErrors cfg c.plan (Auth.login cfg email c.password c.ipAddress c.userAgent)
        { db.serveLogins cfg email before with now := c.time } := by
  induction before generalizing db with
  | nil => exact ⟨trivial, hclean.1⟩
  | cons b rest ih =>
      obtain ⟨hrest, hlast⟩ := ih hclean.2
      exact ⟨⟨hclean.1, hrest⟩, hlast⟩

/-- Called one after the other, the calls for a user compare a password exactly when the history
of the calls before allows it; the others are refused and change neither the count nor the lock,
and a right password succeeds and clears both. -/
theorem login_lockout_exact (hN : 1 ≤ cfg.loginMaxFailures)
    (hfound : db.FindsUser email userID u) (hcount : u.failedLoginCount = 0)
    (hlock : u.lockedUntil = none) (before : List LoginCall) (c : LoginCall)
    (hclean : db.CleanLogins cfg email (before ++ [c])) :
    let db' := db.serveLogins cfg email before
    let answer := db'.serveLogin cfg email c
    (loginVerdict answer.1 ≠ .refused ↔
        MayCompare cfg (db.loginHistory cfg email before) c.time) ∧
      (loginVerdict answer.1 = .refused →
        answer.1 = .error "account temporarily locked" ∧ answer.2.accounts = db'.accounts) ∧
      (loginVerdict answer.1 ≠ .refused → cfg.compareHash u.passwordHash c.password = false →
        answer.1 = .error "invalid credentials") ∧
      (loginVerdict answer.1 ≠ .refused → cfg.compareHash u.passwordHash c.password = true →
        (∃ pair, answer.1 = .ok pair) ∧ ∃ u', answer.2.accounts.get? userID = some u' ∧
          u'.failedLoginCount = 0 ∧ u'.lockedUntil = none) := by
  intro db' answer
  obtain ⟨hbefore, hcall⟩ := cleanLogins_concat hclean
  have htracks : u.Tracks cfg [] := by
    refine ⟨hcount, fun _ => hlock, ?_⟩
    intro hle
    have hzero : cfg.loginMaxFailures ≤ 0 := hle
    omega
  obtain ⟨u₁, hfound₁, hhash₁, htracks₁⟩ := serveLogins_tracks hN hfound htracks hbefore
  have hmay := htracks₁.locked_iff c.time
  rw [List.nil_append] at hmay
  have hfound' : CredDb.FindsUser { db' with now := c.time } email userID u₁ := hfound₁
  obtain ⟨hlocked, hwrong, hright⟩ := login_alone hfound' hcall
  rw [hhash₁] at hwrong hright
  cases hstate : u₁.locked c.time with
  | true =>
      have hanswer : answer = (.error "account temporarily locked", { db' with now := c.time }) :=
        hlocked hstate
      have hverdict : loginVerdict answer.1 = .refused := by
        rw [hanswer]
        rfl
      have hnot : ¬MayCompare cfg (db.loginHistory cfg email before) c.time := by
        rw [← hmay, hstate]
        simp
      refine ⟨iff_of_false (not_not.mpr hverdict) hnot, fun _ => ?_, fun hne => absurd hverdict hne,
        fun hne => absurd hverdict hne⟩
      rw [hanswer]
      exact ⟨rfl, rfl⟩
  | false =>
      have hyes := hmay.mp hstate
      cases hmatch : cfg.compareHash u.passwordHash c.password with
      | false =>
          have hanswer : answer.1 = .error "invalid credentials" := by
            rw [show answer = _ from hwrong hstate hmatch]
          have hverdict : loginVerdict answer.1 ≠ .refused := by
            rw [hanswer]
            decide
          exact ⟨iff_of_true hverdict hyes, fun h => absurd h hverdict, fun _ _ => hanswer,
            fun _ h => absurd h (by simp)⟩
      | true =>
          obtain ⟨pair, after, hserve, haccounts, -⟩ := hright hstate hmatch
          have hanswer : answer = (.ok pair, after) := hserve
          have hverdict : loginVerdict answer.1 ≠ .refused := by
            rw [hanswer]
            simp [loginVerdict]
          refine ⟨iff_of_true hverdict hyes, fun h => absurd h hverdict,
            fun _ h => absurd h (by simp), fun _ _ => ⟨⟨pair, by rw [hanswer]⟩, u₁.clear, ?_, rfl, rfl⟩⟩
          rw [hanswer, haccounts, Table.get?_modify_self, hfound'.get?]
          rfl

end

def sampleLogin (time : Nat) (password : String) : LoginCall :=
  ⟨time, password, "10.0.0.1", "browser", fun _ => { random := "x", newID := 1 }⟩

/-- A wrong password, then the right one, with a limit of two. -/
theorem login_after_wrong :
    let cfg := { sampleAuthConfig with loginMaxFailures := 2 }
    let db := sampleCredDb.serveLogins cfg "ann@example.org" [sampleLogin 1000 "guess"]
    ∃ pair, (db.serveLogin cfg "ann@example.org" (sampleLogin 1001 "secret")).1 = .ok pair := by
  intro cfg db
  have hclean : sampleCredDb.CleanLogins cfg "ann@example.org"
      ([sampleLogin 1000 "guess"] ++ [sampleLogin 1001 "secret"]) :=
    ⟨⟨rfl, rfl, rfl, trivial⟩, ⟨rfl, rfl, rfl, rfl, rfl, rfl, rfl, rfl, trivial⟩, trivial⟩
  have hlimit : 1 ≤ cfg.loginMaxFailures := by decide
  have hfound : sampleCredDb.FindsUser "ann@example.org" 7
      ⟨"ann@example.org", "bcrypt:secret", false, "active", 0, none, none, none⟩ := rfl
  obtain ⟨hmay, -, -, hright⟩ := login_lockout_exact hlimit hfound rfl rfl
    [sampleLogin 1000 "guess"] (sampleLogin 1001 "secret") hclean
  exact (hright (hmay.mpr (.inl (by decide))) rfl).1

end NotificationPlatform
