import NotificationPlatform.Revocation

/-!
# Concurrent guesses of a password

The calls of `Login` interleave at their statements. A call reads the lock of the user, compares the
password and counts a wrong one, in that order; between the first and the last any number of other
calls may read the same open lock. What bounds the guesses is the number of calls that are between
the two, which nothing limits.
-/

namespace NotificationPlatform

open Lib

def AuthStmt.records (userID : Nat) : AuthStmt → Bool
  | .recordFailedPassword id => id == userID
  | _ => false

def isRecording (userID : Nat) (p : AuthCode AuthAnswer) : Bool :=
  p.next?.any (AuthStmt.records userID)

/-- The code is between its reading of the user's row and the counting of a wrong password: it has
compared the password, or it will before the time `last` is over. -/
def isComparing (userID last : Nat) : AuthCode AuthAnswer → Bool
  | .call .now k => isRecording userID (k (.ok last))
  | p => isRecording userID p

namespace AuthWorld

/-- The calls with a wrong password between their reading of the row and their counting. -/
def comparing (userID last : Nat) (w : AuthWorld) : Nat :=
  w.threads.countP fun th => isComparing userID last th.prog

/-- The calls that have compared a wrong password and not counted it yet. -/
def recording (userID : Nat) (w : AuthWorld) : Nat :=
  w.threads.countP fun th => isRecording userID th.prog

def failedCount (userID : Nat) (w : AuthWorld) : Nat :=
  ((w.db.accounts.get? userID).map Account.failedLoginCount).getD 0

def wrongGuess (cfg : AuthConfig) (userID : Nat) (w : AuthWorld) : AuthEvent → Option Nat
  | .call i o =>
      match w.threads[i]? with
      | some ⟨_, .call .now k⟩ =>
          if isRecording userID (k (w.db.exec cfg o .now).1) then some i else none
      | _ => none
  | _ => none

/-- How many wrong passwords of the user a list of events compares. -/
def wrongGuesses (cfg : AuthConfig) (userID : Nat) (w : AuthWorld) (es : List AuthEvent) : Nat :=
  (observed (step cfg) (wrongGuess cfg userID) w es).length

def Within (last : Nat) (w : AuthWorld) : Prop := w.db.now ≤ last

def NoSuccess (userID : Nat) (w : AuthWorld) (e : AuthEvent) : Prop :=
  ∀ i o req k, e = .call i o → w.threads[i]? ≠ some ⟨req, .call (.clearFailures userID) k⟩

def Counted (userID : Nat) (w : AuthWorld) (e : AuthEvent) : Prop :=
  ∀ i o req k, e = .call i o →
    w.threads[i]? = some ⟨req, .call (.recordFailedPassword userID) k⟩ → o.fail = false

/-- A call that reads an open lock finds nobody else between the reading and the counting, or the
failures since the start and those calls are fewer than the limit. -/
def Spaced (cfg : AuthConfig) (userID last start : Nat) (w : AuthWorld) (e : AuthEvent) : Prop :=
  ∀ i o req email k row, e = .call i o →
    w.threads[i]? = some ⟨req, .call (.selectLogin email) k⟩ →
    w.db.selectLogin email = some row → row.userID = userID →
    row.lockedUntil.any (fun lockedUntil => last < lockedUntil) = false →
    w.comparing userID last = 0 ∨
      w.failedCount userID - start + w.comparing userID last < cfg.loginMaxFailures

end AuthWorld

/-- The statement neither reads the row of a login nor the clock, nor counts a wrong password. -/
def AuthStmt.quiet : AuthStmt → Bool
  | .now | .selectLogin _ | .recordFailedPassword _ => false
  | _ => true

/-- What may follow a statement: only the reading of an open lock lets a call compare a password,
and what compares one at some time compares it at every later one. -/
def MayFollow (userID last : Nat) : (s : AuthStmt) → (AuthReply s → AuthCode AuthAnswer) → Prop
  | .selectLogin _, k => ∀ r, isRecording userID (k r) = false ∧
      (isComparing userID last (k r) = true → ∃ row : LoginRow, r = .ok row ∧ row.userID = userID ∧
        row.lockedUntil.any (fun lockedUntil => last < lockedUntil) = false)
  | .now, k => ∀ r, isComparing userID last (k r) = isRecording userID (k r) ∧
      (isRecording userID (k r) = true → ∃ t : Nat, r = .ok t ∧
        (t ≤ last → isRecording userID (k (.ok last)) = true))
  | _, k => ∀ r, isComparing userID last (k r) = false

def Guarded (userID last : Nat) : AuthCode AuthAnswer → Prop
  | .ret _ => True
  | .call s k => MayFollow userID last s k ∧ ∀ r, Guarded userID last (k r)

abbrev Quiet {α : Type} (p : AuthCode α) : Prop :=
  Prog.Follows (γ := Unit) (fun _ s _ => s.quiet = true) (fun _ _ => True) () p

section

variable {cfg : AuthConfig} {userID last : Nat} {p : AuthCode AuthAnswer}

private theorem quiet_call {α : Type} {s : AuthStmt} {k : AuthReply s → AuthCode α}
    (hs : s.quiet = true) (hk : ∀ r, Quiet (k r)) : Quiet (.call s k) :=
  Prog.follows_call (fun _ => ()) hs hk

private theorem isComparing_of_quiet (h : Quiet p) : isComparing userID last p = false := by
  cases p with
  | ret a => rfl
  | call s k =>
      obtain ⟨-, hs, -⟩ := h
      cases s <;> first | rfl | simp [AuthStmt.quiet] at hs

private theorem isRecording_of_quiet (h : Quiet p) : isRecording userID p = false := by
  cases p with
  | ret a => rfl
  | call s k =>
      obtain ⟨-, hs, -⟩ := h
      cases s <;> first | rfl | simp [AuthStmt.quiet] at hs

private theorem guarded_of_quiet (h : Quiet p) : Guarded userID last p := by
  induction p with
  | ret a => trivial
  | call s k ih =>
      obtain ⟨f, hs, hk⟩ := h
      refine ⟨?_, fun r => ih r (hk r)⟩
      cases s with
      | now => simp [AuthStmt.quiet] at hs
      | selectLogin email => simp [AuthStmt.quiet] at hs
      | recordFailedPassword id => simp [AuthStmt.quiet] at hs
      | _ => exact fun r => isComparing_of_quiet (hk r)

private theorem guarded_call {s : AuthStmt} {k : AuthReply s → AuthCode AuthAnswer}
    (hs : MayFollow userID last s k) (hk : ∀ r, Guarded userID last (k r)) :
    Guarded userID last (.call s k) := ⟨hs, hk⟩

private theorem quiet_refresh (cfg : AuthConfig) (token ip agent : String) :
    Quiet ((AuthRequest.refresh token ip agent).prog cfg) := by
  refine quiet_call rfl ?_
  rintro (e | found)
  · trivial
  refine quiet_call rfl ?_
  rintro (e | permissions)
  · trivial
  refine quiet_call rfl ?_
  rintro (e | -)
  · trivial
  refine quiet_call rfl ?_
  rintro (e | access)
  · trivial
  refine quiet_call rfl ?_
  rintro (e | next)
  · trivial
  dsimp only [Prog.bind, ExceptT.bindCont]
  split
  · refine quiet_call rfl ?_
    rintro (e | sessionID)
    · trivial
    refine quiet_call rfl ?_
    rintro (e | -)
    · trivial
    · trivial
  · refine quiet_call rfl ?_
    rintro (e | -)
    · trivial
    · trivial

private theorem quiet_consume {kind : TokenKind} {hash : String} {write : AuthStmt}
    (hwrite : write.quiet = true) (unconsumed unwritten done : String) :
    Quiet (Auth.consumeThen kind hash write unconsumed unwritten done >>= fun r =>
      .ret (AuthAnswer.response r)) := by
  refine quiet_call rfl ?_
  rintro (e | -)
  · trivial
  refine quiet_call hwrite ?_
  rintro (e | -)
  · trivial
  · trivial

private theorem quiet_resetPassword (cfg : AuthConfig) (token password : String) :
    Quiet ((AuthRequest.resetPassword token password).prog cfg) := by
  unfold AuthRequest.prog
  dsimp only
  unfold Auth.resetPassword
  split
  · trivial
  · split
    · trivial
    · refine quiet_call rfl ?_
      rintro (e | userID)
      · trivial
      refine quiet_call rfl ?_
      rintro (e | hash)
      · trivial
      have hwrite : (AuthStmt.setPassword userID hash).quiet = true := rfl
      exact quiet_consume hwrite _ _ _

private theorem quiet_verifyEmail (cfg : AuthConfig) (token : String) :
    Quiet ((AuthRequest.verifyEmail token).prog cfg) := by
  unfold AuthRequest.prog
  dsimp only
  unfold Auth.verifyEmail
  split
  · trivial
  · refine quiet_call rfl ?_
    rintro (e | userID)
    · trivial
    have hwrite : (AuthStmt.setEmailVerified userID).quiet = true := rfl
    exact quiet_consume hwrite _ _ _

private theorem connect_ends (cfg : AuthConfig) (token : String) (now : Nat) :
    ∃ a, ((match Auth.verifyJWT cfg token now with
      | some c => Prog.ret (some (.jwt, ⟨c.principal.tenantID, toString c.principal.userID, "", ""⟩))
      | none => Prog.ret none : AuthCode (Option (ConnectionKind × WsClient))) >>= fun r =>
        .ret (AuthAnswer.connection r)) = .ret a := by
  split
  · exact ⟨_, rfl⟩
  · exact ⟨_, rfl⟩

private theorem guarded_connect (token : String) :
    Guarded userID last ((AuthRequest.connect token).prog cfg) := by
  refine guarded_call ?_ ?_
  · rintro (e | client)
    · obtain ⟨a, ha⟩ := connect_ends cfg token last
      exact (congrArg (isRecording userID) ha).trans rfl
    · rfl
  · rintro (e | client)
    · refine guarded_call ?_ ?_
      · rintro (e | now)
        · exact ⟨rfl, fun h => absurd h Bool.false_ne_true⟩
        · obtain ⟨a, ha⟩ := connect_ends cfg token now
          have hnone := (congrArg (isRecording userID) ha).trans (rfl : _ = false)
          refine ⟨((congrArg (isComparing userID last) ha).trans rfl).trans hnone.symm, ?_⟩
          intro h
          exact absurd (hnone.symm.trans h) Bool.false_ne_true
      · rintro (e | now)
        · trivial
        · obtain ⟨a, ha⟩ := connect_ends cfg token now
          have hend : Guarded userID last (.ret a) := trivial
          rw [← ha] at hend
          exact hend
    · refine guarded_call (fun _ => rfl) ?_
      intro r
      trivial

private theorem login_shape (cfg : AuthConfig) (email password ip agent : String) :
    ∃ (first : AuthReply (.selectLogin email) → AuthCode AuthAnswer)
      (next : LoginRow → AuthReply .now → AuthCode AuthAnswer),
      (AuthRequest.login email password ip agent).prog cfg = .call (.selectLogin email) first ∧
      (∀ e, ∃ a, first (.error e) = .ret a) ∧ (∀ row, first (.ok row) = .call .now (next row)) ∧
      (∀ row e, ∃ a, next row (.error e) = .ret a) ∧
      ∀ (row : LoginRow) (now : Nat),
        (row.lockedUntil.any (fun lockedUntil => now < lockedUntil) = true →
          ∃ a, next row (.ok now) = .ret a) ∧
        (row.lockedUntil.any (fun lockedUntil => now < lockedUntil) = false →
          cfg.compareHash row.passwordHash password = false →
          ∃ a, next row (.ok now) = .call (.recordFailedPassword row.userID) fun _ => .ret a) ∧
        (row.lockedUntil.any (fun lockedUntil => now < lockedUntil) = false →
          cfg.compareHash row.passwordHash password = true → Quiet (next row (.ok now))) := by
  refine ⟨_, _, rfl, fun e => ⟨_, rfl⟩, fun row => rfl, fun row e => ⟨_, rfl⟩, fun row now =>
    ⟨?_, ?_, ?_⟩⟩
  · intro hlocked
    dsimp only [Prog.bind, ExceptT.bindCont]
    rw [if_pos hlocked]
    exact ⟨_, rfl⟩
  · intro hlocked hwrong
    dsimp only [Prog.bind, ExceptT.bindCont]
    rw [if_neg (by simp [hlocked]), if_pos (by simp [hwrong])]
    exact ⟨_, rfl⟩
  · intro hlocked hright
    dsimp only [Prog.bind, ExceptT.bindCont]
    rw [if_neg (by simp [hlocked]), if_neg (by simp [hright])]
    refine quiet_call rfl ?_
    rintro (e | permissions)
    · trivial
    refine quiet_call rfl ?_
    rintro (e | sessionID)
    · trivial
    refine quiet_call rfl ?_
    rintro (e | token)
    · trivial
    dsimp only [Prog.bind, ExceptT.bindCont]
    split
    · refine quiet_call rfl ?_
      rintro (e | traceID)
      · trivial
      refine quiet_call rfl ?_
      rintro (e | -)
      · trivial
      refine quiet_call rfl ?_
      rintro (e | access)
      · trivial
      exact quiet_call rfl fun _ => trivial
    · refine quiet_call rfl ?_
      rintro (e | -)
      · trivial
      refine quiet_call rfl ?_
      rintro (e | access)
      · trivial
      exact quiet_call rfl fun _ => trivial

private theorem guarded_login (email password ip agent : String) :
    Guarded userID last ((AuthRequest.login email password ip agent).prog cfg) := by
  obtain ⟨first, next, hprog, herror, hrow, herror', hnext⟩ :=
    login_shape cfg email password ip agent
  have hquiet : ∀ a, isComparing userID last (.ret a) = false := fun _ => rfl
  -- whether a call with this row counts a wrong password at a given time
  have hcounts : ∀ (row : LoginRow) (now : Nat),
      (isRecording userID (next row (.ok now)) = true ↔ row.userID = userID ∧
        row.lockedUntil.any (fun lockedUntil => now < lockedUntil) = false ∧
        cfg.compareHash row.passwordHash password = false) ∧
      isComparing userID last (next row (.ok now)) = isRecording userID (next row (.ok now)) ∧
      Guarded userID last (next row (.ok now)) := by
    intro row now
    obtain ⟨hlocked, hwrong, hright⟩ := hnext row now
    cases hlock : row.lockedUntil.any (fun lockedUntil => now < lockedUntil) with
    | true =>
        obtain ⟨a, ha⟩ := hlocked hlock
        rw [ha]
        exact ⟨by simp [isRecording, Prog.next?], rfl, trivial⟩
    | false =>
        cases hmatch : cfg.compareHash row.passwordHash password with
        | false =>
            obtain ⟨a, ha⟩ := hwrong hlock hmatch
            rw [ha]
            refine ⟨?_, rfl, guarded_call (fun _ => rfl) fun _ => trivial⟩
            simp [isRecording, Prog.next?, AuthStmt.records]
        | true =>
            have hq := hright hlock hmatch
            have hnone : isRecording userID (next row (.ok now)) = false := isRecording_of_quiet hq
            exact ⟨by simp [hnone], by rw [isComparing_of_quiet hq, hnone], guarded_of_quiet hq⟩
  rw [hprog]
  refine guarded_call ?_ ?_
  · rintro (e | row)
    · obtain ⟨a, ha⟩ := herror e
      rw [ha]
      exact ⟨rfl, fun h => absurd h Bool.false_ne_true⟩
    · rw [hrow row]
      refine ⟨rfl, ?_⟩
      intro h
      obtain ⟨hid, hopen, -⟩ := (hcounts row last).1.mp h
      exact ⟨row, rfl, hid, hopen⟩
  · rintro (e | row)
    · obtain ⟨a, ha⟩ := herror e
      rw [ha]
      trivial
    rw [hrow row]
    refine guarded_call ?_ ?_
    · rintro (e | now)
      · obtain ⟨a, ha⟩ := herror' row e
        rw [ha]
        exact ⟨rfl, fun h => absurd h Bool.false_ne_true⟩
      · obtain ⟨hiff, hsame, -⟩ := hcounts row now
        refine ⟨hsame, ?_⟩
        intro h
        refine ⟨now, rfl, ?_⟩
        intro hle
        obtain ⟨hid, hopen, hwrong⟩ := hiff.mp h
        refine (hcounts row last).1.mpr ⟨hid, ?_, hwrong⟩
        -- a lock that is open now is open later
        cases hlock : row.lockedUntil with
        | none => rfl
        | some lockedUntil =>
            simp only [hlock, Option.any_some, decide_eq_false_iff_not, not_lt] at hopen ⊢
            omega
    · rintro (e | now)
      · obtain ⟨a, ha⟩ := herror' row e
        rw [ha]
        trivial
      · exact (hcounts row now).2.2

private theorem guarded_request (cfg : AuthConfig) (userID last : Nat) (req : AuthRequest) :
    Guarded userID last (req.prog cfg) ∧ isComparing userID last (req.prog cfg) = false := by
  cases req with
  | login email password ip agent => exact ⟨guarded_login email password ip agent, rfl⟩
  | refresh token ip agent =>
      have hquiet := quiet_refresh cfg token ip agent
      exact ⟨guarded_of_quiet hquiet, isComparing_of_quiet hquiet⟩
  | revoke token =>
      have hquiet : Quiet ((AuthRequest.revoke token).prog cfg) := by
        refine quiet_call rfl ?_
        rintro (e | -)
        · trivial
        · trivial
      exact ⟨guarded_of_quiet hquiet, isComparing_of_quiet hquiet⟩
  | resetPassword token password =>
      have hquiet := quiet_resetPassword cfg token password
      exact ⟨guarded_of_quiet hquiet, isComparing_of_quiet hquiet⟩
  | verifyEmail token =>
      have hquiet := quiet_verifyEmail cfg token
      exact ⟨guarded_of_quiet hquiet, isComparing_of_quiet hquiet⟩
  | connect token => exact ⟨guarded_connect token, rfl⟩

private theorem isComparing_of_isRecording (h : isRecording userID p = true) :
    isComparing userID last p = true := by
  cases p with
  | ret a => exact h
  | call s k =>
      cases s with
      | now => exact absurd h Bool.false_ne_true
      | _ => exact h

end

def CredDb.lockState (db : CredDb) (userID : Nat) : Option (Nat × Option Nat) :=
  (db.accounts.get? userID).map fun u => (u.failedLoginCount, u.lockedUntil)

section

variable {cfg : AuthConfig} {o : AuthOutcome} {db : CredDb} {userID : Nat}

private theorem lockState_withAccount {id : Nat} {f : Account → Account}
    (hf : id = userID → ∀ u, (f u).failedLoginCount = u.failedLoginCount ∧
      (f u).lockedUntil = u.lockedUntil) :
    (db.withAccount id f).lockState userID = db.lockState userID := by
  unfold CredDb.lockState CredDb.withAccount
  dsimp only
  rw [Table.get?_modify]
  split
  · next hid =>
      rw [Option.map_map]
      apply Option.map_congr
      intro u _
      simp [hf hid.symm u]
  · rfl

private theorem exec_lockState {s : AuthStmt} (hrecords : s.records userID = false)
    (hclear : s ≠ .clearFailures userID) :
    (db.exec cfg o s).2.lockState userID = db.lockState userID := by
  unfold CredDb.exec
  split
  · rfl
  · cases s with
    | recordFailedPassword id =>
        apply lockState_withAccount
        intro hid
        simp [AuthStmt.records, hid] at hrecords
    | clearFailures id =>
        apply lockState_withAccount
        intro hid
        exact absurd (by rw [hid]) hclear
    | setPassword id hash => exact lockState_withAccount fun _ _ => ⟨rfl, rfl⟩
    | setEmailVerified id => exact lockState_withAccount fun _ _ => ⟨rfl, rfl⟩
    | insertSession new =>
        simp only [CredDb.answer]
        split
        · next db' hdb' =>
            unfold CredDb.insertSession at hdb'
            split at hdb'
            · obtain rfl := Option.some.inj hdb'
              rfl
            · simp at hdb'
        · rfl
    | _ => rfl

private theorem serveRoles_accounts (db : CredDb) (p : Principal) (env : RoleEnv)
    (req : RoleRequest) : (db.serveRoles p env req).accounts = db.accounts := by
  unfold CredDb.serveRoles
  dsimp only
  split
  · split <;> rfl
  · split <;> rfl
  · rfl

private theorem lockState_of_selectLogin {email : String} {row : LoginRow}
    (h : db.selectLogin email = some row) :
    ∃ count, db.lockState row.userID = some (count, row.lockedUntil) := by
  unfold CredDb.selectLogin at h
  split at h
  · simp at h
  · next id u hfind =>
      obtain rfl := Option.some.inj h
      have hget : db.accounts.get? id = some u :=
        Table.get?_eq_some.mpr (List.mem_of_find?_eq_some hfind)
      exact ⟨u.failedLoginCount, by simp [CredDb.lockState, hget]⟩

end

/-- After `guesses` wrong passwords, `start` failures were there before: every guess is counted or
about to be, the calls that may still guess are within the limit, and a count that has reached the
limit comes with a lock beyond the end. -/
structure GuessInv (cfg : AuthConfig) (userID last start guesses : Nat) (w : AuthWorld) : Prop where
  guarded : ∀ th ∈ w.threads, Guarded userID last th.prog
  clock : last < w.db.now + cfg.loginLockout
  count : w.failedCount userID + w.recording userID = start + guesses
  since : start ≤ w.failedCount userID
  bound : w.failedCount userID + w.comparing userID last ≤ start + cfg.loginMaxFailures
  lock : ∃ count lock, w.db.lockState userID = some (count, lock) ∧
    (count = start ∨ count < cfg.loginMaxFailures ∨ ∃ t, lock = some t ∧ last < t)

namespace AuthWorld

variable {cfg : AuthConfig} {userID last start guesses : Nat} {w w' : AuthWorld}

private theorem failedCount_eq (w : AuthWorld) {count : Nat} {lock : Option Nat}
    (h : w.db.lockState userID = some (count, lock)) : w.failedCount userID = count := by
  unfold failedCount
  unfold CredDb.lockState at h
  obtain ⟨u, hu, heq⟩ := Option.map_eq_some_iff.mp h
  rw [hu]
  exact (Prod.mk.inj heq).1

private theorem recording_le : w.recording userID ≤ w.comparing userID last := by
  apply List.countP_mono_left
  intro th _ h
  exact isComparing_of_isRecording h

end AuthWorld

section

variable {cfg : AuthConfig} {userID last start guesses guesses' : Nat} {w w' : AuthWorld}

private theorem GuessInv.keep (h : GuessInv cfg userID last start guesses w)
    (hguarded : ∀ th ∈ w'.threads, Guarded userID last th.prog)
    (hlock : w'.db.lockState userID = w.db.lockState userID) (hnow : w.db.now ≤ w'.db.now)
    (hcomparing : w'.comparing userID last ≤ w.comparing userID last)
    (hrecording : w'.recording userID + guesses = w.recording userID + guesses') :
    GuessInv cfg userID last start guesses' w' := by
  obtain ⟨count, lock, hstate, hor⟩ := h.lock
  have hstate' := hlock.trans hstate
  have hcount := w.failedCount_eq hstate
  have hcount' := w'.failedCount_eq hstate'
  have h1 := h.count
  have h2 := h.since
  have h3 := h.bound
  have h4 := h.clock
  exact ⟨hguarded, by omega, by omega, by omega, by omega, count, lock, hstate', hor⟩

private theorem guess_start (h : GuessInv cfg userID last start guesses w) (req : AuthRequest) :
    GuessInv cfg userID last start guesses
      { w with threads := w.threads ++ [⟨req, req.prog cfg⟩] } := by
  obtain ⟨hguarded, hcomparing⟩ := guarded_request cfg userID last req
  have hrecording : isRecording userID (req.prog cfg) = false := by
    cases hr : isRecording userID (req.prog cfg) with
    | false => rfl
    | true => exact absurd (hcomparing.symm.trans (isComparing_of_isRecording hr)) Bool.false_ne_true
  refine h.keep ?_ rfl (le_refl _) ?_ ?_
  · intro th hth
    rcases List.mem_append.mp hth with hth | hth
    · exact h.guarded th hth
    · obtain rfl := List.mem_singleton.mp hth
      exact hguarded
  · simp [AuthWorld.comparing, List.countP_append, hcomparing]
  · simp [AuthWorld.recording, List.countP_append, hrecording]

private theorem call_of_quiet (userID last : Nat) {s : AuthStmt}
    (k : AuthReply s → AuthCode AuthAnswer) (hs : s.quiet = true) :
    isComparing userID last (.call s k) = false ∧ isRecording userID (.call s k) = false ∧
      s.records userID = false := by
  cases s <;> first | exact ⟨rfl, rfl, rfl⟩ | simp [AuthStmt.quiet] at hs

section

variable {i : Nat} {o : AuthOutcome} {req : AuthRequest} {s : AuthStmt}
  {k : AuthReply s → AuthCode AuthAnswer}

private def called (cfg : AuthConfig) (w : AuthWorld) (i : Nat) (o : AuthOutcome)
    (req : AuthRequest) (s : AuthStmt) (k : AuthReply s → AuthCode AuthAnswer) : AuthWorld :=
  ⟨(w.db.exec cfg o s).2, w.threads.set i ⟨req, k (w.db.exec cfg o s).1⟩,
    w.issued ++ signed s (w.db.exec cfg o s).1⟩

variable (hthread : w.threads[i]? = some ⟨req, .call s k⟩)

include hthread

private theorem comparing_called (cfg : AuthConfig) (userID last : Nat) (o : AuthOutcome) :
    (called cfg w i o req s k).comparing userID last +
        (if isComparing userID last (.call s k) then 1 else 0) =
      w.comparing userID last +
        (if isComparing userID last (k (w.db.exec cfg o s).1) then 1 else 0) :=
  countP_set (p := fun th : AuthThread => isComparing userID last th.prog) hthread _

private theorem recording_called (cfg : AuthConfig) (userID : Nat) (o : AuthOutcome) :
    (called cfg w i o req s k).recording userID + (if isRecording userID (.call s k) then 1 else 0) =
      w.recording userID + (if isRecording userID (k (w.db.exec cfg o s).1) then 1 else 0) :=
  countP_set (p := fun th : AuthThread => isRecording userID th.prog) hthread _

private theorem guarded_called (h : GuessInv cfg userID last start guesses w) :
    ∀ th ∈ (called cfg w i o req s k).threads, Guarded userID last th.prog := by
  intro th hth
  rcases List.mem_or_eq_of_mem_set hth with hth | rfl
  · exact h.guarded th hth
  · exact (h.guarded _ (List.mem_of_getElem? hthread)).2 _

end

private theorem isRecording_of_not_comparing {p : AuthCode AuthAnswer}
    (h : isComparing userID last p = false) : isRecording userID p = false := by
  cases hr : isRecording userID p with
  | false => rfl
  | true => exact absurd (h.symm.trans (isComparing_of_isRecording hr)) Bool.false_ne_true

private theorem now_le_called {i : Nat} {o : AuthOutcome} {req : AuthRequest} {s : AuthStmt}
    {k : AuthReply s → AuthCode AuthAnswer} : w.db.now ≤ (called cfg w i o req s k).db.now :=
  le_of_eq (CredDb.exec_now s).symm

private theorem guess_quiet (h : GuessInv cfg userID last start guesses w) {i : Nat}
    {o : AuthOutcome} {req : AuthRequest} {s : AuthStmt} {k : AuthReply s → AuthCode AuthAnswer}
    (hthread : w.threads[i]? = some ⟨req, .call s k⟩) (hquiet : s.quiet = true)
    (hsuccess : s ≠ .clearFailures userID) :
    GuessInv cfg userID last start guesses (called cfg w i o req s k) := by
  obtain ⟨hold, hold', hrecords⟩ := call_of_quiet userID last k hquiet
  have hmay := (h.guarded _ (List.mem_of_getElem? hthread)).1
  have hnew : isComparing userID last (k (w.db.exec cfg o s).1) = false := by
    cases s <;> first | exact hmay _ | simp [AuthStmt.quiet] at hquiet
  have hcomparing := comparing_called hthread cfg userID last o
  have hrecording := recording_called hthread cfg userID o
  rw [hold, hnew] at hcomparing
  rw [hold', isRecording_of_not_comparing hnew] at hrecording
  simp only [Bool.false_eq_true, if_false, Nat.add_zero] at hcomparing hrecording
  exact h.keep (guarded_called hthread h) (exec_lockState hrecords hsuccess) now_le_called
    (le_of_eq hcomparing) (by rw [hrecording])

private theorem guess_now (h : GuessInv cfg userID last start guesses w) (hwithin : w.Within last)
    {i : Nat} {o : AuthOutcome} {req : AuthRequest} {k : AuthReply .now → AuthCode AuthAnswer}
    (hthread : w.threads[i]? = some ⟨req, .call .now k⟩) :
    GuessInv cfg userID last start (guesses + (w.wrongGuess cfg userID (.call i o)).toList.length)
      (called cfg w i o req .now k) := by
  have hmay := (h.guarded _ (List.mem_of_getElem? hthread)).1
  obtain ⟨hsame, hcompares⟩ := hmay (w.db.exec cfg o .now).1
  have hsee : w.wrongGuess cfg userID (.call i o) =
      if isRecording userID (k (w.db.exec cfg o .now).1) = true then some i else none := by
    unfold AuthWorld.wrongGuess
    simp only [hthread]
  have hold : isRecording userID (.call .now k) = false := rfl
  have hcomparing := comparing_called hthread cfg userID last o
  have hrecording := recording_called hthread cfg userID o
  have hlock : (called cfg w i o req .now k).db.lockState userID = w.db.lockState userID :=
    exec_lockState rfl (by simp)
  rw [hsame] at hcomparing
  rw [hold] at hrecording
  rw [hsee]
  cases hr : isRecording userID (k (w.db.exec cfg o .now).1) with
  | false =>
      rw [hr] at hcomparing hrecording
      simp only [Bool.false_eq_true, if_false, Nat.add_zero] at hcomparing hrecording
      exact h.keep (guarded_called hthread h) hlock now_le_called (by omega) (by simp [hrecording])
  | true =>
      -- the call that compares now was among those that may
      obtain ⟨t, ht, hlast⟩ := hcompares hr
      have hexec : (w.db.exec cfg o .now).1 = .ok w.db.now := by
        simp [CredDb.exec, AuthStmt.canFail, CredDb.answer]
      have hnow : w.db.now = t := Except.ok.inj (hexec.symm.trans ht)
      have hopen : isComparing userID last (.call .now k) = true := hlast (hnow ▸ hwithin)
      rw [hr, hopen] at hcomparing
      rw [hr] at hrecording
      simp only [Bool.false_eq_true, if_false, if_true, Nat.add_zero] at hcomparing hrecording
      refine h.keep (guarded_called hthread h) hlock now_le_called (by omega) ?_
      simp only [if_true, Option.toList_some, List.length_singleton]
      omega

private theorem guess_select (h : GuessInv cfg userID last start guesses w)
    (hN : 1 ≤ cfg.loginMaxFailures) {i : Nat} {o : AuthOutcome} {req : AuthRequest} {email : String}
    {k : AuthReply (.selectLogin email) → AuthCode AuthAnswer}
    (hthread : w.threads[i]? = some ⟨req, .call (.selectLogin email) k⟩)
    (hspaced : w.Spaced cfg userID last start (.call i o)) :
    GuessInv cfg userID last start guesses (called cfg w i o req (.selectLogin email) k) := by
  obtain ⟨hnone, hopens⟩ := (h.guarded _ (List.mem_of_getElem? hthread)).1
    (w.db.exec cfg o (.selectLogin email)).1
  have hold : isComparing userID last (.call (.selectLogin email) k) = false := rfl
  have hold' : isRecording userID (.call (.selectLogin email) k) = false := rfl
  have hcomparing := comparing_called hthread cfg userID last o
  have hrecording := recording_called hthread cfg userID o
  have hlock : (called cfg w i o req (.selectLogin email) k).db.lockState userID =
      w.db.lockState userID := exec_lockState rfl (by simp)
  rw [hold] at hcomparing
  rw [hold', hnone] at hrecording
  simp only [Bool.false_eq_true, if_false, Nat.add_zero] at hcomparing hrecording
  cases hr : isComparing userID last (k (w.db.exec cfg o (.selectLogin email)).1) with
  | false =>
      rw [hr] at hcomparing
      simp only [Bool.false_eq_true, if_false, Nat.add_zero] at hcomparing
      exact h.keep (guarded_called hthread h) hlock now_le_called (le_of_eq hcomparing)
        (by rw [hrecording])
  | true =>
      rw [hr] at hcomparing
      simp only [if_true] at hcomparing
      obtain ⟨row, hreply, hid, hopen⟩ := hopens hr
      have hrow : w.db.selectLogin email = some row := by
        have hexec := CredDb.exec_ok hreply
        rw [hexec] at hreply
        simp only [CredDb.answer] at hreply
        cases hselect : w.db.selectLogin email with
        | none => simp [hselect, CredDb.row] at hreply
        | some found =>
            rw [hselect] at hreply
            exact congrArg some (Except.ok.inj hreply)
      obtain ⟨count, lock, hstate, hor⟩ := h.lock
      obtain ⟨count', hstate'⟩ := lockState_of_selectLogin hrow
      rw [hid, hstate] at hstate'
      obtain ⟨-, rfl⟩ := Prod.mk.inj (Option.some.inj hstate')
      have hcount := w.failedCount_eq hstate
      have hcount' :=
        (called cfg w i o req (.selectLogin email) k).failedCount_eq (hlock.trans hstate)
      have hroom : w.failedCount userID + w.comparing userID last + 1 ≤
          start + cfg.loginMaxFailures := by
        have hsince := h.since
        rcases hspaced i o req email k row rfl hthread hrow hid hopen with hzero | hfew
        · rcases hor with heq | hlt | ⟨t, ht, hlast⟩
          · omega
          · omega
          · simp [ht, hlast] at hopen
        · omega
      have h1 := h.count
      have h2 := h.since
      have h3 : w.db.now ≤ (called cfg w i o req (.selectLogin email) k).db.now := now_le_called
      have h4 := h.clock
      exact ⟨guarded_called hthread h, by omega, by omega, by omega, by omega, count, _,
        hlock.trans hstate, hor⟩

private theorem lockState_failPassword {db : CredDb} {count : Nat} {lock : Option Nat}
    (h : db.lockState userID = some (count, lock)) :
    (db.failPassword cfg userID).lockState userID = some (count + 1,
      if cfg.loginMaxFailures ≤ count + 1 then some (db.now + cfg.loginLockout) else lock) := by
  unfold CredDb.lockState at h
  obtain ⟨u, hu, heq⟩ := Option.map_eq_some_iff.mp h
  obtain ⟨rfl, rfl⟩ := Prod.mk.inj heq
  unfold CredDb.lockState CredDb.failPassword CredDb.withAccount
  dsimp only
  rw [Table.get?_modify_self, hu]
  rfl

private theorem guess_record (h : GuessInv cfg userID last start guesses w) {i : Nat}
    {o : AuthOutcome} {req : AuthRequest} {id : Nat}
    {k : AuthReply (.recordFailedPassword id) → AuthCode AuthAnswer}
    (hthread : w.threads[i]? = some ⟨req, .call (.recordFailedPassword id) k⟩)
    (hcounted : id = userID → o.fail = false) :
    GuessInv cfg userID last start guesses (called cfg w i o req (.recordFailedPassword id) k) := by
  have hnew : isComparing userID last (k (w.db.exec cfg o (.recordFailedPassword id)).1) = false :=
    (h.guarded _ (List.mem_of_getElem? hthread)).1 _
  have hold : isComparing userID last (.call (.recordFailedPassword id) k) = (id == userID) := rfl
  have hold' : isRecording userID (.call (.recordFailedPassword id) k) = (id == userID) := rfl
  have hcomparing := comparing_called hthread cfg userID last o
  have hrecording := recording_called hthread cfg userID o
  rw [hold, hnew] at hcomparing
  rw [hold', isRecording_of_not_comparing hnew] at hrecording
  simp only [Bool.false_eq_true, if_false, Nat.add_zero, beq_iff_eq] at hcomparing hrecording
  by_cases hid : id = userID
  · subst hid
    rw [if_pos rfl] at hcomparing hrecording
    have hexec : (w.db.exec cfg o (.recordFailedPassword id)).2 = w.db.failPassword cfg id := by
      simp [CredDb.exec, hcounted rfl, CredDb.answer]
    obtain ⟨count, lock, hstate, -⟩ := h.lock
    have hstate' : (called cfg w i o req (.recordFailedPassword id) k).db.lockState id =
        some (count + 1, if cfg.loginMaxFailures ≤ count + 1 then
          some (w.db.now + cfg.loginLockout) else lock) := by
      unfold called
      dsimp only
      rw [hexec]
      exact lockState_failPassword hstate
    have hcount := w.failedCount_eq hstate
    have hcount' := (called cfg w i o req (.recordFailedPassword id) k).failedCount_eq hstate'
    have hclock : w.db.now ≤ (called cfg w i o req (.recordFailedPassword id) k).db.now :=
      now_le_called
    have h1 := h.count
    have h2 := h.since
    have h3 := h.bound
    have h4 := h.clock
    refine ⟨guarded_called hthread h, by omega, by omega, by omega, by omega, _, _, hstate', ?_⟩
    by_cases hlimit : cfg.loginMaxFailures ≤ count + 1
    · rw [if_pos hlimit]
      exact .inr (.inr ⟨_, rfl, h4⟩)
    · exact .inr (.inl (by omega))
  · rw [if_neg hid] at hcomparing hrecording
    have hrecords : AuthStmt.records userID (.recordFailedPassword id) = false := by
      simp [AuthStmt.records, hid]
    exact h.keep (guarded_called hthread h) (exec_lockState hrecords (by simp)) now_le_called
      (by omega) (by omega)

private theorem guess_step (hN : 1 ≤ cfg.loginMaxFailures)
    (h : GuessInv cfg userID last start guesses w) {e : AuthEvent} (hwithin : w.Within last)
    (hsuccess : w.NoSuccess userID e) (hcounted : w.Counted userID e)
    (hspaced : w.Spaced cfg userID last start e) (hstep : w.step cfg e = some w') :
    GuessInv cfg userID last start (guesses + (w.wrongGuess cfg userID e).toList.length) w' := by
  rcases AuthWorld.step_cases hstep with ⟨req, rfl, rfl⟩ | ⟨i, o, req, s, k, rfl, hthread, rfl⟩ |
    ⟨seconds, rfl, rfl⟩ | ⟨p, env, req, rfl, rfl⟩
  · exact guess_start h req
  · have hsee : s ≠ .now → w.wrongGuess cfg userID (.call i o) = none := by
      intro hs
      unfold AuthWorld.wrongGuess
      simp only [hthread]
      cases s <;> first | rfl | exact absurd rfl hs
    cases s with
    | now => exact guess_now h hwithin hthread
    | selectLogin email =>
        rw [hsee (by simp)]
        exact guess_select h hN hthread hspaced
    | recordFailedPassword id =>
        rw [hsee (by simp)]
        refine guess_record h hthread ?_
        rintro rfl
        exact hcounted i o req k rfl hthread
    | clearFailures id =>
        rw [hsee (by simp)]
        refine guess_quiet h hthread rfl ?_
        intro heq
        obtain rfl := AuthStmt.clearFailures.inj heq
        exact hsuccess i o req k rfl hthread
    | _ =>
        rw [hsee (by simp)]
        exact guess_quiet h hthread rfl (by simp)
  · exact h.keep h.guarded rfl (Nat.le_add_right _ _) (le_refl _) rfl
  · have hlock : (w.db.serveRoles p env req).lockState userID = w.db.lockState userID := by
      unfold CredDb.lockState
      rw [serveRoles_accounts]
    exact h.keep h.guarded hlock (le_of_eq (CredDb.serveRoles_now p env req).symm) (le_refl _) rfl

private theorem guess_run (hN : 1 ≤ cfg.loginMaxFailures) {es : List AuthEvent}
    (h : GuessInv cfg userID last start guesses w)
    (hrun : w.RunOf cfg (fun w e => w.Within last ∧ w.NoSuccess userID e ∧ w.Counted userID e ∧
      w.Spaced cfg userID last start e) es w') :
    GuessInv cfg userID last start (guesses + w.wrongGuesses cfg userID es) w' := by
  induction hrun generalizing guesses with
  | nil w => exact h
  | @cons w w₁ w₂ e es hok hstep _ ih =>
      obtain ⟨hwithin, hsuccess, hcounted, hspaced⟩ := hok
      have hnext := ih (guess_step hN h hwithin hsuccess hcounted hspaced hstep)
      have hsplit : w.wrongGuesses cfg userID (e :: es) =
          (w.wrongGuess cfg userID e).toList.length + w₁.wrongGuesses cfg userID es := by
        unfold AuthWorld.wrongGuesses
        rw [observed_cons hstep, List.length_append]
      rw [hsplit, ← Nat.add_assoc]
      exact hnext

end

/-- In a run within one lockout without a success, in which every call that reads an open lock finds
room below the limit, at most `loginMaxFailures` wrong passwords are compared. -/
theorem parallel_guesses_le {cfg : AuthConfig} (hN : 1 ≤ cfg.loginMaxFailures) {db : CredDb}
    {userID last : Nat} {u : Account} (huser : db.accounts.get? userID = some u)
    (hlast : last < db.now + cfg.loginLockout) {es : List AuthEvent} {w : AuthWorld}
    (hrun : (AuthWorld.fresh db).RunOf cfg (fun w e => w.Within last ∧ w.NoSuccess userID e ∧
      w.Counted userID e ∧ w.Spaced cfg userID last u.failedLoginCount e) es w) :
    (AuthWorld.fresh db).wrongGuesses cfg userID es ≤ cfg.loginMaxFailures := by
  have hstate : db.lockState userID = some (u.failedLoginCount, u.lockedUntil) := by
    simp [CredDb.lockState, huser]
  have hcount : (AuthWorld.fresh db).failedCount userID = u.failedLoginCount :=
    (AuthWorld.fresh db).failedCount_eq hstate
  have hinit : GuessInv cfg userID last u.failedLoginCount 0 (.fresh db) := {
    guarded := by simp [AuthWorld.fresh]
    clock := hlast
    count := by
      rw [hcount]
      rfl
    since := hcount.ge
    bound := by
      rw [hcount]
      exact Nat.add_le_add_left (Nat.zero_le _) _
    lock := ⟨_, _, hstate, .inl rfl⟩ }
  have hend := guess_run hN hinit hrun
  have h1 := hend.count
  have h2 := hend.bound
  have h3 : w.recording userID ≤ w.comparing userID last := AuthWorld.recording_le
  omega

/-- No success, no uncounted password, and, when asked for, nobody else between the reading of the
row and the counting. -/
private def guessGuard (userID last : Nat) (spaced : Bool) (w : AuthWorld) (e : AuthEvent) : Bool :=
  decide (w.db.now ≤ last) && match e with
    | .call i o =>
        match w.threads[i]?.bind fun th => th.prog.next? with
        | some (.clearFailures id) => id != userID
        | some (.recordFailedPassword _) => !o.fail
        | some (.selectLogin _) => !spaced || w.comparing userID last == 0
        | _ => true
    | _ => true

section

variable {cfg : AuthConfig} {userID last start : Nat} {spaced : Bool} {w : AuthWorld} {e : AuthEvent}

private theorem guessGuard_sound (h : guessGuard userID last spaced w e = true) :
    w.Within last ∧ w.NoSuccess userID e ∧ w.Counted userID e := by
  unfold guessGuard at h
  obtain ⟨hnow, hevent⟩ := Bool.and_eq_true_iff.mp h
  have hwithin : w.db.now ≤ last := by simpa using hnow
  refine ⟨hwithin, ?_, ?_⟩
  · rintro i o req k rfl hthread
    simp [hthread, Prog.next?] at hevent
  · rintro i o req k rfl hthread
    simpa [hthread, Prog.next?] using hevent

private theorem guessGuard_spaced (h : guessGuard userID last true w e = true) :
    w.Spaced cfg userID last start e := by
  unfold guessGuard at h
  obtain ⟨-, hevent⟩ := Bool.and_eq_true_iff.mp h
  rintro i o req email k row rfl hthread - - -
  left
  simpa [hthread, Prog.next?] using hevent

end

def strictConfig : AuthConfig := { sampleAuthConfig with loginMaxFailures := 1 }

def guessLogin (password : String) : AuthEvent :=
  .start (.login "ann@example.org" password "10.0.0.1" "browser")

/-- One guess, and a second call that is refused. -/
theorem second_guess_refused :
    (AuthWorld.fresh sampleCredDb).wrongGuesses strictConfig 7
      (guessLogin "guess" :: guessLogin "other" :: (AuthWorld.calls 0 3 ++ AuthWorld.calls 1 2)) ≤
        1 := by
  have hexecuted : (execute (AuthWorld.step strictConfig) (guessGuard 7 1000 true)
      (AuthWorld.fresh sampleCredDb) (guessLogin "guess" :: guessLogin "other" ::
        (AuthWorld.calls 0 3 ++ AuthWorld.calls 1 2))).any (fun _ => true) = true := by
    decide +kernel
  obtain ⟨w, hrun, -⟩ := AuthWorld.exists_guarded_run hexecuted
  have hlimit : 1 ≤ strictConfig.loginMaxFailures := by decide
  have hsoon : 1000 < sampleCredDb.now + strictConfig.loginLockout := by decide
  apply parallel_guesses_le hlimit rfl hsoon
  apply hrun.mono
  intro w e hguard
  obtain ⟨hwithin, hsuccess, hcounted⟩ := guessGuard_sound hguard
  exact ⟨hwithin, hsuccess, hcounted, guessGuard_spaced hguard⟩

/-- Two calls that read the open lock before either counts its failure both compare a password,
where one failure is the limit. -/
theorem two_guesses_at_once : ¬∀ (cfg : AuthConfig) (db : CredDb) (userID last : Nat) (u : Account)
    (es : List AuthEvent) (w : AuthWorld), 1 ≤ cfg.loginMaxFailures →
    db.accounts.get? userID = some u → last < db.now + cfg.loginLockout →
    (AuthWorld.fresh db).RunOf cfg (fun w e => w.Within last ∧ w.NoSuccess userID e ∧
      w.Counted userID e) es w →
    (AuthWorld.fresh db).wrongGuesses cfg userID es ≤ cfg.loginMaxFailures := by
  intro hclaim
  have hexecuted : (execute (AuthWorld.step strictConfig) (guessGuard 7 1000 false)
      (AuthWorld.fresh sampleCredDb) [guessLogin "guess", guessLogin "other", .call 0 {},
        .call 1 {}, .call 0 {}, .call 1 {}]).any (fun _ => true) = true := by decide +kernel
  obtain ⟨w, hrun, -⟩ := AuthWorld.exists_guarded_run hexecuted
  have hle := hclaim strictConfig sampleCredDb 7 1000 _ _ w (by decide) rfl (by decide)
    (hrun.mono fun w e hguard => guessGuard_sound hguard)
  exact absurd hle (by decide +kernel)

end NotificationPlatform
