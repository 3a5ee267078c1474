import NotificationPlatform.Lib.Ticket
import NotificationPlatform.Sessions

/-!
# A refresh token and concurrent requests

`Refresh` looks its session up, reads the permissions, rotates the session and inserts the next
one, each in a statement of its own and none of them conditional on what it found before. The
requests that present one token are parties to one ticket: the session of the token.
-/

namespace NotificationPlatform

open Lib

/-- How far a `Refresh` or a `RevokeRefreshToken` has come; between its lookup and its insertion a
`Refresh` has found a session. -/
inductive RefreshPhase where
  | looking
  | holding (id : Nat)
  | spent (id : Nat)
  | accepted
  | refused
  | revoking
  | revoked

namespace RefreshPhase

def stage : RefreshPhase → Ticket.Stage
  | .looking => .looking
  | .holding _ => .holding
  | .spent _ => .spent
  | .accepted => .accepted
  | .refused | .revoking | .revoked => .refused

def session? : RefreshPhase → Option Nat
  | .holding id | .spent id => some id
  | _ => none

def Ends : RefreshPhase → AuthAnswer → Prop
  | .accepted, .tokens (.ok _) => True
  | .refused, .tokens (.error _) => True
  | .refused, .revoked (.error _) => True
  | .revoked, .revoked (.ok _) => True
  | _, _ => False

end RefreshPhase

def onReply {α : Type} (ok : α → RefreshPhase) : Except String α → RefreshPhase
  | .ok a => ok a
  | .error _ => .refused

/-- The statements of a request that presents the token with this hash. -/
inductive RefreshProtocol (hash : String) :
    RefreshPhase → (s : AuthStmt) → (AuthReply s → RefreshPhase) → Prop
  | lookup : RefreshProtocol hash .looking (.selectSession hash)
      (onReply fun found => .holding found.id)
  | permissions (id userID : Nat) (tenantID : String) :
      RefreshProtocol hash (.holding id) (.selectPermissions userID tenantID)
        (onReply fun _ => .holding id)
  | rotate (id : Nat) :
      RefreshProtocol hash (.holding id) (.rotateSession id) (onReply fun _ => .spent id)
  | sign (id : Nat) (c : Claims) :
      RefreshProtocol hash (.spent id) (.sign c) (onReply fun _ => .spent id)
  | random (id : Nat) (pre : String) (bytes : Nat) :
      RefreshProtocol hash (.spent id) (.randomToken pre bytes) (onReply fun _ => .spent id)
  | insert (id : Nat) (new : NewSession) :
      RefreshProtocol hash (.spent id) (.insertSession new) (onReply fun _ => .accepted)
  | revoke : RefreshProtocol hash .revoking (.revokeSessions hash) (onReply fun _ => .revoked)

abbrev AtPhase (hash : String) (phase : RefreshPhase) (th : AuthThread) : Prop :=
  Prog.Follows (RefreshProtocol hash) RefreshPhase.Ends phase th.prog

theorem refresh_atPhase (cfg : AuthConfig) (token ip agent : String) :
    AtPhase (cfg.hashSecret token) .looking
      ⟨.refresh token ip agent, (AuthRequest.refresh token ip agent).prog cfg⟩ := by
  refine Prog.follows_call _ .lookup ?_
  rintro (e | found)
  · trivial
  refine Prog.follows_call _ (.permissions found.id found.userID found.tenantID) ?_
  rintro (e | permissions)
  · trivial
  refine Prog.follows_call _ (.rotate found.id) ?_
  rintro (e | -)
  · trivial
  refine Prog.follows_call _ (.sign found.id _) ?_
  rintro (e | access)
  · trivial
  refine Prog.follows_call _ (.random found.id "rft" 32) ?_
  rintro (e | next)
  · trivial
  dsimp only [Prog.bind, ExceptT.bindCont, onReply]
  split
  · refine Prog.follows_call _ (.random found.id "sess" 24) ?_
    rintro (e | sessionID)
    · trivial
    refine Prog.follows_call _ (.insert found.id _) ?_
    rintro (e | -)
    · trivial
    · trivial
  · refine Prog.follows_call _ (.insert found.id _) ?_
    rintro (e | -)
    · trivial
    · trivial

theorem revoke_atPhase (cfg : AuthConfig) (token : String) :
    AtPhase (cfg.hashSecret token) .revoking
      ⟨.revoke token, (AuthRequest.revoke token).prog cfg⟩ := by
  refine Prog.follows_call _ .revoke ?_
  rintro (e | -)
  · trivial
  · trivial

def CredDb.LiveFor (db : CredDb) (hash : String) : Prop :=
  ∃ id s, db.sessions.get? id = some s ∧ s.refreshTokenHash = hash ∧ s.status = .active

/-- The request has found its session and not rotated it yet. -/
def AuthThread.between (th : AuthThread) : Bool :=
  match th.prog.next? with
  | some (.selectPermissions _ _) | some (.rotateSession _) => true
  | _ => false

def AuthThread.refreshing (th : AuthThread) : Bool :=
  match th.prog.next? with
  | some (.selectPermissions _ _) | some (.rotateSession _) | some (.sign _)
  | some (.randomToken _ _) | some (.insertSession _) => true
  | _ => false

section

variable {hash : String} {th : AuthThread}

theorem AtPhase.between {id : Nat} (h : AtPhase hash (.holding id) th) : th.between = true := by
  obtain ⟨req, prog⟩ := th
  cases prog with
  | ret a => exact h.elim
  | call s k =>
      obtain ⟨f, hf, -⟩ := h
      cases hf <;> rfl

theorem AtPhase.refreshing {phase : RefreshPhase} {id : Nat} (h : AtPhase hash phase th)
    (hphase : phase.session? = some id) : th.refreshing = true := by
  obtain ⟨req, prog⟩ := th
  cases prog with
  | ret a => cases phase <;> simp_all [RefreshPhase.session?, AtPhase, RefreshPhase.Ends]
  | call s k =>
      obtain ⟨f, hf, -⟩ := h
      cases hf <;> first | rfl | simp [RefreshPhase.session?] at hphase

theorem AtPhase.revoked {req : AuthRequest} {phase : RefreshPhase}
    (h : AtPhase hash phase ⟨req, .ret (.revoked (.ok ()))⟩) : phase = .revoked := by
  cases phase <;> simp_all [AtPhase, RefreshPhase.Ends]

end

/-- The requests for one token and the session they are about, after any steps from `db₀`. -/
structure RefreshInv (db₀ : CredDb) (hash : String) (w : AuthWorld)
    (phases : List RefreshPhase) : Prop where
  follows : List.Forall₂ (AtPhase hash) phases w.threads
  unique : w.db.UniqueSessions
  held : ∀ phase ∈ phases, ∀ id, phase.session? = some id →
    ∃ s, w.db.sessions.get? id = some s ∧ s.refreshTokenHash = hash
  once : Ticket.Once (w.db.LiveFor hash) (phases.map RefreshPhase.stage)
  settled : .revoked ∈ phases → Ticket.Settled (w.db.LiveFor hash) (phases.map RefreshPhase.stage)
  count : w.db.sessions.rows.length =
    db₀.sessions.rows.length + (phases.map RefreshPhase.stage).count .accepted

section

variable {cfg : AuthConfig} {db₀ : CredDb} {hash : String} {w w' : AuthWorld}
  {phases : List RefreshPhase} {i : Nat} {phase phase' : RefreshPhase} {th' : AuthThread}

theorem RefreshInv.set (h : RefreshInv db₀ hash w phases) (hphase : phases[i]? = some phase)
    (hthreads : w'.threads = w.threads.set i th') (hth : AtPhase hash phase' th')
    (hforward : w.db.Forward w'.db) (hunique : w'.db.UniqueSessions)
    (hmove : Ticket.Moves (w.db.LiveFor hash) (w'.db.LiveFor hash)
      (phases.map RefreshPhase.stage) i phase.stage phase'.stage)
    (hheld : ∀ id, phase'.session? = some id →
      ∃ s, w.db.sessions.get? id = some s ∧ s.refreshTokenHash = hash)
    (hsettled : phase' = .revoked → Ticket.Settled (w'.db.LiveFor hash)
      ((phases.map RefreshPhase.stage).set i phase'.stage))
    (hcount : w'.db.sessions.rows.length =
      w.db.sessions.rows.length + if phase'.stage = .accepted then 1 else 0) :
    RefreshInv db₀ hash w' (phases.set i phase') where
  follows := by
    rw [hthreads]
    exact forall₂_set h.follows i hth
  unique := hunique
  held := by
    intro p hp id hid
    have hold : ∃ s, w.db.sessions.get? id = some s ∧ s.refreshTokenHash = hash := by
      rcases List.mem_or_eq_of_mem_set hp with hp | rfl
      · exact h.held p hp id hid
      · exact hheld id hid
    obtain ⟨s, hs, hhash⟩ := hold
    obtain ⟨s', hs', hhash', -⟩ := hforward id s hs
    exact ⟨s', hs', hhash'.trans hhash⟩
  once := by
    rw [List.map_set]
    exact h.once.move hmove
  settled := by
    intro hrevoked
    rw [List.map_set]
    rcases List.mem_or_eq_of_mem_set hrevoked with hrevoked | rfl
    · exact ((h.settled hrevoked).move hmove).1
    · exact hsettled rfl
  count := by
    have hstage : (phases.map RefreshPhase.stage)[i]? = some phase.stage := by simp [hphase]
    have hset := countP_set (p := fun s => s == .accepted) hstage phase'.stage
    have hbefore : (phase.stage == .accepted) = false := by simpa using hmove.unfinished
    rw [hbefore] at hset
    have hcount₀ := h.count
    rw [List.map_set, hcount, hcount₀]
    simp only [List.count, beq_iff_eq] at hset ⊢
    simp only [Bool.false_eq_true, if_false] at hset
    omega

theorem RefreshInv.stay (h : RefreshInv db₀ hash w phases) (hphase : phases[i]? = some phase)
    (hthreads : w'.threads = w.threads.set i th') (hth : AtPhase hash phase' th')
    (hsessions : w'.db.sessions = w.db.sessions) (hunfinished : phase.stage ≠ .accepted)
    (hengages : phase'.stage.engaged = true → phase.stage.engaged = true ∨
      w.db.LiveFor hash ∧ ∀ x ∈ phases.map RefreshPhase.stage, x ≠ .holding)
    (hspends : phase'.stage.late = true → phase.stage.late = true)
    (hheld : ∀ id, phase'.session? = some id →
      ∃ s, w.db.sessions.get? id = some s ∧ s.refreshTokenHash = hash)
    (hrevoked : phase' ≠ .revoked) (haccepted : phase'.stage ≠ .accepted) :
    RefreshInv db₀ hash w' (phases.set i phase') := by
  have hlive : w'.db.LiveFor hash ↔ w.db.LiveFor hash := by
    simp only [CredDb.LiveFor, hsessions]
  apply h.set hphase hthreads hth
  · intro id s hs
    exact ⟨s, by rw [hsessions]; exact hs, rfl, fun h => h⟩
  · simpa only [CredDb.UniqueSessions, hsessions] using h.unique
  · exact
      { before := by simp [hphase]
        unfinished := hunfinished
        engages := hengages
        spends := fun hlate => .inl (hspends hlate)
        dies := hlive.mp }
  · exact hheld
  · exact fun heq => absurd heq hrevoked
  · rw [hsessions, if_neg haccepted, Nat.add_zero]

theorem RefreshInv.remain {id : Nat} (h : RefreshInv db₀ hash w phases)
    (hphase : phases[i]? = some phase) (hthreads : w'.threads = w.threads.set i th')
    (hth : AtPhase hash phase th') (hsessions : w'.db.sessions = w.db.sessions)
    (hsession : phase.session? = some id) : RefreshInv db₀ hash w' (phases.set i phase) := by
  have hstage : phase.stage ≠ .accepted ∧ phase ≠ .revoked := by
    cases phase <;> simp_all [RefreshPhase.stage, RefreshPhase.session?]
  exact h.stay hphase hthreads hth hsessions hstage.1 .inl (fun hlate => hlate)
    (h.held phase (List.mem_of_getElem? hphase)) hstage.2 hstage.1

theorem RefreshInv.refuse (h : RefreshInv db₀ hash w phases) (hphase : phases[i]? = some phase)
    (hthreads : w'.threads = w.threads.set i th') (hth : AtPhase hash .refused th')
    (hsessions : w'.db.sessions = w.db.sessions) (hunfinished : phase.stage ≠ .accepted) :
    RefreshInv db₀ hash w' (phases.set i .refused) :=
  h.stay hphase hthreads hth hsessions hunfinished (by simp [RefreshPhase.stage, Ticket.Stage.engaged])
    (by simp [RefreshPhase.stage, Ticket.Stage.late]) (by simp [RefreshPhase.session?]) (by simp)
    (by simp [RefreshPhase.stage])

end

namespace CredDb

variable {cfg : AuthConfig} {o : AuthOutcome} {db : CredDb} {s : AuthStmt}

theorem exec_error {e : String} (h : (db.exec cfg o s).1 = .error e) :
    (db.exec cfg o s).2 = db := by
  unfold exec at h ⊢
  split
  · rfl
  · next hok =>
      rw [if_neg hok] at h
      cases s with
      | insertSession new =>
          cases hdb : db.insertSession cfg o.newID new with
          | none => simp only [answer, hdb]
          | some db' => simp [answer, hdb] at h
      | _ => first | rfl | simp [answer] at h

theorem exec_selectSession {hash : String} {found : SessionRow}
    (h : (db.exec cfg o (.selectSession hash)).1 = .ok found) :
    db.selectSession hash = some found := by
  rw [exec_ok h] at h
  cases hrow : db.selectSession hash with
  | none => simp [answer, row, hrow] at h
  | some other =>
      simp only [answer, row, hrow] at h
      rw [Except.ok.inj h]

theorem exec_insertSession {new : NewSession} {a : Unit}
    (h : (db.exec cfg o (.insertSession new)).1 = .ok a) :
    db.insertSession cfg o.newID new = some (db.exec cfg o (.insertSession new)).2 := by
  have hexec := exec_ok h
  rw [hexec] at h ⊢
  cases hdb : db.insertSession cfg o.newID new with
  | none => simp [answer, hdb] at h
  | some db' => simp only [answer, hdb]

theorem exec_sessions_of_read
    (hinsert : ∀ new, s ≠ .insertSession new) (hrotate : ∀ id, s ≠ .rotateSession id)
    (hrevoke : ∀ hash, s ≠ .revokeSessions hash) : (db.exec cfg o s).2.sessions = db.sessions := by
  rcases exec_sessions cfg o db s with hsame | ⟨new, hs, -⟩ | ⟨id, hs, -⟩ | ⟨hash, hs, -⟩
  · exact hsame
  · exact absurd hs (hinsert new)
  · exact absurd hs (hrotate id)
  · exact absurd hs (hrevoke hash)

theorem rotateSession_not_live {id : Nat} {session : Session} (hunique : db.UniqueSessions)
    (hs : db.sessions.get? id = some session) :
    ¬(db.rotateSession id).LiveFor session.refreshTokenHash := by
  rintro ⟨k, s', hs', hhash, hactive⟩
  rw [get?_rotateSession] at hs'
  obtain ⟨r, hr, rfl⟩ := Option.map_eq_some_iff.mp hs'
  by_cases hk : k = id
  · simp [hk] at hactive
  · simp only [hk, if_false] at hhash
    exact hk (hunique k id r session hr hs hhash)

theorem revokeSessions_not_live (hash : String) : ¬(db.revokeSessions hash).LiveFor hash := by
  rintro ⟨k, s', hs', hhash, hactive⟩
  rw [get?_revokeSessions] at hs'
  obtain ⟨r, hr, rfl⟩ := Option.map_eq_some_iff.mp hs'
  by_cases hk : r.refreshTokenHash = hash
  · simp [hk] at hactive
  · rw [if_neg hk] at hhash
    exact hk hhash

end CredDb

/-- No `Refresh` looks the session up and finds it while another one has found it and not rotated
it yet, and `RevokeRefreshToken` is not executed while a `Refresh` that found the session is in
progress. -/
def orderly (cfg : AuthConfig) (token : String) (w : AuthWorld) : AuthEvent → Bool
  | .start (.refresh t _ _) | .start (.revoke t) => t == token
  | .start _ => false
  | .call i _ =>
      match (w.threads[i]?).bind fun th => th.prog.next? with
      | some (.selectSession _) =>
          (w.db.selectSession (cfg.hashSecret token)).isNone ||
            w.threads.all fun th => !th.between
      | some (.revokeSessions _) => w.threads.all fun th => !th.refreshing
      | _ => true
  | .clock _ | .roles _ _ _ => true

section

variable {cfg : AuthConfig} {db₀ : CredDb} {token : String} {w w' : AuthWorld}
  {phases : List RefreshPhase} {i : Nat} {phase : RefreshPhase}

theorem RefreshInv.none_holding {hash : String} (h : RefreshInv db₀ hash w phases)
    (hnone : ∀ th ∈ w.threads, th.between = false) :
    ∀ x ∈ phases.map RefreshPhase.stage, x ≠ .holding := by
  intro x hx heq
  obtain ⟨p, hp, rfl⟩ := List.mem_map.mp hx
  obtain ⟨th, hth, hat⟩ := exists_of_mem_forall₂ h.follows hp
  cases p with
  | holding id =>
      have hbetween := hat.between
      rw [hnone th hth] at hbetween
      simp at hbetween
  | _ => simp [RefreshPhase.stage] at heq

theorem RefreshInv.none_refreshing {hash : String} (h : RefreshInv db₀ hash w phases)
    (hnone : ∀ th ∈ w.threads, th.refreshing = false) :
    ∀ x ∈ phases.map RefreshPhase.stage, x ≠ .holding ∧ x ≠ .spent := by
  intro x hx
  obtain ⟨p, hp, rfl⟩ := List.mem_map.mp hx
  obtain ⟨th, hth, hat⟩ := exists_of_mem_forall₂ h.follows hp
  have hsession : p.session? = none := by
    cases hsome : p.session? with
    | none => rfl
    | some id =>
        have hrefreshing := hat.refreshing hsome
        rw [hnone th hth] at hrefreshing
        simp at hrefreshing
  cases p <;> simp_all [RefreshPhase.stage, RefreshPhase.session?]

theorem RefreshInv.call {req : AuthRequest} {s : AuthStmt} {k : AuthReply s → AuthCode AuthAnswer}
    {o : AuthOutcome} {issued : List AccessToken}
    (h : RefreshInv db₀ (cfg.hashSecret token) w phases)
    (hok : orderly cfg token w (.call i o) = true) (hi : w.threads[i]? = some ⟨req, .call s k⟩) :
    ∃ phases', RefreshInv db₀ (cfg.hashSecret token)
      ⟨(w.db.exec cfg o s).2, w.threads.set i ⟨req, k (w.db.exec cfg o s).1⟩, issued⟩ phases' := by
  obtain ⟨phase, hphase, f, hf, hk⟩ := exists_getElem?_of_forall₂ h.follows hi
  have hmem : phase ∈ phases := List.mem_of_getElem? hphase
  have hth := hk (w.db.exec cfg o s).1
  refine ⟨phases.set i (f (w.db.exec cfg o s).1), ?_⟩
  simp only [orderly, hi, Option.bind_some, Prog.next?] at hok
  cases hf with
  | lookup =>
      have hsame : (w.db.exec cfg o (.selectSession (cfg.hashSecret token))).2.sessions =
          w.db.sessions := CredDb.exec_sessions_of_read (by simp) (by simp) (by simp)
      cases hr : (w.db.exec cfg o (.selectSession (cfg.hashSecret token))).1 with
      | error e =>
          rw [hr] at hth
          exact h.refuse hphase rfl hth hsame (by simp [RefreshPhase.stage])
      | ok found =>
          rw [hr] at hth
          have hfound := CredDb.exec_selectSession hr
          obtain ⟨session, hsession, hlive⟩ := CredDb.selectSession_eq_some hfound
          obtain ⟨hhash, hactive, -⟩ := CredDb.liveSession_eq_true.mp hlive
          have hnone : ∀ th ∈ w.threads, th.between = false := by
            rcases Bool.or_eq_true_iff.mp hok with hnot | hnone
            · simp [hfound] at hnot
            · simpa using hnone
          refine h.stay hphase rfl hth hsame (by simp [RefreshPhase.stage]) (fun _ => .inr ?_)
            (by simp [onReply, RefreshPhase.stage, Ticket.Stage.late]) ?_ (by simp [onReply])
            (by simp [onReply, RefreshPhase.stage])
          · exact ⟨⟨found.id, session, hsession, hhash, hactive⟩, h.none_holding hnone⟩
          · intro id hid
            obtain rfl : found.id = id := by simpa [onReply, RefreshPhase.session?] using hid
            exact ⟨session, hsession, hhash⟩
  | permissions id userID tenantID =>
      have hsame : (w.db.exec cfg o (.selectPermissions userID tenantID)).2.sessions = w.db.sessions :=
        CredDb.exec_sessions_of_read (by simp) (by simp) (by simp)
      cases hr : (w.db.exec cfg o (.selectPermissions userID tenantID)).1 with
      | error e =>
          rw [hr] at hth
          exact h.refuse hphase rfl hth hsame (by simp [RefreshPhase.stage])
      | ok a =>
          rw [hr] at hth
          exact h.remain hphase rfl hth hsame rfl
  | rotate id =>
      cases hr : (w.db.exec cfg o (.rotateSession id)).1 with
      | error e =>
          rw [hr] at hth
          exact h.refuse hphase rfl hth (by rw [CredDb.exec_error hr]) (by simp [RefreshPhase.stage])
      | ok a =>
          rw [hr] at hth
          have hdb : (w.db.exec cfg o (.rotateSession id)).2 = w.db.rotateSession id := by
            rw [CredDb.exec_ok hr]
            rfl
          obtain ⟨session, hsession, hhash⟩ := h.held _ hmem id rfl
          have hdead : ¬(w.db.exec cfg o (.rotateSession id)).2.LiveFor (cfg.hashSecret token) := by
            rw [hdb, ← hhash]
            exact CredDb.rotateSession_not_live h.unique hsession
          apply h.set hphase rfl hth (CredDb.exec_forward _) (CredDb.exec_unique h.unique _)
          · exact
              { before := by simp [hphase]
                unfinished := by simp [RefreshPhase.stage]
                engages := fun _ => .inl rfl
                spends := fun _ => .inr hdead
                dies := fun hlive => absurd hlive hdead }
          · intro id' hid'
            obtain rfl : id = id' := by simpa [onReply, RefreshPhase.session?] using hid'
            exact ⟨session, hsession, hhash⟩
          · intro heq
            simp [onReply] at heq
          · simp [onReply, RefreshPhase.stage, hdb, CredDb.rotateSession, Table.update]
  | sign id c =>
      have hsame : (w.db.exec cfg o (.sign c)).2.sessions = w.db.sessions :=
        CredDb.exec_sessions_of_read (by simp) (by simp) (by simp)
      cases hr : (w.db.exec cfg o (.sign c)).1 with
      | error e =>
          rw [hr] at hth
          exact h.refuse hphase rfl hth hsame (by simp [RefreshPhase.stage])
      | ok a =>
          rw [hr] at hth
          exact h.remain hphase rfl hth hsame rfl
  | random id pre bytes =>
      have hsame : (w.db.exec cfg o (.randomToken pre bytes)).2.sessions = w.db.sessions :=
        CredDb.exec_sessions_of_read (by simp) (by simp) (by simp)
      cases hr : (w.db.exec cfg o (.randomToken pre bytes)).1 with
      | error e =>
          rw [hr] at hth
          exact h.refuse hphase rfl hth hsame (by simp [RefreshPhase.stage])
      | ok a =>
          rw [hr] at hth
          exact h.remain hphase rfl hth hsame rfl
  | insert id new =>
      cases hr : (w.db.exec cfg o (.insertSession new)).1 with
      | error e =>
          rw [hr] at hth
          exact h.refuse hphase rfl hth (by rw [CredDb.exec_error hr]) (by simp [RefreshPhase.stage])
      | ok a =>
          rw [hr] at hth
          obtain ⟨hfree, hnew, row, hrow, hactive, hdb⟩ :=
            CredDb.insertSession_eq_some (CredDb.exec_insertSession hr)
          obtain ⟨session, hsession, hhash⟩ := h.held _ hmem id rfl
          -- the new session is not the token's: the token's session is still there
          have hlive : (w.db.exec cfg o (.insertSession new)).2.LiveFor (cfg.hashSecret token) →
              w.db.LiveFor (cfg.hashSecret token) := by
            rintro ⟨k, r, hr, hrhash, hractive⟩
            rw [hdb] at hr
            by_cases hk : k = o.newID
            · subst hk
              rw [Table.get?_insert_self hfree] at hr
              obtain rfl := Option.some.inj hr
              exact absurd (hhash.trans (hrhash.symm.trans hrow)) (hnew id session hsession)
            · rw [Table.get?_insert_ne _ _ hk] at hr
              exact ⟨k, r, hr, hrhash, hractive⟩
          apply h.set hphase rfl hth (CredDb.exec_forward _) (CredDb.exec_unique h.unique _)
          · exact
              { before := by simp [hphase]
                unfinished := by simp [RefreshPhase.stage]
                engages := fun _ => .inl rfl
                spends := fun _ => .inl rfl
                dies := hlive }
          · intro id' hid'
            simp [onReply, RefreshPhase.session?] at hid'
          · intro heq
            simp [onReply] at heq
          · rw [hdb]
            simp [onReply, RefreshPhase.stage, Table.rows_insert hfree]
  | revoke =>
      cases hr : (w.db.exec cfg o (.revokeSessions (cfg.hashSecret token))).1 with
      | error e =>
          rw [hr] at hth
          exact h.refuse hphase rfl hth (by rw [CredDb.exec_error hr]) (by simp [RefreshPhase.stage])
      | ok a =>
          rw [hr] at hth
          have hdb : (w.db.exec cfg o (.revokeSessions (cfg.hashSecret token))).2 =
              w.db.revokeSessions (cfg.hashSecret token) := by
            rw [CredDb.exec_ok hr]
            rfl
          have hdead : ¬(w.db.exec cfg o (.revokeSessions (cfg.hashSecret token))).2.LiveFor
              (cfg.hashSecret token) := by
            rw [hdb]
            exact CredDb.revokeSessions_not_live _
          apply h.set hphase rfl hth (CredDb.exec_forward _) (CredDb.exec_unique h.unique _)
          · exact
              { before := by simp [hphase]
                unfinished := by simp [RefreshPhase.stage]
                engages := by simp [onReply, RefreshPhase.stage, Ticket.Stage.engaged]
                spends := by simp [onReply, RefreshPhase.stage, Ticket.Stage.late]
                dies := fun hlive => absurd hlive hdead }
          · intro id' hid'
            simp [onReply, RefreshPhase.session?] at hid'
          · intro _
            refine ⟨hdead, ?_⟩
            intro x hx
            rcases List.mem_or_eq_of_mem_set hx with hx | rfl
            · exact h.none_refreshing (by simpa using hok) x hx
            · simp [onReply, RefreshPhase.stage]
          · simp [onReply, RefreshPhase.stage, hdb, CredDb.revokeSessions, Table.update]

theorem RefreshInv.arrive {hash : String} {th : AuthThread} (h : RefreshInv db₀ hash w phases)
    (hth : AtPhase hash phase th) (hengaged : phase.stage.engaged = false)
    (hsession : phase.session? = none) (hrevoked : phase ≠ .revoked) :
    RefreshInv db₀ hash { w with threads := w.threads ++ [th] } (phases ++ [phase]) where
  follows := List.rel_append h.follows (.cons hth .nil)
  unique := h.unique
  held := by
    intro p hp id hid
    rcases List.mem_append.mp hp with hp | hp
    · exact h.held p hp id hid
    · rw [List.mem_singleton.mp hp, hsession] at hid
      simp at hid
  once := by
    rw [List.map_append]
    exact h.once.arrive hengaged
  settled := by
    intro hmem
    rw [List.map_append]
    rcases List.mem_append.mp hmem with hmem | hmem
    · exact (h.settled hmem).arrive hengaged
    · exact absurd (List.mem_singleton.mp hmem).symm hrevoked
  count := by
    have hstage : (phase.stage == .accepted) = false := by
      cases phase <;> simp_all [RefreshPhase.stage, Ticket.Stage.engaged]
    simp only [List.map_append, List.count_append, List.map_cons, List.map_nil, List.count_cons,
      List.count_nil, hstage]
    exact h.count

theorem RefreshInv.withDb {hash : String} {db : CredDb} (h : RefreshInv db₀ hash w phases)
    (hsessions : db.sessions = w.db.sessions) :
    RefreshInv db₀ hash { w with db := db } phases where
  follows := h.follows
  unique := by simpa only [CredDb.UniqueSessions, hsessions] using h.unique
  held := by simpa only [hsessions] using h.held
  once := by simpa only [CredDb.LiveFor, hsessions] using h.once
  settled := by simpa only [CredDb.LiveFor, hsessions] using h.settled
  count := by simpa only [hsessions] using h.count

theorem RefreshInv.step {e : AuthEvent} (h : RefreshInv db₀ (cfg.hashSecret token) w phases)
    (hok : orderly cfg token w e = true) (hstep : w.step cfg e = some w') :
    ∃ phases', RefreshInv db₀ (cfg.hashSecret token) w' phases' := by
  rcases AuthWorld.step_cases hstep with ⟨req, rfl, rfl⟩ | ⟨i, o, req, s, k, rfl, hi, rfl⟩ |
    ⟨seconds, -, rfl⟩ | ⟨p, env, req, -, rfl⟩
  · cases req with
    | refresh t ip agent =>
        obtain rfl : t = token := by simpa [orderly] using hok
        exact ⟨_, h.arrive (refresh_atPhase cfg t ip agent) rfl rfl (by simp)⟩
    | revoke t =>
        obtain rfl : t = token := by simpa [orderly] using hok
        exact ⟨_, h.arrive (revoke_atPhase cfg t) rfl rfl (by simp)⟩
    | _ => simp [orderly] at hok
  · exact h.call hok hi
  · exact ⟨phases, h.withDb rfl⟩
  · exact ⟨phases, h.withDb (CredDb.serveRoles_sessions p env req)⟩

theorem RefreshInv.rows_length {e : AuthEvent} {hash : String} (h : RefreshInv db₀ hash w phases)
    (hrevoked : .revoked ∈ phases) (hstep : w.step cfg e = some w') :
    w'.db.sessions.rows.length = w.db.sessions.rows.length := by
  rcases AuthWorld.step_cases hstep with ⟨req, -, rfl⟩ | ⟨i, o, req, s, k, -, hi, rfl⟩ |
    ⟨seconds, -, rfl⟩ | ⟨p, env, req, -, rfl⟩
  · rfl
  · rcases CredDb.exec_sessions cfg o w.db s with hsame | ⟨new, rfl, -⟩ | ⟨id, -, -, hdb⟩ |
      ⟨hash, -, -, hdb⟩
    · rw [hsame]
    · -- only a request that has rotated the session inserts one, and there is none
      obtain ⟨phase, hphase, f, hf, -⟩ := exists_getElem?_of_forall₂ h.follows hi
      cases hf with
      | insert id new =>
          have hmem : Ticket.Stage.spent ∈ phases.map RefreshPhase.stage :=
            List.mem_map.mpr ⟨_, List.mem_of_getElem? hphase, rfl⟩
          exact absurd rfl ((h.settled hrevoked).idle _ hmem).2
    · rw [hdb]
      simp [CredDb.rotateSession, Table.update]
    · rw [hdb]
      simp [CredDb.revokeSessions, Table.update]
  · rfl
  · rw [CredDb.serveRoles_sessions]

theorem RefreshInv.fresh (hash : String) (hunique : db₀.UniqueSessions) :
    RefreshInv db₀ hash (.fresh db₀) [] where
  follows := .nil
  unique := hunique
  held := by simp
  once := ⟨by simp, by simp⟩
  settled := by simp
  count := rfl

theorem RefreshInv.run {es : List AuthEvent}
    (h : ∃ phases, RefreshInv db₀ (cfg.hashSecret token) w phases)
    (hrun : w.RunOf cfg (fun w e => orderly cfg token w e = true) es w') :
    ∃ phases, RefreshInv db₀ (cfg.hashSecret token) w' phases := by
  apply hrun.invariant
    (I := fun s => ∃ phases, RefreshInv db₀ (cfg.hashSecret token) s phases) _ h
  rintro s e s' ⟨phases, hs⟩ hok hstep
  exact hs.step hok hstep

theorem RefreshInv.revoked_mem {hash : String} {req : AuthRequest}
    (h : RefreshInv db₀ hash w phases)
    (hi : w.threads[i]? = some ⟨req, .ret (.revoked (.ok ()))⟩) : .revoked ∈ phases := by
  obtain ⟨phase, hphase, hat⟩ := exists_getElem?_of_forall₂ h.follows hi
  rw [← hat.revoked]
  exact List.mem_of_getElem? hphase

end

namespace AuthWorld

/-- Of the `Refresh` calls for one token at most one creates a session, and none does once a
`RevokeRefreshToken` call for it has returned, in every interleaving that is orderly. -/
theorem refresh_once {cfg : AuthConfig} {db : CredDb} {token : String} {es es' : List AuthEvent}
    {w w' : AuthWorld} (hunique : db.UniqueSessions)
    (hrun : (fresh db).RunOf cfg (fun w e => orderly cfg token w e = true) es w)
    (hrun' : w.RunOf cfg (fun w e => orderly cfg token w e = true) es' w') :
    w.db.sessions.rows.length ≤ db.sessions.rows.length + 1 ∧
      ((∃ i : Nat, w.threads[i]? = some ⟨.revoke token, .ret (.revoked (.ok ()))⟩) →
        w'.db.sessions.rows.length = w.db.sessions.rows.length) := by
  have hinv : ∃ phases, RefreshInv db (cfg.hashSecret token) w phases :=
    RefreshInv.run ⟨[], RefreshInv.fresh (cfg.hashSecret token) hunique⟩ hrun
  constructor
  · obtain ⟨phases, h⟩ := hinv
    have hsingle := h.once.single
    have haccepted : (phases.map RefreshPhase.stage).count .accepted ≤
        (phases.map RefreshPhase.stage).countP Ticket.Stage.engaged := by
      apply List.countP_mono_left
      intro x _ hx
      rw [beq_iff_eq.mp hx]
      rfl
    have hcount := h.count
    omega
  · rintro ⟨i, hi⟩
    have hall : (∃ phases, RefreshInv db (cfg.hashSecret token) w' phases) ∧
        w'.threads[i]? = some ⟨.revoke token, .ret (.revoked (.ok ()))⟩ ∧
        w'.db.sessions.rows.length = w.db.sessions.rows.length := by
      apply hrun'.invariant (I := fun s => (∃ phases, RefreshInv db (cfg.hashSecret token) s phases) ∧
        s.threads[i]? = some ⟨.revoke token, .ret (.revoked (.ok ()))⟩ ∧
        s.db.sessions.rows.length = w.db.sessions.rows.length) _ ⟨hinv, hi, rfl⟩
      rintro s e s' ⟨⟨phases, hs⟩, hj, hlength⟩ hok hstep
      refine ⟨hs.step hok hstep, step_answered hj hstep, ?_⟩
      rw [hs.rows_length (hs.revoked_mem hj) hstep, hlength]
    exact hall.2.2

def sampleRefreshThenLogout : List AuthEvent :=
  List.flatten [
    [.start (.refresh "rft_0" "" "")], calls 0 4,
    [.call 0 { random := "rft_1" }, .call 0 { newID := 1 }, .start (.revoke "rft_0")], calls 1 1,
    [.start (.refresh "rft_0" "" "")]]

def loggedOut (w : AuthWorld) : Bool :=
  match w.threads[1]? with
  | some (AuthThread.mk (.revoke "rft_0") (.ret (.revoked (.ok ())))) => true
  | _ => false

theorem refresh_once_before_logout : ∃ w w',
    (fresh sampleTokenDb).RunOf sampleAuthConfig
      (fun w e => orderly sampleAuthConfig "rft_0" w e = true) sampleRefreshThenLogout w ∧
    w.RunOf sampleAuthConfig (fun w e => orderly sampleAuthConfig "rft_0" w e = true) [.call 2 {}] w' ∧
    w.db.sessions.rows.length = 2 ∧ w'.db.sessions.rows.length = w.db.sessions.rows.length := by
  have hexecuted : (execute (step sampleAuthConfig) (orderly sampleAuthConfig "rft_0")
      (fresh sampleTokenDb) sampleRefreshThenLogout).any (fun w =>
        w.db.sessions.rows.length == 2 && loggedOut w &&
        (execute (step sampleAuthConfig) (orderly sampleAuthConfig "rft_0") w [.call 2 {}]).isSome)
      = true := by decide +kernel
  obtain ⟨w, hrun, hw⟩ := exists_guarded_run hexecuted
  simp only [Bool.and_eq_true, beq_iff_eq] at hw
  obtain ⟨⟨hlength, hthread⟩, hnext⟩ := hw
  obtain ⟨w', hw'⟩ := Option.isSome_iff_exists.mp hnext
  have hrun' : w.RunOf sampleAuthConfig (fun w e => orderly sampleAuthConfig "rft_0" w e = true)
      [.call 2 {}] w' := Run.of_execute (fun _ _ h => h) hw'
  have hrevoked : ∃ i : Nat, w.threads[i]? = some ⟨.revoke "rft_0", .ret (.revoked (.ok ()))⟩ := by
    refine ⟨1, ?_⟩
    unfold loggedOut at hthread
    split at hthread
    · assumption
    · simp at hthread
  exact ⟨w, w', hrun, hrun', hlength,
    (refresh_once sampleTokenDb_unique hrun hrun').2 hrevoked⟩

def presents (token : String) : AuthEvent → Bool
  | .start (.refresh t _ _) | .start (.revoke t) => t == token
  | .start _ => false
  | _ => true

def sampleRace : List AuthEvent :=
  List.flatten [
    [.start (.refresh "rft_0" "" ""), .start (.refresh "rft_0" "" "")], calls 0 1, calls 1 1,
    calls 0 3, [.call 0 { random := "rft_1" }, .call 0 { newID := 1 }],
    calls 1 3, [.call 1 { random := "rft_2" }, .call 1 { newID := 2 }]]

theorem refreshed_twice : ¬∀ (cfg : AuthConfig) (db : CredDb) (token : String)
    (es es' : List AuthEvent) (w w' : AuthWorld), db.UniqueSessions →
    (fresh db).RunOf cfg (fun _ e => presents token e = true) es w →
    w.RunOf cfg (fun _ e => presents token e = true) es' w' →
    w.db.sessions.rows.length ≤ db.sessions.rows.length + 1 ∧
      ((∃ i : Nat, w.threads[i]? = some ⟨.revoke token, .ret (.revoked (.ok ()))⟩) →
        w'.db.sessions.rows.length = w.db.sessions.rows.length) := by
  intro hclaim
  have hexecuted : (execute (step sampleAuthConfig) (fun _ e => presents "rft_0" e)
      (fresh sampleTokenDb) sampleRace).any (fun w => w.db.sessions.rows.length == 3) = true := by
    decide +kernel
  obtain ⟨w, hrun, hw⟩ := exists_guarded_run hexecuted
  have hthree : w.db.sessions.rows.length = 3 := by simpa using hw
  have hone : sampleTokenDb.sessions.rows.length = 1 := by decide +kernel
  have hle := (hclaim sampleAuthConfig sampleTokenDb "rft_0" sampleRace [] w w
    sampleTokenDb_unique hrun (.nil w)).1
  omega

end AuthWorld

end NotificationPlatform
