import NotificationPlatform.Credentials

/-!
# Sessions only move forward

No statement makes a session active again or takes it away, the unique index keeps a refresh token
to one session, and a `Refresh` that does not find a live session ends at once. This holds for
every interleaving of the statements of concurrent requests.
-/

namespace NotificationPlatform

open Lib

namespace CredDb

variable {cfg : AuthConfig} {o : AuthOutcome} {db db' : CredDb}

/-- Every session is still there, with its token, and active only if it was. -/
def Forward (db db' : CredDb) : Prop :=
  ∀ id s, db.sessions.get? id = some s → ∃ s', db'.sessions.get? id = some s' ∧
    s'.refreshTokenHash = s.refreshTokenHash ∧ (s'.status = .active → s.status = .active)

theorem Forward.refl (db : CredDb) : db.Forward db :=
  fun _ s hs => ⟨s, hs, rfl, fun h => h⟩

theorem Forward.trans {db'' : CredDb} (h : db.Forward db') (h' : db'.Forward db'') :
    db.Forward db'' := by
  intro id s hs
  obtain ⟨s', hs', hhash, hactive⟩ := h id s hs
  obtain ⟨s'', hs'', hhash', hactive'⟩ := h' id s' hs'
  exact ⟨s'', hs'', hhash'.trans hhash, fun h => hactive (hactive' h)⟩

def UniqueSessions (db : CredDb) : Prop :=
  ∀ id id' s s', db.sessions.get? id = some s → db.sessions.get? id' = some s' →
    s.refreshTokenHash = s'.refreshTokenHash → id = id'

theorem exec_sessions (cfg : AuthConfig) (o : AuthOutcome) (db : CredDb) (s : AuthStmt) :
    (db.exec cfg o s).2.sessions = db.sessions ∨
      (∃ new, s = .insertSession new ∧ o.fail = false ∧
        db.insertSession cfg o.newID new = some (db.exec cfg o s).2) ∨
      (∃ id, s = .rotateSession id ∧ o.fail = false ∧ (db.exec cfg o s).2 = db.rotateSession id) ∨
      ∃ hash, s = .revokeSessions hash ∧ o.fail = false ∧
        (db.exec cfg o s).2 = db.revokeSessions hash := by
  cases hfail : o.fail with
  | true =>
      unfold exec
      rw [hfail]
      cases s <;> exact .inl rfl
  | false =>
      have hexec : db.exec cfg o s = db.answer cfg o s := by simp [exec, hfail]
      rw [hexec]
      cases s with
      | insertSession new =>
          cases hdb : db.insertSession cfg o.newID new with
          | none =>
              simp only [answer, hdb]
              exact .inl trivial
          | some db' =>
              simp only [answer, hdb]
              exact .inr (.inl ⟨new, rfl, trivial, hdb⟩)
      | rotateSession id => exact .inr (.inr (.inl ⟨id, rfl, rfl, rfl⟩))
      | revokeSessions hash => exact .inr (.inr (.inr ⟨hash, rfl, rfl, rfl⟩))
      | _ => exact .inl rfl

theorem insertSession_eq_some {id : Nat} {new : NewSession}
    (h : db.insertSession cfg id new = some db') :
    db.sessions.get? id = none ∧
      (∀ k s, db.sessions.get? k = some s → s.refreshTokenHash ≠ new.refreshTokenHash) ∧
      ∃ s, s.refreshTokenHash = new.refreshTokenHash ∧ s.status = .active ∧
        db' = { db with sessions := db.sessions.insert id s } := by
  unfold insertSession at h
  split at h
  · next hcond =>
      simp only [Bool.and_eq_true, Option.isNone_iff_eq_none, Bool.not_eq_true',
        List.any_eq_false, beq_iff_eq] at hcond
      obtain ⟨⟨-, hfree⟩, hnew⟩ := hcond
      obtain rfl := Option.some.inj h
      refine ⟨hfree, ?_, _, rfl, rfl, rfl⟩
      intro k s hs
      exact hnew (k, s) (Table.get?_eq_some.mp hs)
  · simp at h

theorem get?_revokeSessions (db : CredDb) (hash : String) (k : Nat) :
    (db.revokeSessions hash).sessions.get? k = (db.sessions.get? k).map fun s =>
      if s.refreshTokenHash = hash then { s with
        status := .revoked
        revokedAt := some db.now
        revokedReason := some "logout" } else s := by
  simp [revokeSessions, Table.get?_update]

theorem rotateSession_forward (id : Nat) : db.Forward (db.rotateSession id) := by
  intro k s hs
  refine ⟨_, by rw [get?_rotateSession, hs]; rfl, ?_, ?_⟩
  · by_cases hk : k = id <;> simp [hk]
  · by_cases hk : k = id <;> simp [hk]

theorem revokeSessions_forward (hash : String) : db.Forward (db.revokeSessions hash) := by
  intro k s hs
  refine ⟨_, by rw [get?_revokeSessions, hs]; rfl, ?_, ?_⟩
  · by_cases hh : s.refreshTokenHash = hash <;> simp [hh]
  · by_cases hh : s.refreshTokenHash = hash <;> simp [hh]

theorem exec_forward (s : AuthStmt) : db.Forward (db.exec cfg o s).2 := by
  rcases exec_sessions cfg o db s with hsame | ⟨new, -, -, hdb⟩ | ⟨id, -, -, hdb⟩ |
    ⟨hash, -, -, hdb⟩
  · intro id r hr
    exact ⟨r, by rw [hsame]; exact hr, rfl, fun h => h⟩
  · obtain ⟨-, -, row, -, -, hdb'⟩ := insertSession_eq_some hdb
    intro id r hr
    rw [hdb']
    exact ⟨r, Table.get?_insert_of_some hr, rfl, fun h => h⟩
  · rw [hdb]
    exact rotateSession_forward id
  · rw [hdb]
    exact revokeSessions_forward hash

theorem UniqueSessions.of_forward (h : db.UniqueSessions) (hforward : db.Forward db')
    (hold : ∀ id s', db'.sessions.get? id = some s' → ∃ s, db.sessions.get? id = some s) :
    db'.UniqueSessions := by
  intro id id' s s' hs hs' hhash
  obtain ⟨r, hr⟩ := hold id s hs
  obtain ⟨r', hr'⟩ := hold id' s' hs'
  obtain ⟨q, hq, hqhash, -⟩ := hforward id r hr
  obtain ⟨q', hq', hqhash', -⟩ := hforward id' r' hr'
  obtain rfl : q = s := Option.some.inj (hq.symm.trans hs)
  obtain rfl : q' = s' := Option.some.inj (hq'.symm.trans hs')
  exact h id id' r r' hr hr' (hqhash.symm.trans (hhash.trans hqhash'))

theorem exec_unique (h : db.UniqueSessions) (s : AuthStmt) :
    (db.exec cfg o s).2.UniqueSessions := by
  have hforward : db.Forward (db.exec cfg o s).2 := exec_forward s
  rcases exec_sessions cfg o db s with hsame | ⟨new, -, -, hdb⟩ | ⟨id, -, -, hdb⟩ |
    ⟨hash, -, -, hdb⟩
  · apply h.of_forward hforward
    intro id s' hs'
    exact ⟨s', by rw [← hsame]; exact hs'⟩
  · obtain ⟨hfree, hnew, row, hhash, -, hdb'⟩ := insertSession_eq_some hdb
    -- the new session is the only one with its token
    have hcases : ∀ k r, (db.exec cfg o s).2.sessions.get? k = some r →
        db.sessions.get? k = some r ∨ k = o.newID ∧ r = row := by
      intro k r hr
      rw [hdb'] at hr
      by_cases hk : k = o.newID
      · subst hk
        rw [Table.get?_insert_self hfree] at hr
        exact .inr ⟨rfl, (Option.some.inj hr).symm⟩
      · rw [Table.get?_insert_ne _ _ hk] at hr
        exact .inl hr
    intro k k' r r' hr hr' hsame
    rcases hcases k r hr with hr | ⟨rfl, rfl⟩
    · rcases hcases k' r' hr' with hr' | ⟨rfl, rfl⟩
      · exact h k k' r r' hr hr' hsame
      · exact absurd (hsame.trans hhash) (hnew k r hr)
    · rcases hcases k' r' hr' with hr' | ⟨rfl, rfl⟩
      · exact absurd (hsame.symm.trans hhash) (hnew k' r' hr')
      · rfl
  · apply h.of_forward hforward
    intro k s' hs'
    rw [hdb, get?_rotateSession] at hs'
    obtain ⟨r, hr, -⟩ := Option.map_eq_some_iff.mp hs'
    exact ⟨r, hr⟩
  · apply h.of_forward hforward
    intro k s' hs'
    rw [hdb, get?_revokeSessions] at hs'
    obtain ⟨r, hr, -⟩ := Option.map_eq_some_iff.mp hs'
    exact ⟨r, hr⟩

theorem serveRoles_sessions (p : Principal) (env : RoleEnv) (req : RoleRequest) :
    (db.serveRoles p env req).sessions = db.sessions :=
  (serveRoles_frame db p env req).2.1

end CredDb

namespace AuthWorld

variable {cfg : AuthConfig} {w w' : AuthWorld} {e : AuthEvent}

theorem step_forward (h : w.step cfg e = some w') : w.db.Forward w'.db := by
  rcases step_cases h with ⟨req, -, rfl⟩ | ⟨i, o, req, s, k, -, -, rfl⟩ | ⟨seconds, -, rfl⟩ |
    ⟨p, env, req, -, rfl⟩
  · exact .refl _
  · exact CredDb.exec_forward s
  · exact .refl w.db
  · intro id s hs
    exact ⟨s, by rw [CredDb.serveRoles_sessions]; exact hs, rfl, fun h => h⟩

theorem step_unique (hunique : w.db.UniqueSessions) (h : w.step cfg e = some w') :
    w'.db.UniqueSessions := by
  rcases step_cases h with ⟨req, -, rfl⟩ | ⟨i, o, req, s, k, -, -, rfl⟩ | ⟨seconds, -, rfl⟩ |
    ⟨p, env, req, -, rfl⟩
  · exact hunique
  · exact CredDb.exec_unique hunique s
  · exact hunique
  · simpa only [CredDb.UniqueSessions, CredDb.serveRoles_sessions] using hunique

theorem run_forward {ok : AuthWorld → AuthEvent → Prop} {es : List AuthEvent}
    (h : w.RunOf cfg ok es w') : w.db.Forward w'.db := by
  apply h.invariant (I := fun s => w.db.Forward s.db) _ (.refl w.db)
  intro s e s' hs _ hstep
  exact hs.trans (step_forward hstep)

theorem run_unique {ok : AuthWorld → AuthEvent → Prop} {es : List AuthEvent}
    (hunique : w.db.UniqueSessions) (h : w.RunOf cfg ok es w') : w'.db.UniqueSessions := by
  apply h.invariant (I := fun s => s.db.UniqueSessions) _ hunique
  intro s e s' hs _ hstep
  exact step_unique hs hstep

theorem step_answered {i : Nat} {req : AuthRequest} {a : AuthAnswer}
    (hi : w.threads[i]? = some ⟨req, .ret a⟩) (h : w.step cfg e = some w') :
    w'.threads[i]? = some ⟨req, .ret a⟩ := by
  rcases step_cases h with ⟨req', -, rfl⟩ | ⟨j, o, req', s, k, -, hj, rfl⟩ | ⟨seconds, -, rfl⟩ |
    ⟨p, env, req', -, rfl⟩
  · have hlt : i < w.threads.length := (List.getElem?_eq_some_iff.mp hi).1
    exact (List.getElem?_append_left hlt).trans hi
  · have hne : j ≠ i := by
      rintro rfl
      rw [hi] at hj
      simp at hj
    exact (List.getElem?_set_ne hne).trans hi
  · exact hi
  · exact hi

theorem run_answered {ok : AuthWorld → AuthEvent → Prop} {es : List AuthEvent} {i : Nat}
    {req : AuthRequest} {a : AuthAnswer} (hi : w.threads[i]? = some ⟨req, .ret a⟩)
    (h : w.RunOf cfg ok es w') : w'.threads[i]? = some ⟨req, .ret a⟩ := by
  apply h.invariant (I := fun s => s.threads[i]? = some ⟨req, .ret a⟩) _ hi
  intro s e s' hs _ hstep
  exact step_answered hs hstep

/-- The session of a refresh token is rotated, revoked, expired, absent or of a user who is not
active. -/
def SessionGone (cfg : AuthConfig) (db : CredDb) (token : String) : Prop :=
  ∀ id s, db.sessions.get? id = some s → s.refreshTokenHash = cfg.hashSecret token →
    s.status ≠ .active ∨ s.expiresAt ≤ db.now ∨
      ∀ u, db.accounts.get? s.userID = some u → u.status ≠ "active"

theorem selectSession_of_gone {db : CredDb} {token : String} (h : SessionGone cfg db token) :
    db.selectSession (cfg.hashSecret token) = none := by
  apply CredDb.selectSession_eq_none
  rintro ⟨id, s⟩ hs
  rw [Bool.eq_false_iff]
  intro hlive
  obtain ⟨hhash, hactive, hfuture, u, hu, huser⟩ := CredDb.liveSession_eq_true.mp hlive
  rcases h id s (Table.get?_eq_some.mpr hs) hhash with hne | hpast | hnobody
  · exact hne hactive
  · exact absurd hfuture (Nat.not_lt.mpr hpast)
  · exact hnobody u hu huser

theorem refresh_lookup_gone {i : Nat} {o : AuthOutcome} {token ip agent : String}
    (hi : w.threads[i]? =
      some ⟨.refresh token ip agent, (AuthRequest.refresh token ip agent).prog cfg⟩)
    (hgone : SessionGone cfg w.db token) (h : w.step cfg (.call i o) = some w') :
    w'.db = w.db ∧
      w'.threads[i]? = some ⟨.refresh token ip agent, .ret (.tokens (.error "invalid refresh token"))⟩ := by
  obtain ⟨k, hk, hkerror⟩ : ∃ k :
      AuthReply (.selectSession (cfg.hashSecret token)) → AuthCode AuthAnswer,
      (AuthRequest.refresh token ip agent).prog cfg = .call _ k ∧
        ∀ e, k (.error e) = .ret (.tokens (.error "invalid refresh token")) :=
    ⟨_, rfl, fun _ => rfl⟩
  have hexec : ∃ e, w.db.exec cfg o (.selectSession (cfg.hashSecret token)) = (.error e, w.db) := by
    unfold CredDb.exec
    split
    · exact ⟨_, rfl⟩
    · simp only [CredDb.answer, selectSession_of_gone hgone]
      exact ⟨_, rfl⟩
  obtain ⟨e, he⟩ := hexec
  have hlt : i < w.threads.length := (List.getElem?_eq_some_iff.mp hi).1
  rw [hk] at hi
  simp only [step, hi, he] at h
  obtain rfl := Option.some.inj h
  refine ⟨rfl, ?_⟩
  rw [hkerror]
  exact List.getElem?_set_self hlt

/-- In every interleaving of requests, from any sessions with a unique index on the token: a
session that is not active stays so, a refresh token belongs to at most one session, and a
`Refresh` whose lookup finds its session gone is answered with an error for good and changes
nothing. -/
theorem sessions_only_forward {cfg : AuthConfig} {db : CredDb} {es es' : List AuthEvent}
    {w w' : AuthWorld} (hunique : db.UniqueSessions)
    (hrun : (fresh db).RunOf cfg (fun _ _ => True) es w)
    (hrun' : w.RunOf cfg (fun _ _ => True) es' w') :
    (∀ id s, w.db.sessions.get? id = some s → s.status ≠ .active →
      ∃ s', w'.db.sessions.get? id = some s' ∧ s'.status ≠ .active) ∧
    (∀ token id id' s s', w.db.sessions.get? id = some s → w.db.sessions.get? id' = some s' →
      s.refreshTokenHash = cfg.hashSecret token → s'.refreshTokenHash = cfg.hashSecret token →
        id = id') ∧
    ∀ i token ip agent o w₁,
      w.threads[i]? =
        some ⟨.refresh token ip agent, (AuthRequest.refresh token ip agent).prog cfg⟩ →
      SessionGone cfg w.db token → w.step cfg (.call i o) = some w₁ →
        w₁.db = w.db ∧ ∀ es₂ w₂, w₁.RunOf cfg (fun _ _ => True) es₂ w₂ →
          w₂.threads[i]? = some ⟨.refresh token ip agent,
            .ret (.tokens (.error "invalid refresh token"))⟩ := by
  refine ⟨?_, ?_, ?_⟩
  · intro id s hs hinactive
    obtain ⟨s', hs', -, hactive⟩ := run_forward hrun' id s hs
    exact ⟨s', hs', fun h => hinactive (hactive h)⟩
  · intro token id id' s s' hs hs' hhash hhash'
    exact run_unique hunique hrun id id' s s' hs hs' (hhash.trans hhash'.symm)
  · intro i token ip agent o w₁ hi hgone hstep
    obtain ⟨hdb, hanswered⟩ := refresh_lookup_gone hi hgone hstep
    exact ⟨hdb, fun es₂ w₂ hrun₂ => run_answered hanswered hrun₂⟩

theorem sampleTokenDb_unique : sampleTokenDb.UniqueSessions := by
  intro id id' s s' hs hs' _
  have hrow : ∀ k r, sampleTokenDb.sessions.get? k = some r → k = 0 := by
    intro k r hr
    have hmem := Table.get?_eq_some.mp hr
    simp [sampleTokenDb, Table.insert, Table.empty] at hmem
    exact hmem.1
  rw [hrow id s hs, hrow id' s' hs']

theorem logged_out_session_stays : ∃ w w',
    (fresh sampleTokenDb).RunOf sampleAuthConfig (fun _ _ => True)
      [.start (.refresh "rft_0" "" ""), .start (.revoke "rft_0"), .call 1 {}] w ∧
    w.RunOf sampleAuthConfig (fun _ _ => True) [.clock 1, .call 0 {}] w' ∧
    ∃ s', w'.db.sessions.get? 0 = some s' ∧ s'.status ≠ .active := by
  have hexecuted : (execute (step sampleAuthConfig) (fun _ _ => true) (fresh sampleTokenDb)
      [.start (.refresh "rft_0" "" ""), .start (.revoke "rft_0"), .call 1 {}]).any (fun w =>
        (w.db.sessions.get? 0).any (fun s => s.status == .revoked) &&
          (execute (step sampleAuthConfig) (fun _ _ => true) w [.clock 1, .call 0 {}]).isSome)
      = true := by decide +kernel
  obtain ⟨w, hrun, hw⟩ := exists_run hexecuted
  obtain ⟨hrevoked, hnext⟩ := Bool.and_eq_true_iff.mp hw
  obtain ⟨w', hw'⟩ := Option.isSome_iff_exists.mp hnext
  obtain ⟨s, hs, hstatus⟩ := Option.any_eq_true _ _ |>.mp hrevoked
  have hrun' : w.RunOf sampleAuthConfig (fun _ _ => True) [.clock 1, .call 0 {}] w' :=
    Run.of_execute (fun _ _ _ => trivial) hw'
  have hinactive : s.status ≠ .active := by
    rw [beq_iff_eq.mp hstatus]
    simp
  exact ⟨w, w', hrun, hrun',
    (sessions_only_forward sampleTokenDb_unique hrun hrun').1 0 s hs hinactive⟩

end AuthWorld

end NotificationPlatform
