import NotificationPlatform.Credentials

/-!
# Access tokens and the removal of roles

The permissions of a user are read when an access token is signed and travel in the token. The
removal of a role changes what the next token will say and the version of the user's permissions,
which nothing reads.
-/

namespace NotificationPlatform

open Lib

namespace CredDb

variable {cfg : AuthConfig} {o : AuthOutcome} {db : CredDb}

theorem exec_now (s : AuthStmt) : (db.exec cfg o s).2.now = db.now := by
  unfold exec
  split
  · rfl
  · cases s with
    | insertSession new =>
        simp only [answer]
        split
        · next db' hdb' =>
            unfold insertSession at hdb'
            split at hdb'
            · obtain rfl := Option.some.inj hdb'
              rfl
            · simp at hdb'
        · rfl
    | _ => rfl

theorem serveRoles_now (p : Principal) (env : RoleEnv) (req : RoleRequest) :
    (db.serveRoles p env req).now = db.now :=
  (serveRoles_frame db p env req).1

end CredDb

namespace AuthWorld

variable {cfg : AuthConfig} {w w' : AuthWorld}

/-- A request with this bearer token passes `JWT` and `RequirePermission`. -/
def passes (cfg : AuthConfig) (w : AuthWorld) (token permission : String) : Bool :=
  match Auth.verifyJWT cfg token w.db.now with
  | some c => hasPermission c.principal permission
  | none => false

theorem now_le_step {e : AuthEvent} (h : w.step cfg e = some w') : w.db.now ≤ w'.db.now := by
  rcases step_cases h with ⟨req, -, rfl⟩ | ⟨i, o, req, s, k, -, -, rfl⟩ | ⟨seconds, -, rfl⟩ |
    ⟨p, env, req, -, rfl⟩
  · exact le_refl _
  · exact le_of_eq (CredDb.exec_now s).symm
  · exact Nat.le_add_right _ _
  · exact le_of_eq (CredDb.serveRoles_now p env req).symm

theorem now_le_run {ok : AuthWorld → AuthEvent → Prop} {es : List AuthEvent}
    (h : w.RunOf cfg ok es w') : w.db.now ≤ w'.db.now := by
  apply h.invariant (I := fun s => w.db.now ≤ s.db.now) _ (le_refl _)
  intro s e s' hs _ hstep
  exact hs.trans (now_le_step hstep)

theorem passes_signed {access : AccessToken} (hjwt : cfg.parseJWT (cfg.signJWT access) = some access)
    (permission : String) :
    w.passes cfg (cfg.signJWT access) permission =
      (decide (w.db.now < access.exp) && hasPermission access.claims.principal permission) := by
  unfold passes Auth.verifyJWT
  rw [hjwt]
  by_cases hlive : w.db.now < access.exp <;> simp [hlive]

/-- After a `RemoveUserRole` call, no request passes `RequirePermission(k)` with an access token
of user `u` for tenant `t` that was signed before, in any run, exactly when every such token whose
claims have the permission had expired by the time of the call. -/
theorem revocation_effective_iff (cfg : AuthConfig) (w w' : AuthWorld) (p : Principal)
    (env : RoleEnv) (u roleID : Nat) (t k : String)
    (hjwt : ∀ access ∈ w.issued, cfg.parseJWT (cfg.signJWT access) = some access)
    (hremove : w.step cfg (.roles p env (.removeUserRole u roleID)) = some w') :
    (∀ es w'', w'.RunOf cfg (fun _ _ => True) es w'' → ∀ access ∈ w.issued,
      access.claims.principal.userID = u → access.claims.principal.tenantID = t →
        w''.passes cfg (cfg.signJWT access) k = false) ↔
      ∀ access ∈ w.issued, access.claims.principal.userID = u →
        access.claims.principal.tenantID = t → hasPermission access.claims.principal k = true →
          access.exp ≤ w.db.now := by
  have hnow : w'.db.now = w.db.now := by
    obtain rfl := Option.some.inj hremove
    exact CredDb.serveRoles_now p env _
  constructor
  · intro hnone access hissued hu ht hpermitted
    have hrefused := hnone [] w' (.nil w') access hissued hu ht
    rw [passes_signed (hjwt access hissued), hpermitted, Bool.and_true, hnow] at hrefused
    exact Nat.le_of_not_lt (of_decide_eq_false hrefused)
  · intro hexpired es w'' hrun access hissued hu ht
    rw [passes_signed (hjwt access hissued)]
    cases hpermitted : hasPermission access.claims.principal k with
    | false => exact Bool.and_false _
    | true =>
        have hlate : access.exp ≤ w''.db.now :=
          (hexpired access hissued hu ht hpermitted).trans (hnow ▸ now_le_run hrun)
        simp [hlate]

/-! ## A login and a removal -/

def sampleLogin : List AuthEvent :=
  List.flatten [
    [.start (.login "ann@example.org" "secret" "10.0.0.1" "browser")], calls 0 3,
    [.call 0 { random := "sess_1" }, .call 0 { random := "rft_1" }], calls 0 3]

def samplePlatformAdmin : Principal := ⟨1, "", true, []⟩

def sampleRemoval : AuthEvent := .roles samplePlatformAdmin (sampleRoleEnv 0) (.removeUserRole 7 0)

theorem revocation_after_expiry :
    ∃ w w', (fresh sampleCredDb).RunOf sampleAuthConfig (fun _ _ => True)
        (sampleLogin ++ [.clock 900]) w ∧ w.issued = [sampleAccess] ∧
      w.step sampleAuthConfig sampleRemoval = some w' ∧
      ∀ es w'', w'.RunOf sampleAuthConfig (fun _ _ => True) es w'' →
        w''.passes sampleAuthConfig "jwt.sess_1" "templates.view" = false := by
  have hexecuted : (execute (step sampleAuthConfig) (fun _ _ => true) (fresh sampleCredDb)
      (sampleLogin ++ [.clock 900])).any
        (fun w => w.issued == [sampleAccess] && w.db.now == 1900) = true := by decide +kernel
  obtain ⟨w, hrun, hw⟩ := exists_run hexecuted
  have hissued : w.issued = [sampleAccess] := by
    simpa using (Bool.and_eq_true_iff.mp hw).1
  have hnow : w.db.now = 1900 := by simpa using (Bool.and_eq_true_iff.mp hw).2
  refine ⟨w, _, hrun, hissued, rfl, ?_⟩
  intro es w'' hrun'
  have hiff := revocation_effective_iff sampleAuthConfig w _ samplePlatformAdmin (sampleRoleEnv 0)
    7 0 "t1" "templates.view" (by rw [hissued]; decide) rfl
  apply hiff.mpr _ es w'' hrun' sampleAccess (by rw [hissued]; exact List.mem_singleton.mpr rfl)
    rfl rfl
  intro access hmem _ _ _
  rw [hissued] at hmem
  rw [List.mem_singleton.mp hmem, hnow]
  exact le_refl _

theorem stale_token_passes : ¬∀ (cfg : AuthConfig) (db : CredDb) (before : List AuthEvent)
    (w w' : AuthWorld) (p : Principal) (env : RoleEnv) (u roleID : Nat) (t k : String),
    (fresh db).RunOf cfg (fun _ _ => True) before w →
    (∀ access ∈ w.issued, cfg.parseJWT (cfg.signJWT access) = some access) →
    w.step cfg (.roles p env (.removeUserRole u roleID)) = some w' →
    hasPermission (w.db.auth.principal u t) k = true →
    hasPermission (w'.db.auth.principal u t) k = false →
    ∀ es w'', w'.RunOf cfg (fun _ _ => True) es w'' → ∀ access ∈ w.issued,
      access.claims.principal.userID = u → access.claims.principal.tenantID = t →
        w''.passes cfg (cfg.signJWT access) k = false := by
  intro hclaim
  have hexecuted : (execute (step sampleAuthConfig) (fun _ _ => true) (fresh sampleCredDb)
      sampleLogin).any (fun w => w.issued == [sampleAccess] &&
        hasPermission (w.db.auth.principal 7 "t1") "templates.view" &&
        (w.step sampleAuthConfig sampleRemoval).any fun w' =>
          !hasPermission (w'.db.auth.principal 7 "t1") "templates.view" &&
          w'.passes sampleAuthConfig (sampleAuthConfig.signJWT sampleAccess) "templates.view")
      = true := by decide +kernel
  obtain ⟨w, hrun, hw⟩ := exists_run hexecuted
  simp only [Bool.and_eq_true, beq_iff_eq] at hw
  obtain ⟨⟨hissued, hbefore⟩, hremoved⟩ := hw
  cases hstep : w.step sampleAuthConfig sampleRemoval with
  | none => simp [hstep] at hremoved
  | some w' =>
      rw [hstep] at hremoved
      simp only [Option.any_some, Bool.and_eq_true, Bool.not_eq_true'] at hremoved
      have hrefused := hclaim sampleAuthConfig sampleCredDb sampleLogin w w' samplePlatformAdmin
        (sampleRoleEnv 0) 7 0 "t1" "templates.view" hrun (by rw [hissued]; decide) hstep hbefore
        hremoved.1 [] w' (.nil w') sampleAccess
        (by rw [hissued]; exact List.mem_singleton.mpr rfl) rfl rfl
      rw [hremoved.2] at hrefused
      simp at hrefused

end AuthWorld

end NotificationPlatform
