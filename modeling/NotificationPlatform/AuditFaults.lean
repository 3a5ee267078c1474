import NotificationPlatform.AuditedRequests

/-!
# Which mutations the tenant finds in its log

A route whose event names the owner of the written rows is right about it: its handler writes rows
of no other tenant. With that it is settled for every mutating route, and every caller, whether the
log gets an entry and whether the tenant whose rows have changed finds it.
-/

namespace NotificationPlatform

open Lib Lib.Sql

section

variable {t : String}

private theorem insertRole_heldBy {db db' : AuthDb} {id : Nat} {role : Role}
    (h : db.insertRole id role = some db') (hne : role.tenantID ≠ some t) :
    db'.heldBy t = db.heldBy t := by
  unfold AuthDb.insertRole at h
  split at h
  · next hnew =>
      obtain rfl := Option.some.inj h
      simp only [Bool.and_eq_true, Option.isNone_iff_eq_none] at hnew
      have hrole : (role.tenantID == some t) = false := by simpa using hne
      -- nothing refers to the new role as one of the tenant's
      have howns : ∀ roleID, AuthDb.ownsRole { db with roles := db.roles.insert id role } t roleID =
          db.ownsRole t roleID := by
        intro roleID
        unfold AuthDb.ownsRole
        dsimp only
        by_cases hid : roleID = id
        · rw [hid, Table.get?_insert_self hnew.1.2, hnew.1.2]
          exact hrole
        · rw [Table.get?_insert_ne _ _ hid]
      unfold AuthDb.heldBy
      simp only [howns]
      rw [Table.filter_insert hrole]
  · simp at h

private theorem insertUserRole_heldBy {db db' : AuthDb} {id : Nat} {row : UserRole}
    (h : db.insertUserRole id row = some db') (hne : row.tenantID ≠ some t) :
    db'.heldBy t = db.heldBy t := by
  obtain ⟨-, -, rfl⟩ := AuthDb.insertUserRole_eq_some h
  have hrow : (row.tenantID == some t) = false := by simpa using hne
  unfold AuthDb.heldBy
  rw [Table.filter_insert hrow]
  rfl

private theorem reference_ne {tenantID : String} (hne : tenantID ≠ t) :
    (if tenantID = "" then none else some tenantID) ≠ some t := by
  split
  · simp
  · intro h
    exact hne (Option.some.inj h)

private theorem createRole_heldBy {p : Principal} {env : RoleEnv} {tenantID name key scope : String}
    {db : AuthDb} (hne : (if scope = "platform" then "" else effectiveTenant p tenantID) ≠ t) :
    (Roles.createRole p env tenantID name key scope db).2.heldBy t = db.heldBy t := by
  have hscope : (if scope = "" then "tenant" else scope) = "platform" ↔ scope = "platform" := by
    split
    · next hempty => simp [hempty]
    · rfl
  unfold effectiveTenant at hne
  unfold Roles.createRole
  split
  · rfl
  dsimp only
  generalize (if scope = "" then "tenant" else scope) = default at hscope ⊢
  generalize (if p.isPlatform = true then tenantID else p.tenantID) = own at hne ⊢
  split
  · rfl
  split
  · rfl
  split
  · rfl
  split
  · rfl
  · next db' hinsert =>
      split at hinsert
      · simp at hinsert
      · apply insertRole_heldBy hinsert
        simp only [hscope]
        exact reference_ne hne

private theorem assignUserRole_heldBy {p : Principal} {env : RoleEnv} {userID roleID : Nat}
    {tenantID : String} {db : AuthDb} (hne : effectiveTenant p tenantID ≠ t) :
    (Roles.assignUserRole p env userID tenantID roleID db).2.heldBy t = db.heldBy t := by
  unfold effectiveTenant at hne
  unfold Roles.assignUserRole
  dsimp only
  generalize (if p.isPlatform = true then tenantID else p.tenantID) = own at hne ⊢
  split
  · rfl
  split
  · rfl
  split
  · rfl
  · next db' hinsert =>
      split at hinsert
      · simp at hinsert
      · exact insertUserRole_heldBy hinsert (reference_ne hne)

private theorem serveRoles_users (db : CredDb) (p : Principal) (env : RoleEnv) (req : RoleRequest) :
    (db.serveRoles p env req).auth = (Roles.serve p env db.auth req).2 ∧
      (db.serveRoles p env req).membersOf t = db.membersOf t := by
  unfold CredDb.serveRoles
  dsimp only
  split
  · split <;> exact ⟨rfl, rfl⟩
  · split <;> exact ⟨rfl, rfl⟩
  · exact ⟨rfl, rfl⟩

private theorem insertUser_holds {db db' : CredDb} {id : Nat} {email hash : String}
    {isPlatformAdmin : Bool}
    (hmembers : ∀ tu ∈ db.tenantUsers, (db.accounts.get? tu.userID).isSome = true)
    (h : db.insertUser id email hash isPlatformAdmin = some db') :
    db'.auth.heldBy t = db.auth.heldBy t ∧ db'.membersOf t = db.membersOf t := by
  unfold CredDb.insertUser at h
  split at h
  · obtain rfl := Option.some.inj h
    refine ⟨rfl, ?_⟩
    unfold CredDb.membersOf
    dsimp only
    apply List.map_congr_left
    intro tu htu
    have hmem : tu ∈ db.tenantUsers := (List.mem_filter.mp htu).1
    obtain ⟨account, haccount⟩ := Option.isSome_iff_exists.mp (hmembers tu hmem)
    rw [Table.get?_insert_of_some haccount, haccount]
  · simp at h

private theorem linkUser_holds (db : CredDb) (fails : Bool) {tenantID : String} (userID : Nat)
    (hne : tenantID ≠ t) : (db.linkUser fails tenantID userID).auth.heldBy t = db.auth.heldBy t ∧
      (db.linkUser fails tenantID userID).membersOf t = db.membersOf t := by
  unfold CredDb.linkUser
  split
  · exact ⟨rfl, rfl⟩
  · refine ⟨rfl, ?_⟩
    have hother : (tenantID == t) = false := by simpa using hne
    simp [CredDb.membersOf, hother]

private theorem createUser_holds {p : Principal} (env : UserEnv) {req : NewUser} {db : CredDb}
    (hmembers : ∀ tu ∈ db.tenantUsers, (db.accounts.get? tu.userID).isSome = true)
    (hne : effectiveTenant p req.tenantID ≠ t) :
    (Users.createUser p env req db).2.auth.heldBy t = db.auth.heldBy t ∧
      (Users.createUser p env req db).2.membersOf t = db.membersOf t := by
  unfold Users.createUser
  split
  · exact ⟨rfl, rfl⟩
  cases env.hash with
  | none => exact ⟨rfl, rfl⟩
  | some hash =>
      dsimp only
      split
      · exact ⟨rfl, rfl⟩
      split
      · exact ⟨rfl, rfl⟩
      · next db' hinsert =>
          split at hinsert
          · simp at hinsert
          · have hnew := insertUser_holds (t := t) hmembers hinsert
            dsimp only
            split
            · exact hnew
            · have hlink := linkUser_holds db' env.linkFails env.newID hne
              exact ⟨hlink.1.trans hnew.1, hlink.2.trans hnew.2⟩

end

structure Tx.IsOf (tx : Tx) (t : String) : Prop where
  notification : tx.notification.2.tenantID = t
  deliveries : ∀ d ∈ tx.deliveries, d.2.tenantID = t
  job : ∀ j ∈ tx.job, j.2.tenantID = t

section

variable {cfg : Config} {s s' : Sys} {t tenantID : String}

private theorem commit_heldBy {db : Db} {tx : Tx} (h : tx.IsOf tenantID) (hne : tenantID ≠ t) :
    (db.commit tx).heldBy t = db.heldBy t := by
  have hother : (tenantID == t) = false := by simpa using hne
  unfold Db.heldBy
  simp only [Db.commit_notifications, Db.commit_deliveries, Db.commit_scheduledJobs,
    Db.commit_controls]
  rw [Table.filter_insert, Table.filter_insertAll, Table.filter_insertAll]
  · intro j hj
    rw [h.job j (by simpa using hj)]
    exact hother
  · intro d hd
    rw [h.deliveries d hd]
    exact hother
  · rw [h.notification]
    exact hother

private theorem ensureControl_heldBy {db db' : Db} {channel : String} {control : Control}
    (h : db.ensureControl cfg tenantID channel = .ok (control, db')) (hne : tenantID ≠ t) :
    db'.heldBy t = db.heldBy t := by
  have hother : (tenantID == t) = false := by simpa using hne
  unfold Db.ensureControl at h
  split at h
  · simp at h
  · split at h
    · obtain ⟨-, rfl⟩ := Prod.mk.inj (Except.ok.inj h)
      rfl
    · dsimp only at h
      split at h
      · simp at h
      · obtain ⟨-, rfl⟩ := Prod.mk.inj (Except.ok.inj h)
        simp [Db.heldBy, hother]

private theorem Effect.heldBy {req : Request} {stage stage' : Stage} {c : Call} {success : Bool}
    (h : Effect cfg s (.request tenantID req) stage c success stage' s') (hne : tenantID ≠ t)
    (htx : ∀ tx, stage.tx? = some tx → tx.IsOf tenantID) :
    s'.db.heldBy t = s.db.heldBy t ∧ ∀ tx, stage'.tx? = some tx → tx.IsOf tenantID := by
  cases h with
  | gate _ => exact ⟨rfl, by simp [Stage.tx?]⟩
  | gateClosed => exact ⟨rfl, by simp [Stage.tx?]⟩
  | begin _ => exact ⟨rfl, by simp [Stage.tx?]⟩
  | insertNotification hrow _ =>
      refine ⟨rfl, fun tx hstage => ?_⟩
      obtain rfl := Option.some.inj hstage
      exact ⟨by rw [hrow]; rfl, by simp, by simp⟩
  | insertScheduledJob _ _ =>
      refine ⟨rfl, fun tx hstage => ?_⟩
      obtain rfl := Option.some.inj hstage
      have hold := htx _ rfl
      exact ⟨hold.notification, hold.deliveries, by simp⟩
  | insertTxDelivery _ =>
      refine ⟨rfl, fun tx hstage => ?_⟩
      obtain rfl := Option.some.inj hstage
      have hold := htx _ rfl
      refine ⟨hold.notification, ?_, hold.job⟩
      intro d hd
      rcases List.mem_append.mp hd with hd | hd
      · exact hold.deliveries d hd
      · obtain rfl := List.mem_singleton.mp hd
        rfl
  | sendEnsureControl hensure => exact ⟨ensureControl_heldBy hensure hne, htx⟩
  | sendPublish _ => exact ⟨rfl, htx⟩
  | commit hstage =>
      refine ⟨commit_heldBy (htx _ ?_) hne, by simp [Stage.tx?]⟩
      rcases hstage with ⟨n, rfl⟩ | rfl
      · rfl
      · rfl
  | giveUp _ _ => exact ⟨rfl, by simp [Stage.tx?]⟩

private theorem sendAlone_heldBy {unixNano : Nat} {req : Request} {plan : Site → Outcome}
    (hne : tenantID ≠ t) :
    (sendAlone cfg unixNano tenantID req plan s).2.db.heldBy t = s.db.heldBy t := by
  obtain ⟨_, -, hheld, -⟩ := (send_follows cfg unixNano tenantID req).eval
    (h := handler cfg (.request tenantID req) fun c => plan c.site)
    (I := fun stage s' => s'.db.heldBy t = s.db.heldBy t ∧
      ∀ tx, Stage.tx? stage = some tx → tx.IsOf tenantID)
    (fun stage c f s' hallowed hs' => by
      have hstep := Effect.heldBy (hallowed.effect (plan c.site) s') hne hs'.2
      exact ⟨hstep.1.trans hs'.1, hstep.2⟩)
    (w := s) ⟨rfl, by simp [Stage.tx?]⟩
  exact hheld

end

section

variable {cfg : ConsoleConfig} {env : ConsoleEnv} {p : Principal} {s : Console} {t : String}

private theorem role_owner (p : Principal) (env : RoleEnv) (db : AuthDb) (t : String)
    {r : RoleRequest} (hentry : ∃ entry ∈ r.audit, entry.tenant = .owner) :
    ∃ event, r.event p env = some event ∧
      (event.tenantID ≠ t → (Roles.serve p env db r).2.heldBy t = db.heldBy t) := by
  cases r with
  | createRole tenantID name key scope =>
      refine ⟨_, rfl, fun hne => ?_⟩
      unfold Roles.serve
      split
      · exact createRole_heldBy hne
      · rfl
  | assignUserRole userID tenantID roleID =>
      refine ⟨_, rfl, fun hne => ?_⟩
      unfold Roles.serve
      split
      · exact assignUserRole_heldBy hne
      · rfl
  | _ => simp [RoleRequest.audit] at hentry

private theorem ConsoleRequest.serve_owner {r : ConsoleRequest} (hsound : s.Sound)
    (ht : Uuid.read t = some t) (haudits : r.AuditsSucceed cfg env p s)
    (hok : (r.serve cfg env p s).1 / 100 = 2)
    (hchanged : (r.serve cfg env p s).2.holdings t ≠ s.holdings t)
    (hentry : ∃ entry ∈ r.audit, entry.tenant = .owner) :
    ∃ event, Uuid.read event.tenantID = some t ∧
      s.admin.Trail [event] (r.serve cfg env p s).2.admin := by
  cases r with
  | admin r =>
      have howned : ((NotificationPlatform.serve cfg.provision.toAdminConfig p r).eval
          (AdminState.call env.calls) ⟨s.admin, 0⟩).2.db.ownedBy t ≠ s.admin.ownedBy t := by
        intro hsame
        apply hchanged
        unfold Console.holdings
        dsimp only [ConsoleRequest.serve]
        rw [hsame]
      exact NotificationPlatform.serve_owner hsound.admin ht haudits hok howned hentry
  | createTenant body => simp [ConsoleRequest.audit] at hentry
  | updateTenant tenantID body => simp [ConsoleRequest.audit] at hentry
  | updateTenantStatus tenantID body => simp [ConsoleRequest.audit] at hentry
  | updateUser id req => simp [ConsoleRequest.audit] at hentry
  | role r =>
      obtain ⟨event, hevent, hheld⟩ := role_owner p env.role s.cred.auth t hentry
      dsimp only [ConsoleRequest.serve] at hok hchanged ⊢
      rw [hevent] at hok hchanged ⊢
      by_cases hname : event.tenantID = t
      · refine ⟨event, ?_, Console.finish_event (haudits event hevent) rfl hok⟩
        rw [hname]
        exact ht
      · exfalso
        apply hchanged
        rw [Console.finish_holdings]
        obtain ⟨hauth, hmembers⟩ := serveRoles_users (t := t) s.cred p env.role r
        unfold Console.holdings
        dsimp only
        rw [hauth, hmembers, hheld hname]
  | createUser req =>
      dsimp only [ConsoleRequest.serve] at hok hchanged ⊢
      by_cases hname : effectiveTenant p req.tenantID = t
      · refine ⟨_, ?_, Console.finish_event haudits rfl hok⟩
        dsimp only
        rw [hname]
        exact ht
      · exfalso
        apply hchanged
        rw [Console.finish_holdings]
        obtain ⟨hauth, hmembers⟩ := createUser_holds env.user hsound.members hname
        unfold Console.holdings
        dsimp only
        rw [hauth, hmembers]
  | send tenantID req =>
      simp only [ConsoleRequest.serve, ConsoleRequest.sendAdmin] at hok hchanged ⊢
      split at hok
      · exact absurd hok (by decide : ¬400 / 100 = 2)
      next hnamed =>
      rw [if_neg hnamed] at hchanged ⊢
      split at hok
      · exact absurd hok (by decide : ¬400 / 100 = 2)
      next accepted haccepted =>
      rw [haccepted] at hchanged
      by_cases hname : effectiveTenant p tenantID = t
      · refine ⟨_, ?_, Console.finish_event (haudits accepted haccepted) rfl rfl⟩
        dsimp only
        rw [hname]
        exact ht
      · exfalso
        apply hchanged
        rw [Console.finish_holdings]
        unfold Console.holdings
        dsimp only
        rw [sendAlone_heldBy hname]

end

/-- A new row for the action is among those that `ListAuditLogs` selects for the principal. -/
def AdminDb.Shows (q : Principal) (asked : String) (audit : Option AuditEntry) (db db' : AdminDb) :
    Prop :=
  db.Logs (fun row => ofAction audit row ∧
    ∃ rows, (TenantFilter.of q asked).rows (db' .auditLogs) = some rows ∧ row ∈ rows) db'

section

variable {t : String} {db db' : AdminDb}

private theorem shows_iff {q : Principal} (hq : q.isPlatform = false)
    (ht : Uuid.read q.tenantID = some t) (asked : String) (audit : Option AuditEntry) :
    db.Shows q asked audit db' ↔ db.Logs (ofActionIn audit t) db' := by
  have hfilter : (TenantFilter.of q asked).rows (db' .auditLogs) =
      some ((db' .auditLogs).filter (ofTenant (.text t))) := by
    rw [TenantFilter.of_tenant hq ht]
    rfl
  have htenant : ∀ row, belongsTo t .auditLogs row = true ↔ row "tenant_id" = .text t :=
    fun _ => belongsTo_iff
  unfold AdminDb.Shows AdminDb.Logs
  rw [hfilter]
  constructor
  · rintro ⟨rows, hrows, row, hrow, haction, selected, hselected, hmem⟩
    obtain rfl := Option.some.inj hselected
    exact ⟨rows, hrows, row, hrow, haction, (htenant row).mp (List.mem_filter.mp hmem).2⟩
  · rintro ⟨rows, hrows, row, hrow, haction, howner⟩
    refine ⟨rows, hrows, row, hrow, haction, _, rfl, ?_⟩
    rw [hrows, List.mem_filter]
    exact ⟨List.mem_append_right _ hrow, (htenant row).mpr howner⟩

end

/-- The users of tenant `t` find the action of the request in their log. -/
structure ConsoleRequest.AuditedFor (cfg : ConsoleConfig) (env : ConsoleEnv) (p : Principal)
    (s : Console) (r : ConsoleRequest) (t : String) : Prop where
  logged : s.admin.Logs (ofActionIn r.audit t) (r.serve cfg env p s).2.admin
  shown : ∀ (q : Principal) (asked : String), q.isPlatform = false →
    Uuid.read q.tenantID = some t → s.admin.Shows q asked r.audit (r.serve cfg env p s).2.admin

section

variable {cfg : ConsoleConfig} {env : ConsoleEnv} {p : Principal} {r : ConsoleRequest} {s : Console}
  {t : String}

private theorem auditedFor_iff :
    r.AuditedFor cfg env p s t ↔
      s.admin.Logs (ofActionIn r.audit t) (r.serve cfg env p s).2.admin :=
  ⟨fun h => h.logged, fun h => ⟨h, fun _ asked hq ht => (shows_iff hq ht asked r.audit).mpr h⟩⟩

private theorem auditedFor_names_iff (hsound : s.Sound) (haudits : r.AuditsSucceed cfg env p s)
    (hok : (r.serve cfg env p s).1 / 100 = 2) (ht : Uuid.read t = some t)
    (hchanged : (r.serve cfg env p s).2.holdings t ≠ s.holdings t) :
    r.AuditedFor cfg env p s t ↔ ∃ entry ∈ r.audit, entry.names p t := by
  obtain ⟨owner, events, hrecorded, htrail⟩ := r.serve_trail haudits hok
  rw [auditedFor_iff]
  apply hrecorded.logsIn_iff htrail
  intro hentry
  exact r.serve_owner hsound ht haudits hok hchanged hentry

end

/-- A request that succeeds is in the log exactly when its handler writes an event, and the tenant
whose rows it has changed finds it exactly when that event names the owner of the row, or the
principal and the principal is of the tenant. -/
theorem mutations_audited_iff (cfg : ConsoleConfig) (env : ConsoleEnv) (p : Principal)
    (r : ConsoleRequest) (s : Console) (hsound : s.Sound) (haudits : r.AuditsSucceed cfg env p s)
    (hok : (r.serve cfg env p s).1 / 100 = 2) :
    (s.admin.Logs (ofAction r.audit) (r.serve cfg env p s).2.admin ↔ r.audit.isSome = true) ∧
      ∀ t, Uuid.read t = some t → (r.serve cfg env p s).2.holdings t ≠ s.holdings t →
        (r.AuditedFor cfg env p s t ↔ ∃ entry ∈ r.audit, entry.names p t) := by
  obtain ⟨owner, events, hrecorded, htrail⟩ := r.serve_trail haudits hok
  refine ⟨hrecorded.logs_iff htrail, fun t ht hchanged => ?_⟩
  exact auditedFor_names_iff hsound haudits hok ht hchanged

def sampleConsole : Console := ⟨sampleContacts, sampleCredDb, sampleWorld.sys⟩

def sampleConsoleConfig : ConsoleConfig := ⟨sampleProvisionConfig, sampleConfig 3⟩

def sampleConsoleEnv : ConsoleEnv where
  calls := fun n => { id := "cccccccc-0000-0000-0000-00000000000" ++ toString n }
  statements := sampleStatements
  role := sampleRoleEnv 5
  user := ⟨none, false, false, "", 5⟩
  send := fun _ => {}
  unixNano := 1
  audit := {}

def sampleClerk : Principal := ⟨7, firstTenant, false, ["contacts.manage"]⟩

theorem sampleConsole_sound : sampleConsole.Sound where
  admin := sampleContacts_reachable.sound
  members := by decide

def sampleContactCreation : ConsoleRequest := .admin (.createContact ⟨"", "", "Cid", "", ""⟩)

def sampleContactDeletion : ConsoleRequest :=
  .admin (.deleteContact "aaaaaaaa-0000-0000-0000-000000000000")

private def contactsAfter (r : ConsoleRequest) : Nat :=
  ((r.serve sampleConsoleConfig sampleConsoleEnv sampleClerk sampleConsole).2.admin.ownedBy
    firstTenant .contacts).length

private theorem holdings_ne {r : ConsoleRequest} (h : contactsAfter r ≠ 1) :
    (r.serve sampleConsoleConfig sampleConsoleEnv sampleClerk sampleConsole).2.holdings
      firstTenant ≠ sampleConsole.holdings firstTenant := by
  intro hsame
  have hrows := congrArg (fun holdings : Holdings => (holdings.rows .contacts).length) hsame
  have hone : (sampleConsole.admin.ownedBy firstTenant .contacts).length = 1 := by decide +kernel
  exact h (hrows.trans hone)

/-- The users of the tenant find the creation of a contact in their log. -/
theorem mutations_audited_creation : sampleContactCreation.AuditedFor sampleConsoleConfig
    sampleConsoleEnv sampleClerk sampleConsole firstTenant :=
  ((mutations_audited_iff sampleConsoleConfig sampleConsoleEnv sampleClerk sampleContactCreation
    sampleConsole sampleConsole_sound ⟨trivial, rfl, trivial⟩ (by decide +kernel)).2 firstTenant
    (by decide) (holdings_ne (by decide +kernel))).mpr ⟨_, rfl, trivial⟩

/-- They do not find the deletion of their own contact, whose event has no tenant. -/
theorem deletion_not_audited : ¬∀ (cfg : ConsoleConfig) (env : ConsoleEnv) (p : Principal)
    (r : ConsoleRequest) (s : Console), s.Sound → r.AuditsSucceed cfg env p s →
    (r.serve cfg env p s).1 / 100 = 2 → ∀ t, Uuid.read t = some t →
    (r.serve cfg env p s).2.holdings t ≠ s.holdings t → r.AuditedFor cfg env p s t := by
  intro hclaim
  have hok : (sampleContactDeletion.serve sampleConsoleConfig sampleConsoleEnv sampleClerk
      sampleConsole).1 / 100 = 2 := by decide +kernel
  have haudits : sampleContactDeletion.AuditsSucceed sampleConsoleConfig sampleConsoleEnv
      sampleClerk sampleConsole := ⟨trivial, rfl, trivial⟩
  have hread : Uuid.read firstTenant = some firstTenant := by decide
  have hchanged := holdings_ne (r := sampleContactDeletion) (by decide +kernel)
  have haudited := hclaim _ _ _ _ _ sampleConsole_sound haudits hok firstTenant hread hchanged
  obtain ⟨entry, hentry, hnames⟩ :=
    (auditedFor_names_iff sampleConsole_sound haudits hok hread hchanged).mp haudited
  obtain rfl := Option.some.inj hentry
  exact hnames

end NotificationPlatform
