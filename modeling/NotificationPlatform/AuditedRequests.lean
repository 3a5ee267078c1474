import NotificationPlatform.AuditOwners
import NotificationPlatform.Credentials
import NotificationPlatform.Effects
import NotificationPlatform.ProvisioningFaults
import NotificationPlatform.SendAtomicity

/-!
# The audit log of the admin routes

The mutating routes of the admin API together: the handlers of tenant resources, of tenants, roles
and users, and the one that sends a notification. For each route it is settled whether a request
that succeeds leaves an event for its action, and whether the event is one that the users of the
tenant see whose rows have changed.
-/

namespace NotificationPlatform

open Lib Lib.Sql

structure NewUser where
  email : String
  name : String
  password : String
  tenantID : String
  isPlatformAdmin : Bool

/-- The body of `UpdateUser`; the name of a user is in no table of the model. -/
structure UserUpdate where
  email : String
  status : String

/-- What the environment decides about a request on users: the hash of the password, which
statements fail and with which error text, and the identifier of a new user. -/
structure UserEnv where
  hash : Option String
  writeFails : Bool
  linkFails : Bool
  detail : String
  newID : Nat

namespace CredDb

/-- `INSERT INTO users`, with its primary key and unique email. -/
def insertUser (db : CredDb) (id : Nat) (email hash : String) (isPlatformAdmin : Bool) :
    Option CredDb :=
  if (db.accounts.get? id).isNone && !db.accounts.rows.any fun u => u.2.email == email
  then some { db with
    auth := { db.auth with users := db.auth.users ++ [id] }
    accounts := db.accounts.insert id
      { email := email
        passwordHash := hash
        isPlatformAdmin := isPlatformAdmin
        status := "active"
        failedLoginCount := 0
        lockedUntil := none
        passwordChangedAt := none
        emailVerifiedAt := none } }
  else none

/-- `INSERT INTO tenant_users .. ON CONFLICT DO NOTHING`; a tenant that is not there is an error,
which the handler ignores. -/
def linkUser (db : CredDb) (fails : Bool) (tenantID : String) (userID : Nat) : CredDb :=
  if fails || !db.auth.tenants.contains tenantID ||
      db.tenantUsers.any fun tu => tu.tenantID == tenantID && tu.userID == userID
  then db
  else { db with tenantUsers := db.tenantUsers ++ [⟨tenantID, userID, "active"⟩] }

/-- The user with this identifier, when the caller may write it: `WHERE id = $n`, and for a tenant
user `AND EXISTS (SELECT 1 FROM tenant_users ..)`. -/
def writableUser (db : CredDb) (p : Principal) (id : Nat) : Bool :=
  (db.accounts.get? id).isSome && (p.isPlatform ||
    db.tenantUsers.any fun tu => tu.userID == id && tu.tenantID == p.tenantID)

end CredDb

namespace Users

def createUser (p : Principal) (env : UserEnv) (req : NewUser) (db : CredDb) : Response × CredDb :=
  if req.email = "" ∨ req.name = "" ∨ req.password = "" then
    (.error 400 "email, name, and password are required", db)
  else
    match env.hash with
    | none => (.error 500 "password hashing failed", db)
    | some hash =>
        let tenantID := effectiveTenant p req.tenantID
        let isPlatformAdmin := p.isPlatform && req.isPlatformAdmin
        if isPlatformAdmin = false ∧ tenantID = "" then
          (.error 400 "tenant_id is required for tenant users", db)
        else
          match if env.writeFails then none
            else db.insertUser env.newID req.email hash isPlatformAdmin with
          | none => (.detail 500 "create failed" env.detail, db)
          | some db' =>
              (.created env.newID "user created",
                if tenantID = "" then db' else db'.linkUser env.linkFails tenantID env.newID)

def updateUser (p : Principal) (env : UserEnv) (id : Nat) (req : UserUpdate) (db : CredDb) :
    Response × CredDb :=
  if env.writeFails then (.error 500 "update failed", db)
  else if !db.writableUser p id then (.error 404 "user not found", db)
  else if req.email ≠ "" ∧ db.accounts.rows.any (fun u => u.1 != id && u.2.email == req.email) then
    (.error 500 "update failed", db)
  else
    (.message 200 "user updated", db.withAccount id fun u => { u with
      email := if req.email ≠ "" then req.email else u.email
      status := if req.status ≠ "" then req.status else u.status })

end Users

/-- The audit event of a handler of roles; `AssignRolePermission` and `RemoveRolePermission` write
none. -/
def RoleRequest.event (p : Principal) (env : RoleEnv) : RoleRequest → Option AuditEvent
  | .createRole tenantID _ _ scope =>
      some ⟨if scope = "platform" then "" else effectiveTenant p tenantID, p.userText,
        "tenant_user", "role.create", "role", toString env.newID⟩
  | .updateRole id _ _ _ =>
      some ⟨"", p.userText, "tenant_user", "role.update", "role", toString id⟩
  | .deleteRole id => some ⟨"", p.userText, "tenant_user", "role.delete", "role", toString id⟩
  | .setRolePermissions roleID _ =>
      some ⟨"", p.userText, "tenant_user", "role.permissions.update", "role", toString roleID⟩
  | .assignRolePermission _ _ | .removeRolePermission _ _ => none
  | .assignUserRole _ tenantID _ =>
      some ⟨effectiveTenant p tenantID, p.userText, "tenant_user", "user_role.assign", "user_role",
        toString env.newID⟩
  | .removeUserRole _ _ => some ⟨"", p.userText, "tenant_user", "user_role.remove", "", ""⟩

def RoleRequest.audit : RoleRequest → Option AuditEntry
  | .createRole _ _ _ _ => some ⟨"role.create", .owner⟩
  | .updateRole _ _ _ _ => some ⟨"role.update", .missing⟩
  | .deleteRole _ => some ⟨"role.delete", .missing⟩
  | .setRolePermissions _ _ => some ⟨"role.permissions.update", .missing⟩
  | .assignRolePermission _ _ | .removeRolePermission _ _ => none
  | .assignUserRole _ _ _ => some ⟨"user_role.assign", .owner⟩
  | .removeUserRole _ _ => some ⟨"user_role.remove", .missing⟩

/-- The tables behind the admin API, as the handlers of the resources, those of users and roles,
and the notification pipeline see them. -/
structure Console where
  admin : AdminDb
  cred : CredDb
  sys : Sys

structure ConsoleConfig where
  provision : ProvisionConfig
  pipeline : Config

/-- What the environment decides about a request, and about its audit insert where the handler is
not a program of calls. -/
structure ConsoleEnv where
  calls : Nat → AdminOutcome
  statements : Nat → StatementOutcome
  role : RoleEnv
  user : UserEnv
  send : Site → Outcome
  unixNano : Nat
  audit : AdminOutcome

inductive ConsoleRequest where
  | admin (r : AdminRequest)
  | createTenant (body : Option TenantProvisioningRequest)
  | updateTenant (tenantID : String) (body : Option TenantProvisioningRequest)
  | updateTenantStatus (tenantID : String) (body : Option String)
  | role (r : RoleRequest)
  | createUser (req : NewUser)
  | updateUser (id : Nat) (req : UserUpdate)
  | send (tenantID : String) (req : Request)

namespace Console

/-- `audit.Write` at the end of a handler, whose error is dropped. -/
def writeAudit (o : AdminOutcome) (event : AuditEvent) (s : Console) : Console :=
  if o.fail then s else { s with admin := (s.admin.insertAudit o.id o.now event).getD s.admin }

/-- The audit event of a response, if it is a success and its handler writes one. -/
def finish (o : AdminOutcome) (status : Nat) (event : Option AuditEvent) (s : Console) :
    Nat × Console :=
  (status, if status / 100 = 2 then event.elim s fun event => s.writeAudit o event else s)

end Console

def createTenantEvent (env : Nat → StatementOutcome) (p : Principal) : AuditEvent :=
  ⟨"", p.userText, "user", "tenants.create", "tenant", (env 0).ids 0⟩

namespace ConsoleRequest

variable (cfg : ConsoleConfig) (env : ConsoleEnv) (p : Principal)

/-- `SendAdminNotification`. The rows that its broadcast inserts into `in_app_notifications` are
never accepted: their `notification_id` is a `uuid`, and the handler has a public identifier. -/
def sendAdmin (tenantID : String) (req : Request) (s : Console) : Nat × Console :=
  if p.isPlatform = true ∧ tenantID = "" then (400, s)
  else
    let r := sendAlone cfg.pipeline env.unixNano (effectiveTenant p tenantID) req env.send s.sys
    let s' := { s with sys := r.2 }
    match r.1 with
    | .error _ => (400, s')
    | .ok accepted => s'.finish env.audit 202 (some ⟨effectiveTenant p tenantID, p.userText,
        "tenant_user", "manual_notification.send", "notification", accepted.notificationID⟩)

def serve (s : Console) : ConsoleRequest → Nat × Console
  | .admin r =>
      let q := (NotificationPlatform.serve cfg.provision.toAdminConfig p r).eval
        (AdminState.call env.calls) ⟨s.admin, 0⟩
      (q.1.status, { s with admin := q.2.db })
  | .createTenant body =>
      let q := NotificationPlatform.createTenant cfg.provision env.statements p body s.admin
      (q.1.status, { s with admin := q.2 })
  | .updateTenant tenantID body =>
      let q := NotificationPlatform.updateTenant cfg.provision env.statements p tenantID body s.admin
      (q.1.status, { s with admin := q.2 })
  | .updateTenantStatus tenantID body =>
      let q := NotificationPlatform.updateTenantStatus env.statements p tenantID body s.admin
      (q.1.status, { s with admin := q.2 })
  | .role r =>
      Console.finish env.audit (Roles.serve p env.role s.cred.auth r).1.status (r.event p env.role)
        { s with cred := s.cred.serveRoles p env.role r }
  | .createUser req =>
      let q := Users.createUser p env.user req s.cred
      Console.finish env.audit q.1.status
        (some ⟨effectiveTenant p req.tenantID, p.userText, "tenant_user", "user.create", "user",
          toString env.user.newID⟩) { s with cred := q.2 }
  | .updateUser id req =>
      let q := Users.updateUser p env.user id req s.cred
      Console.finish env.audit q.1.status
        (some ⟨"", p.userText, "tenant_user", "user.update", "user", toString id⟩)
        { s with cred := q.2 }
  | .send tenantID req => sendAdmin cfg env p tenantID req s

/-- What the handler of a request writes into the audit log, if it writes an event. -/
def audit : ConsoleRequest → Option AuditEntry
  | .admin r => r.audit
  | .createTenant _ => some ⟨"tenants.create", .missing⟩
  | .updateTenant _ _ => some ⟨"tenants.update", .missing⟩
  | .updateTenantStatus _ _ => some ⟨"tenants.status", .missing⟩
  | .role r => r.audit
  | .createUser _ => some ⟨"user.create", .owner⟩
  | .updateUser _ _ => some ⟨"user.update", .missing⟩
  | .send _ _ => some ⟨"manual_notification.send", .owner⟩

end ConsoleRequest

def StatementOutcome.single (o : StatementOutcome) : AdminOutcome where
  fail := o.fail
  id := o.ids 0
  now := o.now

def AdminDb.Accepts (db : AdminDb) (o : AdminOutcome) (event : AuditEvent) : Prop :=
  o.fail = false ∧ (db.insertAudit o.id o.now event).isSome = true

/-- The audit insert of a request succeeds. Before it no statement of a handler has written the
log, so that it finds the log of the beginning. -/
def ConsoleRequest.AuditsSucceed (cfg : ConsoleConfig) (env : ConsoleEnv) (p : Principal)
    (s : Console) : ConsoleRequest → Prop
  | .admin r =>
      NotificationPlatform.AuditsSucceed cfg.provision.toAdminConfig env.calls p r ⟨s.admin, 0⟩
  | .createTenant body => ∀ req ∈ body,
      s.admin.Accepts (env.statements (1 + (provisioningSteps req).length)).single
        (createTenantEvent env.statements p)
  | .updateTenant tenantID body => ∀ req ∈ body,
      s.admin.Accepts
        (env.statements ((tenantSteps req).length + (provisioningSteps req).length)).single
        ⟨"", p.userText, "user", "tenants.update", "tenant", tenantID⟩
  | .updateTenantStatus tenantID _ => s.admin.Accepts (env.statements 1).single
      ⟨"", p.userText, "user", "tenants.status", "tenant", tenantID⟩
  | .role r => ∀ event ∈ r.event p env.role, s.admin.Accepts env.audit event
  | .createUser req => s.admin.Accepts env.audit ⟨effectiveTenant p req.tenantID, p.userText,
      "tenant_user", "user.create", "user", toString env.user.newID⟩
  | .updateUser id _ => s.admin.Accepts env.audit
      ⟨"", p.userText, "tenant_user", "user.update", "user", toString id⟩
  | .send tenantID req => ∀ accepted,
      (sendAlone cfg.pipeline env.unixNano (effectiveTenant p tenantID) req env.send s.sys).1 =
          .ok accepted →
        s.admin.Accepts env.audit ⟨effectiveTenant p tenantID, p.userText, "tenant_user",
          "manual_notification.send", "notification", accepted.notificationID⟩

/-- The roles of a tenant, their permissions, and the assignments in the tenant. -/
def AuthDb.heldBy (db : AuthDb) (t : String) :
    List (Nat × Role) × List RolePermission × List (Nat × UserRole) :=
  (db.roles.rows.filter fun r => r.2.tenantID == some t,
    db.rolePermissions.filter fun rp => db.ownsRole t rp.roleID,
    db.userRoles.rows.filter fun r => r.2.tenantID == some t)

def CredDb.membersOf (db : CredDb) (t : String) : List (TenantUser × Option Account) :=
  (db.tenantUsers.filter fun tu => tu.tenantID == t).map fun tu => (tu, db.accounts.get? tu.userID)

def Db.heldBy (db : Db) (t : String) :
    List (Nat × Notification) × List (Nat × DeliveryRow) × List (Nat × ScheduledJob) ×
      List Control :=
  (db.notifications.rows.filter fun n => n.2.tenantID == t,
    db.deliveries.rows.filter fun d => d.2.tenantID == t,
    db.scheduledJobs.rows.filter fun j => j.2.tenantID == t,
    db.controls.filter fun c => c.tenantID == t)

structure Holdings where
  rows : AdminTable → List (Row Value)
  roles : List (Nat × Role) × List RolePermission × List (Nat × UserRole)
  members : List (TenantUser × Option Account)
  pipeline : List (Nat × Notification) × List (Nat × DeliveryRow) × List (Nat × ScheduledJob) ×
    List Control

def Console.holdings (s : Console) (t : String) : Holdings where
  rows := s.admin.ownedBy t
  roles := s.cred.auth.heldBy t
  members := s.cred.membersOf t
  pipeline := s.sys.db.heldBy t

/-- The database of the resources is sound, and a member of a tenant is a user. -/
structure Console.Sound (s : Console) : Prop where
  admin : s.admin.Sound
  members : ∀ tu ∈ s.cred.tenantUsers, (s.cred.accounts.get? tu.userID).isSome = true

section

variable {db db' : AdminDb} {o : AdminOutcome} {event : AuditEvent} {t : String}

private theorem isSome_insert_congr {table : AdminTable} (h : db' table = db table)
    (row : Row Value) : (adminEngine.insert db' table row).isSome =
      (adminEngine.insert db table row).isSome := by
  unfold Engine.insert
  rw [h]
  split
  · rfl
  · split <;> rfl

private theorem AdminDb.Accepts.of_log (h : db.Accepts o event)
    (hlog : db' .auditLogs = db .auditLogs) : db'.Accepts o event := by
  refine ⟨h.1, ?_⟩
  have hsome := h.2
  unfold AdminDb.insertAudit at hsome ⊢
  cases htenant : readColumn "tenant_id" (.ofText event.tenantID) with
  | none => simp [htenant] at hsome
  | some tenant =>
      rw [htenant] at hsome
      exact (isSome_insert_congr hlog _).trans hsome

private theorem AdminDb.Accepts.trail (h : db.Accepts o event)
    (hlog : db' .auditLogs = db .auditLogs) :
    db.Trail [event] ((db'.insertAudit o.id o.now event).getD db') := by
  obtain ⟨db'', hinsert⟩ := Option.isSome_iff_exists.mp (h.of_log hlog).2
  rw [hinsert]
  exact ((AdminDb.Trail.refl db).of_eq hlog).insert hinsert

private theorem ownedBy_insertAudit :
    ((db.insertAudit o.id o.now event).getD db).ownedBy t = db.ownedBy t := by
  cases hinsert : db.insertAudit o.id o.now event with
  | none => rfl
  | some db'' =>
      obtain ⟨_, -, hrow⟩ := AdminDb.insertAudit_eq_some hinsert
      exact ownedBy_of_kept (kept_insert hrow (by simp [elsewhere]))

private theorem writeAudit_trail {o : StatementOutcome} (h : db.Accepts o.single event)
    (hlog : db' .auditLogs = db .auditLogs) : db.Trail [event] (writeAudit o event db') := by
  have hfail : o.fail = false := h.1
  unfold writeAudit
  rw [hfail]
  exact h.trail hlog

end

namespace Console

variable {s s' : Console} {o : AdminOutcome} {status : Nat} {t : String}

private theorem finish_trail {event : Option AuditEvent} (h : ∀ e ∈ event, s.admin.Accepts o e)
    (hadmin : s'.admin = s.admin) (hok : status / 100 = 2) :
    s.admin.Trail event.toList (s'.finish o status event).2.admin := by
  unfold finish
  rw [if_pos hok]
  cases event with
  | none => exact (AdminDb.Trail.refl _).of_eq (congrFun hadmin _)
  | some event =>
      have haccepts := h event rfl
      have hfail : o.fail = false := haccepts.1
      unfold writeAudit
      rw [Option.elim_some, hfail]
      exact haccepts.trail (congrFun hadmin _)

theorem finish_event {event : AuditEvent} (h : s.admin.Accepts o event)
    (hadmin : s'.admin = s.admin) (hok : status / 100 = 2) :
    s.admin.Trail [event] (s'.finish o status (some event)).2.admin := by
  have hevent : ∀ e ∈ some event, s.admin.Accepts o e := by
    intro e he
    rw [← Option.mem_some.mp he]
    exact h
  exact finish_trail hevent hadmin hok

theorem finish_holdings (event : Option AuditEvent) :
    (s.finish o status event).2.holdings t = s.holdings t := by
  have hwrite : ∀ event, (s.writeAudit o event).holdings t = s.holdings t := by
    intro event
    unfold writeAudit
    split
    · rfl
    · unfold holdings
      rw [ownedBy_insertAudit]
  unfold finish
  dsimp only
  split
  · cases event with
    | none => rfl
    | some event => exact hwrite event
  · rfl

end Console

private theorem provisionStep_log {cfg : ProvisionConfig} {tenantID : String}
    {o : StatementOutcome} {db db' : AdminDb} {st : ProvisionStep}
    (h : st.effect cfg tenantID o db = .ok db') : db' .auditLogs = db .auditLogs := by
  have htable : AdminTable.auditLogs ≠ st.table := by
    cases st <;> simp [ProvisionStep.table]
  cases hdeletes : st.deletes with
  | false => exact (effect_writes hdeletes h).1.frame _ htable
  | true => exact (effect_drops hdeletes h).1.frame _ htable

private theorem executeAll_log (cfg : ProvisionConfig) (tenantID : String)
    (env : Nat → StatementOutcome) (steps : List ProvisionStep) (n : Nat) (db : AdminDb) :
    (executeAll (ProvisionStep.exec cfg tenantID env) n steps db).2 .auditLogs =
      db .auditLogs := by
  induction steps generalizing n db with
  | nil => rfl
  | cons st steps ih =>
      rw [executeAll]
      split
      · next db' hexec =>
          rw [ih, provisionStep_log (exec_ok hexec)]
      · rfl

section

variable {env : Nat → StatementOutcome} {p : Principal} {db : AdminDb}

private theorem insertTenant_log {o : StatementOutcome} {name slug id : String} {db' : AdminDb}
    (h : insertTenant o name slug db = .ok (id, db')) :
    id = o.ids 0 ∧ db' .auditLogs = db .auditLogs := by
  unfold insertTenant at h
  split at h
  · simp at h
  · split at h
    · next db'' hinsert =>
        obtain ⟨rfl, rfl⟩ := Prod.mk.inj (Except.ok.inj h)
        obtain ⟨-, rfl⟩ := adminEngine.insert_cases hinsert
        exact ⟨rfl, rfl⟩
    · simp at h

private theorem createTenant_trail {cfg : ProvisionConfig} {body : Option TenantProvisioningRequest}
    (haudits : ∀ req ∈ body, db.Accepts (env (1 + (provisioningSteps req).length)).single
      (createTenantEvent env p)) (hok : (createTenant cfg env p body db).1.success) :
    db.Trail [createTenantEvent env p] (createTenant cfg env p body db).2 := by
  unfold createTenant at hok ⊢
  split at hok
  swap
  · exact absurd hok (JsonResponse.error_not_success _ (by decide))
  next hp =>
  rw [if_pos hp]
  cases body with
  | none => exact absurd hok (JsonResponse.error_not_success _ (by decide))
  | some req =>
      dsimp only at hok ⊢
      split at hok
      · exact absurd hok (JsonResponse.error_not_success _ (by decide))
      next hrequired =>
      rw [if_neg hrequired]
      cases hinsert : insertTenant (env 0) req.name req.slug db with
      | error e =>
          rw [hinsert] at hok
          dsimp only at hok
          split at hok
          · exact absurd hok (JsonResponse.error_not_success _ (by decide))
          · exact absurd hok (JsonResponse.error_not_success _ (by decide))
      | ok inserted =>
          obtain ⟨id, db₁⟩ := inserted
          rw [hinsert] at hok
          obtain ⟨rfl, hlog⟩ := insertTenant_log hinsert
          have happlied := executeAll_log cfg ((env 0).ids 0) env (provisioningSteps req) 1 db₁
          dsimp only at hok ⊢
          unfold applyTenantProvisioning at hok ⊢
          cases happly : executeAll (ProvisionStep.exec cfg ((env 0).ids 0) env) 1
              (provisioningSteps req) db₁ with
          | mk result db₂ =>
              rw [happly] at hok happlied
              cases result with
              | error e => exact absurd hok (by decide : ¬500 / 100 = 2)
              | ok _ => exact writeAudit_trail (haudits req rfl) (happlied.trans hlog)

private theorem updateTenant_trail {cfg : ProvisionConfig} {tenantID : String}
    {body : Option TenantProvisioningRequest} {event : AuditEvent}
    (hevent : event = ⟨"", p.userText, "user", "tenants.update", "tenant", tenantID⟩)
    (haudits : ∀ req ∈ body, db.Accepts
      (env ((tenantSteps req).length + (provisioningSteps req).length)).single event)
    (hok : (updateTenant cfg env p tenantID body db).1.success) :
    db.Trail [event] (updateTenant cfg env p tenantID body db).2 := by
  unfold updateTenant at hok ⊢
  split at hok
  swap
  · exact absurd hok (JsonResponse.error_not_success _ (by decide))
  next hp =>
  rw [if_pos hp]
  cases body with
  | none => exact absurd hok (JsonResponse.error_not_success _ (by decide))
  | some req =>
      dsimp only at hok ⊢
      have hlog := executeAll_log cfg tenantID env (tenantSteps req) 0 db
      cases hfirst : executeAll (ProvisionStep.exec cfg tenantID env) 0 (tenantSteps req) db with
      | mk result db₁ =>
          rw [hfirst] at hok hlog
          cases result with
          | error e =>
              dsimp only at hok
              split at hok
              · exact absurd hok (JsonResponse.error_not_success _ (by decide))
              · exact absurd hok (JsonResponse.error_not_success _ (by decide))
          | ok _ =>
              have happlied := executeAll_log cfg tenantID env (provisioningSteps req)
                (tenantSteps req).length db₁
              dsimp only at hok ⊢
              unfold applyTenantProvisioning at hok ⊢
              cases happly : executeAll (ProvisionStep.exec cfg tenantID env)
                  (tenantSteps req).length (provisioningSteps req) db₁ with
              | mk result db₂ =>
                  rw [happly] at hok happlied
                  cases result with
                  | error e => exact absurd hok (by decide : ¬500 / 100 = 2)
                  | ok _ =>
                      rw [← hevent]
                      exact writeAudit_trail (haudits req rfl) (happlied.trans hlog)

private theorem updateTenantStatus_trail {tenantID : String} {body : Option String}
    {event : AuditEvent}
    (hevent : event = ⟨"", p.userText, "user", "tenants.status", "tenant", tenantID⟩)
    (haudits : db.Accepts (env 1).single event)
    (hok : (updateTenantStatus env p tenantID body db).1.success) :
    db.Trail [event] (updateTenantStatus env p tenantID body db).2 := by
  unfold updateTenantStatus at hok ⊢
  split at hok
  swap
  · exact absurd hok (JsonResponse.error_not_success _ (by decide))
  next hp =>
  rw [if_pos hp]
  cases body with
  | none => exact absurd hok (JsonResponse.error_not_success _ (by decide))
  | some status =>
      dsimp only at hok ⊢
      split at hok
      · exact absurd hok (JsonResponse.error_not_success _ (by decide))
      next hstatus =>
      rw [if_neg hstatus]
      cases hfail : (env 0).fail with
      | true =>
          rw [hfail] at hok
          exact absurd hok (JsonResponse.error_not_success _ (by decide))
      | false =>
          rw [hfail] at hok
          simp only [Bool.false_eq_true, if_false] at hok ⊢
          split at hok
          · exact absurd hok (JsonResponse.error_not_success _ (by decide))
          next n db₁ hexec =>
          have hquiet : (AdminCall.exec (.update .tenants
              [("status", .param 1), ("updated_at", .now)] [("id", .param 2)])
              [.text status, .text tenantID]).quiet := by
            simp [AdminCall.quiet]
          have hlog : db₁ .auditLogs = db .auditLogs := by
            apply exec_log (o := (env 0).single) hquiet (n := n)
            simp [AdminDb.perform, StatementOutcome.single, hexec]
          rw [← hevent]
          exact writeAudit_trail haudits hlog

end

private theorem role_recorded (p : Principal) (env : RoleEnv) (r : RoleRequest) :
    ∃ owner, EventsFor p owner r.audit (r.event p env).toList := by
  cases r with
  | createRole tenantID name key scope =>
      exact ⟨some (if scope = "platform" then "" else effectiveTenant p tenantID), _, rfl,
        describes_owner rfl rfl⟩
  | assignUserRole userID tenantID roleID =>
      exact ⟨some (effectiveTenant p tenantID), _, rfl, describes_owner rfl rfl⟩
  | assignRolePermission roleID permissionID => exact ⟨none, rfl⟩
  | removeRolePermission roleID permissionID => exact ⟨none, rfl⟩
  | updateRole id name status scope => exact ⟨none, _, rfl, describes_missing rfl rfl⟩
  | deleteRole id => exact ⟨none, _, rfl, describes_missing rfl rfl⟩
  | setRolePermissions roleID permissionIDs => exact ⟨none, _, rfl, describes_missing rfl rfl⟩
  | removeUserRole userID roleID => exact ⟨none, _, rfl, describes_missing rfl rfl⟩

theorem ConsoleRequest.serve_trail {cfg : ConsoleConfig} {env : ConsoleEnv} {p : Principal}
    {r : ConsoleRequest} {s : Console} (haudits : r.AuditsSucceed cfg env p s)
    (hok : (r.serve cfg env p s).1 / 100 = 2) :
    ∃ owner events, EventsFor p owner r.audit events ∧
      s.admin.Trail events (r.serve cfg env p s).2.admin := by
  cases r with
  | admin r => exact ⟨r.owner p, NotificationPlatform.serve_trail haudits hok⟩
  | createTenant body =>
      exact ⟨none, _, ⟨_, rfl, describes_missing rfl rfl⟩, createTenant_trail haudits hok⟩
  | updateTenant tenantID body =>
      exact ⟨none, _, ⟨_, rfl, describes_missing rfl rfl⟩, updateTenant_trail rfl haudits hok⟩
  | updateTenantStatus tenantID body =>
      exact ⟨none, _, ⟨_, rfl, describes_missing rfl rfl⟩, updateTenantStatus_trail rfl haudits hok⟩
  | role r =>
      obtain ⟨owner, hrecorded⟩ := role_recorded p env.role r
      exact ⟨owner, _, hrecorded, Console.finish_trail haudits rfl hok⟩
  | createUser req =>
      refine ⟨some (effectiveTenant p req.tenantID), _, ?_, Console.finish_event haudits rfl hok⟩
      exact ⟨_, rfl, describes_owner rfl rfl⟩
  | updateUser id req =>
      refine ⟨none, _, ?_, Console.finish_event haudits rfl hok⟩
      exact ⟨_, rfl, describes_missing rfl rfl⟩
  | send tenantID req =>
      simp only [serve, sendAdmin] at hok ⊢
      split at hok
      · exact absurd hok (by decide : ¬400 / 100 = 2)
      next hnamed =>
      rw [if_neg hnamed]
      split at hok
      · exact absurd hok (by decide : ¬400 / 100 = 2)
      next accepted haccepted =>
      refine ⟨some (effectiveTenant p tenantID), _, ?_,
        Console.finish_event (haudits accepted haccepted) rfl rfl⟩
      exact ⟨_, rfl, describes_owner rfl rfl⟩

end NotificationPlatform
