import NotificationPlatform.Lib.Run
import NotificationPlatform.Json
import NotificationPlatform.Permissions

/-!
# Roles and their assignment

The handlers that change roles, the permissions of roles and the roles of users, one request
after the other. A tenant's administrator is meant to stay inside the tenant: the handlers guard
the role they are given in different ways, and some not at all.
-/

namespace NotificationPlatform

open Lib

structure Response where
  status : Nat
  body : Json

def Response.error (status : Nat) (message : String) : Response :=
  ⟨status, .obj [("error", .str message)]⟩

def Response.message (status : Nat) (message : String) : Response :=
  ⟨status, .obj [("message", .str message)]⟩

def Response.detail (status : Nat) (message detail : String) : Response :=
  ⟨status, .obj [("error", .str message), ("detail", .str detail)]⟩

def Response.created (id : Nat) (message : String) : Response :=
  ⟨201, .obj [("id", .str (toString id)), ("message", .str message)]⟩

inductive RoleStmt where
  | lookup
  | begin
  | clear
  | insert (i : Nat)
  | commit
  | write
  deriving DecidableEq, Repr

/-- What the database decides about a request: which statements fail and with which error text,
and the identifier of a new row. -/
structure RoleEnv where
  fails : RoleStmt → Bool
  detail : String
  newID : Nat

inductive RoleRequest where
  | createRole (tenantID name key scope : String)
  | updateRole (id : Nat) (name status scope : String)
  | deleteRole (id : Nat)
  | setRolePermissions (roleID : Nat) (permissionIDs : List Nat)
  | assignRolePermission (roleID permissionID : Nat)
  | removeRolePermission (roleID permissionID : Nat)
  | assignUserRole (userID : Nat) (tenantID : String) (roleID : Nat)
  | removeUserRole (userID roleID : Nat)

namespace AuthDb

/-- `SELECT scope, COALESCE(tenant_id::text,'') FROM roles WHERE id = $1`, into variables that
stay empty when the row cannot be read. -/
def existing (db : AuthDb) (env : RoleEnv) (id : Nat) : String × String :=
  if env.fails .lookup then ("", "")
  else
    match db.roles.get? id with
    | none => ("", "")
    | some role => (role.scope, role.tenantID.getD "")

def tenantExists (db : AuthDb) : Option String → Bool
  | none => true
  | some t => db.tenants.contains t

/-- `INSERT INTO roles`, with its foreign key and its unique indexes: on tenant and key, and on the
key where the tenant is null. -/
def insertRole (db : AuthDb) (id : Nat) (role : Role) : Option AuthDb :=
  if db.tenantExists role.tenantID && (db.roles.get? id).isNone &&
      !db.roles.rows.any fun r => r.2.tenantID == role.tenantID && r.2.key == role.key
  then some { db with roles := db.roles.insert id role }
  else none

/-- `INSERT INTO role_permissions .. ON CONFLICT DO NOTHING`, with its foreign keys. -/
def insertRolePermission (db : AuthDb) (roleID permissionID : Nat) : Option AuthDb :=
  if (db.roles.get? roleID).isSome && (db.permissions.get? permissionID).isSome then
    if db.rolePermissions.contains ⟨roleID, permissionID⟩ then some db
    else some { db with rolePermissions := db.rolePermissions ++ [⟨roleID, permissionID⟩] }
  else none

/-- `COALESCE(tenant_id, ..)` of `idx_user_roles_unique` -/
def indexedTenant (tenantID : Option String) : String :=
  tenantID.getD "00000000-0000-0000-0000-000000000000"

/-- `INSERT INTO user_roles`, with its foreign keys and its unique index. -/
def insertUserRole (db : AuthDb) (id : Nat) (row : UserRole) : Option AuthDb :=
  if db.tenantExists row.tenantID && db.users.contains row.userID &&
      (db.roles.get? row.roleID).isSome && (db.userRoles.get? id).isNone &&
      !db.userRoles.rows.any fun r => r.2.userID == row.userID && r.2.roleID == row.roleID &&
        indexedTenant r.2.tenantID == indexedTenant row.tenantID
  then some { db with userRoles := db.userRoles.insert id row }
  else none

theorem insertUserRole_eq_some {db db' : AuthDb} {id : Nat} {row : UserRole}
    (h : db.insertUserRole id row = some db') :
    (db.roles.get? row.roleID).isSome = true ∧ db.userRoles.get? id = none ∧
      db' = { db with userRoles := db.userRoles.insert id row } := by
  unfold insertUserRole at h
  split at h
  · next hguard =>
      simp only [Bool.and_eq_true, Option.isNone_iff_eq_none] at hguard
      exact ⟨hguard.1.1.2, hguard.1.2, (Option.some.inj h).symm⟩
  · simp at h

/-- The deletion of a role, which cascades to its permissions and assignments. -/
def dropRole (db : AuthDb) (id : Nat) : AuthDb :=
  { db with
    roles := db.roles.filter fun r => r.1 != id
    rolePermissions := db.rolePermissions.filter fun rp => rp.roleID != id
    userRoles := db.userRoles.filter fun r => r.2.roleID != id }

/-- The row with this identifier, when the caller may write it: `WHERE id = $1`, and for a tenant
user `AND tenant_id = $2`. -/
def writable (db : AuthDb) (p : Principal) (id : Nat) : Bool :=
  match db.roles.get? id with
  | none => false
  | some role => p.isPlatform || role.tenantID == some p.tenantID

end AuthDb

namespace Roles

/-- The guard of `UpdateRole`, `DeleteRole` and `SetRolePermissions`. -/
def guarded (p : Principal) (existing : String × String) : Bool :=
  !p.isPlatform && (existing.1 == "platform" || existing.2 == "")

def createRole (p : Principal) (env : RoleEnv) (tenantID name key scope : String)
    (db : AuthDb) : Response × AuthDb :=
  if name = "" ∨ key = "" then (.error 400 "name and key are required", db)
  else
    let scope := if scope = "" then "tenant" else scope
    let tenantID := if p.isPlatform then tenantID else p.tenantID
    if !p.isPlatform && scope == "platform" then
      (.error 403 "cannot create platform-scoped role", db)
    else if scope ≠ "tenant" ∧ scope ≠ "platform" then
      (.error 400 "scope must be tenant or platform", db)
    else if scope = "tenant" ∧ tenantID = "" ∧ p.isPlatform = false then
      (.error 400 "tenant_id is required for tenant-scoped roles", db)
    else
      let tenantID := if scope = "platform" then "" else tenantID
      let role : Role := ⟨if tenantID = "" then none else some tenantID, name, key, scope, "active"⟩
      match if env.fails .write then none else db.insertRole env.newID role with
      | none => (.detail 500 "create failed" env.detail, db)
      | some db' => (.created env.newID "role created", db')

def updateRole (p : Principal) (env : RoleEnv) (id : Nat) (name status scope : String)
    (db : AuthDb) : Response × AuthDb :=
  if guarded p (db.existing env id) then (.error 403 "cannot modify this role", db)
  else if env.fails .write then (.error 500 "update failed", db)
  else if !db.writable p id then (.error 404 "role not found", db)
  else
    (.message 200 "role updated", { db with
      roles := db.roles.modify id fun role => { role with
        name := if name ≠ "" then name else role.name
        status := if status ≠ "" then status else role.status
        scope := if scope ≠ "" ∧ p.isPlatform = true then scope else role.scope } })

def deleteRole (p : Principal) (env : RoleEnv) (id : Nat) (db : AuthDb) : Response × AuthDb :=
  if guarded p (db.existing env id) then (.error 403 "cannot delete this role", db)
  else if env.fails .write then (.error 500 "delete failed", db)
  else if !db.writable p id then (.error 404 "role not found", db)
  else (.message 200 "role deleted", db.dropRole id)

/-- The insertions of `SetRolePermissions`, from index `i` on. -/
def insertPermissions (env : RoleEnv) (roleID : Nat) : Nat → List Nat → AuthDb → Option AuthDb
  | _, [], db => some db
  | i, permissionID :: rest, db =>
      if env.fails (.insert i) then none
      else
        match db.insertRolePermission roleID permissionID with
        | none => none
        | some db => insertPermissions env roleID (i + 1) rest db

def setRolePermissions (p : Principal) (env : RoleEnv) (roleID : Nat) (permissionIDs : List Nat)
    (db : AuthDb) : Response × AuthDb :=
  if guarded p (db.existing env roleID) then
    (.error 403 "cannot modify this role permissions", db)
  else if env.fails .begin then (.error 500 "tx begin failed", db)
  else if env.fails .clear then (.error 500 "clear failed", db)
  else
    let cleared := { db with
      rolePermissions := db.rolePermissions.filter fun rp => rp.roleID != roleID }
    match insertPermissions env roleID 0 permissionIDs cleared with
    | none => (.error 500 "assign failed", db)
    | some db' =>
        if env.fails .commit then (.error 500 "tx commit failed", db)
        else (.message 200 "permissions updated", db')

def assignRolePermission (env : RoleEnv) (roleID permissionID : Nat) (db : AuthDb) :
    Response × AuthDb :=
  match if env.fails .write then none else db.insertRolePermission roleID permissionID with
  | none => (.error 500 "assign failed", db)
  | some db' => (.message 201 "permission assigned", db')

def removeRolePermission (env : RoleEnv) (roleID permissionID : Nat) (db : AuthDb) :
    Response × AuthDb :=
  if env.fails .write then (.error 500 "remove failed", db)
  else
    (.message 200 "permission removed", { db with
      rolePermissions := db.rolePermissions.filter fun rp => rp != ⟨roleID, permissionID⟩ })

def assignUserRole (p : Principal) (env : RoleEnv) (userID : Nat) (tenantID : String)
    (roleID : Nat) (db : AuthDb) : Response × AuthDb :=
  let tenantID := if p.isPlatform then tenantID else p.tenantID
  let roleScope := (db.existing env roleID).1
  if !p.isPlatform && roleScope == "platform" then (.error 403 "cannot assign platform role", db)
  else if roleScope = "tenant" ∧ tenantID = "" then
    (.error 400 "tenant_id is required for tenant role assignment", db)
  else
    let row : UserRole := ⟨if tenantID = "" then none else some tenantID, userID, roleID⟩
    match if env.fails .write then none else db.insertUserRole env.newID row with
    | none => (.detail 500 "assign failed" env.detail, db)
    | some db' => (.message 201 "role assigned", db')

/-- `RemoveUserRole`; the deletion asks for no tenant. -/
def removeUserRole (p : Principal) (env : RoleEnv) (userID roleID : Nat) (db : AuthDb) :
    Response × AuthDb :=
  if !p.isPlatform && (db.existing env roleID).1 == "platform" then
    (.error 403 "cannot remove platform role", db)
  else if env.fails .write then (.error 500 "remove failed", db)
  else if !db.userRoles.rows.any fun r => r.2.userID == userID && r.2.roleID == roleID then
    (.error 404 "assignment not found", db)
  else
    (.message 200 "role removed", { db with
      userRoles := db.userRoles.filter fun r => !(r.2.userID == userID && r.2.roleID == roleID) })

def handle (p : Principal) (env : RoleEnv) (db : AuthDb) : RoleRequest → Response × AuthDb
  | .createRole tenantID name key scope => createRole p env tenantID name key scope db
  | .updateRole id name status scope => updateRole p env id name status scope db
  | .deleteRole id => deleteRole p env id db
  | .setRolePermissions roleID permissionIDs => setRolePermissions p env roleID permissionIDs db
  | .assignRolePermission roleID permissionID => assignRolePermission env roleID permissionID db
  | .removeRolePermission roleID permissionID => removeRolePermission env roleID permissionID db
  | .assignUserRole userID tenantID roleID => assignUserRole p env userID tenantID roleID db
  | .removeUserRole userID roleID => removeUserRole p env userID roleID db

/-- One request of a principal: the check of `RequirePermission` and the handler. -/
def serve (p : Principal) (env : RoleEnv) (db : AuthDb) (req : RoleRequest) : Response × AuthDb :=
  if hasPermission p "roles.manage" then handle p env db req else (.error 403 "forbidden", db)

end Roles

namespace AuthDb

def permissionsOf (db : AuthDb) (roleID : Nat) : List Nat :=
  (db.rolePermissions.filter fun rp => rp.roleID == roleID).map RolePermission.permissionID

def rolesOf (db : AuthDb) (userID : Nat) (tenantID : String) : List Nat :=
  (db.userRoles.rows.filter fun r => r.2.userID == userID && inScope tenantID r.2.tenantID).map
    fun r => r.2.roleID

def ownsRole (db : AuthDb) (t : String) (roleID : Nat) : Bool :=
  match db.roles.get? roleID with
  | none => false
  | some role => role.tenantID == some t

def assignedInside (db : AuthDb) (t : String) (roleID : Nat) : Bool :=
  db.userRoles.rows.all fun r => r.2.roleID != roleID || r.2.tenantID == some t

def confined (db : AuthDb) (t : String) (roleID : Nat) : Bool :=
  db.ownsRole t roleID && db.assignedInside t roleID

end AuthDb

/-- The request does not reach out of tenant `t`: a role whose permissions it changes or that it
deletes is confined to the tenant, and the assignments it removes are the tenant's. -/
def RoleRequest.staysInside (t : String) (p : Principal) (env : RoleEnv) (db : AuthDb) :
    RoleRequest → Bool
  | .createRole _ _ _ _ | .updateRole _ _ _ _ | .assignUserRole _ _ _ => true
  | .deleteRole id => !db.ownsRole t id || db.assignedInside t id
  | .setRolePermissions id _ => Roles.guarded p (db.existing env id) || db.confined t id
  | .assignRolePermission id permissionID =>
      (db.roles.get? id).isNone || (db.permissions.get? permissionID).isNone ||
        db.rolePermissions.contains ⟨id, permissionID⟩ || db.confined t id
  | .removeRolePermission id permissionID =>
      !db.rolePermissions.contains ⟨id, permissionID⟩ || db.confined t id
  | .removeUserRole userID roleID =>
      (db.existing env roleID).1 == "platform" || db.userRoles.rows.all fun r =>
        !(r.2.userID == userID && r.2.roleID == roleID) || r.2.tenantID == some t

structure LeavesOthers (t : String) (db db' : AuthDb) : Prop where
  permissions : db'.permissions = db.permissions
  userPermissions : db'.userPermissions = db.userPermissions
  roles : ∀ id role, db.roles.get? id = some role → role.tenantID ≠ some t →
    ∃ role', db'.roles.get? id = some role' ∧ role'.tenantID = role.tenantID
  permissionsOf : ∀ id, db.confined t id = false → db'.permissionsOf id = db.permissionsOf id
  rolesOf : ∀ userID t', t' ≠ t → db'.rolesOf userID t' = db.rolesOf userID t'

namespace AuthDb

theorem mem_rolesOf {db : AuthDb} {userID : Nat} {tenantID : String} {roleID : Nat} :
    roleID ∈ db.rolesOf userID tenantID ↔ ∃ r ∈ db.userRoles.rows, r.2.roleID = roleID ∧
      r.2.userID = userID ∧ (r.2.tenantID = none ∨ r.2.tenantID = some tenantID) := by
  simp only [rolesOf, List.mem_map, List.mem_filter, Bool.and_eq_true, beq_iff_eq, inScope_eq_true]
  constructor
  · rintro ⟨r, ⟨hr, huser, hscope⟩, rfl⟩
    exact ⟨r, hr, rfl, huser, hscope⟩
  · rintro ⟨r, hr, rfl, huser, hscope⟩
    exact ⟨r, ⟨hr, huser, hscope⟩, rfl⟩

theorem mem_permissionsOf {db : AuthDb} {roleID permissionID : Nat} :
    permissionID ∈ db.permissionsOf roleID ↔ ⟨roleID, permissionID⟩ ∈ db.rolePermissions := by
  simp only [permissionsOf, List.mem_map, List.mem_filter, beq_iff_eq]
  constructor
  · rintro ⟨⟨role, permission⟩, ⟨hrp, rfl⟩, rfl⟩
    exact hrp
  · intro hrp
    exact ⟨⟨roleID, permissionID⟩, ⟨hrp, rfl⟩, rfl⟩

theorem grantedByRole_iff {db : AuthDb} {userID : Nat} {tenantID : String} {permissionID : Nat} :
    db.grantedByRole userID tenantID permissionID = true ↔
      ∃ roleID ∈ db.rolesOf userID tenantID, permissionID ∈ db.permissionsOf roleID := by
  simp only [grantedByRole, List.any_eq_true, Bool.and_eq_true, beq_iff_eq, inScope_eq_true,
    mem_rolesOf, mem_permissionsOf]
  constructor
  · rintro ⟨⟨role, permission⟩, hrp, rfl, ur, hur, ⟨hrole, huser⟩, hscope⟩
    exact ⟨role, ⟨ur, hur, hrole, huser, hscope⟩, hrp⟩
  · rintro ⟨role, ⟨ur, hur, hrole, huser, hscope⟩, hrp⟩
    exact ⟨⟨role, permissionID⟩, hrp, rfl, ur, hur, ⟨hrole, huser⟩, hscope⟩

theorem confined_of_mem_rolesOf {db : AuthDb} {userID roleID : Nat} {t t' : String}
    (h : roleID ∈ db.rolesOf userID t') (ht : t' ≠ t) : db.confined t roleID = false := by
  obtain ⟨r, hr, hrole, -, hscope⟩ := mem_rolesOf.mp h
  have houtside : db.assignedInside t roleID = false := by
    rw [assignedInside, List.all_eq_false]
    refine ⟨r, hr, ?_⟩
    rcases hscope with hscope | hscope <;> simp [hrole, hscope, ht]
  simp [confined, houtside]

end AuthDb

theorem LeavesOthers.effectivePermissions {t t' : String} {db db' : AuthDb}
    (h : LeavesOthers t db db') (ht : t' ≠ t) (userID : Nat) :
    db'.effectivePermissions userID t' = db.effectivePermissions userID t' := by
  have hroles : db'.grantedByRole userID t' = db.grantedByRole userID t' := by
    funext permissionID
    rw [Bool.eq_iff_iff, AuthDb.grantedByRole_iff, AuthDb.grantedByRole_iff, h.rolesOf userID t' ht]
    apply exists_congr
    intro roleID
    apply and_congr_right
    intro hmem
    rw [h.permissionsOf roleID (AuthDb.confined_of_mem_rolesOf hmem ht)]
  have heffect : ∀ effect, db'.hasEffect userID t' effect = db.hasEffect userID t' effect := by
    intro effect
    funext permissionID
    rw [AuthDb.hasEffect, AuthDb.hasEffect, h.userPermissions]
  have hkeys : ∀ selected, db'.keysOf selected = db.keysOf selected := by
    intro selected
    rw [AuthDb.keysOf, AuthDb.keysOf, h.permissions]
  have hgranted : db'.granted userID t' = db.granted userID t' := by
    rw [AuthDb.granted, AuthDb.granted, hroles, heffect, hkeys, hkeys]
  have hdenied : db'.denied userID t' = db.denied userID t' := by
    rw [AuthDb.denied, AuthDb.denied, heffect, hkeys]
  rw [AuthDb.effectivePermissions, AuthDb.effectivePermissions, hgranted, hdenied]

section

variable {t : String} {db db' : AuthDb}

private theorem LeavesOthers.refl (t : String) (db : AuthDb) : LeavesOthers t db db where
  permissions := rfl
  userPermissions := rfl
  roles := fun _ role hrole _ => ⟨role, hrole, rfl⟩
  permissionsOf := fun _ _ => rfl
  rolesOf := fun _ _ _ => rfl

private theorem leaves_roles {roles : Table Role}
    (h : ∀ id role, db.roles.get? id = some role → ∃ role', roles.get? id = some role' ∧
      role'.tenantID = role.tenantID) : LeavesOthers t db { db with roles := roles } where
  permissions := rfl
  userPermissions := rfl
  roles := fun id role hrole _ => h id role hrole
  permissionsOf := fun _ _ => rfl
  rolesOf := fun _ _ _ => rfl

private theorem leaves_permissions {roleID : Nat} {rps : List RolePermission}
    (hconfined : db.confined t roleID = true)
    (h : rps.filter (fun rp => rp.roleID != roleID) =
      db.rolePermissions.filter fun rp => rp.roleID != roleID) :
    LeavesOthers t db { db with rolePermissions := rps } where
  permissions := rfl
  userPermissions := rfl
  roles := fun _ role hrole _ => ⟨role, hrole, rfl⟩
  permissionsOf := by
    intro id hid
    have hne : id ≠ roleID := by
      rintro rfl
      simp [hconfined] at hid
    have hfilter : ∀ l : List RolePermission, l.filter (fun rp => rp.roleID == id) =
        (l.filter fun rp => rp.roleID != roleID).filter fun rp => rp.roleID == id := by
      intro l
      rw [List.filter_filter]
      apply List.filter_congr
      intro rp _
      by_cases hrp : rp.roleID = id <;> simp [hrp, hne]
    rw [AuthDb.permissionsOf, AuthDb.permissionsOf, hfilter, h, ← hfilter]
  rolesOf := fun _ _ _ => rfl

private theorem leaves_userRoles {userRoles : Table UserRole}
    (h : ∀ userID t', t' ≠ t →
      (userRoles.rows.filter fun r => r.2.userID == userID && AuthDb.inScope t' r.2.tenantID) =
        db.userRoles.rows.filter fun r => r.2.userID == userID && AuthDb.inScope t' r.2.tenantID) :
    LeavesOthers t db { db with userRoles := userRoles } where
  permissions := rfl
  userPermissions := rfl
  roles := fun _ role hrole _ => ⟨role, hrole, rfl⟩
  permissionsOf := fun _ _ => rfl
  rolesOf := by
    intro userID t' ht
    rw [AuthDb.rolesOf, AuthDb.rolesOf, h userID t' ht]

private theorem leaves_drop {id : Nat} (hconfined : db.confined t id = true) :
    LeavesOthers t db (db.dropRole id) where
  permissions := rfl
  userPermissions := rfl
  roles := by
    intro other role hrole hforeign
    refine ⟨role, Table.get?_filter_of_pos hrole ?_, rfl⟩
    have hne : other ≠ id := by
      rintro rfl
      simp [AuthDb.confined, AuthDb.ownsRole, hrole, hforeign] at hconfined
    simpa using hne
  permissionsOf := by
    intro other hother
    have hne : other ≠ id := by
      rintro rfl
      simp [hconfined] at hother
    simp only [AuthDb.permissionsOf, AuthDb.dropRole, List.filter_filter]
    congr 1
    apply List.filter_congr
    intro rp _
    by_cases hrp : rp.roleID = other <;> simp [hrp, hne]
  rolesOf := by
    intro userID t' ht
    simp only [AuthDb.rolesOf, AuthDb.dropRole, Table.rows_filter, List.filter_filter]
    congr 1
    apply List.filter_congr
    intro r hr
    by_cases hrole : r.2.roleID = id
    · have hinside : r.2.tenantID = some t := by
        have hall := List.all_eq_true.mp (Bool.and_eq_true_iff.mp hconfined).2 r hr
        simpa [hrole] using hall
      simp [hinside, AuthDb.inScope, Ne.symm ht]
    · simp [hrole]

theorem insertRolePermission_cases {roleID permissionID : Nat}
    (h : db.insertRolePermission roleID permissionID = some db') :
    (db.roles.get? roleID).isSome = true ∧ (db.permissions.get? permissionID).isSome = true ∧
      (db' = db ∨ db.rolePermissions.contains ⟨roleID, permissionID⟩ = false ∧
        db' = { db with rolePermissions := db.rolePermissions ++ [⟨roleID, permissionID⟩] }) := by
  unfold AuthDb.insertRolePermission at h
  split at h
  · next hkeys =>
      obtain ⟨hrole, hpermission⟩ := Bool.and_eq_true_iff.mp hkeys
      refine ⟨hrole, hpermission, ?_⟩
      split at h
      · exact .inl (Option.some.inj h).symm
      · next hcontains =>
          exact .inr ⟨Bool.eq_false_of_not_eq_true hcontains, (Option.some.inj h).symm⟩
  · simp at h

theorem insertPermissions_cases {env : RoleEnv} {roleID i : Nat} {permissionIDs : List Nat}
    (h : Roles.insertPermissions env roleID i permissionIDs db = some db') :
    ∃ rps, db' = { db with rolePermissions := rps } ∧
      rps.filter (fun rp => rp.roleID != roleID) =
        db.rolePermissions.filter fun rp => rp.roleID != roleID := by
  induction permissionIDs generalizing i db with
  | nil =>
      obtain rfl := Option.some.inj h
      exact ⟨db.rolePermissions, rfl, rfl⟩
  | cons permissionID rest ih =>
      rw [Roles.insertPermissions] at h
      split at h
      · simp at h
      · split at h
        · simp at h
        · next db₁ hinsert =>
            obtain ⟨rps, rfl, hrps⟩ := ih h
            obtain ⟨-, -, rfl | ⟨-, rfl⟩⟩ := insertRolePermission_cases hinsert
            · exact ⟨rps, rfl, hrps⟩
            · exact ⟨rps, rfl, by simpa [List.filter_append] using hrps⟩

variable {p : Principal} {env : RoleEnv}

private theorem insertRole_leaves {fails : Bool} {id : Nat} {role : Role}
    (h : (if fails then none else db.insertRole id role) = some db') : LeavesOthers t db db' := by
  split at h
  · simp at h
  · unfold AuthDb.insertRole at h
    split at h
    · obtain rfl := Option.some.inj h
      exact leaves_roles fun _ role hget => ⟨role, Table.get?_insert_of_some hget, rfl⟩
    · simp at h

private theorem createRole_leaves (tenantID name key scope : String) :
    LeavesOthers t db (Roles.createRole p env tenantID name key scope db).2 := by
  unfold Roles.createRole
  dsimp only
  split
  · exact .refl t db
  generalize (if scope = "" then "tenant" else scope) = scope
  generalize (if p.isPlatform then tenantID else p.tenantID) = tenantID
  split
  · exact .refl t db
  split
  · exact .refl t db
  split
  · exact .refl t db
  generalize hinsert : (if env.fails .write then none else _ : Option AuthDb) = inserted
  cases inserted with
  | none => exact .refl t db
  | some db' => exact insertRole_leaves hinsert

private theorem updateRole_leaves (id : Nat) (name status scope : String) :
    LeavesOthers t db (Roles.updateRole p env id name status scope db).2 := by
  unfold Roles.updateRole
  split
  · exact .refl t db
  split
  · exact .refl t db
  split
  · exact .refl t db
  refine leaves_roles fun other role hget => ?_
  rw [Table.get?_modify, hget]
  split
  · exact ⟨_, rfl, rfl⟩
  · exact ⟨_, rfl, rfl⟩

private theorem deleteRole_leaves (hp : p.isPlatform = false) (ht : p.tenantID = t) {id : Nat}
    (h : (RoleRequest.deleteRole id).staysInside t p env db = true) :
    LeavesOthers t db (Roles.deleteRole p env id db).2 := by
  unfold Roles.deleteRole
  repeat' split
  all_goals try exact .refl t db
  next hwritable =>
    have hown : db.ownsRole t id = true := by
      unfold AuthDb.writable at hwritable
      unfold AuthDb.ownsRole
      cases hget : db.roles.get? id with
      | none => simp [hget] at hwritable
      | some role => simpa [hget, hp, ht] using hwritable
    apply leaves_drop
    simpa [RoleRequest.staysInside, AuthDb.confined, hown] using h

private theorem setRolePermissions_leaves {roleID : Nat} {permissionIDs : List Nat}
    (h : (RoleRequest.setRolePermissions roleID permissionIDs).staysInside t p env db = true) :
    LeavesOthers t db (Roles.setRolePermissions p env roleID permissionIDs db).2 := by
  unfold Roles.setRolePermissions
  split
  · exact .refl t db
  · next hguard =>
      have hconfined : db.confined t roleID = true := by
        simpa [RoleRequest.staysInside, hguard] using h
      split
      · exact .refl t db
      split
      · exact .refl t db
      dsimp only
      split
      · exact .refl t db
      · next hinsert =>
          split
          · exact .refl t db
          · obtain ⟨rps, rfl, hrps⟩ := insertPermissions_cases hinsert
            refine leaves_permissions hconfined ?_
            simpa [List.filter_filter] using hrps

private theorem assignRolePermission_leaves {roleID permissionID : Nat}
    (h : (RoleRequest.assignRolePermission roleID permissionID).staysInside t p env db = true) :
    LeavesOthers t db (Roles.assignRolePermission env roleID permissionID db).2 := by
  unfold Roles.assignRolePermission
  split
  · exact .refl t db
  · next hinsert =>
      split at hinsert
      · simp at hinsert
      · obtain ⟨hrole, hpermission, rfl | ⟨hcontains, rfl⟩⟩ := insertRolePermission_cases hinsert
        · exact .refl t _
        · have hconfined : db.confined t roleID = true := by
            simp only [RoleRequest.staysInside, Bool.or_eq_true] at h
            rcases h with ((h | h) | h) | h
            · simp [Option.isNone_iff_eq_none.mp h] at hrole
            · simp [Option.isNone_iff_eq_none.mp h] at hpermission
            · rw [h] at hcontains
              simp at hcontains
            · exact h
          exact leaves_permissions hconfined (by simp [List.filter_append])

private theorem removeRolePermission_leaves {roleID permissionID : Nat}
    (h : (RoleRequest.removeRolePermission roleID permissionID).staysInside t p env db = true) :
    LeavesOthers t db (Roles.removeRolePermission env roleID permissionID db).2 := by
  unfold Roles.removeRolePermission
  split
  · exact .refl t db
  · simp only [RoleRequest.staysInside, Bool.or_eq_true, Bool.not_eq_true'] at h
    rcases h with h | hconfined
    · have hsame : db.rolePermissions.filter (fun rp => rp != ⟨roleID, permissionID⟩) =
          db.rolePermissions := by
        rw [List.filter_eq_self]
        intro rp hrp
        simp only [bne_iff_ne]
        rintro rfl
        simp [hrp] at h
      rw [hsame]
      exact .refl t db
    · refine leaves_permissions hconfined ?_
      rw [List.filter_filter]
      apply List.filter_congr
      intro rp _
      by_cases hrole : rp.roleID = roleID
      · simp [hrole]
      · have hne : rp ≠ ⟨roleID, permissionID⟩ := by
          rintro rfl
          exact hrole rfl
        simp [hrole, hne]

private theorem assignUserRole_leaves (hp : p.isPlatform = false) (ht : p.tenantID = t)
    (hne : t ≠ "") (userID : Nat) (tenantID : String) (roleID : Nat) :
    LeavesOthers t db (Roles.assignUserRole p env userID tenantID roleID db).2 := by
  unfold Roles.assignUserRole
  simp only [hp, ht, if_neg hne, Bool.false_eq_true, if_false]
  split
  · exact .refl t db
  split
  · exact .refl t db
  split
  · exact .refl t db
  · next hinsert =>
      split at hinsert
      · simp at hinsert
      · obtain ⟨-, hnone, rfl⟩ := AuthDb.insertUserRole_eq_some hinsert
        refine leaves_userRoles fun user t' ht' => ?_
        rw [Table.rows_insert hnone, List.filter_append]
        simp [AuthDb.inScope, Ne.symm ht']

private theorem removeUserRole_leaves (hp : p.isPlatform = false) {userID roleID : Nat}
    (h : (RoleRequest.removeUserRole userID roleID).staysInside t p env db = true) :
    LeavesOthers t db (Roles.removeUserRole p env userID roleID db).2 := by
  unfold Roles.removeUserRole
  split
  · exact .refl t db
  · next hguard =>
      have hinside : ∀ r ∈ db.userRoles.rows, r.2.userID = userID → r.2.roleID = roleID →
          r.2.tenantID = some t := by
        simp only [hp, Bool.not_false, Bool.true_and] at hguard
        simp only [RoleRequest.staysInside, hguard, Bool.false_or, List.all_eq_true] at h
        intro r hr huser hrole
        simpa [huser, hrole] using h r hr
      split
      · exact .refl t db
      split
      · exact .refl t db
      · refine leaves_userRoles fun user t' ht' => ?_
        rw [Table.rows_filter, List.filter_filter]
        apply List.filter_congr
        intro r hr
        by_cases hmine : r.2.userID = userID ∧ r.2.roleID = roleID
        · simp [hinside r hr hmine.1 hmine.2, AuthDb.inScope, Ne.symm ht']
        · have hother : (r.2.userID == userID && r.2.roleID == roleID) = false := by
            simpa [Bool.and_eq_false_iff, not_and_or] using hmine
          simp [hother]

theorem serve_leavesOthers (hp : p.isPlatform = false) (ht : p.tenantID = t) (hne : t ≠ "")
    {req : RoleRequest} (h : req.staysInside t p env db = true) :
    LeavesOthers t db (Roles.serve p env db req).2 := by
  unfold Roles.serve
  split
  · cases req with
    | createRole tenantID name key scope => exact createRole_leaves tenantID name key scope
    | updateRole id name status scope => exact updateRole_leaves id name status scope
    | deleteRole id => exact deleteRole_leaves hp ht h
    | setRolePermissions roleID permissionIDs => exact setRolePermissions_leaves h
    | assignRolePermission roleID permissionID => exact assignRolePermission_leaves h
    | removeRolePermission roleID permissionID => exact removeRolePermission_leaves h
    | assignUserRole userID tenantID roleID =>
        exact assignUserRole_leaves hp ht hne userID tenantID roleID
    | removeUserRole userID roleID => exact removeUserRole_leaves hp h
  · exact .refl t db

end

/-- The requests of one principal, each with what the database decides about it. -/
def Roles.step (p : Principal) (db : AuthDb) (e : RoleEnv × RoleRequest) : Option AuthDb :=
  some (Roles.serve p e.1 db e.2).2

/-- A tenant's administrator whose requests all stay inside the tenant changes neither the
permissions of a role of anybody else nor what any user may do in another tenant. -/
theorem rbac_stays_inside {p : Principal} (hp : p.isPlatform = false) (ht : p.tenantID ≠ "")
    {db db' : AuthDb} {reqs : List (RoleEnv × RoleRequest)}
    (hrun : Run (Roles.step p) (fun db e => e.2.staysInside p.tenantID p e.1 db = true)
      db reqs db') :
    (∀ id role, db.roles.get? id = some role → role.tenantID ≠ some p.tenantID →
      db'.permissionsOf id = db.permissionsOf id) ∧
    ∀ userID t', t' ≠ p.tenantID →
      db'.effectivePermissions userID t' = db.effectivePermissions userID t' := by
  have hinv := hrun.invariant
    (I := fun now => (∀ id role, db.roles.get? id = some role →
        role.tenantID ≠ some p.tenantID → now.permissionsOf id = db.permissionsOf id ∧
          ∃ role', now.roles.get? id = some role' ∧ role'.tenantID = role.tenantID) ∧
      ∀ userID t', t' ≠ p.tenantID →
        now.effectivePermissions userID t' = db.effectivePermissions userID t')
    (by
      rintro now e next ⟨hroles, heffective⟩ hok hstep
      obtain rfl := Option.some.inj hstep
      have hleaves := serve_leavesOthers hp rfl ht hok
      refine ⟨fun id role hrole hforeign => ?_, fun userID t' ht' => ?_⟩
      · obtain ⟨hperms, role₁, hget, htenant⟩ := hroles id role hrole hforeign
        have hforeign₁ : role₁.tenantID ≠ some p.tenantID := by rwa [htenant]
        obtain ⟨role₂, hget₂, htenant₂⟩ := hleaves.roles id role₁ hget hforeign₁
        have hconfined : now.confined p.tenantID id = false := by
          simp [AuthDb.confined, AuthDb.ownsRole, hget, hforeign₁]
        exact ⟨(hleaves.permissionsOf id hconfined).trans hperms, role₂, hget₂,
          htenant₂.trans htenant⟩
      · exact (hleaves.effectivePermissions ht' userID).trans (heffective userID t' ht'))
    ⟨fun id role hrole _ => ⟨rfl, role, hrole, rfl⟩, fun _ _ _ => rfl⟩
  exact ⟨fun id role hrole hforeign => (hinv.1 id role hrole hforeign).1, hinv.2⟩

def sampleRoles : AuthDb where
  tenants := ["t1", "t2"]
  users := [1, 7]
  permissions := Table.empty.insert 0 "users.manage"
  roles := (Table.empty.insert 0 ⟨some "t1", "Clerk", "clerk", "tenant", "active"⟩).insert 1
    ⟨some "t2", "Clerk", "clerk", "tenant", "active"⟩
  rolePermissions := []
  userRoles := Table.empty.insert 0 ⟨some "t2", 7, 1⟩
  userPermissions := []

def sampleAdministrator : Principal := ⟨1, "t1", false, ["roles.manage"]⟩

def sampleRoleEnv (newID : Nat) : RoleEnv := ⟨fun _ => false, "", newID⟩

private theorem exists_requests (p : Principal) (ok : AuthDb → RoleEnv × RoleRequest → Prop)
    [∀ db e, Decidable (ok db e)] (db : AuthDb) (reqs : List (RoleEnv × RoleRequest))
    (check : AuthDb → Bool)
    (h : (execute (Roles.step p) (fun db e => decide (ok db e)) db reqs).any check = true) :
    ∃ db', Run (Roles.step p) ok db reqs db' ∧ check db' = true :=
  Run.exists_of_execute (fun _ _ hok => of_decide_eq_true hok) h

/-- The administrator gives a permission to a role of the own tenant, and the role to a user. -/
theorem rbac_stays_inside_assign : ∃ db',
    Run (Roles.step sampleAdministrator)
      (fun db e => e.2.staysInside "t1" sampleAdministrator e.1 db = true) sampleRoles
      [(sampleRoleEnv 5, .assignRolePermission 0 0), (sampleRoleEnv 5, .assignUserRole 7 "" 0)] db' ∧
    db'.effectivePermissions 7 "t1" = ["users.manage"] ∧
    db'.effectivePermissions 7 "t2" = sampleRoles.effectivePermissions 7 "t2" := by
  obtain ⟨db', hrun, hgranted⟩ := exists_requests sampleAdministrator
    (fun db e => e.2.staysInside "t1" sampleAdministrator e.1 db = true) sampleRoles
    [(sampleRoleEnv 5, .assignRolePermission 0 0), (sampleRoleEnv 5, .assignUserRole 7 "" 0)]
    (fun db => db.effectivePermissions 7 "t1" == ["users.manage"]) (by decide +kernel)
  refine ⟨db', hrun, by simpa using hgranted, ?_⟩
  exact (rbac_stays_inside (p := sampleAdministrator) rfl (by decide) hrun).2 7 "t2" (by decide)

/-- The administrator of `t1` gives a permission to a role of `t2`. -/
theorem role_of_other_tenant_changed : ¬∀ (p : Principal) (db db' : AuthDb)
    (reqs : List (RoleEnv × RoleRequest)), p.isPlatform = false → p.tenantID ≠ "" →
    hasPermission p "roles.manage" = true →
    Run (Roles.step p) (fun _ _ => True) db reqs db' →
    (∀ id role, db.roles.get? id = some role → role.tenantID ≠ some p.tenantID →
      db'.permissionsOf id = db.permissionsOf id) ∧
    ∀ userID t', t' ≠ p.tenantID →
      db'.effectivePermissions userID t' = db.effectivePermissions userID t' := by
  intro h
  obtain ⟨db', hrun, hchanged⟩ := exists_requests sampleAdministrator (fun _ _ => True) sampleRoles
    [(sampleRoleEnv 5, .assignRolePermission 1 0)]
    (fun db => db.effectivePermissions 7 "t2" == ["users.manage"]) (by decide +kernel)
  have hsame := (h sampleAdministrator sampleRoles db' _ rfl (by decide) (by decide) hrun).2 7 "t2"
    (by decide)
  rw [hsame] at hchanged
  revert hchanged
  decide +kernel

end NotificationPlatform
