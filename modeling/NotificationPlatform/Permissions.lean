import Mathlib.Data.List.Dedup
import Mathlib.Data.List.Sort
import NotificationPlatform.Lib.Table

/-!
# Permissions

The tables of roles and permissions, what `EffectivePermissions` reads from them, and the check
of a permission against a principal. An explicit denial is applied to the exact key, while the
check falls back from a granular key to a broad one.
-/

namespace NotificationPlatform

open Lib

structure Role where
  tenantID : Option String
  name : String
  key : String
  scope : String
  status : String

structure RolePermission where
  roleID : Nat
  permissionID : Nat
  deriving DecidableEq

/-- A `user_roles` row; without a tenant the role counts in every tenant. -/
structure UserRole where
  tenantID : Option String
  userID : Nat
  roleID : Nat

/-- A `user_permissions` row. The column `effect` is a text. -/
structure UserPermission where
  tenantID : Option String
  userID : Nat
  permissionID : Nat
  effect : String

/-- The tables of users, roles and permissions; a permission is its key. -/
structure AuthDb where
  tenants : List String
  users : List Nat
  permissions : Table String
  roles : Table Role
  rolePermissions : List RolePermission
  userRoles : Table UserRole
  userPermissions : List UserPermission

/-- `auth.Principal`, as far as a permission check or a handler reads it. -/
structure Principal where
  userID : Nat
  tenantID : String
  isPlatform : Bool
  permissions : List String

namespace AuthDb

def inScope (tenantID : String) (row : Option String) : Bool :=
  row == none || row == some tenantID

def grantedByRole (db : AuthDb) (userID : Nat) (tenantID : String) (permissionID : Nat) : Bool :=
  db.rolePermissions.any fun rp => rp.permissionID == permissionID &&
    db.userRoles.rows.any fun ur => ur.2.roleID == rp.roleID && ur.2.userID == userID &&
      inScope tenantID ur.2.tenantID

def hasEffect (db : AuthDb) (userID : Nat) (tenantID : String) (effect : String)
    (permissionID : Nat) : Bool :=
  db.userPermissions.any fun up => up.permissionID == permissionID && up.userID == userID &&
    up.effect == effect && inScope tenantID up.tenantID

def keysOf (db : AuthDb) (selected : Nat → Bool) : List String :=
  (db.permissions.rows.filter fun p => selected p.1).map Prod.snd

def granted (db : AuthDb) (userID : Nat) (tenantID : String) : List String :=
  db.keysOf (db.grantedByRole userID tenantID) ++
    db.keysOf (db.hasEffect userID tenantID "allow")

def denied (db : AuthDb) (userID : Nat) (tenantID : String) : List String :=
  db.keysOf (db.hasEffect userID tenantID "deny")

def effectivePermissions (db : AuthDb) (userID : Nat) (tenantID : String) : List String :=
  ((db.granted userID tenantID).filter
    fun key => key ∉ db.denied userID tenantID).dedup.insertionSort (· ≤ ·)

end AuthDb

/-- The broad permission that stands in for a granular one. -/
def granularToBroad : List (String × String) :=
  [("users.view", "users.manage"),
   ("users.create", "users.manage"),
   ("users.update", "users.manage"),
   ("users.delete", "users.manage"),
   ("users.reset_password", "users.manage"),
   ("users.assign_roles", "users.manage"),
   ("users.assign_permissions", "users.manage"),
   ("features.view", "features.manage"),
   ("features.update", "features.manage"),
   ("channels.view", "channels.manage"),
   ("channels.update", "channels.manage"),
   ("queue_controls.view", "channels.manage"),
   ("queue_controls.update", "channels.manage"),
   ("providers.view", "providers.manage"),
   ("providers.create", "providers.manage"),
   ("providers.update", "providers.manage"),
   ("providers.delete", "providers.manage"),
   ("providers.test", "providers.manage"),
   ("groups.view", "groups.manage"),
   ("groups.create", "groups.manage"),
   ("groups.update", "groups.manage"),
   ("groups.delete", "groups.manage"),
   ("groups.members.manage", "groups.manage"),
   ("settings.view", "settings.manage"),
   ("settings.update", "settings.manage"),
   ("api_keys.view", "api_keys.manage"),
   ("api_keys.create", "api_keys.manage"),
   ("api_keys.revoke", "api_keys.manage"),
   ("integration.view", "api_keys.view"),
   ("integration.test", "notifications.send"),
   ("integration.view_api_docs", "integration.view"),
   ("campaigns.view", "campaigns.manage"),
   ("campaigns.create", "campaigns.manage"),
   ("campaigns.update", "campaigns.manage"),
   ("campaigns.approve", "campaigns.manage"),
   ("campaigns.send", "campaigns.manage"),
   ("campaigns.schedule", "campaigns.manage"),
   ("campaigns.cancel", "campaigns.manage"),
   ("templates.view", "templates.manage"),
   ("templates.create", "templates.manage"),
   ("templates.update", "templates.manage"),
   ("templates.delete", "templates.manage"),
   ("contacts.view", "contacts.manage"),
   ("contacts.create", "contacts.manage"),
   ("contacts.update", "contacts.manage"),
   ("contacts.delete", "contacts.manage"),
   ("notifications.view", "notifications.manage"),
   ("notifications.create", "notifications.manage"),
   ("notifications.send", "notifications.manage"),
   ("notifications.bulk_send", "notifications.manage"),
   ("notifications.retry", "notifications.manage"),
   ("notifications.cancel", "notifications.manage"),
   ("tenants.view", "tenants.manage"),
   ("tenants.create", "tenants.manage"),
   ("tenants.update", "tenants.manage"),
   ("tenants.delete", "tenants.manage")]

def hasPermission (p : Principal) (permission : String) : Bool :=
  if p.isPlatform then true
  else if p.permissions.contains permission then true
  else
    match granularToBroad.lookup permission with
    | some broad => p.permissions.contains broad
    | none => false

/-- The principal of a tenant user, with the permissions that a login computes. -/
def AuthDb.principal (db : AuthDb) (userID : Nat) (tenantID : String) : Principal where
  userID := userID
  tenantID := tenantID
  isPlatform := false
  permissions := db.effectivePermissions userID tenantID

namespace AuthDb

/-- A `user_permissions` row has the effect on `permission`, for the tenant or without one. -/
def Rules (db : AuthDb) (effect : String) (userID : Nat) (tenantID permission : String) : Prop :=
  ∃ up ∈ db.userPermissions, up.userID = userID ∧ up.effect = effect ∧
    (up.tenantID = none ∨ up.tenantID = some tenantID) ∧
    (up.permissionID, permission) ∈ db.permissions.rows

/-- A role that the user has, in the tenant or everywhere, carries the permission. -/
def RoleGrants (db : AuthDb) (userID : Nat) (tenantID permission : String) : Prop :=
  ∃ rp ∈ db.rolePermissions, ∃ ur ∈ db.userRoles.rows, ur.2.roleID = rp.roleID ∧
    ur.2.userID = userID ∧ (ur.2.tenantID = none ∨ ur.2.tenantID = some tenantID) ∧
    (rp.permissionID, permission) ∈ db.permissions.rows

theorem mem_keysOf {db : AuthDb} {selected : Nat → Bool} {key : String} :
    key ∈ db.keysOf selected ↔ ∃ id, (id, key) ∈ db.permissions.rows ∧ selected id = true := by
  simp only [keysOf, List.mem_map, List.mem_filter, Prod.exists]
  constructor
  · rintro ⟨id, key, ⟨hrow, hsel⟩, rfl⟩
    exact ⟨id, hrow, hsel⟩
  · rintro ⟨id, hrow, hsel⟩
    exact ⟨id, key, ⟨hrow, hsel⟩, rfl⟩

@[simp] theorem inScope_eq_true {tenantID : String} {row : Option String} :
    inScope tenantID row = true ↔ row = none ∨ row = some tenantID := by
  simp [inScope]

theorem mem_keysOf_hasEffect {db : AuthDb} {userID : Nat} {tenantID effect key : String} :
    key ∈ db.keysOf (db.hasEffect userID tenantID effect) ↔
      db.Rules effect userID tenantID key := by
  rw [mem_keysOf]
  simp only [hasEffect, List.any_eq_true, Bool.and_eq_true, beq_iff_eq, inScope_eq_true]
  constructor
  · rintro ⟨id, hrow, up, hup, ⟨⟨rfl, huser⟩, heffect⟩, hscope⟩
    exact ⟨up, hup, huser, heffect, hscope, hrow⟩
  · rintro ⟨up, hup, huser, heffect, hscope, hrow⟩
    exact ⟨up.permissionID, hrow, up, hup, ⟨⟨rfl, huser⟩, heffect⟩, hscope⟩

theorem mem_keysOf_grantedByRole {db : AuthDb} {userID : Nat} {tenantID key : String} :
    key ∈ db.keysOf (db.grantedByRole userID tenantID) ↔ db.RoleGrants userID tenantID key := by
  rw [mem_keysOf]
  simp only [grantedByRole, List.any_eq_true, Bool.and_eq_true, beq_iff_eq, inScope_eq_true]
  constructor
  · rintro ⟨id, hrow, rp, hrp, rfl, ur, hur, ⟨hrole, huser⟩, hscope⟩
    exact ⟨rp, hrp, ur, hur, hrole, huser, hscope, hrow⟩
  · rintro ⟨rp, hrp, ur, hur, hrole, huser, hscope, hrow⟩
    exact ⟨rp.permissionID, hrow, rp, hrp, rfl, ur, hur, ⟨hrole, huser⟩, hscope⟩

theorem mem_effectivePermissions {db : AuthDb} {userID : Nat} {tenantID key : String} :
    key ∈ db.effectivePermissions userID tenantID ↔
      (db.RoleGrants userID tenantID key ∨ db.Rules "allow" userID tenantID key) ∧
        ¬db.Rules "deny" userID tenantID key := by
  rw [effectivePermissions, List.mem_insertionSort, List.mem_dedup, List.mem_filter,
    decide_eq_true_iff, granted, denied, List.mem_append, mem_keysOf_grantedByRole,
    mem_keysOf_hasEffect, mem_keysOf_hasEffect]

end AuthDb

/-- A denied permission is refused, unless the broad permission that stands in for it is granted
to the user and is not denied itself. -/
theorem deny_wins_iff (db : AuthDb) (userID : Nat) (tenantID permission : String)
    (hdeny : db.Rules "deny" userID tenantID permission) :
    hasPermission (db.principal userID tenantID) permission = false ↔
      ¬∃ broad, granularToBroad.lookup permission = some broad ∧
        (db.RoleGrants userID tenantID broad ∨ db.Rules "allow" userID tenantID broad) ∧
        ¬db.Rules "deny" userID tenantID broad := by
  have hexact : permission ∉ db.effectivePermissions userID tenantID := by
    intro hmem
    exact (AuthDb.mem_effectivePermissions.mp hmem).2 hdeny
  cases hbroad : granularToBroad.lookup permission with
  | none => simp [hasPermission, AuthDb.principal, hexact, hbroad]
  | some broad =>
      simp [hasPermission, AuthDb.principal, hexact, hbroad, AuthDb.mem_effectivePermissions]

/-! ## A user with one role -/

def sampleAuthDb (granted denied : String) : AuthDb where
  tenants := ["t1"]
  users := [7]
  permissions := (Table.empty.insert 0 granted).insert 1 denied
  roles := Table.empty.insert 0 ⟨some "t1", "Operator", "operator", "tenant", "active"⟩
  rolePermissions := [⟨0, 0⟩]
  userRoles := Table.empty.insert 0 ⟨some "t1", 7, 0⟩
  userPermissions := [⟨some "t1", 7, 1, "deny"⟩]

private theorem sampleAuthDb_denies (granted denied : String) :
    (sampleAuthDb granted denied).Rules "deny" 7 "t1" denied :=
  ⟨⟨some "t1", 7, 1, "deny"⟩, List.mem_singleton.mpr rfl, rfl, rfl, .inr rfl, by
    simp [sampleAuthDb, Table.insert, Table.empty]⟩

theorem deny_wins_over_role :
    hasPermission ((sampleAuthDb "templates.view" "users.create").principal 7 "t1")
      "users.create" = false := by
  refine (deny_wins_iff _ 7 "t1" "users.create" (sampleAuthDb_denies _ _)).mpr ?_
  rintro ⟨broad, hbroad, hgranted, -⟩
  obtain rfl : "users.manage" = broad := by
    have h : granularToBroad.lookup "users.create" = some "users.manage" := by decide
    rw [h] at hbroad
    exact Option.some.inj hbroad
  revert hgranted
  simp [AuthDb.RoleGrants, AuthDb.Rules, sampleAuthDb, Table.insert, Table.empty]

theorem deny_undone_by_broad : ¬∀ (db : AuthDb) (userID : Nat) (tenantID permission : String),
    db.Rules "deny" userID tenantID permission →
      hasPermission (db.principal userID tenantID) permission = false := by
  intro h
  have hfalse := h _ 7 "t1" "users.create" (sampleAuthDb_denies "users.manage" "users.create")
  revert hfalse
  decide +kernel

end NotificationPlatform
