import NotificationPlatform.Permissions

/-!
# The permission check of the admin UI

The admin UI decides what to show with a table and a lookup of its own, over the principal that
the server returned as JSON. Both sides are read as one check against a table, and the two tables
are compared.
-/

namespace NotificationPlatform

def heldByTable (table : List (String × String)) (held : List String) (permission : String) : Bool :=
  held.contains permission || (table.lookup permission).any held.contains

theorem hasPermission_eq_heldByTable (p : Principal) (permission : String) :
    hasPermission p permission =
      (p.isPlatform || heldByTable granularToBroad p.permissions permission) := by
  unfold hasPermission heldByTable
  cases hlookup : granularToBroad.lookup permission with
  | none => cases p.isPlatform <;> simp
  | some broad => cases p.isPlatform <;> by_cases hheld : permission ∈ p.permissions <;> simp [hheld]

theorem heldByTable_append (table extra : List (String × String)) (held : List String)
    (permission : String) :
    heldByTable (table ++ extra) held permission =
      (heldByTable table held permission ||
        ((table.lookup permission).isNone && heldByTable extra held permission)) := by
  unfold heldByTable
  rw [List.lookup_append]
  cases hlookup : table.lookup permission with
  | none => by_cases hheld : permission ∈ held <;> simp [hheld]
  | some broad => simp

namespace AdminUi

/-- The type `Principal` of the UI, as far as the check reads it. A Go slice that was never
appended to arrives as `null`. -/
structure User where
  isPlatformAdmin : Bool
  permissions : Option (List String)

/-- The JSON of a principal, as `Me` and `Login` return it. -/
def user (p : Principal) : User where
  isPlatformAdmin := p.isPlatform
  permissions := if p.permissions.isEmpty then none else some p.permissions

def granularToBroad : List (String × String) :=
  [("users.view", "users.manage"),
   ("users.create", "users.manage"),
   ("users.update", "users.manage"),
   ("users.delete", "users.manage"),
   ("users.reset_password", "users.manage"),
   ("users.assign_roles", "users.manage"),
   ("users.assign_permissions", "users.manage"),
   ("features.view", "features.manage"),
   ("features.update", "features.manage"),
   ("channels.view", "channels.manage"),
   ("channels.update", "channels.manage"),
   ("queue_controls.view", "channels.manage"),
   ("queue_controls.update", "channels.manage"),
   ("providers.view", "providers.manage"),
   ("providers.create", "providers.manage"),
   ("providers.update", "providers.manage"),
   ("providers.delete", "providers.manage"),
   ("providers.test", "providers.manage"),
   ("groups.view", "groups.manage"),
   ("groups.create", "groups.manage"),
   ("groups.update", "groups.manage"),
   ("groups.delete", "groups.manage"),
   ("groups.members.manage", "groups.manage"),
   ("settings.view", "settings.manage"),
   ("settings.update", "settings.manage"),
   ("api_keys.view", "api_keys.manage"),
   ("api_keys.create", "api_keys.manage"),
   ("api_keys.revoke", "api_keys.manage"),
   ("integration.view", "api_keys.view"),
   ("integration.test", "notifications.send"),
   ("integration.view_api_docs", "integration.view"),
   ("campaigns.view", "campaigns.manage"),
   ("campaigns.create", "campaigns.manage"),
   ("campaigns.update", "campaigns.manage"),
   ("campaigns.approve", "campaigns.manage"),
   ("campaigns.send", "campaigns.manage"),
   ("campaigns.schedule", "campaigns.manage"),
   ("campaigns.cancel", "campaigns.manage"),
   ("templates.view", "templates.manage"),
   ("templates.create", "templates.manage"),
   ("templates.update", "templates.manage"),
   ("templates.delete", "templates.manage"),
   ("contacts.view", "contacts.manage"),
   ("contacts.create", "contacts.manage"),
   ("contacts.update", "contacts.manage"),
   ("contacts.delete", "contacts.manage"),
   ("notifications.view", "notifications.manage"),
   ("notifications.create", "notifications.manage"),
   ("notifications.send", "notifications.manage"),
   ("notifications.bulk_send", "notifications.manage"),
   ("notifications.retry", "notifications.manage"),
   ("notifications.cancel", "notifications.manage"),
   ("tenants.view", "tenants.manage"),
   ("tenants.create", "tenants.manage"),
   ("tenants.update", "tenants.manage"),
   ("tenants.delete", "tenants.manage"),
   ("audit_logs.view", "audit_logs.manage")]

/-- `can`, for the user of the context. The names that a JavaScript object inherits map to no
text, so none of them is in a list of permissions. -/
def can (current : Option User) (permission : String) : Bool :=
  match current with
  | none => false
  | some user =>
    if user.isPlatformAdmin then true
    else if (user.permissions.map fun held => held.contains permission) == some true then true
    else
      match granularToBroad.lookup permission with
      | some broad =>
        if (user.permissions.map fun held => held.contains broad) == some true then true else false
      | none => false

theorem user_permissions_contains (p : Principal) (key : String) :
    (((user p).permissions.map fun held => held.contains key) == some true) =
      p.permissions.contains key := by
  cases hheld : p.permissions with
  | nil => simp [user, hheld]
  | cons first rest => simp [user, hheld]

theorem can_eq_heldByTable (p : Principal) (permission : String) :
    can (some (user p)) permission =
      (p.isPlatform || heldByTable granularToBroad p.permissions permission) := by
  simp only [can, user_permissions_contains]
  unfold heldByTable
  have hplatform : (user p).isPlatformAdmin = p.isPlatform := rfl
  rw [hplatform]
  cases hlookup : granularToBroad.lookup permission with
  | none => cases p.isPlatform <;> simp
  | some broad => cases p.isPlatform <;> by_cases hheld : permission ∈ p.permissions <;> simp [hheld]

theorem granularToBroad_eq : granularToBroad =
    NotificationPlatform.granularToBroad ++ [("audit_logs.view", "audit_logs.manage")] := rfl

theorem heldByTable_eq (held : List String) (permission : String) :
    heldByTable granularToBroad held permission =
      (heldByTable NotificationPlatform.granularToBroad held permission ||
        (permission == "audit_logs.view" && held.contains "audit_logs.manage")) := by
  rw [granularToBroad_eq, heldByTable_append]
  by_cases hview : permission = "audit_logs.view"
  · subst hview
    have hnone : NotificationPlatform.granularToBroad.lookup "audit_logs.view" = none := by decide
    by_cases hheld : "audit_logs.view" ∈ held <;> simp [heldByTable, hnone, hheld]
  · have hextra : heldByTable [("audit_logs.view", "audit_logs.manage")] held permission =
        held.contains permission := by
      simp [heldByTable, List.lookup_singleton, hview]
    rw [hextra]
    by_cases hheld : permission ∈ held <;> simp [heldByTable, hview, hheld]

/-- The UI and the server agree on a permission unless it is `audit_logs.view`, asked for a tenant
principal that holds `audit_logs.manage` and not the permission itself. -/
theorem can_eq_hasPermission_iff (p : Principal) (permission : String) :
    can (some (user p)) permission = hasPermission p permission ↔
      p.isPlatform = true ∨ permission ≠ "audit_logs.view" ∨
        "audit_logs.view" ∈ p.permissions ∨ "audit_logs.manage" ∉ p.permissions := by
  rw [can_eq_heldByTable, hasPermission_eq_heldByTable, heldByTable_eq]
  cases p.isPlatform with
  | true => simp
  | false =>
      by_cases hview : permission = "audit_logs.view"
      · subst hview
        have hnone : NotificationPlatform.granularToBroad.lookup "audit_logs.view" = none := by decide
        by_cases hheld : "audit_logs.view" ∈ p.permissions <;>
          by_cases hmanage : "audit_logs.manage" ∈ p.permissions <;>
          simp [heldByTable, hnone, hheld, hmanage]
      · simp [hview]

/-- A principal who may manage audit logs sees the audit page and is refused its data. -/
theorem can_disagrees : ¬∀ (p : Principal) (permission : String),
    can (some (user p)) permission = hasPermission p permission := by
  intro h
  have hagree := h ⟨7, "t1", false, ["audit_logs.manage"]⟩ "audit_logs.view"
  revert hagree
  decide +kernel

end AdminUi

end NotificationPlatform
