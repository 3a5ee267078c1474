import NotificationPlatform.Lib.Program
import NotificationPlatform.Lib.Sql
import NotificationPlatform.Lib.Uuid
import NotificationPlatform.Request

/-!
# The database of the administrative handlers

The tables that the handlers of the admin API write, the constraints and references of their
schema, and the calls that the handlers make. The environment chooses whether a call fails, the
identifier of a new row and the time.
-/

namespace NotificationPlatform

open Lib Lib.Sql

inductive AdminTable where
  | tenants
  | tenantFeatures
  | tenantChannels
  | tenantProviderConfigs
  | tenantAPIKeys
  | tenantQueueControls
  | contacts
  | contactGroups
  | contactGroupMembers
  | notificationTemplates
  | campaigns
  | inAppNotifications
  | auditLogs
  | featureCatalog
  | platformChannels
  | platformProviders
  deriving DecidableEq, Repr

/-- A value of a column, or an argument of a statement. -/
inductive Value where
  | null
  | text (s : String)
  | bool (b : Bool)
  | int (i : Int)
  | json (j : Json)
  | time (seconds : Int)

def Value.isNull : Value → Bool
  | .null => true
  | _ => false

def Value.same : Value → Value → Bool
  | .text a, .text b => a == b
  | .bool a, .bool b => a == b
  | .int a, .int b => a == b
  | .time a, .time b => a == b
  | _, _ => false

theorem Value.eq_of_same {a b : Value} (h : a.same b = true) : a = b := by
  unfold Value.same at h
  split at h <;> simp_all

def Value.ofText (s : String) : Value := if s = "" then .null else .text s

def uuidColumns : List String := ["id", "tenant_id", "group_id", "contact_id"]

def readColumn (column : String) : Value → Option Value
  | .text s => if column ∈ uuidColumns then (Uuid.read s).map .text else some (.text s)
  | v => some v

namespace AdminTable

def ownerColumn : AdminTable → String
  | .tenants => "id"
  | _ => "tenant_id"

def notNull : AdminTable → List String
  | .tenants => ["name", "slug", "status", "config_json"]
  | .tenantFeatures => ["tenant_id", "feature_key", "enabled"]
  | .tenantChannels => ["tenant_id", "channel", "enabled", "direction", "rate_limit_per_second",
      "daily_quota", "priority"]
  | .tenantProviderConfigs => ["tenant_id", "channel", "provider", "config_json", "is_default",
      "status"]
  | .tenantAPIKeys => ["tenant_id", "name", "key_hash", "status", "scopes_json"]
  | .tenantQueueControls => ["tenant_id", "channel", "queue_name", "status", "max_attempts",
      "retry_delay_seconds", "notes"]
  | .contacts => ["tenant_id", "name", "status"]
  | .contactGroups => ["tenant_id", "name", "description", "status"]
  | .contactGroupMembers => ["tenant_id", "group_id", "contact_id"]
  | .notificationTemplates => ["tenant_id", "template_key", "channel", "body", "locale", "status"]
  | .campaigns => ["tenant_id", "name", "status"]
  | .inAppNotifications => ["tenant_id", "title", "body", "status"]
  | .auditLogs => ["actor_type", "action", "resource_type"]
  | .featureCatalog => ["identifier", "name", "status"]
  | .platformChannels => ["channel", "enabled"]
  | .platformProviders => ["provider", "channel", "enabled"]

def unique : AdminTable → List (List String)
  | .tenants => [["slug"]]
  | .tenantFeatures => [["tenant_id", "feature_key"]]
  | .tenantChannels => [["tenant_id", "channel"]]
  | .tenantAPIKeys => [["key_hash"]]
  | .tenantQueueControls => [["tenant_id", "channel"], ["queue_name"]]
  | .contactGroupMembers => [["group_id", "contact_id"]]
  | .notificationTemplates => [["tenant_id", "template_key", "channel", "locale"]]
  | .featureCatalog => [["identifier"]]
  | .platformChannels => [["channel"]]
  | .platformProviders => [["provider"]]
  | _ => []

end AdminTable

def agreeOn (columns : List String) (a b : Row Value) : Bool :=
  columns.all fun c => (a c).same (b c)

def pairwiseNot {α : Type} (related : α → α → Bool) : List α → Bool
  | [] => true
  | a :: rest => !(rest.any (related a)) && pairwiseNot related rest

/-- The index `idx_provider_one_default`: one active default provider per tenant and channel. -/
def bothDefault (a b : Row Value) : Bool :=
  agreeOn ["tenant_id", "channel"] a b &&
    [a, b].all fun r => (r "is_default").same (.bool true) && (r "status").same (.text "active")

def AdminTable.valid (table : AdminTable) (rows : List (Row Value)) : Bool :=
  rows.all (fun row => table.notNull.all fun c => !(row c).isNull) &&
    table.unique.all (fun columns => pairwiseNot (agreeOn columns) rows) &&
    (table != .tenantProviderConfigs || pairwiseNot bothDefault rows)

/-- The references between these tables that a deletion can follow; no handler deletes a
tenant. -/
def adminReferences : List (Reference AdminTable) :=
  [⟨.contactGroupMembers, "contact_id", .contacts, true⟩,
   ⟨.contactGroupMembers, "group_id", .contactGroups, true⟩,
   ⟨.inAppNotifications, "contact_id", .contacts, false⟩]

def adminEngine : Engine AdminTable Value where
  read := readColumn
  same := Value.same
  null := .null
  valid := AdminTable.valid
  references := adminReferences

abbrev AdminDb := Sql.Db AdminTable Value

def AdminTable.default (table : AdminTable) (now : Int) (column : String) : Value :=
  match table, column with
  | _, "created_at" | _, "updated_at" => .time now
  | .tenants, "status" | .contacts, "status" | .contactGroups, "status" => .text "active"
  | .tenantProviderConfigs, "status" | .tenantAPIKeys, "status" => .text "active"
  | .tenantQueueControls, "status" | .notificationTemplates, "status" => .text "active"
  | .campaigns, "status" => .text "draft"
  | .inAppNotifications, "status" => .text "unread"
  | .contactGroups, "description" | .tenantQueueControls, "notes" => .text ""
  | .notificationTemplates, "locale" => .text "en"
  | .tenantChannels, "priority" => .int 5
  | .tenantQueueControls, "max_attempts" => .int 3
  | .tenantQueueControls, "retry_delay_seconds" => .int 60
  | .tenants, "config_json" | .contacts, "metadata_json" => .json (.obj [])
  | .tenantProviderConfigs, "config_json" => .json (.obj [])
  | .tenantAPIKeys, "scopes_json" | .campaigns, "channels" => .json (.arr [])
  | .tenantProviderConfigs, "is_default" => .bool false
  | _, _ => .null

def AdminTable.newRow (table : AdminTable) (id : String) (now : Int)
    (values : List (String × Value)) : Row Value :=
  fun column =>
    if column = "id" then .text id else (values.lookup column).getD (table.default now column)

/-! ## Calls -/

structure AuditEvent where
  tenantID : String := ""
  actorUserID : String
  actorType : String := "tenant_user"
  action : String
  resourceType : String
  resourceID : String

/-- The `INSERT .. SELECT` of `AddGroupMember` from a group and a contact: the tenant is an
argument or that of the group. -/
structure MemberInsert where
  tenant : Option (Term Value)
  group : Term Value
  contact : Term Value
  groupConds : Terms Value
  contactConds : Terms Value

inductive AdminCall where
  | exec (s : Sql.Stmt AdminTable Value) (args : List Value)
  | insert (table : AdminTable) (values : Terms Value) (args : List Value)
  | insertMember (m : MemberInsert) (args : List Value)
  | selectRow (table : AdminTable) (columns : List String) (conds : Terms Value)
      (args : List Value)
  | encrypt (plain : String)
  | randomToken (kind : String)
  | audit (event : AuditEvent)

/-- What a successful call returns: the rows affected, the new identifier, the columns, or the
text. -/
@[reducible] def AdminResult : AdminCall → Type
  | .exec _ _ => Nat
  | .insert _ _ _ => String
  | .insertMember _ _ => Unit
  | .selectRow _ _ _ _ => List Value
  | .encrypt _ => String
  | .randomToken _ => String
  | .audit _ => Unit

abbrev AdminReply (c : AdminCall) : Type := Except Err (AdminResult c)

abbrev AdminCode := Prog AdminCall AdminReply

structure AdminOutcome where
  fail : Bool := false
  id : String := ""
  text : String := ""
  now : Int := 0

namespace AdminDb

/-- The row that `AddGroupMember` inserts for a group. -/
def newMember (now : Int) (tenant : Option Value) (group contact : Value) (row : Row Value) :
    Row Value :=
  fun column =>
    match column with
    | "tenant_id" => tenant.getD (row "tenant_id")
    | "group_id" => group
    | "contact_id" => contact
    | column => AdminTable.contactGroupMembers.default now column

def addMember (db : AdminDb) (row : Row Value) : AdminDb :=
  if (db .contactGroupMembers).any (agreeOn ["group_id", "contact_id"] row) then db
  else fun u => if u = .contactGroupMembers then db u ++ [row] else db u

def value? (now : Int) (args : List Value) (column : String) (t : Term Value) : Option Value :=
  (t.eval (.time now) args).bind (readColumn column)

/-- The tenant that the statement gives to a new member, when it is not that of the group. -/
def memberTenant? (now : Int) (args : List Value) : Option (Term Value) → Option (Option Value)
  | none => some none
  | some t => (value? now args "tenant_id" t).map some

def insertMember (db : AdminDb) (now : Int) (m : MemberInsert) (args : List Value) :
    Option AdminDb := do
  let tenant ← memberTenant? now args m.tenant
  let group ← value? now args "group_id" m.group
  let contact ← value? now args "contact_id" m.contact
  let groupConds ← adminEngine.bind (.time now) args m.groupConds
  let contactConds ← adminEngine.bind (.time now) args m.contactConds
  let rows := ((db .contactGroups).filter (adminEngine.selects groupConds)).flatMap fun g =>
    ((db .contacts).filter (adminEngine.selects contactConds)).map fun _ =>
      newMember now tenant group contact g
  return rows.foldl addMember db

/-- The row that `audit.Write` inserts, for the tenant as the column holds it. -/
def auditRow (id : String) (now : Int) (tenant : Value) (event : AuditEvent) : Row Value :=
  AdminTable.auditLogs.newRow id now
    [("tenant_id", tenant), ("actor_user_id", .ofText event.actorUserID),
     ("actor_type", .text event.actorType), ("action", .text event.action),
     ("resource_type", .text event.resourceType), ("resource_id", .ofText event.resourceID)]

/-- The `INSERT` of `audit.Write`; the column `tenant_id` is a `uuid`. -/
def insertAudit (db : AdminDb) (id : String) (now : Int) (event : AuditEvent) : Option AdminDb :=
  (readColumn "tenant_id" (.ofText event.tenantID)).bind fun tenant =>
    adminEngine.insert db .auditLogs (auditRow id now tenant event)

def perform (o : AdminOutcome) (db : AdminDb) : (c : AdminCall) → Except Err (AdminResult c × AdminDb)
  | .exec s args =>
      match adminEngine.exec (.time o.now) args db s with
      | some r => .ok r
      | none => .error .driver
  | .insert table values args =>
      match adminEngine.bind (.time o.now) args values with
      | none => .error .driver
      | some values =>
          match adminEngine.insert db table (table.newRow o.id o.now values) with
          | some db' => .ok (o.id, db')
          | none => .error .driver
  | .insertMember m args =>
      match db.insertMember o.now m args with
      | some db' => .ok ((), db')
      | none => .error .driver
  | .selectRow table columns conds args =>
      match adminEngine.bind (.time o.now) args conds with
      | none => .error .driver
      | some conds =>
          match (db table).find? (adminEngine.selects conds) with
          | some row => .ok (columns.map row, db)
          | none => .error .noRows
  | .encrypt _ => .ok (o.text, db)
  | .randomToken _ => .ok (o.text, db)
  | .audit event =>
      match db.insertAudit o.id o.now event with
      | some db' => .ok ((), db')
      | none => .error .driver

theorem insertAudit_eq_some {db db' : AdminDb} {id : String} {now : Int} {event : AuditEvent}
    (h : db.insertAudit id now event = some db') :
    ∃ tenant, readColumn "tenant_id" (.ofText event.tenantID) = some tenant ∧
      adminEngine.insert db .auditLogs (auditRow id now tenant event) = some db' :=
  Option.bind_eq_some_iff.mp h

end AdminDb

/-- The database and the number of calls made so far. -/
structure AdminState where
  db : AdminDb
  calls : Nat

def AdminState.call (env : Nat → AdminOutcome) (c : AdminCall) (s : AdminState) :
    AdminReply c × AdminState :=
  let o := env s.calls
  if o.fail then (.error .driver, { s with calls := s.calls + 1 })
  else
    match s.db.perform o c with
    | .ok (r, db) => (.ok r, ⟨db, s.calls + 1⟩)
    | .error e => (.error e, { s with calls := s.calls + 1 })

end NotificationPlatform
