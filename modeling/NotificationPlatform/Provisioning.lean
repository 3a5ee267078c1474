import NotificationPlatform.AdminLists
import NotificationPlatform.Lib.JsonSyntax
import NotificationPlatform.Lib.Statements
import NotificationPlatform.ProviderSecrets

/-!
# Provisioning of tenants

`CreateTenant` and `UpdateTenant` write the row of a tenant and then, one statement after the other,
its features, channels, providers and templates. No transaction holds the statements together.
-/

namespace NotificationPlatform

open Lib Lib.Sql

structure ProvisionedChannel where
  channel : String
  enabled : Bool
  direction : String
  rateLimit : Int
  dailyQuota : Int

structure ProvisionedProvider where
  channel : String
  provider : String
  isDefault : Bool

/-- `tenantProvisioningRequest`; a list or map that the body leaves out is nil. -/
structure TenantProvisioningRequest where
  name : String
  slug : String
  settings : GoMap
  features : Option (List String)
  channels : List ProvisionedChannel
  providers : Option (List ProvisionedProvider)
  templates : Option (List TemplateBody)

/-- The libraries around the handlers, the cipher with its key, and the value of a JSON text. -/
structure ProvisionConfig extends AdminConfig where
  gcm : Gcm
  encKey : Option EncKey
  jsonValue : String → Json

/-- What the environment decides about a statement: whether it fails, its clock, the identifiers of
the rows it inserts, and the nonce of the encryption before it. -/
structure StatementOutcome where
  fail : Bool := false
  now : Int := 0
  ids : Nat → String := fun _ => ""
  nonce : Option Nonce := none

def castJsonb (cfg : ProvisionConfig) (text : String) : Option Value :=
  if JsonText.isJson text then some (.json (cfg.jsonValue text)) else none

namespace AdminDb

def knowsTenant (db : AdminDb) (row : Row Value) : Bool :=
  (db .tenants).any fun t => (t "id").same (row "tenant_id")

def insertOwned (db : AdminDb) (table : AdminTable) (row : Row Value) : Option AdminDb :=
  if db.knowsTenant row then adminEngine.insert db table row else none

/-- `INSERT .. ON CONFLICT (keys) DO UPDATE SET column = EXCLUDED.column, .., updated_at = now()` -/
def upsert (db : AdminDb) (table : AdminTable) (keys sets : List String) (now : Int)
    (row : Row Value) : Option AdminDb :=
  if (db table).any (agreeOn keys row) then
    let rows := (db table).map fun r =>
      if agreeOn keys row r then
        assign (sets.map (fun c => (c, row c)) ++ [("updated_at", .time now)]) r
      else r
    if table.valid rows then some fun u => if u = table then rows else db u else none
  else db.insertOwned table row

def upsertAll (db : AdminDb) (table : AdminTable) (keys sets : List String) (now : Int)
    (rows : List (Row Value)) : Option AdminDb :=
  rows.foldlM (fun db row => db.upsert table keys sets now row) db

end AdminDb

inductive ProvisionStep where
  | tenant (name slug : String)
  | settings (fields : GoMap)
  | features (identifiers : List String)
  | channel (c : ProvisionedChannel)
  | deleteProviders
  | provider (p : ProvisionedProvider)
  | deleteTemplates
  | template (t : TemplateBody)

def ProvisionStep.table : ProvisionStep → AdminTable
  | .tenant _ _ | .settings _ => .tenants
  | .features _ => .tenantFeatures
  | .channel _ => .tenantChannels
  | .deleteProviders | .provider _ => .tenantProviderConfigs
  | .deleteTemplates | .template _ => .notificationTemplates

/-- The rows of `SELECT $1, identifier, identifier = ANY($2) FROM feature_catalog WHERE
status = 'active'`. -/
def featureRows (db : AdminDb) (o : StatementOutcome) (tenant : Value) (identifiers : List String) :
    List (Row Value) :=
  ((db .featureCatalog).filter fun f => (f "status").same (.text "active")).mapIdx fun i f =>
    AdminTable.tenantFeatures.newRow (o.ids i) o.now
      [("tenant_id", tenant), ("feature_key", f "identifier"),
       ("enabled", .bool (identifiers.any fun s => (f "identifier").same (.text s)))]

def channelRow (o : StatementOutcome) (tenant : Value) (c : ProvisionedChannel) : Row Value :=
  let direction := if c.direction = "" then "one_way" else c.direction
  let rate := if c.rateLimit < 1 then 10 else c.rateLimit
  let quota := if c.dailyQuota < 1 then 10000 else c.dailyQuota
  AdminTable.tenantChannels.newRow (o.ids 0) o.now
    [("tenant_id", tenant), ("channel", .text c.channel), ("enabled", .bool c.enabled),
     ("direction", .text direction), ("rate_limit_per_second", .int rate),
     ("daily_quota", .int quota)]

def templateRow (o : StatementOutcome) (tenant : Value) (t : TemplateBody) : Row Value :=
  AdminTable.notificationTemplates.newRow (o.ids 0) o.now
    [("tenant_id", tenant), ("template_key", .text t.templateKey), ("channel", .text t.channel),
     ("subject", .ofText t.subject), ("body", .text t.body), ("status", .text "active")]

def providerRow (o : StatementOutcome) (tenant config : Value) (p : ProvisionedProvider) :
    Row Value :=
  AdminTable.tenantProviderConfigs.newRow (o.ids 0) o.now
    [("tenant_id", tenant), ("channel", .text p.channel), ("provider", .text p.provider),
     ("config_json", config), ("is_default", .bool p.isDefault), ("status", .text "active")]

/-- `UPDATE tenants SET .. WHERE id = $n` of `UpdateTenant`, when the request names a column. -/
def tenantUpdate (tenantID name slug : String) : Builder :=
  let b : Builder := ⟨[], [], [], 1⟩
  let b := (b.setText "name" name).setText "slug" slug
  let b : Builder := { b with sets := b.sets ++ [("updated_at", .now)] }
  b.cond "id" (.text tenantID)

def slugViolation : Err :=
  .text "ERROR: duplicate key value violates unique constraint \"tenants_slug_key\" (SQLSTATE 23505)"

def slugError (db : AdminDb) (slug : String) : Err :=
  if (db .tenants).any fun t => (t "slug").same (.text slug) then slugViolation else .driver

/-- The database after a statement that neither the environment nor an argument makes fail. -/
def ProvisionStep.effect (cfg : ProvisionConfig) (tenantID : String) (o : StatementOutcome)
    (db : AdminDb) : ProvisionStep → Except Err AdminDb
  | .tenant name slug =>
      let b := tenantUpdate tenantID name slug
      match adminEngine.exec (.time o.now) b.args db (.update .tenants b.sets b.conds) with
      | some (_, db') => .ok db'
      | none =>
          .error (if (readColumn "id" (.text tenantID)).isSome then slugError db slug else .driver)
  | .settings fields =>
      match adminEngine.exec (.time o.now) [.json fields.toJson, .text tenantID] db
          (.update .tenants [("config_json", .param 1), ("updated_at", .now)]
            [("id", .param 2)]) with
      | some (_, db') => .ok db'
      | none => .error .driver
  | .features identifiers =>
      ((readColumn "tenant_id" (.text tenantID)).bind fun tenant =>
        db.upsertAll .tenantFeatures ["tenant_id", "feature_key"] ["enabled"] o.now
          (featureRows db o tenant identifiers)).elim (.error .driver) .ok
  | .channel c =>
      ((readColumn "tenant_id" (.text tenantID)).bind fun tenant =>
        db.upsert .tenantChannels ["tenant_id", "channel"]
          ["enabled", "direction", "rate_limit_per_second", "daily_quota"] o.now
          (channelRow o tenant c)).elim (.error .driver) .ok
  | .deleteProviders =>
      match adminEngine.exec (.time o.now) [.text tenantID] db
          (.delete .tenantProviderConfigs [("tenant_id", .param 1)]) with
      | some (_, db') => .ok db'
      | none => .error .driver
  | .provider p =>
      match Security.encrypt cfg.gcm cfg.encKey o.nonce "\x7b\x7d" with
      | .error e => .error e
      | .ok encrypted =>
          -- the ciphertext itself is cast, not a JSON string that holds it
          ((castJsonb cfg encrypted).bind fun config =>
            (readColumn "tenant_id" (.text tenantID)).bind fun tenant =>
              db.insertOwned .tenantProviderConfigs (providerRow o tenant config p)).elim
            (.error .driver) .ok
  | .deleteTemplates =>
      match adminEngine.exec (.time o.now) [.text tenantID] db
          (.delete .notificationTemplates [("tenant_id", .param 1)]) with
      | some (_, db') => .ok db'
      | none => .error .driver
  | .template t =>
      ((readColumn "tenant_id" (.text tenantID)).bind fun tenant =>
        db.upsert .notificationTemplates ["tenant_id", "template_key", "channel", "locale"]
          ["subject", "body", "status"] o.now (templateRow o tenant t)).elim (.error .driver) .ok

def ProvisionStep.exec (cfg : ProvisionConfig) (tenantID : String) (env : Nat → StatementOutcome)
    (n : Nat) (s : ProvisionStep) (db : AdminDb) : Except Err AdminDb :=
  if (env n).fail then .error .driver else s.effect cfg tenantID (env n) db

def settingsSteps (req : TenantProvisioningRequest) : List ProvisionStep :=
  match req.settings with
  | none => []
  | some fields => [.settings (some fields)]

def featureSteps (req : TenantProvisioningRequest) : List ProvisionStep :=
  match req.features with
  | none => []
  | some identifiers => [.features identifiers]

/-- The tenant's providers are deleted and inserted anew, unless the request has none. -/
def providerSteps (req : TenantProvisioningRequest) : List ProvisionStep :=
  match req.providers with
  | none => []
  | some providers => .deleteProviders :: providers.map .provider

def templateSteps (req : TenantProvisioningRequest) : List ProvisionStep :=
  match req.templates with
  | none => []
  | some templates => .deleteTemplates ::
      (templates.filter fun t => t.templateKey ≠ "" ∧ t.channel ≠ "" ∧ t.body ≠ "").map .template

/-- The statements of `applyTenantProvisioning`, in their order. -/
def provisioningSteps (req : TenantProvisioningRequest) : List ProvisionStep :=
  settingsSteps req ++ featureSteps req ++ req.channels.map .channel ++ providerSteps req ++
    templateSteps req

/-- `applyTenantProvisioning`; its first statement is number `n` of the request. -/
def applyTenantProvisioning (cfg : ProvisionConfig) (env : Nat → StatementOutcome) (n : Nat)
    (tenantID : String) (req : TenantProvisioningRequest) (db : AdminDb) :
    Except Err Unit × AdminDb :=
  executeAll (ProvisionStep.exec cfg tenantID env) n (provisioningSteps req) db

def isDuplicate (cfg : ProvisionConfig) (e : Err) : Bool :=
  contains (cfg.errorText e) "unique" || contains (cfg.errorText e) "duplicate"

/-- `audit.Write` at the end of a handler, whose error is dropped. -/
def writeAudit (o : StatementOutcome) (event : AuditEvent) (db : AdminDb) : AdminDb :=
  if o.fail then db
  else (db.insertAudit (o.ids 0) o.now event).getD db

/-- `INSERT INTO tenants (name, slug) VALUES ($1, $2) RETURNING id::text` -/
def insertTenant (o : StatementOutcome) (name slug : String) (db : AdminDb) :
    Except Err (String × AdminDb) :=
  if o.fail then .error .driver
  else
    match adminEngine.insert db .tenants (AdminTable.tenants.newRow (o.ids 0) o.now
        [("name", .text name), ("slug", .text slug)]) with
    | some db' => .ok (o.ids 0, db')
    | none => .error (slugError db slug)

def createTenant (cfg : ProvisionConfig) (env : Nat → StatementOutcome) (p : Principal)
    (body : Option TenantProvisioningRequest) (db : AdminDb) : JsonResponse × AdminDb :=
  if p.isPlatform then
    match body with
    | none => (.error 400 "invalid json", db)
    | some req =>
        if req.name = "" ∨ req.slug = "" then (.error 400 "name and slug are required", db)
        else
          match insertTenant (env 0) req.name req.slug db with
          | .error e =>
              if isDuplicate cfg e then (.error 409 "slug already exists", db)
              else (.error 500 "insert failed", db)
          | .ok (id, db) =>
              match applyTenantProvisioning cfg env 1 id req db with
              | (.error e, db) =>
                  (⟨500, .obj [("error", .str "tenant created but provisioning failed"),
                    ("detail", .str (cfg.errorText e))]⟩, db)
              | (.ok _, db) =>
                  (⟨201, .obj [("data", .obj [("id", .str id), ("name", .str req.name),
                    ("slug", .str req.slug), ("status", .str "active")])]⟩,
                  writeAudit (env (1 + (provisioningSteps req).length))
                    ⟨"", p.userText, "user", "tenants.create", "tenant", id⟩ db)
  else (.error 403 "platform admin only", db)

/-- The first statement of `UpdateTenant`, left out when the request names no column. -/
def tenantSteps (req : TenantProvisioningRequest) : List ProvisionStep :=
  if req.name = "" ∧ req.slug = "" then [] else [.tenant req.name req.slug]

def updateTenant (cfg : ProvisionConfig) (env : Nat → StatementOutcome) (p : Principal)
    (tenantID : String) (body : Option TenantProvisioningRequest) (db : AdminDb) :
    JsonResponse × AdminDb :=
  if p.isPlatform then
    match body with
    | none => (.error 400 "invalid json", db)
    | some req =>
        match executeAll (ProvisionStep.exec cfg tenantID env) 0 (tenantSteps req) db with
        | (.error e, db) =>
            if isDuplicate cfg e then (.error 409 "slug already exists", db)
            else (.error 500 "update failed", db)
        | (.ok _, db) =>
            match applyTenantProvisioning cfg env (tenantSteps req).length tenantID req db with
            | (.error e, db) =>
                (⟨500, .obj [("error", .str "configuration update failed"),
                  ("detail", .str (cfg.errorText e))]⟩, db)
            | (.ok _, db) =>
                (.message "tenant updated",
                writeAudit (env ((tenantSteps req).length + (provisioningSteps req).length))
                  ⟨"", p.userText, "user", "tenants.update", "tenant", tenantID⟩ db)
  else (.error 403 "platform admin only", db)

/-- `UpdateTenantStatus`, which does not look at the number of rows; a body that does not decode is
`none`. -/
def updateTenantStatus (env : Nat → StatementOutcome) (p : Principal) (tenantID : String)
    (body : Option String) (db : AdminDb) : JsonResponse × AdminDb :=
  if p.isPlatform then
    match body with
    | none => (.error 400 "invalid json", db)
    | some status =>
        if status ≠ "active" ∧ status ≠ "disabled" ∧ status ≠ "suspended" then
          (.error 400 "status must be active, disabled, or suspended", db)
        else
          match if (env 0).fail then none
            else adminEngine.exec (.time (env 0).now) [.text status, .text tenantID] db
              (.update .tenants [("status", .param 1), ("updated_at", .now)]
                [("id", .param 2)]) with
          | none => (.error 500 "update failed", db)
          | some (_, db) =>
              (.message "status updated",
                writeAudit (env 1) ⟨"", p.userText, "user", "tenants.status", "tenant", tenantID⟩ db)
  else (.error 403 "platform admin only", db)

end NotificationPlatform
