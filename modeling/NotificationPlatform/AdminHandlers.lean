import NotificationPlatform.AdminStore
import NotificationPlatform.Permissions

/-!
# The mutating handlers of the admin API

Each handler builds its own statement. The dynamic ones number their placeholders by hand while
they append columns and arguments (`Builder`); the others carry the numbers in their text. A
handler limits a statement to the tenant of a principal that is not a platform administrator by a
condition of the statement, or checks the tenant before it writes.
-/

namespace NotificationPlatform

open Lib Lib.Sql

/-- What the handlers use of the libraries around them. -/
structure AdminConfig where
  hashSecret : String → String
  parseDuration : String → Option Int
  errorText : Err → String

structure JsonResponse where
  status : Nat
  body : Json

namespace JsonResponse

def error (status : Nat) (message : String) : JsonResponse := ⟨status, .obj [("error", .str message)]⟩

def message (text : String) : JsonResponse := ⟨200, .obj [("message", .str text)]⟩

def created (id text : String) : JsonResponse :=
  ⟨201, .obj [("id", .str id), ("message", .str text)]⟩

def createFailed (cfg : AdminConfig) (e : Err) : JsonResponse :=
  ⟨500, .obj [("error", .str "create failed"), ("detail", .str (cfg.errorText e))]⟩

end JsonResponse

/-- A statement under construction; `argN` is the number of the next placeholder. -/
structure Builder where
  sets : Terms Value
  conds : Terms Value
  args : List Value
  argN : Nat

namespace Builder

def start : Builder := ⟨[("updated_at", .now)], [], [], 1⟩

/-- `q += ", column = $" + itoa(argN)`, with its argument. -/
def set (b : Builder) (column : String) (v : Value) : Builder :=
  { b with
    sets := b.sets ++ [(column, .param b.argN)]
    args := b.args ++ [v]
    argN := b.argN + 1 }

/-- `q += " AND column = $" + itoa(argN)`, with its argument. -/
def cond (b : Builder) (column : String) (v : Value) : Builder :=
  { b with
    conds := b.conds ++ [(column, .param b.argN)]
    args := b.args ++ [v]
    argN := b.argN + 1 }

def setText (b : Builder) (column text : String) : Builder :=
  if text ≠ "" then b.set column (.text text) else b

def setSome {α : Type} (b : Builder) (column : String) (toValue : α → Value) (field : Option α) :
    Builder :=
  match field with
  | some x => b.set column (toValue x)
  | none => b

def setChecked {α : Type} (b : Builder) (column : String) (toValue : α → Value)
    (invalid : α → Bool) (message : String) (field : Option α) : Except String Builder :=
  match field with
  | some x => if invalid x then .error message else .ok (b.set column (toValue x))
  | none => .ok b

/-- `WHERE id = $n`, and for a principal of a tenant `AND tenant_id = $n`. -/
def limited (b : Builder) (p : Principal) (id : String) : Builder :=
  let b := b.cond "id" (.text id)
  if p.isPlatform then b else b.cond "tenant_id" (.text p.tenantID)

def update (b : Builder) (table : AdminTable) : AdminCode (Except Err Nat) :=
  Prog.perform (AdminCall.exec (.update table b.sets b.conds) b.args)

end Builder

/-- A statement whose text has the placeholders up to `n`: a principal of a tenant adds the
condition `tenant_id = $(n+1)`. -/
def tenantCond (p : Principal) (n : Nat) : Terms Value :=
  if p.isPlatform then [] else [("tenant_id", .param (n + 1))]

def tenantArg (p : Principal) : List Value :=
  if p.isPlatform then [] else [.text p.tenantID]

def write (s : Sql.Stmt AdminTable Value) (args : List Value) : AdminCode (Except Err Nat) :=
  Prog.perform (AdminCall.exec s args)

def audit (event : AuditEvent) : AdminCode Unit := do
  let _ ← (Prog.perform (AdminCall.audit event) : AdminCode _)

def answerAffected (r : Except Err Nat) (failed missing : String) (event : AuditEvent)
    (done : String) : AdminCode JsonResponse :=
  match r with
  | .error _ => return .error 500 failed
  | .ok 0 => return .error 404 missing
  | .ok _ => do
    audit event
    return .message done

def effectiveTenant (p : Principal) (tenantID : String) : String :=
  if p.isPlatform then tenantID else p.tenantID

def Principal.userText (p : Principal) : String := toString p.userID

def answerCreated (r : Except Err String) (failed : Err → JsonResponse) (event : String → AuditEvent)
    (done : String) : AdminCode JsonResponse :=
  match r with
  | .error e => return failed e
  | .ok id => do
    audit (event id)
    return .created id done

def insertRow (table : AdminTable) (values : Terms Value) (args : List Value) :
    AdminCode (Except Err String) :=
  Prog.perform (AdminCall.insert table values args)

/-- `DELETE FROM table WHERE id = $1`, limited to the tenant of the principal. -/
def deleteLimited (table : AdminTable) (p : Principal) (id : String) :
    AdminCode (Except Err Nat) :=
  write (.delete table ([("id", .param 1)] ++ tenantCond p 1)) ([.text id] ++ tenantArg p)

structure NewContact where
  tenantID : String
  externalUserID : String
  name : String
  email : String
  phone : String

def createContact (cfg : AdminConfig) (p : Principal) (req : NewContact) : AdminCode JsonResponse := do
  let tenantID := effectiveTenant p req.tenantID
  let r ← insertRow .contacts
    [("tenant_id", .param 1), ("external_user_id", .param 2), ("name", .param 3),
     ("email", .param 4), ("phone", .param 5), ("status", .const (.text "active"))]
    [.ofText tenantID, .ofText req.externalUserID, .ofText req.name, .ofText req.email,
     .ofText req.phone]
  answerCreated r (.createFailed cfg)
    (fun id => ⟨tenantID, p.userText, "tenant_user", "contact.create", "contact", id⟩)
    "contact created"

structure ContactUpdate where
  name : String
  email : String
  phone : String

def updateContact (p : Principal) (id : String) (req : ContactUpdate) : AdminCode JsonResponse := do
  let b := Builder.start
  let b := b.setText "name" req.name
  let b := b.setText "email" req.email
  let b := b.setText "phone" req.phone
  let r ← (b.limited p id).update .contacts
  answerAffected r "update failed" "contact not found"
    ⟨"", p.userText, "tenant_user", "contact.update", "contact", id⟩ "contact updated"

def deleteContact (p : Principal) (id : String) : AdminCode JsonResponse := do
  let r ← deleteLimited .contacts p id
  answerAffected r "delete failed" "contact not found"
    ⟨"", p.userText, "tenant_user", "contact.delete", "contact", id⟩ "contact deleted"

structure NewGroup where
  tenantID : String
  name : String
  description : String

def createGroup (p : Principal) (req : NewGroup) : AdminCode JsonResponse := do
  let tenantID := effectiveTenant p req.tenantID
  if req.name = "" then return .error 400 "name is required"
  let r ← insertRow .contactGroups
    [("tenant_id", .param 1), ("name", .param 2), ("description", .param 3),
     ("status", .const (.text "active"))]
    [.ofText tenantID, .text req.name, .ofText req.description]
  answerCreated r (fun _ => .error 500 "create failed")
    (fun id => ⟨tenantID, p.userText, "tenant_user", "contact_group.create", "contact_group", id⟩)
    "group created"

def deleteGroup (p : Principal) (id : String) : AdminCode JsonResponse := do
  let r ← deleteLimited .contactGroups p id
  answerAffected r "delete failed" "group not found"
    ⟨"", p.userText, "tenant_user", "contact_group.delete", "contact_group", id⟩ "group deleted"

/-- The statement of `AddGroupMember` and its arguments. -/
def memberInsert (p : Principal) (groupID contactID : String) : MemberInsert × List Value :=
  if p.isPlatform then
    (⟨none, .param 1, .param 2, [("id", .param 1)], [("id", .param 2)]⟩,
      [.text groupID, .text contactID])
  else
    (⟨some (.param 3), .param 1, .param 2, [("id", .param 1), ("tenant_id", .param 3)],
      [("id", .param 2), ("tenant_id", .param 3)]⟩,
      [.text groupID, .text contactID, .text p.tenantID])

def addGroupMember (p : Principal) (groupID contactID : String) : AdminCode JsonResponse := do
  let q := memberInsert p groupID contactID
  match ← (Prog.perform (AdminCall.insertMember q.1 q.2) : AdminCode _) with
  | .error _ => return .error 500 "add failed"
  | .ok _ =>
    audit ⟨p.tenantID, p.userText, "tenant_user", "group_member.add", "contact_group_member",
      groupID ++ "/" ++ contactID⟩
    return ⟨201, .obj [("message", .str "member added")]⟩

def removeGroupMember (p : Principal) (groupID contactID : String) : AdminCode JsonResponse := do
  let r ← write (.delete .contactGroupMembers
      ([("group_id", .param 1), ("contact_id", .param 2)] ++ tenantCond p 2))
    ([.text groupID, .text contactID] ++ tenantArg p)
  match r with
  | .error _ => return .error 500 "remove failed"
  | .ok _ =>
    audit ⟨p.tenantID, p.userText, "tenant_user", "group_member.remove", "contact_group_member",
      groupID ++ "/" ++ contactID⟩
    return .message "member removed"

structure TemplateBody where
  templateKey : String
  channel : String
  subject : String
  body : String

def createTemplate (cfg : AdminConfig) (p : Principal) (tenantID : String) (req : TemplateBody) :
    AdminCode JsonResponse := do
  let tenantID := effectiveTenant p tenantID
  if req.templateKey = "" then return .error 400 "template_key is required"
  let r ← insertRow .notificationTemplates
    [("tenant_id", .param 1), ("template_key", .param 2), ("channel", .param 3),
     ("subject", .param 4), ("body", .param 5), ("status", .const (.text "active"))]
    [.ofText tenantID, .text req.templateKey, .ofText req.channel, .ofText req.subject,
     .ofText req.body]
  answerCreated r (.createFailed cfg)
    (fun id => ⟨tenantID, p.userText, "tenant_user", "template.create", "notification_template",
      id⟩) "template created"

def updateTemplate (p : Principal) (id : String) (req : TemplateBody) : AdminCode JsonResponse := do
  if req.templateKey = "" ∨ req.channel = "" ∨ req.body = "" then
    return .error 400 "template_key, channel, and body are required"
  let r ← write (.update .notificationTemplates
      [("template_key", .param 1), ("channel", .param 2), ("subject", .param 3),
       ("body", .param 4), ("updated_at", .now)]
      ([("id", .param 5)] ++ tenantCond p 5))
    ([.text req.templateKey, .text req.channel, .ofText req.subject, .text req.body, .text id] ++
      tenantArg p)
  answerAffected r "update failed" "template not found"
    ⟨"", p.userText, "tenant_user", "template.update", "notification_template", id⟩
    "template updated"

def deleteTemplate (p : Principal) (id : String) : AdminCode JsonResponse := do
  let r ← deleteLimited .notificationTemplates p id
  answerAffected r "delete failed" "template not found"
    ⟨"", p.userText, "tenant_user", "template.delete", "notification_template", id⟩
    "template deleted"

structure NewCampaign where
  tenantID : String
  name : String
  description : String

def createCampaign (cfg : AdminConfig) (p : Principal) (req : NewCampaign) :
    AdminCode JsonResponse := do
  let tenantID := effectiveTenant p req.tenantID
  if req.name = "" then return .error 400 "name is required"
  let r ← insertRow .campaigns
    [("tenant_id", .param 1), ("name", .param 2), ("description", .param 3),
     ("status", .const (.text "draft"))]
    [.ofText tenantID, .text req.name, .ofText req.description]
  answerCreated r (.createFailed cfg)
    (fun id => ⟨tenantID, p.userText, "tenant_user", "campaign.create", "campaign", id⟩)
    "campaign created"

structure CampaignUpdate where
  name : String
  description : String
  status : String

def updateCampaign (p : Principal) (id : String) (req : CampaignUpdate) : AdminCode JsonResponse := do
  let b := Builder.start
  let b := b.setText "name" req.name
  let b := b.setText "description" req.description
  let b := b.setText "status" req.status
  let r ← (b.limited p id).update .campaigns
  answerAffected r "update failed" "campaign not found"
    ⟨"", p.userText, "tenant_user", "campaign.update", "campaign", id⟩ "campaign updated"

structure CampaignAction where
  targetStatus : String
  auditAction : String

def campaignStatusTransition (p : Principal) (id : String) (action : CampaignAction) :
    AdminCode JsonResponse := do
  let r ← write (.update .campaigns [("status", .param 2), ("updated_at", .now)]
      ([("id", .param 1)] ++ tenantCond p 2))
    ([.text id, .text action.targetStatus] ++ tenantArg p)
  answerAffected r "operation failed" "campaign not found"
    ⟨"", p.userText, "tenant_user", action.auditAction, "campaign", id⟩
    ("campaign " ++ action.targetStatus)

def approveCampaign (p : Principal) (id : String) : AdminCode JsonResponse :=
  campaignStatusTransition p id ⟨"approved", "campaign.approve"⟩

def sendCampaign (p : Principal) (id : String) : AdminCode JsonResponse :=
  campaignStatusTransition p id ⟨"sending", "campaign.send"⟩

def cancelCampaign (p : Principal) (id : String) : AdminCode JsonResponse :=
  campaignStatusTransition p id ⟨"cancelled", "campaign.cancel"⟩

structure NewProviderConfig where
  tenantID : String
  channel : String
  provider : String
  isDefault : Bool
  configJSON : String

def encryptedProviderConfigJSON (raw : String) : AdminCode (Except Err Json) := do
  match ← (Prog.perform (AdminCall.encrypt raw) : AdminCode _) with
  | .error e => return .error e
  | .ok encrypted => return .ok (.str encrypted)

def createProviderConfig (cfg : AdminConfig) (p : Principal) (req : NewProviderConfig) :
    AdminCode JsonResponse := do
  let tenantID := effectiveTenant p req.tenantID
  if req.channel = "" ∨ req.provider = "" then
    return .error 400 "channel and provider are required"
  let configRaw := if req.configJSON = "" then "\x7b\x7d" else req.configJSON
  match ← encryptedProviderConfigJSON configRaw with
  | .error _ => return .error 500 "encryption failed"
  | .ok encrypted =>
    let r ← insertRow .tenantProviderConfigs
      [("tenant_id", .param 1), ("channel", .param 2), ("provider", .param 3),
       ("is_default", .param 4), ("status", .const (.text "active")), ("config_json", .param 5)]
      [.ofText tenantID, .text req.channel, .text req.provider, .bool req.isDefault,
       .json encrypted]
    answerCreated r (.createFailed cfg)
      (fun id => ⟨tenantID, p.userText, "tenant_user", "provider_config.create",
        "tenant_provider_config", id⟩) "provider config created"

structure ProviderConfigUpdate where
  provider : String
  isDefault : Option Bool
  status : String
  configJSON : String

/-- The end of `UpdateProviderConfig`, after the optional encryption. -/
def finishProviderConfig (p : Principal) (id : String) (b : Builder) : AdminCode JsonResponse := do
  let r ← (b.limited p id).update .tenantProviderConfigs
  answerAffected r "update failed" "provider config not found"
    ⟨"", p.userText, "tenant_user", "provider_config.update", "tenant_provider_config", id⟩
    "provider config updated"

def updateProviderConfig (p : Principal) (id : String) (req : ProviderConfigUpdate) :
    AdminCode JsonResponse := do
  let b := Builder.start
  let b := b.setText "provider" req.provider
  let b := b.setSome "is_default" .bool req.isDefault
  let b := b.setText "status" req.status
  if req.configJSON ≠ "" then
    match ← encryptedProviderConfigJSON req.configJSON with
    | .error _ => return .error 500 "encryption failed"
    | .ok encrypted => finishProviderConfig p id (b.set "config_json" (.json encrypted))
  else finishProviderConfig p id b

def deleteProviderConfig (p : Principal) (id : String) : AdminCode JsonResponse := do
  let r ← deleteLimited .tenantProviderConfigs p id
  answerAffected r "delete failed" "provider config not found"
    ⟨"", p.userText, "tenant_user", "provider_config.delete", "tenant_provider_config", id⟩
    "provider config deleted"

structure NewAPIKey where
  tenantID : String
  name : String
  scopes : List String
  expiresIn : String

def generateAPIKey (cfg : AdminConfig) (tenantID name createdBy : String) (scopes : List String)
    (expiresAt : Option Int) : AdminCode (Except Err (String × String)) := do
  match ← (Prog.perform (AdminCall.randomToken "ntk") : AdminCode _) with
  | .error e => return .error e
  | .ok raw =>
    let r ← insertRow .tenantAPIKeys
      [("tenant_id", .param 1), ("name", .param 2), ("key_hash", .param 3),
       ("scopes_json", .param 4), ("created_by", .param 5), ("expires_at", .param 6),
       ("status", .const (.text "active"))]
      [.text tenantID, .text name, .text (cfg.hashSecret raw), .json (.ofStrings scopes),
       .ofText createdBy, (expiresAt.map Value.time).getD .null]
    match r with
    | .error e => return .error e
    | .ok id => return .ok (id, raw)

/-- `CreateAPIKey`; `now` is the clock reading that the expiry is counted from. -/
def createAPIKey (cfg : AdminConfig) (now : Int) (p : Principal) (req : NewAPIKey) :
    AdminCode JsonResponse := do
  let tenantID := effectiveTenant p req.tenantID
  if req.name = "" then return .error 400 "name is required"
  if tenantID = "" then return .error 400 "tenant_id is required"
  let expiresAt := if req.expiresIn = "" then none
    else (cfg.parseDuration req.expiresIn).map (now + ·)
  match ← generateAPIKey cfg tenantID req.name p.userText req.scopes expiresAt with
  | .error _ => return .error 500 "api key creation failed"
  | .ok (id, raw) =>
    audit ⟨tenantID, p.userText, "tenant_user", "api_key.create", "tenant_api_key", id⟩
    return ⟨201, .obj [("id", .str id), ("api_key", .str raw),
      ("message", .str "save this key - it will not be shown again")]⟩

def revokeAPIKey (p : Principal) (id : String) : AdminCode JsonResponse := do
  let r ← write (.update .tenantAPIKeys
      [("status", .const (.text "revoked")), ("revoked_at", .now), ("revoked_by", .param 2),
       ("updated_at", .now)] ([("id", .param 1)] ++ tenantCond p 2))
    ([.text id, .text p.userText] ++ tenantArg p)
  answerAffected r "revoke failed" "api key not found"
    ⟨"", p.userText, "tenant_user", "api_key.revoke", "tenant_api_key", id⟩ "api key revoked"

def updateFeature (p : Principal) (id : String) (enabled : Bool) : AdminCode JsonResponse := do
  let r ← write (.update .tenantFeatures [("enabled", .param 2), ("updated_at", .now)]
      ([("id", .param 1)] ++ tenantCond p 2))
    ([.text id, .bool enabled] ++ tenantArg p)
  answerAffected r "update failed" "feature not found"
    ⟨p.tenantID, p.userText, "tenant_user", "feature.update", "tenant_feature", id⟩
    "feature updated"

structure ChannelUpdate where
  enabled : Option Bool
  direction : String
  rateLimitPerSecond : Option Int
  dailyQuota : Option Int
  priority : Option Int

def updateChannel (p : Principal) (id : String) (req : ChannelUpdate) : AdminCode JsonResponse := do
  let b := Builder.start
  let b := b.setSome "enabled" .bool req.enabled
  let b := b.setText "direction" req.direction
  let b := b.setSome "rate_limit_per_second" .int req.rateLimitPerSecond
  let b := b.setSome "daily_quota" .int req.dailyQuota
  let b := b.setSome "priority" .int req.priority
  let r ← (b.limited p id).update .tenantChannels
  answerAffected r "update failed" "channel not found"
    ⟨"", p.userText, "tenant_user", "channel.update", "tenant_channel", id⟩ "channel updated"

/-- The handlers of the three catalogs: a platform administrator sets one column of the row with
the given key. They write no audit event. -/
def updateCatalog (table : AdminTable) (column key : String) (toValue : Bool → Value)
    (missing done : String) (p : Principal) (name : String) (enabled : Option Bool) :
    AdminCode JsonResponse :=
  if p.isPlatform then
    match enabled with
    | none => return .error 400 "enabled is required"
    | some enabled => do
      let r ← write (.update table [(column, .param 1), ("updated_at", .now)] [(key, .param 2)])
        [toValue enabled, .text name]
      match r with
      | .error _ => return .error 500 "update failed"
      | .ok 0 => return .error 404 missing
      | .ok _ => return .message done
  else return .error 403 "platform admin required"

def updateFeatureCatalog : Principal → String → Option Bool → AdminCode JsonResponse :=
  updateCatalog .featureCatalog "status" "identifier"
    (fun enabled => .text (if enabled then "active" else "disabled"))
    "feature not found" "feature catalog updated"

def updatePlatformChannel : Principal → String → Option Bool → AdminCode JsonResponse :=
  updateCatalog .platformChannels "enabled" "channel" .bool
    "channel not found" "platform channel updated"

def updateProviderType : Principal → String → Option Bool → AdminCode JsonResponse :=
  updateCatalog .platformProviders "enabled" "provider" .bool
    "provider type not found" "provider type updated"

structure QueueControlUpdate where
  status : Option String
  maxAttempts : Option Int
  retryDelaySeconds : Option Int
  notes : Option String

/-- The optional columns of `UpdateQueueControl`; an invalid field ends the handler. -/
def queueControlSets (req : QueueControlUpdate) (b : Builder) : Except String Builder :=
  (b.setChecked "status" .text (fun s => s != "active" && s != "paused" && s != "stopped")
    "invalid status" req.status).bind fun b =>
  (b.setChecked "max_attempts" .int (fun n => n < 1 || n > 20)
    "max_attempts must be between 1 and 20" req.maxAttempts).bind fun b =>
  (b.setChecked "retry_delay_seconds" .int (fun n => n < 0 || n > 86400)
    "retry_delay_seconds must be between 0 and 86400" req.retryDelaySeconds).bind fun b =>
  .ok (b.setSome "notes" .text req.notes)

/-- `UpdateQueueControl`: the tenant is checked by a query, and the statement names the row by its
identifier alone. -/
def updateQueueControl (p : Principal) (id : String) (req : QueueControlUpdate) :
    AdminCode JsonResponse := do
  match ← (Prog.perform (AdminCall.selectRow .tenantQueueControls ["tenant_id"]
      [("id", .param 1)] [.text id]) : AdminCode _) with
  | .ok [.text tenantID] =>
    if p.isPlatform = false ∧ tenantID ≠ p.tenantID then return .error 403 "forbidden"
    let b : Builder :=
      ⟨[("updated_at", .now), ("updated_by", .param 1)], [], [.ofText p.userText], 2⟩
    match queueControlSets req b with
    | .error message => return .error 400 message
    | .ok b =>
      match ← (b.cond "id" (.text id)).update .tenantQueueControls with
      | .error _ => return .error 500 "update failed"
      | .ok _ =>
        audit ⟨tenantID, p.userText, "tenant_user", "queue_control.update",
          "tenant_queue_control", id⟩
        return .message "queue control updated"
  | _ => return .error 404 "queue control not found"

def markInAppRead (p : Principal) (id : String) : AdminCode JsonResponse := do
  match ← write (.update .inAppNotifications
      [("status", .const (.text "read")), ("updated_at", .now)]
      [("id", .param 1), ("tenant_id", .param 2), ("status", .const (.text "unread"))])
    [.text id, .text p.tenantID] with
  | .error _ => return .error 500 "update failed"
  | .ok _ => return .message "marked as read"

def markAllInAppRead (p : Principal) : AdminCode JsonResponse := do
  match ← write (.update .inAppNotifications
      [("status", .const (.text "read")), ("updated_at", .now)]
      [("tenant_id", .param 1), ("status", .const (.text "unread"))])
    [.text p.tenantID] with
  | .error _ => return .error 500 "update failed"
  | .ok _ => return .message "all marked as read"

structure TenantSettings where
  timezone : Option String
  country : Option String
  defaultFrom : Option String
  defaultSMS : Option String
  brandingLogo : Option String
  metadata : Option Json

/-- `json.Unmarshal` of the stored configuration into an empty map: `null` makes the map nil, and
an error leaves it as it was. -/
def existingSettings : Except Err (List Value) → GoMap
  | .ok [.json (.obj fields)] => some (JsonMap.empty.setAll fields)
  | .ok [.json .null] => none
  | _ => some .empty

def TenantSettings.fields (req : TenantSettings) : List (String × Json) :=
  [("timezone", req.timezone), ("country", req.country), ("default_sender", req.defaultFrom),
   ("default_sms", req.defaultSMS), ("branding_logo", req.brandingLogo)].filterMap
    (fun f => f.2.map fun s => (f.1, .str s)) ++
  match req.metadata with
  | some (.obj fields) => [("metadata", .obj (JsonMap.empty.setAll fields).fields)]
  | some .null => [("metadata", .null)]
  | _ => []

def saveSettings (p : Principal) (tenantID : String) (settings : GoMap) : AdminCode JsonResponse := do
  match ← write (.update .tenants [("config_json", .param 1), ("updated_at", .now)]
      [("id", .param 2)]) [.json settings.toJson, .text tenantID] with
  | .error _ => return .error 500 "update failed"
  | .ok _ =>
    audit ⟨tenantID, p.userText, "user", "tenant.settings.update", "tenant", tenantID⟩
    return .message "settings updated"

def updateTenantSettings (p : Principal) (tenantID : String) (req : TenantSettings) :
    AdminCode JsonResponse := do
  if p.isPlatform = false ∧ p.tenantID ≠ tenantID then return .error 403 "access denied"
  if tenantID = "" then return .error 400 "tenant_id required"
  let row ← (Prog.perform (AdminCall.selectRow .tenants ["config_json"] [("id", .param 1)]
    [.text tenantID]) : AdminCode _)
  match existingSettings row, req.fields with
  | none, [] => saveSettings p tenantID none
  -- an assignment to an entry of a nil map panics
  | none, _ :: _ => return .error 500 "internal server error"
  | some existing, fields => saveSettings p tenantID (some (existing.setAll fields))

inductive AdminRequest where
  | createContact (req : NewContact)
  | updateContact (id : String) (req : ContactUpdate)
  | deleteContact (id : String)
  | createGroup (req : NewGroup)
  | deleteGroup (id : String)
  | addGroupMember (groupID contactID : String)
  | removeGroupMember (groupID contactID : String)
  | createTemplate (tenantID : String) (req : TemplateBody)
  | updateTemplate (id : String) (req : TemplateBody)
  | deleteTemplate (id : String)
  | createCampaign (req : NewCampaign)
  | updateCampaign (id : String) (req : CampaignUpdate)
  | approveCampaign (id : String)
  | sendCampaign (id : String)
  | cancelCampaign (id : String)
  | createProviderConfig (req : NewProviderConfig)
  | updateProviderConfig (id : String) (req : ProviderConfigUpdate)
  | deleteProviderConfig (id : String)
  | createAPIKey (now : Int) (req : NewAPIKey)
  | revokeAPIKey (id : String)
  | updateFeature (id : String) (enabled : Bool)
  | updateChannel (id : String) (req : ChannelUpdate)
  | updateFeatureCatalog (identifier : String) (enabled : Option Bool)
  | updatePlatformChannel (channel : String) (enabled : Option Bool)
  | updateProviderType (provider : String) (enabled : Option Bool)
  | updateQueueControl (id : String) (req : QueueControlUpdate)
  | markInAppRead (id : String)
  | markAllInAppRead
  | updateTenantSettings (id : String) (req : TenantSettings)

def serve (cfg : AdminConfig) (p : Principal) : AdminRequest → AdminCode JsonResponse
  | .createContact req => createContact cfg p req
  | .updateContact id req => updateContact p id req
  | .deleteContact id => deleteContact p id
  | .createGroup req => createGroup p req
  | .deleteGroup id => deleteGroup p id
  | .addGroupMember groupID contactID => addGroupMember p groupID contactID
  | .removeGroupMember groupID contactID => removeGroupMember p groupID contactID
  | .createTemplate tenantID req => createTemplate cfg p tenantID req
  | .updateTemplate id req => updateTemplate p id req
  | .deleteTemplate id => deleteTemplate p id
  | .createCampaign req => createCampaign cfg p req
  | .updateCampaign id req => updateCampaign p id req
  | .approveCampaign id => approveCampaign p id
  | .sendCampaign id => sendCampaign p id
  | .cancelCampaign id => cancelCampaign p id
  | .createProviderConfig req => createProviderConfig cfg p req
  | .updateProviderConfig id req => updateProviderConfig p id req
  | .deleteProviderConfig id => deleteProviderConfig p id
  | .createAPIKey now req => createAPIKey cfg now p req
  | .revokeAPIKey id => revokeAPIKey p id
  | .updateFeature id enabled => updateFeature p id enabled
  | .updateChannel id req => updateChannel p id req
  | .updateFeatureCatalog identifier enabled => updateFeatureCatalog p identifier enabled
  | .updatePlatformChannel channel enabled => updatePlatformChannel p channel enabled
  | .updateProviderType provider enabled => updateProviderType p provider enabled
  | .updateQueueControl id req => updateQueueControl p id req
  | .markInAppRead id => markInAppRead p id
  | .markAllInAppRead => markAllInAppRead p
  | .updateTenantSettings id req => updateTenantSettings p id req

def serveAll (cfg : AdminConfig) (env : Nat → AdminOutcome) (p : Principal) :
    List AdminRequest → AdminState → AdminState
  | [], s => s
  | r :: rest, s => serveAll cfg env p rest ((serve cfg p r).eval (AdminState.call env) s).2

end NotificationPlatform
