import Mathlib.Data.List.Infix
import NotificationPlatform.AdminHandlers
import NotificationPlatform.Database

/-!
# The list handlers of the admin API

Ten handlers answer with the rows of a table. Each builds its own query: a principal of a tenant
is limited to the rows of that tenant, a platform administrator sees all of them, with the name of
their tenant. `DataTableQuery` then searches, filters, sorts and cuts the list of any of them.

The texts that the database and the Go library make of values and the order of texts are
parameters; rows with equal sort keys stay in the order of their table.
-/

namespace NotificationPlatform

open Lib
open Lib.Sql (Row)

/-- The functions on texts of the Go library and of the database. -/
structure Texts where
  toLower : Char → Char
  fold : Char → Char
  sprint : Json → String
  marshal : Json → String
  /-- `sort.SliceStable`, also on a comparison that is no order. -/
  sliceStable : (Json → Json → Bool) → List Json → List Json
  compare : String → String → Ordering
  formatTime : Int → String
  parseTime : String → Option Int
  timeText : Int → String
  jsonText : Json → String
  lower : String → String
  collate : String → String → Bool

namespace Texts

variable (x : Texts)

def lowerText (s : String) : String := String.ofList (s.toList.map x.toLower)

def equalFold (s t : String) : Bool := s.toList.map x.fold = t.toList.map x.fold

end Texts

def isSpace (c : Char) : Bool :=
  c.toNat ∈ [9, 10, 11, 12, 13, 32, 0x85, 0xA0, 0x1680, 0x2028, 0x2029, 0x202f, 0x205f, 0x3000] ||
    (0x2000 ≤ c.toNat && c.toNat ≤ 0x200a)

def trimSpace (s : String) : String :=
  String.ofList (((s.toList.dropWhile isSpace).reverse.dropWhile isSpace).reverse)

def contains (s part : String) : Bool := s.toList.tails.any (part.toList.isPrefixOf ·)

theorem contains_iff {s part : String} : contains s part = true ↔ part.toList <:+: s.toList := by
  simp only [contains, List.any_eq_true, List.mem_tails, List.isPrefixOf_iff_prefix,
    List.infix_iff_prefix_suffix, and_comm]

def like : List Char → List Char → Bool
  | [], s => s.isEmpty
  | '%' :: pattern, s => s.tails.any (like pattern)
  | '_' :: pattern, _ :: s => like pattern s
  | '_' :: _, [] => false
  | '\\' :: c :: pattern, d :: s => c == d && like pattern s
  | c :: pattern, d :: s => c == d && like pattern s
  | _ :: _, [] => false

def maxInt : Int := 2 ^ 63 - 1

def wrapInt (n : Int) : Int := (n + 2 ^ 63) % 2 ^ 64 - 2 ^ 63

theorem wrapInt_of_le {n : Int} (h0 : 0 ≤ n) (h : n ≤ maxInt) : wrapInt n = n := by
  unfold wrapInt
  unfold maxInt at h
  omega

def readDigits (digits : List Char) : Option Int :=
  if digits.isEmpty || !digits.all Char.isDigit then none
  else some (digits.foldl (fun n c => 10 * n + (c.toNat - '0'.toNat : Nat)) 0)

/-- `strconv.Atoi`: the number, and whether there is no error. A number out of range is cut to
the nearest that there is. -/
def atoi (s : String) : Int × Bool :=
  let signed := match s.toList with
    | '-' :: digits => (readDigits digits).map fun n => -n
    | '+' :: digits => readDigits digits
    | digits => readDigits digits
  match signed with
  | none => (0, false)
  | some n =>
      if maxInt < n then (maxInt, false)
      else if n < -maxInt - 1 then (-maxInt - 1, false)
      else (n, true)

/-- `url.Values`: the parameters in the order of the query string. -/
abbrev Values := List (String × String)

def Values.get (query : Values) (key : String) : String := (query.lookup key).getD ""

def pagination (query : Values) : Int × Int × Int :=
  let page := (atoi (query.get "page")).1
  let perPage := (atoi (query.get "per_page")).1
  let page := if page < 1 then 1 else page
  let perPage := if perPage < 1 then 20 else perPage
  let perPage := if perPage > 100 then 100 else perPage
  (page, perPage, wrapInt ((page - 1) * perPage))

def paginationMeta (page perPage : Int) (total : Nat) : Json :=
  let totalPages : Int := if total > 0 then (total + perPage - 1) / perPage else 0
  .obj [("page", .num page), ("per_page", .num perPage), ("total", .num total),
    ("total_pages", .num totalPages)]

def positiveInt (value : String) (fallback : Int) : Int :=
  let parsed := atoi value
  if !parsed.2 || parsed.1 < 1 then fallback else parsed.1

def filterPrefix : String := "filter_"

def hasPrefix (s start : String) : Bool := start.toList.isPrefixOf s.toList

def trimPrefix (s start : String) : String := String.ofList (s.toList.drop start.length)

def hasFilter (query : Values) : Bool := query.any fun e => hasPrefix e.1 filterPrefix

/-- `fmt.Sprint(item[field])`; the value of a missing key is nil. -/
def Texts.field (x : Texts) (item : Json) (name : String) : String :=
  x.sprint ((item.field? name).getD .null)

def matchesFilters (x : Texts) (item : Json) (query : Values) : Bool :=
  query.all fun e =>
    !hasPrefix e.1 filterPrefix || query.get e.1 == "" ||
      x.equalFold (x.field item (trimPrefix e.1 filterPrefix)) (query.get e.1)

/-- The comparison that `DataTableQuery` sorts by. -/
def itemLess (x : Texts) (field direction : String) (i j : Json) : Bool :=
  let a := x.field i field
  let b := x.field j field
  let less := x.compare (x.lowerText a) (x.lowerText b) == .lt
  if direction = "desc" then !less && a != b else less

def Json.isObject : Json → Bool
  | .obj _ => true
  | _ => false

/-- The items of a list that the search and the filters of a query leave, sorted. -/
def selectItems (x : Texts) (query : Values) (raw : List Json) : List Json :=
  let q := x.lowerText (trimSpace (query.get "q"))
  let filtered := raw.filter fun item =>
    item.isObject && (q == "" || contains (x.lowerText (x.marshal item)) q) &&
      matchesFilters x item query
  let field := query.get "sort"
  if field = "" then filtered
  else x.sliceStable (itemLess x field (x.lowerText (query.get "order"))) filtered

/-- The query asks for something that `DataTableQuery` does. -/
def wantsTable (query : Values) : Bool :=
  query.get "q" != "" || query.get "sort" != "" || query.get "page" != "" ||
    query.get "per_page" != "" || hasFilter query

/-- The page that `DataTableQuery` makes of a list and the object it stands in; `none` when the slice
panics, as it does on a page so large that its first index overflows. -/
def tablePage (x : Texts) (query : Values) (fields : List (String × Json)) (raw : List Json) :
    Option Json :=
  let items := selectItems x query raw
  let page := positiveInt (query.get "page") 1
  let perPage := positiveInt (query.get "per_page") 25
  let perPage := if perPage > 100 then 100 else perPage
  let total : Int := items.length
  let start := wrapInt ((page - 1) * perPage)
  let start := if start > total then total else start
  let stop := start + perPage
  let stop := if stop > total then total else stop
  if start < 0 then none
  else
    let data := (items.drop start.toNat).take (stop - start).toNat
    let pages := max 1 ((total + perPage - 1) / perPage)
    some (.obj (setField (setField fields "data" (.arr data)) "meta"
      (.obj [("page", .num page), ("per_page", .num perPage), ("total", .num total),
        ("total_pages", .num pages)])))

/-- `DataTableQuery` on the answer of a `GET` handler; `PanicRecovery` answers a panic. -/
def dataTableQuery (x : Texts) (query : Values) (r : JsonResponse) : JsonResponse :=
  if !wantsTable query || 300 ≤ r.status then r
  else
    match r.body with
    | .obj fields =>
        match r.body.field? "data" with
        | some (.arr raw) =>
            match tablePage x query fields raw with
            | none => .error 500 "internal server error"
            | some page => ⟨r.status, page⟩
        | _ => r
    | _ => r

/-- How a column is selected and scanned. A null value cannot be scanned. -/
inductive Scan where
  | text
  /-- `COALESCE(column, fallback)` -/
  | textOr (fallback : String)
  /-- A pointer takes a null value. -/
  | nullable
  | bool
  | int
  | time
  /-- `COALESCE(column::text, fallback)` of a time. -/
  | timeText (fallback : String)
  /-- `COALESCE(column::text, fallback)` of a `jsonb`. -/
  | jsonText (fallback : String)

def Scan.read (x : Texts) : Scan → Value → Option Json
  | .text, .text s => some (.str s)
  | .textOr _, .text s => some (.str s)
  | .textOr fallback, .null => some (.str fallback)
  | .nullable, .text s => some (.str s)
  | .nullable, .null => some .null
  | .bool, .bool b => some (.bool b)
  | .int, .int i => some (.num i)
  | .time, .time t => some (.str (x.formatTime t))
  | .timeText _, .time t => some (.str (x.timeText t))
  | .timeText fallback, .null => some (.str fallback)
  | .jsonText _, .json j => some (.str (x.jsonText j))
  | .jsonText fallback, .null => some (.str fallback)
  | _, _ => none

/-- A key of an item, the column it comes from and how that is scanned. -/
structure Field where
  key : String
  column : String
  scan : Scan

def scanItem (x : Texts) (fields : List Field) (row : Row Value) : Option Json :=
  (fields.mapM fun (f : Field) => (f.scan.read x (row f.column)).map fun v => (f.key, v)).map
    Json.obj

/-- What the environment does to the queries of a handler: one may fail, and the connection may
break after some rows, which ends the loop over them. -/
structure Faults where
  failed : Nat → Bool := fun _ => false
  broken : Nat → Option Nat := fun _ => none

def Faults.fetched (faults : Faults) (n : Nat) (rows : List (Row Value)) : List (Row Value) :=
  match faults.broken n with
  | none => rows
  | some k => rows.take k

def Faults.query {α : Type} (faults : Faults) (n : Nat) (result : Option α) : Option α :=
  if faults.failed n then none else result

def listed (x : Texts) (faults : Faults) (n : Nat) (fields : List Field)
    (rows : Option (List (Row Value))) (rest : List (String × Json)) : JsonResponse :=
  match faults.query n rows with
  | none => .error 500 "query failed"
  | some rows =>
      match (faults.fetched n rows).mapM (scanItem x fields) with
      | none => .error 500 "scan failed"
      | some items => ⟨200, .obj (("data", .arr items) :: rest)⟩

/-- The database as the list handlers see it: the tables of the admin API, those of the pipeline,
and the times of the rows that the pipeline does not look at. -/
structure Snapshot where
  admin : AdminDb
  pipeline : Db
  createdAt : Nat → Int
  updatedAt : Nat → Int
  deliveryUpdatedAt : Nat → Int

def NotificationStatus.text : NotificationStatus → String
  | .queued => "queued"
  | .scheduled => "scheduled"

def DeliveryStatus.text : DeliveryStatus → String
  | .queued => "queued"
  | .sending => "sending"
  | .sent => "sent"
  | .failed => "failed"
  | .blocked => "blocked"
  | .dead => "dead"

def Snapshot.notificationRow (s : Snapshot) (n : Nat × Notification) : Row Value
  | "id" => .int n.1
  | "tenant_id" => .text n.2.tenantID
  | "public_id" => .text n.2.publicID
  | "event_key" => .text n.2.eventKey
  | "status" => .text n.2.status.text
  | "idempotency_key" =>
      match n.2.idempotencyKey with
      | some key => .text key
      | none => .null
  | "created_at" => .time (s.createdAt n.1)
  | "updated_at" => .time (s.updatedAt n.1)
  | _ => .null

def Snapshot.notifications (s : Snapshot) : List (Row Value) :=
  s.pipeline.notifications.rows.map s.notificationRow

/-- A row of `notification_deliveries`, as far as it is listed; the provider is the constant of
both `INSERT` statements. -/
def Snapshot.deliveryRow (s : Snapshot) (d : Nat × DeliveryRow) : Row Value
  | "id" => .int d.1
  | "tenant_id" => .text d.2.tenantID
  | "notification_id" => .int d.2.notificationID
  | "channel" => .text d.2.channel
  | "provider" => .text "mock"
  | "status" => .text d.2.status.text
  | "updated_at" => .time (s.deliveryUpdatedAt d.1)
  | _ => .null

def Snapshot.deliveries (s : Snapshot) : List (Row Value) :=
  s.pipeline.deliveries.rows.map s.deliveryRow

def ofTenant (u : Value) (row : Row Value) : Bool := (row "tenant_id").same u

/-- The condition on the tenant: none, or a value that the column can read. -/
inductive TenantFilter where
  | all
  | only (u : Value)
  | unreadable

def TenantFilter.ofText (s : String) : TenantFilter :=
  match readColumn "tenant_id" (.text s) with
  | some u => .only u
  | none => .unreadable

/-- A principal of a tenant sees its own rows; a platform administrator may ask for those of a
tenant. -/
def TenantFilter.of (p : Principal) (asked : String) : TenantFilter :=
  if !p.isPlatform then .ofText p.tenantID
  else if asked != "" then .ofText asked
  else .all

theorem TenantFilter.ofText_eq {s t : String} (ht : Uuid.read s = some t) :
    TenantFilter.ofText s = .only (.text t) := by
  simp [TenantFilter.ofText, readColumn, uuidColumns, ht]

theorem TenantFilter.of_tenant {p : Principal} {t : String} (hp : p.isPlatform = false)
    (ht : Uuid.read p.tenantID = some t) (asked : String) :
    TenantFilter.of p asked = .only (.text t) := by
  unfold TenantFilter.of
  rw [hp, Bool.not_false, if_pos rfl]
  exact TenantFilter.ofText_eq ht

def TenantFilter.rows : TenantFilter → List (Row Value) → Option (List (Row Value))
  | .all, rows => some rows
  | .only u, rows => some (rows.filter (ofTenant u))
  | .unreadable, _ => none

def withColumn (row : Row Value) (column : String) (v : Value) : Row Value :=
  fun c => if c = column then v else row c

/-- `JOIN other ON other.column = row.on`: the row once for each match, with a column of it. -/
def join (others : List (Row Value)) (otherColumn on : String)
    (combine : Row Value → Row Value → Row Value) (row : Row Value) : List (Row Value) :=
  (others.filter fun o => (o otherColumn).same (row on)).map (combine row)

def leftJoin (others : List (Row Value)) (otherColumn on : String)
    (combine : Row Value → Row Value → Row Value) (row : Row Value) : List (Row Value) :=
  match join others otherColumn on combine row with
  | [] => [combine row fun _ => .null]
  | rows => rows

def withTenantName (row tenant : Row Value) : Row Value :=
  withColumn row "tenant_name" (tenant "name")

def Value.descending : Value → Value → Bool
  | .null, _ => true
  | .time a, .time b => decide (b ≤ a)
  | _, _ => false

def orderDesc (column : String) (rows : List (Row Value)) : List (Row Value) :=
  rows.insertionSort fun a b => (a column).descending (b column) = true

def Value.textValue : Value → String
  | .text s => s
  | _ => ""

def orderByTenantThen (x : Texts) (column : String) (rows : List (Row Value)) :
    List (Row Value) :=
  rows.insertionSort fun a b =>
    let name := (a "tenant_name").textValue
    let name' := (b "tenant_name").textValue
    (if name = name' then x.collate (a column).textValue (b column).textValue
    else x.collate name name') = true

def tenantNameField : Field := ⟨"tenant_name", "tenant_name", .textOr ""⟩

/-- A list of the rows of a table; `subquery` adds the columns that a subquery computes. -/
def listTenantRows (x : Texts) (faults : Faults) (s : Snapshot) (p : Principal) (query : Values)
    (table : AdminTable) (subquery : Row Value → Row Value) (fields : List Field) : JsonResponse :=
  let rows := ((TenantFilter.of p (query.get "tenant_id")).rows (s.admin table)).map
    (List.map subquery)
  if p.isPlatform then
    listed x faults 0 (fields ++ [tenantNameField])
      (rows.map fun rows => orderDesc "created_at"
        (rows.flatMap (leftJoin (s.admin .tenants) "id" "tenant_id" withTenantName))) []
  else listed x faults 0 fields (rows.map (orderDesc "created_at")) []

def contactFields : List Field :=
  [⟨"id", "id", .text⟩, ⟨"tenant_id", "tenant_id", .text⟩,
   ⟨"external_user_id", "external_user_id", .textOr ""⟩, ⟨"name", "name", .textOr ""⟩,
   ⟨"email", "email", .textOr ""⟩, ⟨"phone", "phone", .textOr ""⟩, ⟨"status", "status", .text⟩,
   ⟨"created_at", "created_at", .time⟩]

def listContacts (x : Texts) (faults : Faults) (s : Snapshot) (p : Principal) (query : Values) :
    JsonResponse :=
  listTenantRows x faults s p query .contacts id contactFields

/-- `(SELECT COUNT(*) FROM contact_group_members cgm WHERE cgm.group_id = cg.id)` -/
def memberCount (s : Snapshot) (group : Row Value) : Nat :=
  ((s.admin .contactGroupMembers).filter fun m => (m "group_id").same (group "id")).length

def withMemberCount (s : Snapshot) (group : Row Value) : Row Value :=
  withColumn group "member_count" (.int (memberCount s group))

def groupFields : List Field :=
  [⟨"id", "id", .text⟩, ⟨"tenant_id", "tenant_id", .text⟩, ⟨"name", "name", .text⟩,
   ⟨"description", "description", .textOr ""⟩, ⟨"status", "status", .text⟩,
   ⟨"member_count", "member_count", .int⟩, ⟨"created_at", "created_at", .time⟩]

def listGroups (x : Texts) (faults : Faults) (s : Snapshot) (p : Principal) (query : Values) :
    JsonResponse :=
  listTenantRows x faults s p query .contactGroups (withMemberCount s) groupFields

def templateFields : List Field :=
  [⟨"id", "id", .text⟩, ⟨"tenant_id", "tenant_id", .text⟩,
   ⟨"template_key", "template_key", .text⟩, ⟨"channel", "channel", .textOr ""⟩,
   ⟨"subject", "subject", .textOr ""⟩, ⟨"body", "body", .text⟩, ⟨"status", "status", .text⟩,
   ⟨"created_at", "created_at", .time⟩]

def listTemplates (x : Texts) (faults : Faults) (s : Snapshot) (p : Principal) (query : Values) :
    JsonResponse :=
  listTenantRows x faults s p query .notificationTemplates id templateFields

def campaignFields : List Field :=
  [⟨"id", "id", .text⟩, ⟨"tenant_id", "tenant_id", .text⟩, ⟨"name", "name", .text⟩,
   ⟨"description", "description", .textOr ""⟩, ⟨"status", "status", .text⟩,
   ⟨"scheduled_at", "scheduled_at", .timeText ""⟩, ⟨"created_at", "created_at", .time⟩]

def listCampaigns (x : Texts) (faults : Faults) (s : Snapshot) (p : Principal) (query : Values) :
    JsonResponse :=
  listTenantRows x faults s p query .campaigns id campaignFields

def auditFields : List Field :=
  [⟨"id", "id", .text⟩, ⟨"tenant_id", "tenant_id", .textOr ""⟩, ⟨"action", "action", .text⟩,
   ⟨"actor_type", "actor_type", .text⟩, ⟨"actor_user_id", "actor_user_id", .textOr ""⟩,
   ⟨"resource_type", "resource_type", .text⟩, ⟨"resource_id", "resource_id", .textOr ""⟩,
   ⟨"ip_address", "ip_address", .textOr ""⟩, ⟨"request_id", "request_id", .textOr ""⟩,
   ⟨"session_id", "session_id", .textOr ""⟩, ⟨"created_at", "created_at", .time⟩]

def listAuditLogs (x : Texts) (faults : Faults) (s : Snapshot) (p : Principal) (query : Values) :
    JsonResponse :=
  listTenantRows x faults s p query .auditLogs id auditFields

def apiKeyFields : List Field :=
  [⟨"id", "id", .text⟩, ⟨"tenant_id", "tenant_id", .text⟩, ⟨"name", "name", .text⟩,
   ⟨"scopes", "scopes_json", .jsonText "[]"⟩, ⟨"status", "status", .text⟩,
   ⟨"last_used_at", "last_used_at", .timeText ""⟩, ⟨"created_at", "created_at", .time⟩]

def listAPIKeys (x : Texts) (faults : Faults) (s : Snapshot) (p : Principal) (query : Values) :
    JsonResponse :=
  listTenantRows x faults s p query .tenantAPIKeys id apiKeyFields

def joinTenants (s : Snapshot) (row : Row Value) : List (Row Value) :=
  join (s.admin .tenants) "id" "tenant_id" withTenantName row

/-- A list of settings with the name of their tenant; `catalog` is the join with a platform
table. -/
def listSettings (x : Texts) (faults : Faults) (s : Snapshot) (filter : TenantFilter)
    (table : AdminTable) (catalog : Row Value → List (Row Value)) (column : String)
    (fields : List Field) : JsonResponse :=
  listed x faults 0 fields ((filter.rows (s.admin table)).map fun rows =>
    (orderByTenantThen x column ((rows.flatMap (joinTenants s)).flatMap catalog)).take 200) []

/-- `JOIN feature_catalog fc ON fc.identifier = tf.feature_key` -/
def joinFeatureCatalog (s : Snapshot) : Row Value → List (Row Value) :=
  join (s.admin .featureCatalog) "identifier" "feature_key" fun row entry =>
    withColumn (withColumn (withColumn row "name" (entry "name")) "description"
      (entry "description")) "category" (entry "category")

def featureFields : List Field :=
  [⟨"id", "id", .text⟩, ⟨"identifier", "feature_key", .text⟩, ⟨"feature_key", "feature_key", .text⟩,
   ⟨"name", "name", .text⟩, ⟨"description", "description", .text⟩, ⟨"category", "category", .text⟩,
   ⟨"enabled", "enabled", .bool⟩, tenantNameField, ⟨"created_at", "created_at", .time⟩]

def listFeatures (x : Texts) (faults : Faults) (s : Snapshot) (p : Principal) : JsonResponse :=
  listSettings x faults s (.of p "") .tenantFeatures (joinFeatureCatalog s) "feature_key"
    featureFields

/-- `JOIN platform_channels pc ON pc.channel=tc.channel AND pc.enabled=true` -/
def joinPlatformChannels (s : Snapshot) : Row Value → List (Row Value) :=
  join ((s.admin .platformChannels).filter fun c => (c "enabled").same (.bool true)) "channel"
    "channel" fun row _ => row

def channelFields : List Field :=
  [⟨"id", "id", .text⟩, ⟨"channel", "channel", .text⟩, ⟨"enabled", "enabled", .bool⟩,
   ⟨"direction", "direction", .text⟩, ⟨"rate_limit_per_second", "rate_limit_per_second", .int⟩,
   ⟨"daily_quota", "daily_quota", .int⟩, tenantNameField]

def listChannels (x : Texts) (faults : Faults) (s : Snapshot) (p : Principal) (query : Values) :
    JsonResponse :=
  listSettings x faults s (.of p (query.get "tenant_id")) .tenantChannels (joinPlatformChannels s)
    "channel" channelFields

def providerConfigFields : List Field :=
  [⟨"id", "id", .text⟩, ⟨"channel", "channel", .text⟩, ⟨"provider", "provider", .text⟩,
   ⟨"is_default", "is_default", .bool⟩, ⟨"status", "status", .text⟩, tenantNameField]

def listProviderConfigs (x : Texts) (faults : Faults) (s : Snapshot) (p : Principal) : JsonResponse :=
  listSettings x faults s (.of p "") .tenantProviderConfigs (fun row => [row]) "channel"
    providerConfigFields

/-- The columns of the newest delivery of a notification; null when there is none. -/
def withLatestDelivery (s : Snapshot) (n : Row Value) : Row Value :=
  let latest := (orderDesc "updated_at"
    (s.deliveries.filter fun d => (d "notification_id").same (n "id"))).head?
  let column (c : String) : Value := (latest.map fun d => d c).getD .null
  withColumn (withColumn (withColumn n "d.status" (column "status")) "d.channel"
    (column "channel")) "d.provider" (column "provider")

def Value.coalesce (a b : Value) : Value := if a.isNull then b else a

/-- A condition of the logs, once its argument is read: `none` when it cannot be read. -/
def logCondition (x : Texts) (key value : String) : Option (Row Value → Bool) :=
  match key with
  | "tenant_id" =>
      match TenantFilter.ofText value with
      | .only u => some (ofTenant u)
      | _ => none
  | "search" =>
      let pattern := ("%" ++ x.lowerText value ++ "%").toList
      some fun row => ["public_id", "event_key", "idempotency_key"].any fun c =>
        like pattern (x.lower (row c).textValue).toList
  | "channel" => some fun row => (row "d.channel").same (.text value)
  | "provider" => some fun row => (row "d.provider").same (.text value)
  | "status" => some fun row =>
      ((row "d.status").coalesce (row "status")).same (.text value)
  | "from" => (x.parseTime value).map fun t row =>
      match row "created_at" with
      | .time created => t ≤ created
      | _ => false
  | "to" => (x.parseTime value).map fun t row =>
      match row "created_at" with
      | .time created => created ≤ t
      | _ => false
  | _ => none

/-- The conditions that `ListNotificationLogs` appends, in its order. -/
def logConditions (p : Principal) (query : Values) : List (String × String) :=
  let tenant := if !p.isPlatform then [("tenant_id", p.tenantID)]
    else if query.get "tenant_id" != "" then [("tenant_id", query.get "tenant_id")] else []
  tenant ++ (["search", "channel", "provider", "status", "from", "to"].filterMap fun key =>
    let value := trimSpace (query.get key)
    if value = "" then none else some (key, value))

def logRows (x : Texts) (s : Snapshot) (conds : List (String × String)) :
    Option (List (Row Value)) :=
  (conds.mapM fun c => logCondition x c.1 c.2).map fun conds =>
    (s.notifications.flatMap fun n => joinTenants s (withLatestDelivery s n)).filter fun row =>
      conds.all fun cond => cond row

def logFields : List Field :=
  [⟨"public_id", "public_id", .text⟩, ⟨"tenant_id", "tenant_id", .text⟩,
   ⟨"tenant", "tenant_name", .text⟩, ⟨"event", "event_key", .text⟩, ⟨"status", "status", .text⟩,
   ⟨"delivery_status", "d.status", .textOr "pending"⟩, ⟨"channel", "d.channel", .textOr ""⟩,
   ⟨"provider", "d.provider", .textOr ""⟩, ⟨"idempotency_key", "idempotency_key", .nullable⟩,
   ⟨"created_at", "created_at", .time⟩, ⟨"updated_at", "updated_at", .time⟩]

def listNotificationLogs (x : Texts) (faults : Faults) (s : Snapshot) (p : Principal)
    (query : Values) : JsonResponse :=
  let (page, perPage, offset) := pagination query
  let rows := logRows x s (logConditions p query)
  match faults.query 0 rows with
  | none => .error 500 "count failed"
  | some counted =>
      listed x faults 1 logFields
        (if offset < 0 then none
        else rows.map fun rows =>
          ((orderDesc "created_at" rows).drop offset.toNat).take perPage.toNat)
        [("meta", paginationMeta page perPage counted.length)]

inductive ListRequest where
  | contacts
  | groups
  | templates
  | campaigns
  | auditLogs
  | apiKeys
  | features
  | channels
  | providerConfigs
  | notificationLogs
  deriving DecidableEq, Repr

def ListRequest.handler (x : Texts) (faults : Faults) (s : Snapshot) (p : Principal)
    (query : Values) : ListRequest → JsonResponse
  | .contacts => listContacts x faults s p query
  | .groups => listGroups x faults s p query
  | .templates => listTemplates x faults s p query
  | .campaigns => listCampaigns x faults s p query
  | .auditLogs => listAuditLogs x faults s p query
  | .apiKeys => listAPIKeys x faults s p query
  | .features => listFeatures x faults s p
  | .channels => listChannels x faults s p query
  | .providerConfigs => listProviderConfigs x faults s p
  | .notificationLogs => listNotificationLogs x faults s p query

def ListRequest.serve (l : ListRequest) (x : Texts) (faults : Faults) (s : Snapshot)
    (p : Principal) (query : Values) : JsonResponse :=
  dataTableQuery x query (l.handler x faults s p query)

end NotificationPlatform
