import Mathlib.Data.List.DropRight
import NotificationPlatform.APIKeyLifetime
import NotificationPlatform.Lib.RoutePatterns
import NotificationPlatform.Lib.Threads
import NotificationPlatform.Pagination
import NotificationPlatform.WsUpgrade

/-!
# The gateway

`NewRouter` registers every handler at a pattern, behind the middleware that guards it, and puts
`CORS`, `RequestLog` and `PanicRecovery` around the mux. A request is a program here that makes its
calls among those of all other requests, so what is proved of it holds in every interleaving.
-/

namespace NotificationPlatform

open Lib Lib.Routes

namespace Gateway

/-- The handlers that `NewRouter` registers. -/
inductive HandlerName where
  | health | ready | login | refresh | forgotPassword | resetPassword | requestEmailVerification
  | verifyEmail | me | logout | webSocketToken | sendAdminNotification | listNotificationLogs
  | getNotificationDetail | listTenants | createTenant | getTenant | updateTenant
  | updateTenantStatus | getTenantOverview | getTenantSettings | updateTenantSettings
  | dashboardStats | getMyIntegrationGuide | getTenantIntegrationGuide | listFeatureCatalog
  | updateFeatureCatalog | listChannelCatalog | updatePlatformChannel | listProviderTypes
  | updateProviderType | listAuditLogs | listAPIKeys | createAPIKey | revokeAPIKey | listUsers
  | createUser | updateUser | listRoles | getRole | createRole | updateRole | deleteRole
  | listRolePermissions | setRolePermissions | assignRolePermission | removeRolePermission
  | listUserRoles | assignUserRole | removeUserRole | listPermissions | listFeatures
  | updateFeature | listChannels | updateChannel | listQueueControls | updateQueueControl
  | listProviderConfigs | createProviderConfig | updateProviderConfig | deleteProviderConfig
  | testProviderConfig | listContacts | createContact | updateContact | deleteContact | listGroups
  | createGroup | deleteGroup | listGroupMembers | addGroupMember | removeGroupMember
  | listTemplates | createTemplate | updateTemplate | deleteTemplate | listCampaigns
  | createCampaign | updateCampaign | approveCampaign | sendCampaign | cancelCampaign | wsServe
  | listInAppNotifications | markInAppRead | markAllInAppRead | syncInApp | metrics
  | sendPublicNotification
  deriving DecidableEq

/-- What the middleware has put into the context of a request, and the values of its path. -/
structure RequestContext where
  requestID : String := ""
  principal : Option Claims := none
  tenantID : String := ""
  apiKey : Option APIKeyPrincipal := none
  pathValues : List (String × String) := []

/-- What a handler has written: the answer, and the status it wrote last. Only the first status is
the answer's. -/
structure Written where
  answer : HttpAnswer
  lastStatus : Nat

/-- How a handler ends; one that panics may have begun to answer. -/
inductive Outcome where
  | returned (w : Written)
  | panicked (begun : Option HttpAnswer)

def Outcome.isPanic : Outcome → Bool
  | .returned _ => false
  | .panicked _ => true

/-- The line of `RequestLog`, without the duration and the client. -/
structure LogEntry where
  requestID : String
  method : String
  path : String
  status : Nat
  tenantID : String
  actorID : String
  deriving DecidableEq

inductive Call where
  | newRequestID
  | verifyJWT (token : String)
  | verifyAPIKey (rawKey : String)
  | invoke (h : HandlerName) (ctx : RequestContext) (r : HttpRequest)
  | logPanic (requestID method path : String)
  | incPanic
  | logRequest (entry : LogEntry)
  | recordRequest (method pathGroup : String) (status : Nat)

abbrev Call.Reply : Call → Type
  | .newRequestID => String
  | .verifyJWT _ => Option Claims
  | .verifyAPIKey _ => Option APIKeyPrincipal
  | .invoke _ _ _ => Outcome
  | .logPanic _ _ _ | .incPanic | .logRequest _ | .recordRequest _ _ _ => Unit

abbrev Code := Prog Call Call.Reply

def call (c : Call) : Code c.Reply := Prog.perform c

abbrev Handler := RequestContext → HttpRequest → Code Outcome

def write (a : HttpAnswer) : Outcome := .returned ⟨a, a.status⟩

def Outcome.withHeader (header : Values) : Outcome → Outcome
  | .returned w => .returned { w with answer := w.answer.withHeader header }
  | .panicked begun => .panicked (begun.map (HttpAnswer.withHeader header))

/-- The arguments of `NewRouter`, and what the standard library does with a path that is not clean,
with the texts of a path and with JSON. The handlers are calls. -/
structure RouterConfig where
  corsOrigins : List String
  metricsHandler : Bool
  metricsCollector : Bool
  /-- `url.PathUnescape` -/
  unescape : String → String
  /-- the redirect to the clean path -/
  redirect : HttpRequest → HttpAnswer
  texts : Texts
  /-- `json.Unmarshal` -/
  decode : String → Option Json
  /-- `json.NewEncoder(w).Encode` -/
  encode : Json → String

def RouterConfig.collect (cfg : RouterConfig) (c : Call) : Code Unit :=
  if cfg.metricsCollector then do
    let _ ← call c
    return ()
  else return ()

def cors (origins : List String) (next : Handler) : Handler := fun ctx r => do
  let allowed := fun origin => origin ∈ origins.map trimSpace
  let origin := r.header.get "Origin"
  let header := if allowed origin ∨ allowed "*" then
    [("Access-Control-Allow-Origin", origin),
      ("Access-Control-Allow-Headers", "Authorization, Content-Type"),
      ("Access-Control-Allow-Methods", "GET, POST, PUT, PATCH, DELETE, OPTIONS")] else []
  if r.method = "OPTIONS" then return write { header := header, status := 204 }
  else
    let out ← next ctx r
    return out.withHeader header

def isUUID (s : List Char) : Bool :=
  s.length == 36 && s.all fun c => ('0' ≤ c && c ≤ '9') || ('a' ≤ c && c ≤ 'f') || c == '-'

def isNumeric (s : List Char) : Bool := s.all (fun c => '0' ≤ c && c ≤ '9') && 0 < s.length

def normalizePath (path : String) : String :=
  let trimmed := (path.toList.dropWhile (· == '/')).rdropWhile (· == '/')
  let parts := (trimmed.splitOn '/').map fun p =>
    if isUUID p || isNumeric p then "\x7bid\x7d" else String.ofList p
  "/" ++ "/".intercalate parts

def requestIDOf (r : HttpRequest) : Code String :=
  if r.header.get "X-Request-ID" = "" then call .newRequestID
  else pure (r.header.get "X-Request-ID")

/-- `RequestLog`. The principal and the tenant of the line are looked up in the context that the
middleware made itself, not in the one that `JWT` or `APIKey` made of it. -/
def requestLog (cfg : RouterConfig) (next : Handler) : Handler := fun ctx r => do
  let requestID ← requestIDOf r
  let ctx := { ctx with requestID := requestID }
  let path := cfg.unescape r.path
  match ← next ctx r with
  | .panicked begun => return .panicked begun
  | .returned w =>
    let actorID := (ctx.principal.map fun p => toString p.principal.userID).getD ""
    let tenantID := (ctx.principal.map fun p => p.principal.tenantID).getD ""
    let tenantID := if ctx.tenantID = "" then tenantID else ctx.tenantID
    call (.logRequest ⟨requestID, r.method, path, w.lastStatus, tenantID, actorID⟩)
    cfg.collect (.recordRequest r.method (normalizePath path) w.lastStatus)
    return (Outcome.returned w).withHeader [("X-Request-ID", requestID)]

/-- The client of a handler that panics gets the text of the error after what has been begun. -/
def recover (begun : Option HttpAnswer) : Written :=
  let error := writeError 500 "internal server error"
  match begun with
  | none => ⟨error, error.status⟩
  | some a => ⟨{ a with body := a.body ++ error.body }, error.status⟩

def panicRecovery (cfg : RouterConfig) (next : Handler) : Handler := fun ctx r => do
  match ← next ctx r with
  | .returned w => return .returned w
  | .panicked begun =>
    call (.logPanic ctx.requestID r.method (cfg.unescape r.path))
    cfg.collect .incPanic
    return .returned (recover begun)

def jwt (next : Handler) : Handler := fun ctx r => do
  match ← call (.verifyJWT (bearer (r.header.get "Authorization"))) with
  | none => return write (writeError 401 "unauthorized")
  | some p => next { ctx with principal := some p } r

def apiKey (next : Handler) : Handler := fun ctx r => do
  match ← call (.verifyAPIKey (bearer (r.header.get "Authorization"))) with
  | none => return write (writeError 401 "unauthorized")
  | some principal =>
    next { ctx with tenantID := principal.tenantID, apiKey := some principal } r

def requirePermission (permission : String) (next : Handler) : Handler := fun ctx r =>
  if ctx.principal.any fun p => hasPermission p.principal permission then next ctx r
  else pure (write (writeError 403 "forbidden"))

def requireScope (scope : String) (next : Handler) : Handler := fun ctx r =>
  if ctx.apiKey.any fun key => key.scopes.contains "*" || key.scopes.contains scope then next ctx r
  else pure (write (writeError 403 "forbidden"))

def RouterConfig.listIn (cfg : RouterConfig) (body : String) :
    Option (List (String × Json) × List Json) :=
  match cfg.decode body with
  | some (.obj fields) =>
      match (Json.obj fields).field? "data" with
      | some (.arr raw) => some (fields, raw)
      | _ => none
  | _ => none

/-- What `DataTableQuery` makes of an answer that it has buffered, with the status that was written
last. The slice can panic, before anything is written. -/
def RouterConfig.paged (cfg : RouterConfig) (query : Values) (w : Written) : Outcome :=
  let buffer := { w.answer with status := w.lastStatus }
  if 300 ≤ buffer.status then write buffer
  else
    match cfg.listIn buffer.body with
    | none => write buffer
    | some (fields, raw) =>
        match tablePage cfg.texts query fields raw with
        | none => .panicked none
        | some payload => write { buffer with
            header := ("Content-Type", "application/json") ::
              buffer.header.filter fun h => h.1 ≠ "Content-Type"
            body := cfg.encode payload }

def tableQuery (cfg : RouterConfig) (next : Handler) : Handler := fun ctx r => do
  if r.method ≠ "GET" ∨ wantsTable r.query = false then next ctx r
  else
    match ← next ctx r with
    | .panicked _ => return .panicked none
    | .returned w => return cfg.paged r.query w

/-- The middleware that stands before a handler: nothing, `JWT`, `Chain` or `APIKeyScope`. -/
inductive Guard where
  | bare
  | jwt
  | chain (permission : String)
  | apiKeyScope (scope : String)
  deriving DecidableEq

def Guard.wrap (cfg : RouterConfig) : Guard → Handler → Handler
  | .bare, next => next
  | .jwt, next => Gateway.jwt next
  | .chain permission, next =>
      Gateway.jwt (requirePermission permission (tableQuery cfg next))
  | .apiKeyScope scope, next => apiKey (requireScope scope next)

abbrev Route := Pattern × Guard × HandlerName

def handleFunc (pattern : String) (h : HandlerName) : Route := (Pattern.parse pattern, .bare, h)

def handle (pattern : String) (guard : Guard) (h : HandlerName) : Route :=
  (Pattern.parse pattern, guard, h)

def routes (metricsHandler : Bool) : List Route := [
    handleFunc "GET /healthz" .health,
    handleFunc "GET /readyz" .ready,
    handleFunc "POST /admin/api/v1/auth/login" .login,
    handleFunc "POST /admin/api/v1/auth/refresh" .refresh,
    handleFunc "POST /admin/api/v1/auth/password/forgot" .forgotPassword,
    handleFunc "POST /admin/api/v1/auth/password/reset" .resetPassword,
    handle "POST /admin/api/v1/auth/email/verify/request" .jwt .requestEmailVerification,
    handleFunc "POST /admin/api/v1/auth/email/verify" .verifyEmail,
    handle "GET /admin/api/v1/auth/me" .jwt .me,
    handle "POST /admin/api/v1/auth/logout" (.chain "notifications.view") .logout,
    handle "POST /admin/api/v1/ws/token" (.chain "notifications.view") .webSocketToken,
    handle "POST /admin/api/v1/notifications/send" (.chain "notifications.send")
      .sendAdminNotification,
    handle "GET /admin/api/v1/notifications" (.chain "notifications.view") .listNotificationLogs,
    handle "GET /admin/api/v1/notifications/\x7bpublic_id\x7d" (.chain "notifications.view")
      .getNotificationDetail,
    handle "GET /admin/api/v1/tenants" (.chain "tenants.view") .listTenants,
    handle "POST /admin/api/v1/tenants" (.chain "tenants.create") .createTenant,
    handle "GET /admin/api/v1/tenants/\x7bid\x7d" (.chain "tenants.view") .getTenant,
    handle "PATCH /admin/api/v1/tenants/\x7bid\x7d" (.chain "tenants.update") .updateTenant,
    handle "PATCH /admin/api/v1/tenants/\x7bid\x7d/status" (.chain "tenants.update")
      .updateTenantStatus,
    handle "GET /admin/api/v1/tenants/\x7bid\x7d/overview" (.chain "tenants.view")
      .getTenantOverview,
    handle "GET /admin/api/v1/tenants/\x7bid\x7d/settings" (.chain "settings.view")
      .getTenantSettings,
    handle "PUT /admin/api/v1/tenants/\x7bid\x7d/settings" (.chain "settings.update")
      .updateTenantSettings,
    handle "GET /admin/api/v1/dashboard/stats" (.chain "notifications.view") .dashboardStats,
    handle "GET /admin/api/v1/integration" (.chain "integration.view") .getMyIntegrationGuide,
    handle "GET /admin/api/v1/tenants/\x7bid\x7d/integration" (.chain "integration.view")
      .getTenantIntegrationGuide,
    handle "GET /admin/api/v1/feature-catalog" (.chain "features.view") .listFeatureCatalog,
    handle "PUT /admin/api/v1/feature-catalog/\x7bidentifier\x7d" (.chain "features.update")
      .updateFeatureCatalog,
    handle "GET /admin/api/v1/channel-catalog" (.chain "channels.view") .listChannelCatalog,
    handle "PUT /admin/api/v1/channel-catalog/\x7bchannel\x7d" (.chain "channels.update")
      .updatePlatformChannel,
    handle "GET /admin/api/v1/provider-types" (.chain "providers.view") .listProviderTypes,
    handle "PUT /admin/api/v1/provider-types/\x7bprovider\x7d" (.chain "providers.update")
      .updateProviderType,
    handle "GET /admin/api/v1/audit-logs" (.chain "audit_logs.view") .listAuditLogs,
    handle "GET /admin/api/v1/api-keys" (.chain "api_keys.view") .listAPIKeys,
    handle "POST /admin/api/v1/api-keys" (.chain "api_keys.create") .createAPIKey,
    handle "DELETE /admin/api/v1/api-keys/\x7bid\x7d" (.chain "api_keys.revoke") .revokeAPIKey,
    handle "GET /admin/api/v1/users" (.chain "users.view") .listUsers,
    handle "POST /admin/api/v1/users" (.chain "users.create") .createUser,
    handle "PUT /admin/api/v1/users/\x7bid\x7d" (.chain "users.update") .updateUser,
    handle "GET /admin/api/v1/roles" (.chain "roles.manage") .listRoles,
    handle "GET /admin/api/v1/roles/\x7bid\x7d" (.chain "roles.manage") .getRole,
    handle "POST /admin/api/v1/roles" (.chain "roles.manage") .createRole,
    handle "PUT /admin/api/v1/roles/\x7bid\x7d" (.chain "roles.manage") .updateRole,
    handle "DELETE /admin/api/v1/roles/\x7bid\x7d" (.chain "roles.manage") .deleteRole,
    handle "GET /admin/api/v1/roles/\x7bid\x7d/permissions" (.chain "roles.manage")
      .listRolePermissions,
    handle "PUT /admin/api/v1/roles/\x7bid\x7d/permissions" (.chain "roles.manage")
      .setRolePermissions,
    handle "POST /admin/api/v1/roles/\x7bid\x7d/permissions" (.chain "roles.manage")
      .assignRolePermission,
    handle "DELETE /admin/api/v1/roles/\x7brole_id\x7d/permissions/\x7bperm_id\x7d"
      (.chain "roles.manage") .removeRolePermission,
    handle "GET /admin/api/v1/users/\x7buser_id\x7d/roles" (.chain "roles.manage") .listUserRoles,
    handle "POST /admin/api/v1/users/\x7buser_id\x7d/roles" (.chain "roles.manage") .assignUserRole,
    handle "DELETE /admin/api/v1/users/\x7buser_id\x7d/roles/\x7brole_id\x7d"
      (.chain "roles.manage") .removeUserRole,
    handle "GET /admin/api/v1/permissions" (.chain "permissions.manage") .listPermissions,
    handle "GET /admin/api/v1/features" (.chain "features.view") .listFeatures,
    handle "PUT /admin/api/v1/features/\x7bid\x7d" (.chain "features.update") .updateFeature,
    handle "GET /admin/api/v1/channels" (.chain "channels.view") .listChannels,
    handle "PUT /admin/api/v1/channels/\x7bid\x7d" (.chain "channels.update") .updateChannel,
    handle "GET /admin/api/v1/queue-controls" (.chain "queue_controls.view") .listQueueControls,
    handle "PATCH /admin/api/v1/queue-controls/\x7bid\x7d" (.chain "queue_controls.update")
      .updateQueueControl,
    handle "GET /admin/api/v1/providers" (.chain "providers.view") .listProviderConfigs,
    handle "POST /admin/api/v1/providers" (.chain "providers.create") .createProviderConfig,
    handle "PUT /admin/api/v1/providers/\x7bid\x7d" (.chain "providers.update")
      .updateProviderConfig,
    handle "DELETE /admin/api/v1/providers/\x7bid\x7d" (.chain "providers.delete")
      .deleteProviderConfig,
    handle "POST /admin/api/v1/providers/\x7bid\x7d/test" (.chain "providers.test")
      .testProviderConfig,
    handle "GET /admin/api/v1/contacts" (.chain "contacts.view") .listContacts,
    handle "POST /admin/api/v1/contacts" (.chain "contacts.create") .createContact,
    handle "PUT /admin/api/v1/contacts/\x7bid\x7d" (.chain "contacts.update") .updateContact,
    handle "DELETE /admin/api/v1/contacts/\x7bid\x7d" (.chain "contacts.delete") .deleteContact,
    handle "GET /admin/api/v1/groups" (.chain "groups.view") .listGroups,
    handle "POST /admin/api/v1/groups" (.chain "groups.create") .createGroup,
    handle "DELETE /admin/api/v1/groups/\x7bid\x7d" (.chain "groups.delete") .deleteGroup,
    handle "GET /admin/api/v1/groups/\x7bid\x7d/members" (.chain "groups.view") .listGroupMembers,
    handle "POST /admin/api/v1/groups/\x7bid\x7d/members" (.chain "groups.members.manage")
      .addGroupMember,
    handle "DELETE /admin/api/v1/groups/\x7bid\x7d/members/\x7bcontact_id\x7d"
      (.chain "groups.members.manage") .removeGroupMember,
    handle "GET /admin/api/v1/templates" (.chain "templates.view") .listTemplates,
    handle "POST /admin/api/v1/templates" (.chain "templates.create") .createTemplate,
    handle "PUT /admin/api/v1/templates/\x7bid\x7d" (.chain "templates.update") .updateTemplate,
    handle "DELETE /admin/api/v1/templates/\x7bid\x7d" (.chain "templates.delete") .deleteTemplate,
    handle "GET /admin/api/v1/campaigns" (.chain "campaigns.view") .listCampaigns,
    handle "POST /admin/api/v1/campaigns" (.chain "campaigns.create") .createCampaign,
    handle "PUT /admin/api/v1/campaigns/\x7bid\x7d" (.chain "campaigns.update") .updateCampaign,
    handle "POST /admin/api/v1/campaigns/\x7bid\x7d/approve" (.chain "campaigns.approve")
      .approveCampaign,
    handle "POST /admin/api/v1/campaigns/\x7bid\x7d/send" (.chain "campaigns.send") .sendCampaign,
    handle "POST /admin/api/v1/campaigns/\x7bid\x7d/cancel" (.chain "campaigns.cancel")
      .cancelCampaign,
    handleFunc "GET /ws" .wsServe,
    handle "GET /admin/api/v1/in-app/notifications" (.chain "notifications.view")
      .listInAppNotifications,
    handle "POST /admin/api/v1/in-app/notifications/\x7bid\x7d/read" (.chain "notifications.view")
      .markInAppRead,
    handle "POST /admin/api/v1/in-app/notifications/mark-all-read" (.chain "notifications.view")
      .markAllInAppRead,
    handle "POST /admin/api/v1/in-app/sync" (.chain "notifications.view") .syncInApp] ++
  (if metricsHandler then [handleFunc "GET /metrics" .metrics] else []) ++
  [handle "POST /api/v1/notifications" (.apiKeyScope "notifications:create")
    .sendPublicNotification]

/-- `ServeMux.ServeHTTP`, with the patterns of `NewRouter`. -/
def mux (cfg : RouterConfig) : Handler := fun ctx r =>
  if r.path = "*" then pure (write { header := [("Connection", "close")], status := 400 })
  else if r.method ≠ "CONNECT" ∧ cleanPath r.path ≠ r.path then pure (write (cfg.redirect r))
  else
    match dispatch (routes cfg.metricsHandler) r.method (pathSegments cfg.unescape r.path) with
    | .found (guard, h) values =>
        guard.wrap cfg (fun ctx r => call (.invoke h ctx r))
          { ctx with pathValues := values } r
    | .notAllowed methods =>
        pure (write ((httpError 405 "Method Not Allowed").withHeader
          [("Allow", ", ".intercalate methods)]))
    | .notFound => pure (write (httpError 404 "404 page not found"))

def newRouter (cfg : RouterConfig) : Handler :=
  cors cfg.corsOrigins (requestLog cfg (panicRecovery cfg (mux cfg)))

def serve (cfg : RouterConfig) (r : HttpRequest) : Code Outcome := newRouter cfg {} r

theorem separate_routes (metricsHandler : Bool) : separate (routes metricsHandler) = true := by
  obtain ⟨texts, hspelled, hseparate⟩ : ∃ texts, Spelled (routes true) texts ∧
      separate (texts.map fun cs => (Pattern.ofChars cs, ())) = true := by
    constructor
    constructor
    · unfold routes handleFunc handle
      apply Spelled.append
      · apply Spelled.append
        · repeat apply Spelled.cons
          exact .nil
        · exact .cons .nil
      · exact .cons .nil
    · decide +kernel
  apply separate_sublist _ (separate_of_spelled hspelled hseparate)
  cases metricsHandler with
  | true => exact List.Sublist.refl _
  | false =>
      exact ((List.Sublist.refl _).append (List.nil_sublist _)).append (List.Sublist.refl _)

/-- **One route a request.** However the registrations of `NewRouter` are ordered, the mux does the
same with a request, and no more than one of them matches it. -/
theorem dispatch_routes {metricsHandler : Bool} {table : List Route}
    (hperm : table.Perm (routes metricsHandler)) (method : String) (segments : List String) :
    dispatch table method segments = dispatch (routes metricsHandler) method segments ∧
      (matching table method segments).length ≤ 1 := by
  have hseparate := separate_routes metricsHandler
  refine ⟨(dispatch_perm hperm.symm hseparate method segments).symm, ?_⟩
  have hmatching : (matching table method segments).length =
      (matching (routes metricsHandler) method segments).length :=
    (hperm.filterMap _).length_eq
  exact hmatching ▸ matching_length_le_one hseparate method segments

theorem dispatch_routes_reverse :
    dispatch (routes true).reverse "GET" ["healthz"] = dispatch (routes true) "GET" ["healthz"] ∧
      (matching (routes true).reverse "GET" ["healthz"]).length ≤ 1 :=
  dispatch_routes (List.reverse_perm _) _ _

def invocations (made : List (Made Call Call.Reply)) : List Outcome :=
  made.filterMap fun m => match m with
    | ⟨.invoke _ _ _, out⟩ => some out
    | _ => none

/-- The lines that `RequestLog` has written for a request. -/
def logged (made : List (Made Call Call.Reply)) : List LogEntry :=
  made.filterMap fun m => match m with
    | ⟨.logRequest entry, _⟩ => some entry
    | _ => none

def panics (made : List (Made Call Call.Reply)) : Nat :=
  made.countP fun m => match m with
    | ⟨.logPanic _ _ _, _⟩ => true
    | _ => false

section

variable (made later : List (Made Call Call.Reply))

@[simp] theorem invocations_append :
    invocations (made ++ later) = invocations made ++ invocations later :=
  List.filterMap_append

@[simp] theorem logged_append : logged (made ++ later) = logged made ++ logged later :=
  List.filterMap_append

@[simp] theorem panics_append : panics (made ++ later) = panics made + panics later :=
  List.countP_append

end

/-- What a guard demands: calls that have been answered for the request, and what they have put
into its context. -/
def Guard.Granted (made : List (Made Call Call.Reply)) (ctx : RequestContext) (r : HttpRequest) :
    Guard → Prop
  | .bare => ctx.principal = none ∧ ctx.apiKey = none
  | .jwt => ∃ p, ⟨.verifyJWT (bearer (r.header.get "Authorization")), some p⟩ ∈ made ∧
      ctx.principal = some p
  | .chain permission => ∃ p, ⟨.verifyJWT (bearer (r.header.get "Authorization")), some p⟩ ∈ made ∧
      ctx.principal = some p ∧ hasPermission p.principal permission = true
  | .apiKeyScope scope => ∃ key,
      ⟨.verifyAPIKey (bearer (r.header.get "Authorization")), some key⟩ ∈ made ∧
        ctx.apiKey = some key ∧ ctx.tenantID = key.tenantID ∧
        ("*" ∈ key.scopes ∨ scope ∈ key.scopes)

/-- A handler is invoked once, for the request as it came in, and at a route of the request whose
guard has been granted. -/
structure Mediated (cfg : RouterConfig) (r : HttpRequest) (made : List (Made Call Call.Reply))
    (h : HandlerName) (ctx : RequestContext) (r' : HttpRequest) : Prop where
  request : r' = r
  first : invocations made = []
  route : ∃ p guard, (p, guard, h) ∈ routes cfg.metricsHandler ∧ p.accepts r.method = true ∧
    matchSegments p.segments (pathSegments cfg.unescape r.path) = some ctx.pathValues ∧
    guard.Granted made ctx r

def mediates (cfg : RouterConfig) (r : HttpRequest) (made : List (Made Call Call.Reply))
    (c : Call) : Prop :=
  ∀ h ctx r', c = .invoke h ctx r' → Mediated cfg r made h ctx r'

/-- The last status is the answer's: of a handler that writes it once, or panics before. -/
def Outcome.Plain : Outcome → Prop
  | .returned w => w.lastStatus = w.answer.status
  | .panicked begun => begun = none

/-- A handler came to a list, of which the page that is asked for has a negative first index. -/
def RouterConfig.overflows (cfg : RouterConfig) (r : HttpRequest) (w : Written) : Bool :=
  r.method == "GET" && wantsTable r.query && decide (w.lastStatus < 300) &&
    (cfg.listIn w.answer.body).isSome && decide (wrapInt (rowsBefore (tableAsk r.query)) < 0)

/-- Behind the guard, what a handler came to ends in a panic: its own, or that of
`DataTableQuery`. -/
def Guard.panics (cfg : RouterConfig) (r : HttpRequest) (guard : Guard) : Outcome → Bool
  | .panicked _ => true
  | .returned w =>
      match guard with
      | .chain _ => cfg.overflows r w
      | _ => false

def RouterConfig.panics (cfg : RouterConfig) (r : HttpRequest) (out : Outcome) : Bool :=
  match dispatch (routes cfg.metricsHandler) r.method (pathSegments cfg.unescape r.path) with
  | .found (guard, _) _ => guard.panics cfg r out
  | _ => false

/-- What the handlers that were invoked, none or one, have to do with the answer. -/
structure Settled (cfg : RouterConfig) (r : HttpRequest) (made : List (Made Call Call.Reply))
    (w : Written) : Prop where
  invoked : (invocations made).length ≤ 1
  panics : panics made = (invocations made).countP (cfg.panics r)
  recovered : (invocations made).any (cfg.panics r) = true → w.lastStatus = 500
  status : (∀ out ∈ invocations made, out.Plain) → w.lastStatus = w.answer.status

/-- What has been called when a request has been answered. -/
structure Accounted (cfg : RouterConfig) (r : HttpRequest) (made : List (Made Call Call.Reply))
    (w : Written) : Prop extends Settled cfg r made w where
  preflight : r.method = "OPTIONS" → made = [] ∧ w.answer.status = 204
  logged : r.method ≠ "OPTIONS" → ∃ requestID,
    ("X-Request-ID", requestID) ∈ w.answer.header ∧
      (r.header.get "X-Request-ID" ≠ "" → requestID = r.header.get "X-Request-ID") ∧
      logged made = [⟨requestID, r.method, cfg.unescape r.path, w.lastStatus, "", ""⟩]

section

variable {cfg : RouterConfig} {r : HttpRequest} {made : List (Made Call Call.Reply)}
  {ctx : RequestContext} {next : Handler}

theorem Settled.withHeader {w : Written} (h : Settled cfg r made w) (header : Values) :
    Settled cfg r made { w with answer := w.answer.withHeader header } :=
  ⟨h.invoked, h.panics, h.recovered, h.status⟩

/-- What has become of the outcome of a handler: a panic or an answer, with the last status if the
handler wrote only one. -/
structure Passed (breaks : Outcome → Bool) (o out : Outcome) : Prop where
  panicked : out.isPanic = breaks o
  plain : o.Plain → out.Plain

/-- Nothing has been written about the request, and no handler invoked. -/
structure Unserved (made : List (Made Call Call.Reply)) : Prop where
  invocations : invocations made = []
  logged : logged made = []
  panics : panics made = 0

structure Invoked (made : List (Made Call Call.Reply)) (out : Outcome) : Prop where
  logged : logged made = []
  panics : panics made = 0
  invocations : invocations made = [out]

/-- The request has been through layers that panic on these outcomes of a handler. -/
structure Routed (breaks : Outcome → Bool) (made : List (Made Call Call.Reply)) (out : Outcome) :
    Prop where
  logged : logged made = []
  panics : panics made = 0
  invoked : invocations made = [] ∧ (∃ a, out = write a) ∨
    ∃ o, invocations made = [o] ∧ Passed breaks o out

theorem Invoked.routed {breaks : Outcome → Bool} {out : Outcome} (h : Invoked made out)
    (hbreaks : out.isPanic = breaks out) : Routed breaks made out :=
  ⟨h.logged, h.panics, .inr ⟨out, h.invocations, hbreaks, id⟩⟩

theorem Unserved.write (h : Unserved made) {breaks : Outcome → Bool} (a : HttpAnswer) :
    Routed breaks made (write a) :=
  ⟨h.logged, h.panics, .inl ⟨h.invocations, a, rfl⟩⟩

theorem Unserved.check (h : Unserved made) {m : Made Call Call.Reply}
    (hm : (∃ token p, m = ⟨.verifyJWT token, p⟩) ∨ ∃ rawKey key, m = ⟨.verifyAPIKey rawKey, key⟩) :
    Unserved (made ++ [m]) := by
  rcases hm with ⟨token, p, rfl⟩ | ⟨rawKey, key, rfl⟩
  all_goals
    exact ⟨by rw [invocations_append, h.invocations]; rfl, by rw [logged_append, h.logged]; rfl,
      by rw [panics_append, h.panics]; rfl⟩

private theorem call_keeps {h : HandlerName} (hstart : Unserved made)
    (hmediated : Mediated cfg r made h ctx r) :
    (call (.invoke h ctx r)).Keeps (mediates cfg r) Invoked made := by
  refine Prog.keeps_call ?_ fun out => ?_
  · intro h' ctx' r' hc
    cases hc
    exact hmediated
  · exact ⟨by rw [logged_append, hstart.logged]; rfl, by rw [panics_append, hstart.panics]; rfl,
      by rw [invocations_append, hstart.invocations]; rfl⟩

theorem write_plain (a : HttpAnswer) : (write a).Plain := rfl

theorem paged_plain (query : Values) (w : Written) : (cfg.paged query w).Plain := by
  unfold RouterConfig.paged
  dsimp only
  split
  · exact write_plain _
  · split
    · exact write_plain _
    · split
      · rfl
      · exact write_plain _

theorem paged_panics (hmethod : r.method = "GET") (hwants : wantsTable r.query = true)
    (w : Written) : (cfg.paged r.query w).isPanic = cfg.overflows r w := by
  unfold RouterConfig.paged RouterConfig.overflows
  dsimp only
  by_cases hstatus : 300 ≤ w.lastStatus
  · rw [if_pos hstatus]
    simp [write, Outcome.isPanic, hstatus]
  · rw [if_neg hstatus]
    cases hlist : cfg.listIn w.answer.body with
    | none => simp [write, Outcome.isPanic]
    | some list =>
        dsimp only
        cases hpage : tablePage cfg.texts r.query list.1 list.2 with
        | none =>
            have hnegative := tablePage_eq_none.mp hpage
            simp [Outcome.isPanic, hmethod, hwants, hnegative, Nat.not_le.mp hstatus]
        | some payload =>
            have hfits : ¬wrapInt (rowsBefore (tableAsk r.query)) < 0 := fun hlt =>
              Option.some_ne_none _ (hpage.symm.trans (tablePage_eq_none.mpr hlt))
            simp [write, Outcome.isPanic, hfits]

private theorem tableQuery_keeps (permission : String)
    (hnext : (next ctx r).Keeps (mediates cfg r) Invoked made) :
    (tableQuery cfg next ctx r).Keeps (mediates cfg r)
      (Routed ((Guard.chain permission).panics cfg r)) made := by
  unfold tableQuery
  split
  · next hplain =>
      have hno : ∀ w, cfg.overflows r w = false := by
        intro w
        unfold RouterConfig.overflows
        rcases hplain with hmethod | hwants
        · simp [hmethod]
        · simp [hwants]
      refine hnext.mono fun made' out hout => hout.routed ?_
      cases out with
      | panicked begun => rfl
      | returned w => exact (hno w).symm
  · next hwanted =>
      obtain ⟨hmethod, hwants⟩ : r.method = "GET" ∧ wantsTable r.query = true := by
        simpa using hwanted
      refine hnext.bind fun made' out hout => ?_
      cases out with
      | panicked begun =>
          exact ⟨hout.logged, hout.panics, .inr ⟨_, hout.invocations, rfl, fun _ => rfl⟩⟩
      | returned w =>
          exact ⟨hout.logged, hout.panics, .inr ⟨_, hout.invocations,
            paged_panics hmethod hwants w, fun _ => paged_plain r.query w⟩⟩

private theorem requirePermission_keeps {permission : String} {p : Claims}
    {breaks : Outcome → Bool} (hstart : Unserved made) (hprincipal : ctx.principal = some p)
    (hnext : hasPermission p.principal permission = true →
      (next ctx r).Keeps (mediates cfg r) (Routed breaks) made) :
    (requirePermission permission next ctx r).Keeps (mediates cfg r) (Routed breaks) made := by
  unfold requirePermission
  split
  · next hpermitted => exact hnext (by simpa [hprincipal] using hpermitted)
  · exact hstart.write _

private theorem requireScope_keeps {scope : String} {k : APIKeyPrincipal} {breaks : Outcome → Bool}
    (hstart : Unserved made) (hapiKey : ctx.apiKey = some k)
    (hnext : "*" ∈ k.scopes ∨ scope ∈ k.scopes →
      (next ctx r).Keeps (mediates cfg r) (Routed breaks) made) :
    (requireScope scope next ctx r).Keeps (mediates cfg r) (Routed breaks) made := by
  unfold requireScope
  split
  · next hscope => exact hnext (by simpa [hapiKey] using hscope)
  · exact hstart.write _

private theorem wrap_keeps (guard : Guard) (hstart : Unserved made)
    (hprincipal : ctx.principal = none) (hapiKey : ctx.apiKey = none)
    (hnext : ∀ made' ctx', Unserved made' → guard.Granted made' ctx' r →
      ctx'.pathValues = ctx.pathValues → (next ctx' r).Keeps (mediates cfg r) Invoked made') :
    (guard.wrap cfg next ctx r).Keeps (mediates cfg r) (Routed (guard.panics cfg r)) made := by
  cases guard with
  | bare =>
      refine (hnext made ctx hstart ⟨hprincipal, hapiKey⟩ rfl).mono fun _ out h => h.routed ?_
      cases out <;> rfl
  | jwt =>
      unfold Guard.wrap Gateway.jwt
      refine Prog.keeps_call (fun _ _ _ h => nomatch h) fun reply => ?_
      have hstart' := hstart.check (.inl ⟨_, reply, rfl⟩)
      cases reply with
      | none => exact hstart'.write _
      | some p =>
          refine (hnext _ { ctx with principal := some p } hstart' ⟨p, by simp, rfl⟩ rfl).mono
            fun _ out h => h.routed ?_
          cases out <;> rfl
  | chain permission =>
      unfold Guard.wrap Gateway.jwt
      refine Prog.keeps_call (fun _ _ _ h => nomatch h) fun reply => ?_
      have hstart' := hstart.check (.inl ⟨_, reply, rfl⟩)
      cases reply with
      | none => exact hstart'.write _
      | some p =>
          refine requirePermission_keeps hstart' (p := p) rfl fun hpermitted => ?_
          exact tableQuery_keeps permission (hnext _ _ hstart' ⟨p, by simp, rfl, hpermitted⟩ rfl)
  | apiKeyScope scope =>
      unfold Guard.wrap Gateway.apiKey
      refine Prog.keeps_call (fun _ _ _ h => nomatch h) fun reply => ?_
      have hstart' := hstart.check (.inr ⟨_, reply, rfl⟩)
      cases reply with
      | none => exact hstart'.write _
      | some key =>
          refine requireScope_keeps hstart' (k := key) rfl fun hscope => ?_
          let ctx' := { ctx with tenantID := key.tenantID, apiKey := some key }
          refine (hnext _ ctx' hstart' ⟨key, by simp, rfl, rfl, hscope⟩ rfl).mono
            fun _ out h => h.routed ?_
          cases out <;> rfl

private theorem mux_keeps (hstart : Unserved made) (hprincipal : ctx.principal = none)
    (hapiKey : ctx.apiKey = none) :
    (mux cfg ctx r).Keeps (mediates cfg r) (Routed (cfg.panics r)) made := by
  unfold mux
  split
  · exact hstart.write _
  · split
    · exact hstart.write _
    · split
      · next guard h values hfound =>
          obtain ⟨p, hmem, haccepts, hmatch⟩ := dispatch_found hfound
          have hpanics : cfg.panics r = guard.panics cfg r := by
            funext out
            rw [RouterConfig.panics, hfound]
          rw [hpanics]
          refine wrap_keeps guard hstart hprincipal hapiKey ?_
          intro made' ctx' hstart' hgranted hvalues
          exact call_keeps hstart' ⟨rfl, hstart'.invocations, p, guard, hmem, haccepts,
            by rw [hmatch, hvalues], hgranted⟩
      · exact hstart.write _
      · exact hstart.write _

private theorem collect_keeps {c : Call} (hc : mediates cfg r made c) :
    (cfg.collect c).Keeps (mediates cfg r)
      (fun made' _ => made' = made ∨ ∃ reply, made' = made ++ [⟨c, reply⟩]) made := by
  unfold RouterConfig.collect
  split
  · exact Prog.keeps_call hc fun reply => .inr ⟨reply, rfl⟩
  · exact .inl rfl

private theorem panicRecovery_keeps
    (hnext : (next ctx r).Keeps (mediates cfg r) (Routed (cfg.panics r)) made) :
    (panicRecovery cfg next ctx r).Keeps (mediates cfg r)
      (fun made out => logged made = [] ∧ ∃ w, out = .returned w ∧ Settled cfg r made w) made := by
  unfold panicRecovery
  refine hnext.bind fun made' out hout => ?_
  obtain ⟨hlogged, hpanics, hinvoked⟩ := hout
  cases out with
  | returned w =>
      refine ⟨hlogged, w, rfl, ?_⟩
      rcases hinvoked with ⟨hnone, a, ha⟩ | ⟨o, ho, hpassed⟩
      · obtain rfl : w = ⟨a, a.status⟩ := Outcome.returned.inj ha
        exact ⟨by simp [hnone], by simp [hnone, hpanics], by simp [hnone], by simp⟩
      · have hsound : cfg.panics r o = false := hpassed.panicked.symm
        exact ⟨by simp [ho], by simp [ho, hpanics, hsound], by simp [ho, hsound],
          fun hplain => hpassed.plain (hplain o (by simp [ho]))⟩
  | panicked begun =>
      -- the panic is reported, and the answer is the error or what had been begun
      obtain ⟨o, ho, hpassed⟩ := hinvoked.resolve_left (by rintro ⟨-, a, ha⟩; cases ha)
      have hbroken : cfg.panics r o = true := hpassed.panicked.symm
      refine Prog.keeps_call (fun _ _ _ h => nomatch h) fun _ => ?_
      refine (collect_keeps (c := .incPanic) fun _ _ _ h => nomatch h).bind
        fun made'' _ hmade'' => ?_
      have hsame : invocations made'' = [o] ∧ logged made'' = [] ∧ panics made'' = 1 := by
        rcases hmade'' with rfl | ⟨reply, rfl⟩ <;>
          simp only [invocations_append, logged_append, panics_append, ho, hlogged, hpanics] <;>
            exact ⟨rfl, rfl, rfl⟩
      obtain ⟨ho'', hlogged'', hpanics''⟩ := hsame
      refine ⟨hlogged'', recover begun, rfl, by simp [ho''], by simp [ho'', hpanics'', hbroken],
        ?_, ?_⟩
      · intro _
        cases begun <;> rfl
      · intro hplain
        obtain rfl : begun = none := hpassed.plain (hplain o (by simp [ho'']))
        rfl

private theorem Settled.append {w : Written} (h : Settled cfg r made w)
    {later : List (Made Call Call.Reply)} (hinvocations : invocations later = [])
    (hpanics : Gateway.panics later = 0) : Settled cfg r (made ++ later) w := by
  have hsame : invocations (made ++ later) = invocations made := by simp [hinvocations]
  exact ⟨hsame ▸ h.invoked, by rw [panics_append, hpanics, hsame]; exact h.panics,
    hsame ▸ h.recovered, hsame ▸ h.status⟩

private theorem requestLog_keeps (hprincipal : ctx.principal = none) (htenant : ctx.tenantID = "")
    (hmethod : r.method ≠ "OPTIONS")
    (hnext : ∀ made' requestID, Unserved made' →
      (next { ctx with requestID := requestID } r).Keeps (mediates cfg r)
        (fun made out => logged made = [] ∧ ∃ w, out = .returned w ∧ Settled cfg r made w) made') :
    (requestLog cfg next ctx r).Keeps (mediates cfg r)
      (fun made out => ∃ w, out = .returned w ∧ Accounted cfg r made w) [] := by
  have hrequestID : (requestIDOf r).Keeps (mediates cfg r)
      (fun made requestID => Unserved made ∧ (r.header.get "X-Request-ID" ≠ "" →
        requestID = r.header.get "X-Request-ID")) [] := by
    unfold requestIDOf
    split
    · next hgiven =>
        refine Prog.keeps_call (fun _ _ _ h => nomatch h) fun requestID => ?_
        exact ⟨⟨rfl, rfl, rfl⟩, fun hnot => absurd hgiven hnot⟩
    · exact ⟨⟨rfl, rfl, rfl⟩, fun _ => rfl⟩
  refine hrequestID.bind fun made₁ requestID ⟨hunserved, hgiven⟩ => ?_
  refine (hnext made₁ requestID hunserved).bind fun made₂ out ⟨hlogged, w, hout, hsettled⟩ => ?_
  subst hout
  refine Prog.keeps_call (fun _ _ _ h => nomatch h) fun reply => ?_
  refine (collect_keeps (c := .recordRequest r.method _ w.lastStatus)
    fun _ _ _ h => nomatch h).bind fun made₃ _ hmade₃ => ?_
  refine ⟨_, rfl, ?_⟩
  have hentry : (⟨requestID, r.method, cfg.unescape r.path, w.lastStatus,
      if ctx.tenantID = "" then (ctx.principal.map fun p => p.principal.tenantID).getD ""
      else ctx.tenantID, (ctx.principal.map fun p => toString p.principal.userID).getD ""⟩
        : LogEntry) = ⟨requestID, r.method, cfg.unescape r.path, w.lastStatus, "", ""⟩ := by
    simp [hprincipal, htenant]
  rw [hentry] at hmade₃
  refine ⟨Settled.withHeader ?_ _, fun h => absurd h hmethod, fun _ => ⟨requestID, ?_, hgiven, ?_⟩⟩
  · rcases hmade₃ with rfl | ⟨reply', rfl⟩
    · exact hsettled.append rfl rfl
    · exact (hsettled.append rfl rfl).append rfl rfl
  · exact List.mem_append_left _ (List.mem_singleton.mpr rfl)
  · rcases hmade₃ with rfl | ⟨reply', rfl⟩
    · rw [logged_append, hlogged]
      rfl
    · rw [logged_append, logged_append, hlogged]
      rfl

/-- **What is called for a request.** Every handler is invoked behind its guard, and every request
is answered and accounted for. -/
private theorem serve_keeps (cfg : RouterConfig) (r : HttpRequest) :
    (serve cfg r).Keeps (mediates cfg r)
      (fun made out => ∃ w, out = .returned w ∧ Accounted cfg r made w) [] := by
  unfold serve newRouter cors
  by_cases hmethod : r.method = "OPTIONS"
  · simp only [hmethod, if_true]
    refine ⟨_, rfl, ⟨?_, rfl, ?_, fun _ => rfl⟩, fun _ => ⟨rfl, rfl⟩, fun h => absurd hmethod h⟩
    · exact Nat.zero_le _
    · simp [invocations]
  · simp only [if_neg hmethod]
    refine (requestLog_keeps rfl rfl hmethod fun made' requestID hstart =>
      panicRecovery_keeps (mux_keeps hstart rfl rfl)).bind ?_
    rintro made' out ⟨w, rfl, haccounted⟩
    refine ⟨_, rfl, haccounted.toSettled.withHeader _, fun h => absurd h hmethod, fun hnot => ?_⟩
    obtain ⟨requestID, hheader, hgiven, hlogged⟩ := haccounted.logged hnot
    exact ⟨requestID, List.mem_append_right _ hheader, hgiven, hlogged⟩

end

variable {cfg : RouterConfig} {σ ω : Type} {exec : ω → (c : Call) → σ → c.Reply × σ}
  {ok : Threads Call Call.Reply Outcome σ → ThreadEvent Call Call.Reply Outcome σ ω → Prop}
  {w w' : Threads Call Call.Reply Outcome σ} {es : List (ThreadEvent Call Call.Reply Outcome σ ω)}

/-- **No handler without its guard.** Whatever has come in before and whatever happens meanwhile:
a handler that is invoked for a request is the one of the route that matches the request, it has
not been invoked before for it, and its guard has been granted by answers that the request has had
since it came in. -/
theorem invocations_mediated {r : HttpRequest}
    (hrun : Run (Threads.step exec) ok (w.start (serve cfg r)) es w') {h : HandlerName}
    {ctx : RequestContext} {r' : HttpRequest} {k : Outcome → Code Outcome}
    (hcall : w'.threads[w.threads.length]? = some (.call (.invoke h ctx r') k)) :
    Mediated cfg r (Threads.calls exec w.threads.length (w.start (serve cfg r)) es) h ctx r' := by
  obtain ⟨_, ⟨hmediates, -⟩, -⟩ := Threads.keeps_started (serve_keeps cfg r) hrun hcall
  exact hmediates h ctx r' rfl

def sampleRouterConfig : RouterConfig where
  corsOrigins := ["*"]
  metricsHandler := true
  metricsCollector := false
  unescape := id
  redirect := fun _ => { status := 301 }
  texts := sampleTexts
  decode := fun _ => some (.obj [("data", .arr [])])
  encode := fun _ => ""

def sampleLogout : HttpRequest where
  method := "POST"
  path := "/admin/api/v1/auth/logout"
  query := []
  header := [("Authorization", "Bearer token"), ("X-Request-ID", "req_1")]

def sampleClaims : Claims := ⟨⟨7, "t1", false, ["notifications.view"]⟩, "ann@example.org", "sess_1"⟩

def sampleExec (out : Outcome) (c : Call) (s : Unit) : c.Reply × Unit :=
  match c with
  | .newRequestID => ("req_2", s)
  | .verifyJWT token => (if token = "token" then some sampleClaims else none, s)
  | .verifyAPIKey _ => (none, s)
  | .invoke _ _ _ => (out, s)
  | .logPanic _ _ _ | .incPanic | .logRequest _ | .recordRequest _ _ _ => ((), s)

def sampleEvents (calls : Nat) : List (ThreadEvent Call Call.Reply Outcome Unit Outcome) :=
  List.replicate calls (.call 0 (.panicked none))

def atHandler (h : HandlerName) (w : Threads Call Call.Reply Outcome Unit) : Bool :=
  match w.threads with
  | [.call (.invoke h' ctx _) _] => h' == h && ctx.principal == some sampleClaims
  | _ => false

def sampleStart : Threads Call Call.Reply Outcome Unit :=
  Threads.start ⟨(), []⟩ (serve sampleRouterConfig sampleLogout)

theorem invocations_mediated_logout : ∃ made ctx,
    Mediated sampleRouterConfig sampleLogout made .logout ctx sampleLogout ∧
      ctx.principal = some sampleClaims := by
  have hexecuted : (execute (Threads.step sampleExec) (fun _ _ => true) sampleStart
      (sampleEvents 1)).any (atHandler .logout) = true := by decide +kernel
  have hguard (_ : Threads Call Call.Reply Outcome Unit)
      (_ : ThreadEvent Call Call.Reply Outcome Unit Outcome) (_ : true = true) : True := trivial
  obtain ⟨w', hrun, hat⟩ := Run.exists_of_execute hguard hexecuted
  unfold atHandler at hat
  split at hat
  · next h ctx r k hthreads =>
      obtain ⟨rfl, hprincipal⟩ : h = .logout ∧ ctx.principal = some sampleClaims := by
        simpa using hat
      have hmediated := invocations_mediated hrun (congrArg (·[0]?) hthreads)
      obtain rfl := hmediated.request
      exact ⟨_, ctx, hmediated, hprincipal⟩
  · simp at hat

end Gateway

end NotificationPlatform
