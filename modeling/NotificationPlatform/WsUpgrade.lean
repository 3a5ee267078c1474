import NotificationPlatform.AdminLists
import NotificationPlatform.CredentialFaults

/-!
# The way of an upgrade request

`NewRouter` puts every request through `CORS`, `RequestLog` and `PanicRecovery` before the mux, and
`GET /ws` then checks the connection token, upgrades the connection and registers the client. The
writer that `RequestLog` passes on has the methods of the interface it embeds and no other, so the
connection behind it cannot be taken over.
-/

namespace NotificationPlatform

open Lib

inductive WriterMethod where
  | header
  | write
  | writeHeader
  | flush
  | hijack
  | unwrap
  deriving DecidableEq

/-- An `http.ResponseWriter`: the one of the server, which can be hijacked unless the connection
is one of HTTP/2, or a `statusWriter` around another one. -/
inductive ResponseWriter where
  | server (http2 : Bool)
  | statusWriter (inner : ResponseWriter) (status : Nat)

namespace ResponseWriter

/-- The method set. A `statusWriter` has its own `WriteHeader` and those that embedding the
interface promotes, whatever the writer inside has. -/
def methods : ResponseWriter → List WriterMethod
  | .server false => [.header, .write, .writeHeader, .flush, .hijack]
  | .server true => [.header, .write, .writeHeader, .flush]
  | .statusWriter _ _ => [.header, .write, .writeHeader]

/-- The writer implements `http.Hijacker`, directly or through `Unwrap`. -/
def canHijack : ResponseWriter → Bool
  | .server http2 => .hijack ∈ (server http2).methods
  | .statusWriter inner status =>
      .hijack ∈ (statusWriter inner status).methods ||
        (.unwrap ∈ (statusWriter inner status).methods && inner.canHijack)

theorem canHijack_statusWriter (w : ResponseWriter) (status : Nat) :
    (statusWriter w status).canHijack = false := by
  simp [canHijack, methods]

end ResponseWriter

/-- An `http.Request`, with the parameters of its query and its headers under their canonical
names. -/
structure HttpRequest where
  method : String
  path : String
  query : Values
  header : Values

def hasToken (value token : String) : Bool :=
  (value.toList.splitOn ',').any fun part =>
    (trimSpace (String.ofList part)).toList.map Char.toLower == token.toList

def challengeKey (key : String) : Bool :=
  key.toList.length == 24 && key.toList.drop 22 == ['=', '='] &&
    (key.toList.take 22).all fun c => c.isAlphanum || c == '+' || c == '/'

/-- A request to open a websocket at `GET /ws`. -/
structure UpgradeRequest extends HttpRequest where
  get : method = "GET"
  ws : path = "/ws"
  connection : hasToken (header.get "Connection") "upgrade" = true
  upgrade : hasToken (header.get "Upgrade") "websocket" = true
  version : header.get "Sec-Websocket-Version" = "13"
  key : challengeKey (header.get "Sec-Websocket-Key") = true

/-- What is left of a request that was served: the response and the client that was sent to the
`register` channel of the hub, if there is one. -/
structure HttpAnswer where
  header : Values := []
  status : Nat
  body : String := ""
  registered : Option WsClient := none

abbrev HttpHandler := ResponseWriter → HttpRequest → AuthCode (Except String HttpAnswer)

def HttpAnswer.withHeader (header : Values) (a : HttpAnswer) : HttpAnswer :=
  { a with header := header ++ a.header }

def httpError (status : Nat) (message : String) : HttpAnswer where
  header := [("Content-Type", "text/plain; charset=utf-8"), ("X-Content-Type-Options", "nosniff")]
  status := status
  body := message ++ "\n"

def writeError (status : Nat) (message : String) : HttpAnswer where
  header := [("Content-Type", "application/json")]
  status := status
  body := "\x7b\"error\":\"" ++ message ++ "\"\x7d"

def cors (origins : List String) (next : HttpHandler) : HttpHandler := fun w r =>
  let allowed := fun origin => origin ∈ origins.map trimSpace
  let origin := r.header.get "Origin"
  let header := if allowed origin ∨ allowed "*" then
    [("Access-Control-Allow-Origin", origin),
      ("Access-Control-Allow-Headers", "Authorization, Content-Type"),
      ("Access-Control-Allow-Methods", "GET, POST, PUT, PATCH, DELETE, OPTIONS")] else []
  if r.method = "OPTIONS" then return .ok { header := header, status := 204 }
  else do
    let answer ← next w r
    return answer.map (HttpAnswer.withHeader header)

/-- `RequestLog`, without the log line and the metrics; `newRequestID` is a parameter. -/
def requestLog (newRequestID : String) (next : HttpHandler) : HttpHandler := fun w r => do
  let given := r.header.get "X-Request-ID"
  let requestID := if given = "" then newRequestID else given
  let answer ← next (.statusWriter w 200) r
  return answer.map (HttpAnswer.withHeader [("X-Request-ID", requestID)])

def panicRecovery (next : HttpHandler) : HttpHandler := fun w r => do
  match ← next w r with
  | .ok answer => return .ok answer
  | .error _ => return .ok (writeError 500 "internal server error")

/-- `Upgrader.Upgrade`: the connection, or the status and the text of the error it writes. -/
abbrev Upgrade := ResponseWriter → HttpRequest → Except (Nat × String) Unit

/-- The token of a connection, in the query or in the header. -/
def HttpRequest.connectionToken (r : HttpRequest) : String :=
  let token := r.query.get "token"
  let authHeader := r.header.get "Authorization"
  if token = "" ∧ hasPrefix authHeader "Bearer " then trimPrefix authHeader "Bearer " else token

def serveWS (cfg : AuthConfig) (upgrade : Upgrade) : HttpHandler := fun w r =>
  if r.connectionToken = "" then return .ok (httpError 401 "token required")
  else do
    match ← Auth.validateToken cfg r.connectionToken with
    | none => return .ok (httpError 401 "invalid token")
    | some (_, client) =>
      match upgrade w r with
      | .error (status, message) => return .ok (httpError status message)
      | .ok _ => return .ok { status := 101, registered := some client }

/-- The routes: `GET /ws`, which a `HEAD` request matches too, and the others. -/
def mux (cfg : AuthConfig) (upgrade : Upgrade) (other : HttpHandler) : HttpHandler := fun w r =>
  if (r.method = "GET" ∨ r.method = "HEAD") ∧ r.path = "/ws" then serveWS cfg upgrade w r
  else other w r

def newRouter (cfg : AuthConfig) (origins : List String) (newRequestID : String)
    (upgrade : Upgrade) (other : HttpHandler) : HttpHandler :=
  cors origins (requestLog newRequestID (panicRecovery (mux cfg upgrade other)))

def serveAlone (cfg : AuthConfig) (plan : AuthStmt → AuthOutcome) (next : HttpHandler)
    (w : ResponseWriter) (r : HttpRequest) (db : CredDb) : Except String HttpAnswer × CredDb :=
  (next w r).eval (answers cfg plan) db

def registeredBy : Except String HttpAnswer → Option WsClient
  | .ok answer => answer.registered
  | .error _ => none

section

variable (cfg : AuthConfig) (plan : AuthStmt → AuthOutcome) (next : HttpHandler)
  (w : ResponseWriter) (r : HttpRequest) (db : CredDb)

theorem registeredBy_withHeader (header : Values) (answer : Except String HttpAnswer) :
    registeredBy (answer.map (HttpAnswer.withHeader header)) = registeredBy answer := by
  cases answer <;> rfl

theorem serveAlone_cors (origins : List String) (hmethod : r.method ≠ "OPTIONS") :
    ∃ header, serveAlone cfg plan (cors origins next) w r db =
      ((serveAlone cfg plan next w r db).1.map (HttpAnswer.withHeader header),
        (serveAlone cfg plan next w r db).2) := by
  simp only [serveAlone, cors, if_neg hmethod]
  exact ⟨_, by rw [Prog.eval_bind]; rfl⟩

theorem serveAlone_requestLog (newRequestID : String) :
    ∃ header, serveAlone cfg plan (requestLog newRequestID next) w r db =
      ((serveAlone cfg plan next (.statusWriter w 200) r db).1.map (HttpAnswer.withHeader header),
        (serveAlone cfg plan next (.statusWriter w 200) r db).2) := by
  simp only [serveAlone, requestLog]
  exact ⟨_, by rw [Prog.eval_bind]; rfl⟩

theorem serveAlone_panicRecovery :
    registeredBy (serveAlone cfg plan (panicRecovery next) w r db).1 =
        registeredBy (serveAlone cfg plan next w r db).1 ∧
      (serveAlone cfg plan (panicRecovery next) w r db).2 =
        (serveAlone cfg plan next w r db).2 := by
  simp only [serveAlone, panicRecovery]
  rw [Prog.eval_bind]
  cases (Prog.eval (answers cfg plan) (next w r) db).1 <;> exact ⟨rfl, rfl⟩

theorem serveAlone_mux (upgrade : Upgrade) (other : HttpHandler) (r : UpgradeRequest) :
    serveAlone cfg plan (mux cfg upgrade other) w r.toHttpRequest db =
      serveAlone cfg plan (serveWS cfg upgrade) w r.toHttpRequest db := by
  rw [serveAlone, mux, if_pos ⟨.inl r.get, r.ws⟩, serveAlone]

theorem serveAlone_newRouter (origins : List String) (newRequestID : String) (upgrade : Upgrade)
    (other : HttpHandler) (r : UpgradeRequest) :
    registeredBy (serveAlone cfg plan
        (newRouter cfg origins newRequestID upgrade other) w r.toHttpRequest db).1 =
      registeredBy (serveAlone cfg plan (serveWS cfg upgrade) (.statusWriter w 200)
        r.toHttpRequest db).1 ∧
    (serveAlone cfg plan (newRouter cfg origins newRequestID upgrade other) w
        r.toHttpRequest db).2 =
      (serveAlone cfg plan (serveWS cfg upgrade) (.statusWriter w 200) r.toHttpRequest db).2 := by
  have hmethod : r.method ≠ "OPTIONS" := by
    rw [r.get]
    decide
  have hmux := serveAlone_mux cfg plan (.statusWriter w 200) db upgrade other r
  obtain ⟨corsHeader, hcors⟩ := serveAlone_cors cfg plan
    (requestLog newRequestID (panicRecovery (mux cfg upgrade other))) w _ db origins hmethod
  obtain ⟨logHeader, hlog⟩ := serveAlone_requestLog cfg plan
    (panicRecovery (mux cfg upgrade other)) w r.toHttpRequest db newRequestID
  obtain ⟨hregistered, hdb⟩ := serveAlone_panicRecovery cfg plan (mux cfg upgrade other)
    (.statusWriter w 200) r.toHttpRequest db
  rw [newRouter, hcors, hlog]
  simp only [registeredBy_withHeader]
  rw [hregistered, hdb, hmux]
  exact ⟨rfl, rfl⟩

end

/-- A row of a connection token with this hash, active and not expired. -/
structure LiveConnectionToken (db : CredDb) (hash : String) where
  id : Nat
  row : OneTimeToken WsClient
  stored : (db.tokens .webSocket).get? id = some row
  tokenHash : row.tokenHash = hash
  active : row.active = true
  unexpired : db.now < row.expiresAt

def CredDb.ConnectionTokenUsed (db : CredDb) (id : Nat) : Prop :=
  ∃ row, (db.tokens .webSocket).get? id = some row ∧ row.active = false

def Registers (answer : Except String HttpAnswer) (owner : WsClient) : Prop :=
  ∃ client, registeredBy answer = some client ∧ client.tenantID = owner.tenantID ∧
    client.externalUserID = owner.externalUserID

/-- The token in row `id` is spent exactly on a connection of its owner, and there is one. -/
def SpentOnConnection (result : Except String HttpAnswer × CredDb) (id : Nat)
    (owner : WsClient) : Prop :=
  (result.2.ConnectionTokenUsed id ↔ Registers result.1 owner) ∧ Registers result.1 owner

section

variable {cfg : AuthConfig} {plan : AuthStmt → AuthOutcome} {upgrade : Upgrade}
  {w : ResponseWriter} {r : HttpRequest} {db : CredDb} {hash : String}

theorem spentOnConnection_iff {result : Except String HttpAnswer × CredDb} {id : Nat}
    {owner : WsClient} : SpentOnConnection result id owner ↔
      result.2.ConnectionTokenUsed id ∧ Registers result.1 owner := by
  unfold SpentOnConnection
  tauto

theorem LiveConnectionToken.not_used (t : LiveConnectionToken db hash) :
    ¬db.ConnectionTokenUsed t.id := by
  intro hused
  obtain ⟨row, hrow, hinactive⟩ := hused
  have hsame : t.row = row := Option.some.inj (t.stored.symm.trans hrow)
  have hactive := t.active
  simp [hsame, hinactive] at hactive

theorem LiveConnectionToken.used_of_spent (t : LiveConnectionToken db hash) :
    (db.spendToken .webSocket hash).ConnectionTokenUsed t.id := by
  refine ⟨{ t.row with active := false, spentAt := some db.now }, ?_, rfl⟩
  rw [CredDb.get?_spendToken, t.stored]
  simp [t.tokenHash]

theorem LiveConnectionToken.selected (t : LiveConnectionToken db hash) :
    ∃ owner, db.selectToken .webSocket hash = some owner := by
  rw [← Option.isSome_iff_exists, CredDb.selectToken, Option.isSome_map, List.find?_isSome]
  have hmem := Table.get?_eq_some.mp t.stored
  exact ⟨_, hmem, by simp [t.tokenHash, t.active, t.unexpired]⟩

theorem validateToken_found {token : String} {owner : WsClient}
    (hselect : (plan (.selectToken .webSocket (cfg.hashSecret token))).fail = false)
    (hfound : db.selectToken .webSocket (cfg.hashSecret token) = some owner) :
    (Auth.validateToken cfg token).eval (answers cfg plan) db =
      (some (.wsToken, owner), (db.exec cfg (plan (.spendToken .webSocket (cfg.hashSecret token)))
        (.spendToken .webSocket (cfg.hashSecret token))).2) := by
  have hlook : answers cfg plan (.selectToken .webSocket (cfg.hashSecret token)) db =
      (.ok owner, db) := by
    rw [answers, exec_succeeds hselect]
    simp only [CredDb.answer, hfound, CredDb.row]
  unfold Auth.validateToken ask
  rw [Prog.perform_bind, Prog.eval_call, hlook]
  rfl

theorem validateToken_unread {token : String}
    (hselect : (plan (.selectToken .webSocket (cfg.hashSecret token))).fail = true) :
    ((Auth.validateToken cfg token).eval (answers cfg plan) db).2 = db := by
  have hlook : answers cfg plan (.selectToken .webSocket (cfg.hashSecret token)) db =
      (.error (plan (.selectToken .webSocket (cfg.hashSecret token))).detail, db) := by
    rw [answers, exec_fails hselect rfl]
  have hnow : answers cfg plan .now db = (.ok db.now, db) := by
    simp [answers, CredDb.exec, AuthStmt.canFail, CredDb.answer]
  unfold Auth.validateToken ask
  rw [Prog.perform_bind, Prog.eval_call, hlook]
  simp only
  rw [Prog.perform_bind, Prog.eval_call, hnow]
  simp only
  cases Auth.verifyJWT cfg token db.now <;> rfl

theorem serveWS_db (htoken : r.connectionToken ≠ "") :
    (serveAlone cfg plan (serveWS cfg upgrade) w r db).2 =
      ((Auth.validateToken cfg r.connectionToken).eval (answers cfg plan) db).2 := by
  unfold serveAlone serveWS
  rw [if_neg htoken, Prog.eval_bind]
  cases (Prog.eval (answers cfg plan) (Auth.validateToken cfg r.connectionToken) db).1 with
  | none => rfl
  | some found =>
      cases upgrade w r <;> rfl

theorem serveWS_used_iff (t : LiveConnectionToken db (cfg.hashSecret r.connectionToken)) :
    (serveAlone cfg plan (serveWS cfg upgrade) w r db).2.ConnectionTokenUsed t.id ↔
      r.connectionToken ≠ "" ∧
      (plan (.selectToken .webSocket (cfg.hashSecret r.connectionToken))).fail = false ∧
      (plan (.spendToken .webSocket (cfg.hashSecret r.connectionToken))).fail = false := by
  by_cases htoken : r.connectionToken = ""
  · have hsame : (serveAlone cfg plan (serveWS cfg upgrade) w r db).2 = db := by
      rw [serveAlone, serveWS, if_pos htoken]
      rfl
    rw [hsame]
    exact iff_of_false t.not_used (by simp [htoken])
  · rw [serveWS_db htoken]
    cases hselect : (plan (.selectToken .webSocket (cfg.hashSecret r.connectionToken))).fail with
    | true =>
        rw [validateToken_unread hselect]
        exact iff_of_false t.not_used (by simp)
    | false =>
        obtain ⟨owner, hfound⟩ := t.selected
        rw [validateToken_found hselect hfound]
        cases hspend : (plan (.spendToken .webSocket (cfg.hashSecret r.connectionToken))).fail with
        | true =>
            rw [exec_fails hspend rfl]
            exact iff_of_false t.not_used (by simp)
        | false =>
            rw [exec_succeeds hspend]
            exact iff_of_true t.used_of_spent ⟨htoken, rfl, rfl⟩

theorem serveWS_refused {refusal : Nat × String} (hupgrade : upgrade w r = .error refusal) :
    registeredBy (serveAlone cfg plan (serveWS cfg upgrade) w r db).1 = none := by
  unfold serveAlone serveWS
  by_cases htoken : r.connectionToken = ""
  · rw [if_pos htoken]
    rfl
  · rw [if_neg htoken, Prog.eval_bind]
    cases (Prog.eval (answers cfg plan) (Auth.validateToken cfg r.connectionToken) db).1 with
    | none => rfl
    | some found =>
        simp only [hupgrade]
        rfl

/-- With an upgrade, the token is spent on a connection whenever it is spent. -/
theorem serveWS_spent_iff (t : LiveConnectionToken db (cfg.hashSecret r.connectionToken))
    (hupgrade : upgrade w r = .ok ())
    (hfound : db.selectToken .webSocket (cfg.hashSecret r.connectionToken) = some t.row.owner) :
    SpentOnConnection (serveAlone cfg plan (serveWS cfg upgrade) w r db) t.id t.row.owner ↔
      (serveAlone cfg plan (serveWS cfg upgrade) w r db).2.ConnectionTokenUsed t.id := by
  rw [spentOnConnection_iff, and_iff_left_iff_imp]
  intro hused
  obtain ⟨htoken, hselect, -⟩ := (serveWS_used_iff t).mp hused
  refine ⟨t.row.owner, ?_, rfl, rfl⟩
  rw [serveAlone, serveWS, if_neg htoken, Prog.eval_bind, validateToken_found hselect hfound]
  simp only [hupgrade]
  rfl

end

theorem newRouter_used_iff (cfg : AuthConfig) (origins : List String) (newRequestID : String)
    (upgrade : Upgrade) (other : HttpHandler) (plan : AuthStmt → AuthOutcome) (w : ResponseWriter)
    (r : UpgradeRequest) (db : CredDb)
    (t : LiveConnectionToken db (cfg.hashSecret r.connectionToken)) :
    (serveAlone cfg plan (newRouter cfg origins newRequestID upgrade other) w
        r.toHttpRequest db).2.ConnectionTokenUsed t.id ↔
      r.connectionToken ≠ "" ∧
      (plan (.selectToken .webSocket (cfg.hashSecret r.connectionToken))).fail = false ∧
      (plan (.spendToken .webSocket (cfg.hashSecret r.connectionToken))).fail = false := by
  rw [(serveAlone_newRouter cfg plan w db origins newRequestID upgrade other r).2]
  exact serveWS_used_iff t

/-- No well-formed request to open a websocket spends its connection token on a connection, since
the router registers no client. -/
theorem token_never_spent_on_connection (cfg : AuthConfig) (origins : List String)
    (newRequestID : String) (upgrade : Upgrade) (other : HttpHandler)
    (hupgrade : ∀ w r, upgrade w r = .ok () → w.canHijack = true)
    (plan : AuthStmt → AuthOutcome) (w : ResponseWriter) (r : UpgradeRequest) (db : CredDb)
    (t : LiveConnectionToken db (cfg.hashSecret r.connectionToken)) :
    ¬SpentOnConnection (serveAlone cfg plan
      (newRouter cfg origins newRequestID upgrade other) w r.toHttpRequest db) t.id t.row.owner := by
  intro hspent
  obtain ⟨client, hclient, -⟩ := hspent.2
  cases hresult : upgrade (.statusWriter w 200) r.toHttpRequest with
  | ok _ =>
      have hhijack := hupgrade _ _ hresult
      simp [ResponseWriter.canHijack_statusWriter] at hhijack
  | error refusal =>
      rw [(serveAlone_newRouter cfg plan w db origins newRequestID upgrade other r).1,
        serveWS_refused hresult] at hclient
      simp at hclient

def sampleUpgradeRequest : UpgradeRequest where
  method := "GET"
  path := "/ws"
  query := [("token", "wst_0")]
  header := [("Connection", "Upgrade"), ("Upgrade", "websocket"), ("Sec-Websocket-Version", "13"),
    ("Sec-Websocket-Key", "dGhlIHNhbXBsZSBub25jZQ==")]
  get := rfl
  ws := rfl
  connection := by decide +kernel
  upgrade := by decide +kernel
  version := by decide +kernel
  key := by decide +kernel

def sampleUpgrade : Upgrade := fun w _ =>
  if w.canHijack then .ok () else .error (500, "Internal Server Error")

theorem sampleUpgrade_canHijack (w : ResponseWriter) (r : HttpRequest)
    (h : sampleUpgrade w r = .ok ()) : w.canHijack = true := by
  by_contra hw
  simp [sampleUpgrade, hw] at h

def sampleConnectionToken :
    LiveConnectionToken sampleTokenDb
      (sampleAuthConfig.hashSecret sampleUpgradeRequest.connectionToken) where
  id := 0
  row := ⟨⟨"t1", "7", "", "x"⟩, "sha256:wst_0", true, 5000, none⟩
  stored := rfl
  tokenHash := by decide +kernel
  active := rfl
  unexpired := by decide +kernel

def notFound : HttpHandler := fun _ _ => return .ok (httpError 404 "404 page not found")

/-- On a connection that can be hijacked and with no failure, the token is used and no client is
registered. -/
theorem token_used_without_connection :
    (serveAlone sampleAuthConfig (fun _ => {})
        (newRouter sampleAuthConfig ["*"] "req_0" sampleUpgrade notFound) (.server false)
        sampleUpgradeRequest.toHttpRequest sampleTokenDb).2.ConnectionTokenUsed 0 ∧
      ¬SpentOnConnection (serveAlone sampleAuthConfig (fun _ => {})
        (newRouter sampleAuthConfig ["*"] "req_0" sampleUpgrade notFound) (.server false)
        sampleUpgradeRequest.toHttpRequest sampleTokenDb) 0 ⟨"t1", "7", "", "x"⟩ := by
  refine ⟨?_, token_never_spent_on_connection sampleAuthConfig ["*"] "req_0" sampleUpgrade notFound
    sampleUpgrade_canHijack (fun _ => {}) (.server false) sampleUpgradeRequest sampleTokenDb
    sampleConnectionToken⟩
  apply (newRouter_used_iff _ _ _ _ _ _ _ _ _ sampleConnectionToken).mpr
  decide +kernel

/-- The same request, followed to its end. -/
theorem upgrade_request_loses_token :
    ¬∀ (cfg : AuthConfig) (origins : List String) (newRequestID : String) (upgrade : Upgrade)
      (other : HttpHandler) (_ : ∀ w r, upgrade w r = .ok () → w.canHijack = true)
      (plan : AuthStmt → AuthOutcome) (w : ResponseWriter) (r : UpgradeRequest) (db : CredDb)
      (t : LiveConnectionToken db (cfg.hashSecret r.connectionToken)),
      SpentOnConnection (serveAlone cfg plan
        (newRouter cfg origins newRequestID upgrade other) w r.toHttpRequest db) t.id t.row.owner := by
  intro hall
  have hspent := hall sampleAuthConfig ["*"] "req_0" sampleUpgrade notFound sampleUpgrade_canHijack
    (fun _ => {}) (.server false) sampleUpgradeRequest sampleTokenDb sampleConnectionToken
  obtain ⟨client, hclient, -⟩ := hspent.2
  have hnone : (registeredBy (serveAlone sampleAuthConfig (fun _ => {})
      (newRouter sampleAuthConfig ["*"] "req_0" sampleUpgrade notFound) (.server false)
      sampleUpgradeRequest.toHttpRequest sampleTokenDb).1).isSome = false := by decide +kernel
  simp [hclient] at hnone

end NotificationPlatform
