import NotificationPlatform.Pagination

/-!
# The detail of a notification

`GetNotificationDetail` answers with one notification, its deliveries and their attempts. The
recipient that a request names is stored three times: in the target, in the request itself and in
every delivery. Each copy goes through a redactor of its own, and the one for the request hides
secrets only.
-/

namespace NotificationPlatform

open Lib
open Lib.Sql (Row)

/-- The text that JSON encodes for bytes: a byte that starts no character is written as the
replacement character. -/
def textOfBytes : Nat → List UInt8 → List Char
  | 0, _ => []
  | _, [] => []
  | fuel + 1, byte :: rest =>
      match (ByteArray.mk (byte :: rest).toArray).utf8DecodeChar? 0 with
      | some c => c :: textOfBytes fuel ((byte :: rest).drop c.utf8Size)
      | none => '\ufffd' :: textOfBytes fuel rest

def bytesOf (s : String) : List UInt8 := s.toUTF8.toList

def encodeBytes (bytes : List UInt8) : String := String.ofList (textOfBytes bytes.length bytes)

def redactEmail (email : String) : String :=
  match email.toList.splitOn '@' with
  | [user, host] =>
      let bytes := bytesOf (String.ofList user)
      if bytes.length < 2 then "[REDACTED_EMAIL]"
      else encodeBytes (bytes.take 1 ++ bytesOf "***@" ++ bytesOf (String.ofList host))
  | _ => "[REDACTED_EMAIL]"

def redactPhone (phone : String) : String :=
  let bytes := bytesOf phone
  if bytes.length < 5 then "[REDACTED_PHONE]"
  else if bytes.length ≤ 6 then
    encodeBytes (bytes.take 2 ++ bytesOf "***" ++ bytes.drop (bytes.length - 1))
  else encodeBytes (bytes.take 3 ++ bytesOf "****" ++ bytes.drop (bytes.length - 3))

def maskToken (token : String) : String :=
  let bytes := bytesOf token
  if bytes.length ≤ 8 then "[REDACTED_TOKEN]"
  else encodeBytes (bytes.take 4 ++ bytesOf (String.ofList (List.replicate (bytes.length - 8) '*')) ++
    bytes.drop (bytes.length - 4))

def secretKeys : List String :=
  ["secret", "token", "password", "api_key", "apikey", "authorization", "private_key"]

def containsSecretKey (key : String) : Bool := secretKeys.any (contains key)

mutual

/-- A value of a map that `RedactMap` does not hide: a map inside is redacted in turn. -/
def redactValue (x : Texts) : Json → Json
  | .obj fields => .obj (redactMap x fields)
  | value => value

def redactMap (x : Texts) : List (String × Json) → List (String × Json)
  | [] => []
  | (key, value) :: rest =>
      (key, if containsSecretKey (x.lowerText key) then .str "[REDACTED]" else redactValue x value)
        :: redactMap x rest

end

/-- `RedactJSON` of a stored value; `null` decodes to a nil map. -/
def redactJSON (x : Texts) : Json → Json
  | .obj fields => .obj (redactMap x fields)
  | .null => .obj []
  | _ => .obj [("redacted", .bool true)]

/-- `if value, ok := out[key].(string); ok && value != ""` -/
def maskField (mask : String → String) (key : String) (fields : List (String × Json)) :
    List (String × Json) :=
  match Json.field? key (.obj fields) with
  | some (.str value) => if value = "" then fields else setField fields key (.str (mask value))
  | _ => fields

def maskRecipientMap (x : Texts) (input : List (String × Json)) : List (String × Json) :=
  let out := redactMap x input
  let out := maskField redactEmail "email" out
  let out := maskField redactPhone "phone" out
  ["fcm_token", "push_token", "device_token"].foldl (fun out key => maskField maskToken key out) out

def maskRecipientJSON (x : Texts) : Json → Json
  | .obj fields =>
      match Json.field? "recipient" (.obj fields) with
      | some (.obj target) => .obj (setField fields "recipient" (.obj (maskRecipientMap x target)))
      | _ => .obj (maskRecipientMap x fields)
  | .null => .obj (maskRecipientMap x [])
  | _ => .obj [("redacted", .bool true)]

structure Classification where
  category : String
  code : String
  retryable : Bool
  explanation : String
  suggestedAction : String

def Classification.toJson (c : Classification) : Json :=
  .obj [("category", .str c.category), ("code", .str c.code), ("retryable", .bool c.retryable),
    ("explanation", .str c.explanation), ("suggested_action", .str c.suggestedAction)]

def failureWords : List (List String × Classification) :=
  [(["auth", "credential", "unauthorized", "forbidden"],
    ⟨"provider_authentication_failure", "PROVIDER_AUTHENTICATION_FAILURE", false,
      "The provider rejected authentication or send permissions.",
      "Validate provider credentials and sender permissions."⟩),
   (["quota", "limit", "429"],
    ⟨"rate_limited", "RATE_LIMITED", true,
      "The provider or tenant throughput limit was reached.",
      "Wait for the rate-limit window or reduce throughput."⟩),
   (["timeout", "deadline"],
    ⟨"provider_timeout", "PROVIDER_TIMEOUT", true,
      "The provider did not respond within the allowed time.",
      "Retry through routing policy or temporarily route to a fallback provider."⟩),
   (["network", "dns", "tls", "connection"],
    ⟨"network_failure", "NETWORK_FAILURE", true,
      "The platform could not reach the provider reliably.",
      "Retry later and check provider/network health."⟩),
   (["invalid recipient", "invalid destination", "invalid phone", "invalid email"],
    ⟨"invalid_recipient", "INVALID_RECIPIENT", false,
      "The destination address or token is invalid.",
      "Update the recipient address or token before retrying."⟩),
   (["template", "render", "variable"],
    ⟨"rendering_failure", "RENDERING_FAILURE", false,
      "The notification could not be rendered from the configured template or variables.",
      "Fix the template or missing variables, then resend."⟩)]

def normalize (x : Texts) (status providerCode message : String) : Classification :=
  let text := x.lowerText (trimSpace (providerCode ++ " " ++ message))
  match failureWords.find? fun entry => entry.1.any (contains text) with
  | some entry => entry.2
  | none =>
      if x.equalFold status "dead" then
        ⟨"queue_processing_failure", "QUEUE_PROCESSING_FAILURE", false,
          "Delivery exhausted all retry attempts and was moved to dead-letter state.",
          "Inspect the delivery attempts, then replay only after the root cause is fixed."⟩
      else if x.equalFold status "failed" then
        ⟨"unknown_internal_failure", "UNKNOWN_INTERNAL_FAILURE", true,
          "The provider or worker reported a failure that has not been mapped yet.",
          "Review the redacted provider response and retry if the destination and configuration are valid."⟩
      else ⟨"none", "NONE", false, "No failure was detected.", "No action required."⟩

/-- The columns of deliveries and attempts that only the detail shows. -/
structure DetailColumns where
  deliveryScheduledAt : Nat → Option Int
  deliveryCreatedAt : Nat → Int
  attemptError : Nat → Option String
  attemptDuration : Nat → Int
  attemptCreatedAt : Nat → Int

def Faults.complete (faults : Faults) (n : Nat) : Bool :=
  !faults.failed n && (faults.broken n).isNone

section

variable (x : Texts) (cols : DetailColumns) (faults : Faults)

def timeOrNull : Option Int → Json
  | some t => .str (x.formatTime t)
  | none => .null

def attemptItem (n : Nat) (a : Attempt) : Json :=
  let failure := normalize x a.status.text ""
    ((cols.attemptError n).getD "" ++ " " ++ x.jsonText a.response)
  .obj [("attempt_no", .num a.attemptNo), ("status", .str a.status.text),
    ("error", .str ((cols.attemptError n).getD "")), ("response", redactJSON x a.response),
    ("duration_ms", .num (cols.attemptDuration n)),
    ("created_at", .str (x.formatTime (cols.attemptCreatedAt n))), ("failure", failure.toJson)]

def attemptEvent (channel : String) (n : Nat) (a : Attempt) : Json :=
  let failure := normalize x a.status.text ""
    ((cols.attemptError n).getD "" ++ " " ++ x.jsonText a.response)
  let event := if a.status = .sent then
      ("provider_accepted", "Provider accepted the delivery request.")
    else ("failed", failure.explanation)
  .obj [("type", .str event.1), ("timestamp", .str (x.formatTime (cols.attemptCreatedAt n))),
    ("channel", .str channel), ("provider", .str "mock"), ("attempt_no", .num a.attemptNo),
    ("duration_ms", .num (cols.attemptDuration n)), ("source", .str "worker"),
    ("failure", failure.toJson), ("explanation", .str event.2)]

def attemptsOf (db : Db) (deliveryID : Nat) : List (Nat × Attempt) :=
  (((db.attempts.zipIdx.map fun a => (a.2, a.1)).filter fun a =>
    a.2.deliveryID == deliveryID).insertionSort fun a b => a.2.attemptNo < b.2.attemptNo ∨
      a.2.attemptNo = b.2.attemptNo ∧ cols.attemptCreatedAt a.1 ≤ cols.attemptCreatedAt b.1)

def deliveryAttempts (n : Nat) (db : Db) (deliveryID : Nat) (channel : String) :
    Option (List Json × List Json) :=
  if !faults.complete n then none
  else
    let attempts := attemptsOf cols db deliveryID
    some (attempts.map fun a => attemptItem x cols a.1 a.2,
      attempts.map fun a => attemptEvent x cols channel a.1 a.2)

def deliveryItem (s : Snapshot) (d : Nat × DeliveryRow) (attempts : List Json) : Json :=
  .obj [("id", .str (toString d.1)), ("channel", .str d.2.channel), ("provider", .str "mock"),
    ("recipient", maskRecipientJSON x d.2.recipient), ("status", .str d.2.status.text),
    ("scheduled_at", timeOrNull x (cols.deliveryScheduledAt d.1)),
    ("delivered_at", timeOrNull x (d.2.deliveredAt.map Int.ofNat)),
    ("provider_message_id", .str (d.2.providerMessageID.getD "")),
    ("response", redactJSON x d.2.response),
    ("failure", (normalize x d.2.status.text (d.2.providerMessageID.getD "")
      (x.jsonText d.2.response)).toJson),
    ("attempts", .arr attempts), ("created_at", .str (x.formatTime (cols.deliveryCreatedAt d.1))),
    ("updated_at", .str (x.formatTime (s.deliveryUpdatedAt d.1)))]

def deliveryEvents (s : Snapshot) (d : Nat × DeliveryRow) (attempts : List Json) : List Json :=
  let entry (type : String) (time : Int) (source : String) (failure : List (String × Json))
      (explanation : String) : Json :=
    .obj ([("type", .str type), ("timestamp", .str (x.formatTime time)),
      ("channel", .str d.2.channel), ("provider", .str "mock"), ("source", .str source)] ++
      failure ++ [("explanation", .str explanation)])
  let failure := normalize x d.2.status.text (d.2.providerMessageID.getD "")
    (x.jsonText d.2.response)
  [entry "queued" (cols.deliveryCreatedAt d.1) "queue" []
    "Delivery was queued for worker processing."] ++ attempts ++
  (match d.2.deliveredAt with
    | some t => [entry "delivered" t "provider" [] "Provider send completed successfully."]
    | none => []) ++
  (if d.2.status = .dead then
    [entry "moved_to_dead_letter" (s.deliveryUpdatedAt d.1) "retry_worker"
      [("failure", failure.toJson)] failure.explanation]
  else [])

/-- The loop of `notificationDeliveries`; the attempts of delivery `i` are read by query
`i + 2`. -/
def deliveryLoop (s : Snapshot) : Nat → List (Nat × DeliveryRow) → Option (List Json × List Json)
  | _, [] => some ([], [])
  | i, d :: rest =>
      match deliveryAttempts x cols faults (i + 2) s.pipeline d.1 d.2.channel with
      | none => none
      | some attempts =>
          (deliveryLoop s (i + 1) rest).map fun r =>
            (deliveryItem x cols s d attempts.1 :: r.1,
              deliveryEvents x cols s d attempts.2 ++ r.2)

/-- The deliveries of a notification, `ORDER BY created_at ASC`. -/
def deliveriesOf (db : Db) (id : Nat) : List (Nat × DeliveryRow) :=
  (db.deliveries.rows.filter fun d => d.2.notificationID == id).insertionSort fun a b =>
    cols.deliveryCreatedAt a.1 ≤ cols.deliveryCreatedAt b.1

def notificationDeliveries (s : Snapshot) (id : Nat) : Option (List Json × List Json) :=
  if !faults.complete 1 then none
  else deliveryLoop x cols faults s 0 (deliveriesOf cols s.pipeline id)

end

def TenantFilter.admits : TenantFilter → Value → Bool
  | .all, _ => true
  | .only u, v => v.same u
  | .unreadable, _ => false

def Snapshot.detailRow (s : Snapshot) (filter : TenantFilter) (publicID : String) :
    Option ((Nat × Notification) × Row Value) :=
  ((s.pipeline.notifications.rows.filter fun n =>
    n.2.publicID == publicID && filter.admits (.text n.2.tenantID)).flatMap fun n =>
      ((s.admin .tenants).filter fun t => (t "id").same (.text n.2.tenantID)).map
        fun t => (n, t)).head?

def detailBody (x : Texts) (s : Snapshot) (n : Nat × Notification) (tenant : Row Value)
    (deliveries timeline : List Json) : Json :=
  let created : Json := .obj [("type", .str "created"),
    ("timestamp", .str (x.formatTime (s.createdAt n.1))), ("source", .str "api"),
    ("explanation", .str "Notification request accepted by the platform.")]
  let scheduled := match n.2.scheduledAt with
    | some t => [Json.obj [("type", .str "scheduled"), ("timestamp", .str (x.formatTime t)),
        ("source", .str "scheduler"),
        ("explanation", .str "Notification is scheduled for future queueing.")]]
    | none => []
  .obj [("data", .obj [("id", .str (toString n.1)), ("tenant_id", .str n.2.tenantID),
    ("tenant", .str (tenant "name").textValue), ("public_id", .str n.2.publicID),
    ("event", .str n.2.eventKey), ("template_key", .str n.2.templateKey),
    ("target_type", .str n.2.targetType), ("target", maskRecipientJSON x n.2.target),
    ("data", redactJSON x n.2.data), ("channels", n.2.channels), ("priority", .num n.2.priority),
    ("schedule_type", .str n.2.scheduleType),
    ("scheduled_at", timeOrNull x (n.2.scheduledAt.map Int.ofNat)),
    ("status", .str n.2.status.text), ("idempotency_key", .str (n.2.idempotencyKey.getD "")),
    ("created_at", .str (x.formatTime (s.createdAt n.1))),
    ("updated_at", .str (x.formatTime (s.updatedAt n.1))), ("deliveries", .arr deliveries),
    ("timeline", .arr ([created] ++ timeline ++ scheduled))])]

def getNotificationDetail (x : Texts) (cols : DetailColumns) (faults : Faults) (s : Snapshot)
    (p : Principal) (publicID : String) : JsonResponse :=
  match TenantFilter.of p "" with
  | .unreadable => .error 500 "query failed"
  | filter =>
      if !faults.complete 0 then .error 500 "query failed"
      else
        match s.detailRow filter publicID with
        | none => .error 404 "notification not found"
        | some (n, tenant) =>
            match notificationDeliveries x cols faults s n.1 with
            | none => .error 500 "delivery query failed"
            | some (deliveries, timeline) =>
                ⟨200, detailBody x s n tenant deliveries timeline⟩

/-- The request with another text under a key of its recipient. -/
def Request.withRecipient (req : Request) (recipient : JsonMap) (key value : String) : Request :=
  { req with target := { req.target with recipient := some (recipient.set key (.str value)) } }

/-- The database in which notification `id` is the one that `Send` stores for a request. The
deliveries of `Send` carry its target; those of a scheduled notification are routed without. -/
def Snapshot.accepted (s : Snapshot) (id : Nat) (t publicID : String) (req : Request)
    (scheduledAt : Option Nat) (status : NotificationStatus) : Snapshot :=
  { s with pipeline := { s.pipeline with
      notifications := s.pipeline.notifications.modify id fun _ =>
        Notifications.newNotification t publicID req.withDefaultSchedule scheduledAt status
      deliveries := s.pipeline.deliveries.update
        (fun d => d.2.notificationID == id && scheduledAt.isNone)
        fun row => { row with recipient := req.target.toJson } } }

/-- `strings.ToLower` leaves small letters and the underscore alone. -/
def LowersLetters (x : Texts) : Prop :=
  ∀ c, 'a' ≤ c ∧ c ≤ 'z' ∨ c = '_' → x.toLower c = c

/-- The caller gets the detail: the tenant is one that the caller may see, and no query fails. -/
def Served (faults : Faults) (s : Snapshot) (p : Principal) (id : Nat) (t : String) : Prop :=
  (TenantFilter.of p "").admits (.text t) = true ∧
    (∃ tenant ∈ s.admin .tenants, (tenant "id").same (.text t) = true) ∧
    ∀ n < (s.pipeline.deliveries.rows.filter fun d => d.2.notificationID == id).length + 2,
      faults.complete n = true

section

variable {x : Texts} {cols : DetailColumns} {faults : Faults} {s : Snapshot} {p : Principal}
  {id : Nat} {t publicID : String} {req : Request} {scheduledAt : Option Nat}
  {status : NotificationStatus}

private theorem lowerText_eq_self (h : LowersLetters x) {s : String}
    (hs : ∀ c ∈ s.toList, 'a' ≤ c ∧ c ≤ 'z' ∨ c = '_') : x.lowerText s = s := by
  have hmap : s.toList.map x.toLower = s.toList := by
    calc s.toList.map x.toLower = s.toList.map (fun c => c) := List.map_congr_left fun c hc => h c (hs c hc)
      _ = s.toList := List.map_id _
  unfold Texts.lowerText
  rw [hmap, String.ofList_toList]

private theorem field?_redactMap (fields : List (String × Json)) {key : String}
    (hkey : containsSecretKey (x.lowerText key) = false) :
    Json.field? key (.obj (redactMap x fields)) =
      (Json.field? key (.obj fields)).map (redactValue x) := by
  induction fields with
  | nil => simp [redactMap, Json.field?]
  | cons field rest ih =>
      obtain ⟨k, value⟩ := field
      by_cases hk : k = key
      · subst k
        simp [redactMap, Json.field?, hkey]
      · simpa [redactMap, Json.field?, List.find?_cons, hk] using ih

private theorem not_secret (h : LowersLetters x) {key : String}
    (hkey : key ∈ ["target", "recipient", "email", "phone"]) :
    containsSecretKey (x.lowerText key) = false := by
  have hletters : (key.toList.all fun c => decide ('a' ≤ c ∧ c ≤ 'z' ∨ c = '_')) = true := by
    simp only [List.mem_cons, List.not_mem_nil, or_false] at hkey
    rcases hkey with rfl | rfl | rfl | rfl <;> decide
  rw [lowerText_eq_self h fun c hc => of_decide_eq_true (List.all_eq_true.mp hletters c hc)]
  simp only [List.mem_cons, List.not_mem_nil, or_false] at hkey
  rcases hkey with rfl | rfl | rfl | rfl <;> decide

variable (req) in
private theorem recipient_shown (h : LowersLetters x) (recipient : JsonMap) {key : String}
    (hkey : key = "email" ∨ key = "phone") (value : String) :
    ((((redactJSON x (req.withRecipient recipient key value).withDefaultSchedule.toJson).field?
      "target").bind (Json.field? "recipient")).bind (Json.field? key)) = some (.str value) := by
  set stored := (req.withRecipient recipient key value).withDefaultSchedule with hstored
  have htarget : stored.target = (req.withRecipient recipient key value).target :=
    Request.withDefaultSchedule_target _
  have hkey' : key ∈ ["target", "recipient", "email", "phone"] := by
    rcases hkey with rfl | rfl <;> decide
  have hfirst : Json.field? "target" (redactJSON x stored.toJson) =
      some (redactValue x stored.target.toJson) := by
    show Json.field? "target" (.obj (redactMap x _)) = _
    rw [field?_redactMap _ (not_secret h (by decide))]
    rfl
  have hsecond : Json.field? "recipient" (redactValue x stored.target.toJson) =
      some (redactValue x (.obj (recipient.set key (.str value)).fields)) := by
    show Json.field? "recipient" (.obj (redactMap x _)) = _
    rw [field?_redactMap _ (not_secret h (by decide)), htarget]
    rfl
  have hthird : Json.field? key (redactValue x (.obj (recipient.set key (.str value)).fields)) =
      some (.str value) := by
    have hget : Json.field? key (.obj (recipient.set key (.str value)).fields) =
        some (.str value) := by
      have hset := recipient.get?_set key key (.str value)
      rw [if_pos rfl] at hset
      exact hset
    show Json.field? key (.obj (redactMap x _)) = _
    rw [field?_redactMap _ (not_secret h hkey'), hget]
    rfl
  rw [hfirst, Option.bind_some, hsecond, Option.bind_some, hthird]

variable (t req scheduledAt status) in
private theorem detailRow_accepted {row : Notification}
    (hstored : s.pipeline.notifications.get? id = some row)
    (hunique : ∀ n ∈ s.pipeline.notifications.rows, n.2.publicID = publicID → n.1 = id)
    (filter : TenantFilter) :
    (s.accepted id t publicID req scheduledAt status).detailRow filter publicID =
      if filter.admits (.text t) then
        ((s.admin .tenants).find? fun tenant => (tenant "id").same (.text t)).map fun tenant =>
          ((id, Notifications.newNotification t publicID req.withDefaultSchedule scheduledAt status),
            tenant)
      else none := by
  set new := Notifications.newNotification t publicID req.withDefaultSchedule scheduledAt status
    with hnew
  set table := s.pipeline.notifications.modify id fun _ => new with htable
  have hget : table.get? id = some new := by
    rw [htable, Table.get?_modify_self, hstored]
    rfl
  have hone : ∀ e ∈ table.rows, e.2.publicID = publicID ↔ e.1 = id := by
    intro e he
    obtain ⟨r, hr, he2⟩ := Table.mem_rows_modify he
    by_cases heid : e.1 = id
    · rw [he2, if_pos heid]
      exact ⟨fun _ => heid, fun _ => rfl⟩
    · rw [he2, if_neg heid]
      exact ⟨fun hpub => hunique (e.1, r) hr hpub, fun h => absurd h heid⟩
  have hrows : (table.rows.filter fun n =>
      n.2.publicID == publicID && filter.admits (.text n.2.tenantID)) =
      if filter.admits (.text t) then [(id, new)] else [] := by
    have hfilter : table.rows.filter (fun n => n.2.publicID == publicID) = [(id, new)] := by
      apply Table.filter_eq_singleton hget
      intro e he
      rw [beq_iff_eq]
      exact hone e he
    rw [← List.filter_filter, List.filter_comm, hfilter, List.filter_singleton]
    exact cond_eq_ite _ _ _
  show ((table.rows.filter fun n =>
    n.2.publicID == publicID && filter.admits (.text n.2.tenantID)).flatMap fun n =>
      ((s.admin .tenants).filter fun t => (t "id").same (.text n.2.tenantID)).map
        fun t => (n, t)).head? = _
  rw [hrows]
  split
  · simp only [List.flatMap_cons, List.flatMap_nil, List.append_nil, List.head?_map,
      List.head?_filter]
    rfl
  · rfl

private theorem deliveryLoop_isSome (s : Snapshot) (i : Nat) (ds : List (Nat × DeliveryRow)) :
    (deliveryLoop x cols faults s i ds).isSome = true ↔
      ∀ n, i ≤ n → n < i + ds.length → faults.complete (n + 2) = true := by
  induction ds generalizing i with
  | nil =>
      simp only [deliveryLoop, Option.isSome_some, true_iff, List.length_nil]
      intro n h1 h2
      omega
  | cons d rest ih =>
      have hrest := ih (i + 1)
      unfold deliveryLoop deliveryAttempts
      cases hc : faults.complete (i + 2) with
      | false =>
          simp only [Bool.not_false, if_true, Option.isSome_none, Bool.false_eq_true, false_iff,
            not_forall]
          refine ⟨i, le_refl _, by simp, ?_⟩
          simp [hc]
      | true =>
          simp only [Bool.not_true, Bool.false_eq_true, if_false, Option.isSome_map, hrest]
          constructor
          · intro h n h1 h2
            rcases Nat.eq_or_lt_of_le h1 with rfl | hlt
            · exact hc
            · exact h n hlt (by simp only [List.length_cons] at h2; omega)
          · intro h n h1 h2
            exact h n (by omega) (by simp only [List.length_cons]; omega)

private theorem length_deliveriesOf_accepted :
    (deliveriesOf cols (s.accepted id t publicID req scheduledAt status).pipeline id).length =
      (s.pipeline.deliveries.rows.filter fun d => d.2.notificationID == id).length := by
  unfold deliveriesOf
  rw [List.length_insertionSort]
  show ((s.pipeline.deliveries.rows.map _).filter _).length = _
  rw [List.filter_map, List.length_map]
  congr 1
  apply List.filter_congr
  intro d _
  simp only [Function.comp_def]
  split <;> rfl

private theorem notificationDeliveries_isSome :
    (notificationDeliveries x cols faults (s.accepted id t publicID req scheduledAt status)
      id).isSome = true ↔
      ∀ n < (s.pipeline.deliveries.rows.filter fun d => d.2.notificationID == id).length + 2,
        1 ≤ n → faults.complete n = true := by
  unfold notificationDeliveries
  cases hc : faults.complete 1 with
  | false =>
      simp only [Bool.not_false, if_true, Option.isSome_none, Bool.false_eq_true, false_iff]
      intro h
      have hone := h 1 (by omega) (le_refl _)
      rw [hc] at hone
      exact absurd hone (by decide)
  | true =>
      simp only [Bool.not_true, Bool.false_eq_true, if_false]
      rw [deliveryLoop_isSome, length_deliveriesOf_accepted]
      constructor
      · intro h n hn h1
        rcases Nat.eq_or_lt_of_le h1 with rfl | hlt
        · exact hc
        · have hquery := h (n - 2) (Nat.zero_le _) (by omega)
          have hn2 : n - 2 + 2 = n := by omega
          rwa [hn2] at hquery
      · intro h n _ hn
        exact h (n + 2) (by omega) (by omega)

variable (x faults p t scheduledAt status) in
private theorem getNotificationDetail_cases (cols : DetailColumns) {row : Notification}
    (hstored : s.pipeline.notifications.get? id = some row)
    (hunique : ∀ n ∈ s.pipeline.notifications.rows, n.2.publicID = publicID → n.1 = id) :
    (Served faults s p id t → ∀ req, ∃ tenant deliveries timeline,
      getNotificationDetail x cols faults (s.accepted id t publicID req scheduledAt status) p
        publicID = ⟨200, detailBody x (s.accepted id t publicID req scheduledAt status)
          (id, Notifications.newNotification t publicID req.withDefaultSchedule scheduledAt status)
          tenant deliveries timeline⟩) ∧
    (¬Served faults s p id t → ∃ response, ∀ req,
      getNotificationDetail x cols faults (s.accepted id t publicID req scheduledAt status) p
        publicID = response) := by
  constructor
  · rintro ⟨hadmits, htenant, hqueries⟩ req
    have hcomplete := hqueries 0 (by omega)
    have hfind : ∃ tenant, ((s.admin .tenants).find? fun tenant =>
        (tenant "id").same (.text t)) = some tenant := by
      rw [← Option.isSome_iff_exists, List.find?_isSome]
      exact htenant
    obtain ⟨tenant, htenant⟩ := hfind
    have hsome : (notificationDeliveries x cols faults
        (s.accepted id t publicID req scheduledAt status) id).isSome = true :=
      notificationDeliveries_isSome.mpr fun n hn _ => hqueries n hn
    obtain ⟨⟨deliveries, timeline⟩, hdeliveries⟩ := Option.isSome_iff_exists.mp hsome
    refine ⟨tenant, deliveries, timeline, ?_⟩
    have hrow := detailRow_accepted t req scheduledAt status hstored hunique
      (TenantFilter.of p "")
    rw [if_pos hadmits, htenant] at hrow
    unfold getNotificationDetail
    split
    · next hfilter => simp [hfilter, TenantFilter.admits] at hadmits
    · simp only [hcomplete, Bool.not_true, Bool.false_eq_true, if_false, hrow, Option.map_some,
        hdeliveries]
  · intro hnot
    by_cases hunreadable : TenantFilter.of p "" = .unreadable
    · refine ⟨.error 500 "query failed", fun req => ?_⟩
      unfold getNotificationDetail
      rw [hunreadable]
    cases hcomplete : faults.complete 0 with
    | false =>
        refine ⟨.error 500 "query failed", fun req => ?_⟩
        unfold getNotificationDetail
        split
        · next hfilter => exact absurd hfilter hunreadable
        · simp [hcomplete]
    | true =>
        by_cases hrow : (TenantFilter.of p "").admits (.text t) = true ∧
            ∃ tenant ∈ s.admin .tenants, (tenant "id").same (.text t) = true
        · refine ⟨.error 500 "delivery query failed", fun req => ?_⟩
          have hnone : notificationDeliveries x cols faults
              (s.accepted id t publicID req scheduledAt status) id = none := by
            rw [← Option.not_isSome_iff_eq_none, notificationDeliveries_isSome]
            intro hqueries
            apply hnot
            refine ⟨hrow.1, hrow.2, fun n hn => ?_⟩
            cases n with
            | zero => exact hcomplete
            | succ n => exact hqueries (n + 1) hn (by omega)
          obtain ⟨tenant, htenant⟩ : ∃ tenant, ((s.admin .tenants).find? fun tenant =>
              (tenant "id").same (.text t)) = some tenant := by
            rw [← Option.isSome_iff_exists, List.find?_isSome]
            exact hrow.2
          have hfound := detailRow_accepted t req scheduledAt status hstored hunique
            (TenantFilter.of p "")
          rw [if_pos hrow.1, htenant] at hfound
          unfold getNotificationDetail
          split
          · next hfilter => exact absurd hfilter hunreadable
          · simp only [hcomplete, Bool.not_true, Bool.false_eq_true, if_false, hfound,
              Option.map_some, hnone]
        · refine ⟨.error 404 "notification not found", fun req => ?_⟩
          have hmissing := detailRow_accepted t req scheduledAt status hstored hunique
            (TenantFilter.of p "")
          have hnone : (s.accepted id t publicID req scheduledAt status).detailRow
              (TenantFilter.of p "") publicID = none := by
            rw [hmissing]
            split
            · next hadmits =>
                rw [Option.map_eq_none_iff, List.find?_eq_none]
                intro tenant htenant hsame
                exact hrow ⟨hadmits, tenant, htenant, hsame⟩
            · rfl
          unfold getNotificationDetail
          split
          · next hfilter => exact absurd hfilter hunreadable
          · simp only [hcomplete, Bool.not_true, Bool.false_eq_true, if_false, hnone]

private theorem bodies_differ (hlower : LowersLetters x) (cols : DetailColumns) {row : Notification}
    (hstored : s.pipeline.notifications.get? id = some row)
    (hunique : ∀ n ∈ s.pipeline.notifications.rows, n.2.publicID = publicID → n.1 = id)
    (req : Request) (recipient : JsonMap) {key : String} (hkey : key = "email" ∨ key = "phone")
    {a b : String} (hab : a ≠ b) (hanswered : Served faults s p id t) :
    (getNotificationDetail x cols faults (s.accepted id t publicID
          (req.withRecipient recipient key a) scheduledAt status) p publicID).body ≠
      (getNotificationDetail x cols faults (s.accepted id t publicID
          (req.withRecipient recipient key b) scheduledAt status) p publicID).body := by
  have hcases :=
    (getNotificationDetail_cases x faults p t scheduledAt status cols hstored hunique).1 hanswered
  obtain ⟨tenant, deliveries, timeline, hfirst⟩ := hcases (req.withRecipient recipient key a)
  obtain ⟨tenant', deliveries', timeline', hsecond⟩ := hcases (req.withRecipient recipient key b)
  rw [hfirst, hsecond]
  intro hbody
  have hdata := congrArg (fun body => ((body.field? "data").bind (Json.field? "data"))) hbody
  have hstoredData : redactJSON x (req.withRecipient recipient key a).withDefaultSchedule.toJson =
      redactJSON x (req.withRecipient recipient key b).withDefaultSchedule.toJson :=
    Option.some.inj hdata
  have hshown := recipient_shown req hlower recipient hkey a
  rw [hstoredData, recipient_shown req hlower recipient hkey b] at hshown
  exact hab (Json.str.inj (Option.some.inj hshown)).symm

/-- Two notifications that differ in one address of the recipient look alike exactly to a caller
that gets to see neither. -/
theorem detail_masks_iff (hlower : LowersLetters x) (cols : DetailColumns) {row : Notification}
    (hstored : s.pipeline.notifications.get? id = some row)
    (hunique : ∀ n ∈ s.pipeline.notifications.rows, n.2.publicID = publicID → n.1 = id)
    (req : Request) (recipient : JsonMap) {key : String} (hkey : key = "email" ∨ key = "phone")
    {a b : String} (hab : a ≠ b) :
    (getNotificationDetail x cols faults (s.accepted id t publicID
          (req.withRecipient recipient key a) scheduledAt status) p publicID).body =
        (getNotificationDetail x cols faults (s.accepted id t publicID
          (req.withRecipient recipient key b) scheduledAt status) p publicID).body ↔
      ¬Served faults s p id t := by
  constructor
  · intro hbody hanswered
    exact bodies_differ hlower cols hstored hunique req recipient hkey hab hanswered hbody
  · intro hnot
    obtain ⟨response, hresponse⟩ :=
      (getNotificationDetail_cases x faults p t scheduledAt status cols hstored hunique).2 hnot
    rw [hresponse, hresponse]

end

def sampleColumns : DetailColumns := ⟨fun _ => none, fun _ => 0, fun _ => none, fun _ => 0, fun _ => 0⟩

theorem sampleTexts_lowers : LowersLetters sampleTexts := by
  intro c hc
  show c.toLower = c
  unfold Char.toLower
  rw [dif_neg]
  rintro ⟨-, hle⟩
  rcases hc with ⟨hge, -⟩ | rfl
  · have hchain : ('a'.val : UInt32) ≤ 'Z'.val := UInt32.le_trans hge hle
    exact absurd hchain (by decide)
  · exact absurd hle (by decide)

private theorem sampleLogs_stored : ∃ row,
    (sampleLogs ["ntf_1"]).pipeline.notifications.get? 0 = some row := ⟨_, rfl⟩

private theorem sampleLogs_unique :
    ∀ n ∈ (sampleLogs ["ntf_1"]).pipeline.notifications.rows, n.2.publicID = "ntf_1" → n.1 = 0 := by
  decide

/-- A user of another tenant sees neither of the two. -/
theorem detail_masks_stranger :
    (getNotificationDetail sampleTexts sampleColumns {} ((sampleLogs ["ntf_1"]).accepted 0 "t1"
        "ntf_1" ((sampleRequest ["email"] ⟨"", ""⟩ "").withRecipient .empty "email" "alice@x.co")
        none .queued) ⟨7, secondTenant, false, ["notifications.view"]⟩ "ntf_1").body =
      (getNotificationDetail sampleTexts sampleColumns {} ((sampleLogs ["ntf_1"]).accepted 0 "t1"
        "ntf_1" ((sampleRequest ["email"] ⟨"", ""⟩ "").withRecipient .empty "email" "amber@x.co")
        none .queued) ⟨7, secondTenant, false, ["notifications.view"]⟩ "ntf_1").body := by
  obtain ⟨row, hrow⟩ := sampleLogs_stored
  apply (detail_masks_iff sampleTexts_lowers sampleColumns hrow sampleLogs_unique _ _ (.inl rfl)
    (by decide)).mpr
  rintro ⟨hadmits, -⟩
  exact absurd hadmits (by decide)

/-- A platform administrator can tell two addresses apart that are masked alike. -/
theorem detail_shows_address : ¬∀ (x : Texts) (cols : DetailColumns) (faults : Faults)
    (s : Snapshot) (p : Principal) (id : Nat) (t publicID : String) (row : Notification)
    (req : Request) (recipient : JsonMap) (scheduledAt : Option Nat) (status : NotificationStatus)
    (a b : String), LowersLetters x → s.pipeline.notifications.get? id = some row →
    (∀ n ∈ s.pipeline.notifications.rows, n.2.publicID = publicID → n.1 = id) →
    redactEmail a = redactEmail b →
    (getNotificationDetail x cols faults (s.accepted id t publicID
        (req.withRecipient recipient "email" a) scheduledAt status) p publicID).body =
      (getNotificationDetail x cols faults (s.accepted id t publicID
        (req.withRecipient recipient "email" b) scheduledAt status) p publicID).body := by
  intro hclaim
  obtain ⟨row, hrow⟩ := sampleLogs_stored
  have hmasked : redactEmail "alice@x.co" = redactEmail "amber@x.co" := by decide +kernel
  have hbody := hclaim sampleTexts sampleColumns {} (sampleLogs ["ntf_1"]) platformAdmin 0 "t1"
    "ntf_1" row (sampleRequest ["email"] ⟨"", ""⟩ "") .empty none .queued "alice@x.co"
    "amber@x.co" sampleTexts_lowers hrow sampleLogs_unique hmasked
  apply bodies_differ sampleTexts_lowers sampleColumns hrow sampleLogs_unique _ _ (.inl rfl)
    (by decide) ?_ hbody
  refine ⟨rfl, ⟨_, List.mem_singleton.mpr rfl, rfl⟩, fun n _ => rfl⟩

end NotificationPlatform
