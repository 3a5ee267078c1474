import Mathlib.Data.Set.Function
import NotificationPlatform.HubInvariant
import NotificationPlatform.Lib.Calendar

/-!
# Acknowledgements and session records

What `ServeWS` does besides registering its client: it replaces the callback of the hub for
acknowledgements by a closure over the context of its own request, and it records the connection
in `websocket_sessions` under an identifier made of the time and a random part.
-/

namespace NotificationPlatform

open Lib

/-- `security.RandomToken`; `random` is what `rand.Read` returned, in the URL alphabet. -/
def randomToken (pre : String) (bytesLen : Nat) (random : Except Err String) :
    Except Err String :=
  if bytesLen < 16 then .error (.text "token must use at least 16 random bytes")
  else
    match random with
    | .error e => .error e
    | .ok token => .ok (if pre = "" then token else pre ++ "_" ++ token)

/-- `connectionID` in `ServeWS`, which ignores the error of `RandomToken`. -/
def connectionID (now : Nat) (random : Except Err String) : String :=
  let randPart := match randomToken "" 8 random with
    | .ok token => token
    | .error _ => ""
  "ws_" ++ Calendar.stamp now ++ "_" ++ randPart

/-- A row of `in_app_notifications`, for its `id`. -/
structure InAppStatus where
  tenantID : String
  unread : Bool

structure WsSession where
  tenantID : String
  contactID : Option String
  externalUserID : Option String
  connectionID : String
  active : Bool

def sessionColumns : List String :=
  ["id", "tenant_id", "contact_id", "external_user_id", "device_id", "connection_id", "status",
    "last_seen_at", "created_at", "updated_at"]

/-- The columns that the `INSERT` of `RecordSession` names. -/
def recordedColumns : List String :=
  ["tenant_id", "user_id", "contact_id", "external_user_id", "connection_id", "last_seen_at"]

/-- `RecordSession`: a statement that names a column the table does not have is an error. -/
def recordSession (sessions : List WsSession) (client : WsClient) (connectionID : String) :
    Except Err (List WsSession) :=
  if recordedColumns.all (fun column => sessionColumns.contains column) then
    .ok (sessions ++ [⟨client.tenantID, nullIfEmpty client.contactID,
      nullIfEmpty client.externalUserID, connectionID, true⟩])
  else .error .driver

/-- `websocket.Message`, without the payload that nothing reads. -/
structure WsMessage where
  type : String
  id : String

/-- A process with its hub: the clock in seconds, the callback (that of `NewHub` or the closure of
a connection), the counter, the tables, and the history: the identifier and the time of each
connection, and how many acknowledgements with an identifier were processed. -/
structure WsWorld where
  hub : HubWorld
  now : Nat
  ackFn : Option Nat
  wsMessagesAcked : Nat
  inApp : String → Option InAppStatus
  sessions : List WsSession
  ids : List String
  times : List Nat
  processed : Nat

/-- A connection is accepted; another step of the goroutines of the hub; `ReadPump` of a
connection reads a message (`none` if it is no JSON object of the right form); other code writes to
`in_app_notifications`; time passes. -/
inductive WsEvent where
  | accept (client : WsClient) (random : Except Err String)
  | hub (e : HubEvent)
  | message (c : Nat) (m : Option WsMessage)
  | database (inApp : String → Option InAppStatus)
  | wait (seconds : Nat)

def HubEvent.connects : HubEvent → Bool
  | .connect _ => true
  | _ => false

/-- A message that `ReadPump` hands to the callback. -/
def WsMessage.isAck (m : WsMessage) : Bool := m.type == "ack" && m.id != ""

def WsEvent.isAck : WsEvent → Bool
  | .message _ (some m) => m.isAck
  | _ => false

namespace WsWorld

def contextLives (w : WsWorld) (c : Nat) : Bool :=
  match w.hub.conns[c]? with
  | some ⟨_, _, _, .done, _, _⟩ => false
  | some _ => true
  | none => false

/-- `UPDATE in_app_notifications SET status = 'read' WHERE id = $1 AND tenant_id = $2 AND status =
'unread'`; the column `id` is a `uuid`. -/
def markRead (w : WsWorld) (tenantID deliveryID : String) : WsWorld :=
  match Uuid.read deliveryID with
  | none => w
  | some id =>
      match w.inApp id with
      | some ⟨t, true⟩ =>
          if t = tenantID then { w with inApp := Function.update w.inApp id (some ⟨t, false⟩) } else w
      | _ => w

/-- `c.hub.ackFn(c.TenantID, parsed.ID)`. An `Exec` with a cancelled context does nothing. -/
def callAckFn (w : WsWorld) (tenantID deliveryID : String) : WsWorld :=
  match w.ackFn with
  | none => { w with wsMessagesAcked := w.wsMessagesAcked + 1 }
  | some c => if w.contextLives c then w.markRead tenantID deliveryID else w

def receive (w : WsWorld) (tenantID : String) : Option WsMessage → WsWorld
  | none => w
  | some m =>
      if m.isAck then { w.callAckFn tenantID m.id with processed := w.processed + 1 } else w

/-- `ServeWS` from the upgrade to `h.hub.register <- client`. -/
def accept (w : WsWorld) (client : WsClient) (random : Except Err String) (hub : HubWorld) :
    WsWorld :=
  let id := connectionID w.now random
  { w with
    hub := hub
    ackFn := some w.hub.conns.length
    sessions := match recordSession w.sessions client id with
      | .ok sessions => sessions
      | .error _ => w.sessions
    ids := w.ids ++ [id]
    times := w.times ++ [w.now] }

def step (w : WsWorld) : WsEvent → Option WsWorld
  | .accept client random =>
      match w.hub.step (.connect client) with
      | some hub => some (w.accept client random hub)
      | none => none
  | .hub e =>
      if e.connects then none
      else
        match w.hub.step e with
        | some hub => some { w with hub := hub }
        | none => none
  | .message c m =>
      match w.hub.conns[c]? with
      | some ⟨client, _, _, _, .reading, _⟩ => some (w.receive client.tenantID m)
      | _ => none
  | .database inApp => some { w with inApp := inApp }
  | .wait seconds => some { w with now := w.now + seconds }

abbrev RunOf (ok : WsWorld → WsEvent → Prop) : WsWorld → List WsEvent → WsWorld → Prop :=
  Run step ok

/-- After `NewHub`, with no session on record. -/
structure Fresh (w : WsWorld) : Prop where
  hub : w.hub = .new
  ackFn : w.ackFn = none
  acked : w.wsMessagesAcked = 0
  sessions : w.sessions = []
  ids : w.ids = []
  times : w.times = []
  processed : w.processed = 0

end WsWorld

theorem HubWorld.length_conns_step {w w' : HubWorld} {e : HubEvent} (hstep : w.step e = some w') :
    (∃ client, e = .connect client) ∨ w'.conns.length = w.conns.length := by
  have hlength : w'.clientOf = w.clientOf → w'.conns.length = w.conns.length := by
    intro heq
    have hiff : ∀ c, w'.conns.length ≤ c ↔ w.conns.length ≤ c := by
      intro c
      have hc := congrFun heq c
      rw [← List.getElem?_eq_none_iff, ← List.getElem?_eq_none_iff,
        ← Option.map_eq_none_iff (f := Connection.client),
        ← Option.map_eq_none_iff (x := w.conns[c]?) (f := Connection.client)]
      change w'.clientOf c = none ↔ w.clientOf c = none
      rw [hc]
    have hle := (hiff w.conns.length).mpr le_rfl
    have hge := (hiff w'.conns.length).mp le_rfl
    omega
  cases HubWorld.step_moves hstep with
  | connect client => exact .inl ⟨client, rfl⟩
  | receiveRegister hc => exact .inr (hlength (clientOf_withConn fun _ _ => rfl))
  | process hm => exact .inr (hlength process_frame.2.2)
  | syncRow hx hserve => exact .inr (hlength (quiet_syncRow hx hserve).clientOf)
  | call op => exact .inr rfl
  | rlock op hfree => exact .inr rfl
  | visit hcaller hx hc => exact .inr (hlength (quiet_visit hx).clientOf)
  | runlock result => exact .inr rfl
  | other hquiet _ _ _ _ => exact .inr (hlength hquiet.clientOf)

theorem connectionID_eq (now : Nat) (random : Except Err String) :
    connectionID now random = "ws_" ++ Calendar.stamp now ++ "_" := by
  have hshort : randomToken "" 8 random = .error (.text "token must use at least 16 random bytes") :=
    if_pos (by decide)
  rw [connectionID, hshort]
  simp

theorem recordSession_eq (sessions : List WsSession) (client : WsClient) (id : String) :
    recordSession sessions client id = .error .driver := if_neg (by decide)

namespace WsWorld

variable {w w' : WsWorld} {e : WsEvent}

/-- The callback is that of the last connection, nothing has been counted or recorded, and the
identifiers are made of the times alone. -/
structure Tracked (w : WsWorld) : Prop where
  acked : w.wsMessagesAcked = 0
  ackFn : (w.hub.conns = [] ∧ w.ackFn = none) ∨
    ∃ n, w.hub.conns.length = n + 1 ∧ w.ackFn = some n
  sessions : w.sessions = []
  ids : w.ids = w.times.map fun now => "ws_" ++ Calendar.stamp now ++ "_"

theorem Fresh.tracked (h : w.Fresh) : w.Tracked where
  acked := h.acked
  ackFn := .inl ⟨by rw [h.hub]; rfl, h.ackFn⟩
  sessions := h.sessions
  ids := by rw [h.ids, h.times]; rfl

theorem markRead_frame (w : WsWorld) (t id : String) :
    ∃ inApp, w.markRead t id = { w with inApp := inApp } := by
  unfold markRead
  split
  · exact ⟨w.inApp, rfl⟩
  · split
    · split
      · exact ⟨_, rfl⟩
      · exact ⟨w.inApp, rfl⟩
    · exact ⟨w.inApp, rfl⟩

theorem callAckFn_closure {n : Nat} (h : w.ackFn = some n) (t id : String) :
    w.callAckFn t id = if w.contextLives n then w.markRead t id else w := by
  rw [callAckFn, h]

theorem Tracked.ackFn_of_conn (h : w.Tracked) {c : Nat} {x : Connection}
    (hx : w.hub.conns[c]? = some x) : ∃ n, w.hub.conns.length = n + 1 ∧ w.ackFn = some n := by
  rcases h.ackFn with ⟨hnil, -⟩ | hsome
  · simp [hnil] at hx
  · exact hsome

theorem Tracked.receive_frame (h : w.Tracked) {c : Nat} {x : Connection}
    (hx : w.hub.conns[c]? = some x) (t : String) (m : Option WsMessage) :
    ∃ inApp processed, w.receive t m = { w with inApp := inApp, processed := processed } := by
  obtain ⟨n, -, hackFn⟩ := h.ackFn_of_conn hx
  unfold receive
  split
  · exact ⟨w.inApp, w.processed, rfl⟩
  · next m =>
      split
      · obtain ⟨inApp, hmark⟩ := markRead_frame w t m.id
        rw [callAckFn_closure hackFn, hmark]
        split
        · exact ⟨inApp, w.processed + 1, rfl⟩
        · exact ⟨w.inApp, w.processed + 1, rfl⟩
      · exact ⟨w.inApp, w.processed, rfl⟩

theorem Tracked.step (h : w.Tracked) (hstep : w.step e = some w') : w'.Tracked := by
  cases e with
  | accept client random =>
      obtain rfl := Option.some.inj hstep
      refine ⟨h.acked, .inr ⟨w.hub.conns.length, by simp [accept], rfl⟩, ?_, ?_⟩
      · simp [accept, recordSession_eq, h.sessions]
      · simp [accept, connectionID_eq, h.ids]
  | hub e =>
      simp only [WsWorld.step] at hstep
      split at hstep
      · simp at hstep
      next hconnects =>
      split at hstep
      · next hub hhub =>
          obtain rfl := Option.some.inj hstep
          have hlength : hub.conns.length = w.hub.conns.length := by
            rcases HubWorld.length_conns_step hhub with ⟨client, rfl⟩ | hlength
            · exact absurd rfl hconnects
            · exact hlength
          refine ⟨h.acked, ?_, h.sessions, h.ids⟩
          rcases h.ackFn with ⟨hnil, hackFn⟩ | ⟨n, hn, hackFn⟩
          · refine .inl ⟨?_, hackFn⟩
            rw [← List.length_eq_zero_iff, hlength, hnil]
            rfl
          · exact .inr ⟨n, hlength.trans hn, hackFn⟩
      · simp at hstep
  | message c m =>
      simp only [WsWorld.step] at hstep
      split at hstep
      · next client _ _ _ _ hx =>
          obtain rfl := Option.some.inj hstep
          obtain ⟨inApp, processed, hreceive⟩ := h.receive_frame hx client.tenantID m
          rw [hreceive]
          exact ⟨h.acked, h.ackFn, h.sessions, h.ids⟩
      · simp at hstep
  | database inApp =>
      obtain rfl := Option.some.inj hstep
      exact ⟨h.acked, h.ackFn, h.sessions, h.ids⟩
  | wait seconds =>
      obtain rfl := Option.some.inj hstep
      exact ⟨h.acked, h.ackFn, h.sessions, h.ids⟩

theorem Fresh.run {ok : WsWorld → WsEvent → Prop} {es : List WsEvent} (h : w.Fresh)
    (hrun : w.RunOf ok es w') : w'.Tracked :=
  hrun.invariant (fun _ _ _ htracked _ hstep => htracked.step hstep) h.tracked

theorem processed_step (hstep : w.step e = some w') :
    w'.processed = w.processed + if e.isAck then 1 else 0 := by
  cases e with
  | accept client random =>
      obtain rfl := Option.some.inj hstep
      rfl
  | hub e =>
      simp only [WsWorld.step] at hstep
      split at hstep
      · simp at hstep
      · split at hstep
        · obtain rfl := Option.some.inj hstep
          rfl
        · simp at hstep
  | message c m =>
      simp only [WsWorld.step] at hstep
      split at hstep
      · obtain rfl := Option.some.inj hstep
        cases m with
        | none => rfl
        | some m =>
            rw [receive, WsEvent.isAck]
            split
            · rfl
            · rfl
      · simp at hstep
  | database inApp =>
      obtain rfl := Option.some.inj hstep
      rfl
  | wait seconds =>
      obtain rfl := Option.some.inj hstep
      rfl

theorem processed_run {ok : WsWorld → WsEvent → Prop} {es : List WsEvent}
    (hrun : w.RunOf ok es w') : w'.processed = w.processed + es.countP WsEvent.isAck := by
  induction hrun with
  | nil w => simp
  | cons _ hstep _ ih =>
      rw [ih, processed_step hstep, List.countP_cons]
      omega

/-- What the protocol says of a step: an acknowledgement of an unread row of the client's tenant
marks it as read, no row of another tenant changes, and the counter counts. -/
structure Acknowledges (w : WsWorld) (e : WsEvent) (w' : WsWorld) : Prop where
  marks : ∀ c m x id, e = .message c (some m) → m.type = "ack" → w.hub.conns[c]? = some x →
    Uuid.read m.id = some id → w.inApp id = some ⟨x.client.tenantID, true⟩ →
    w'.inApp id = some ⟨x.client.tenantID, false⟩
  isolates : ∀ c m x id row, e = .message c (some m) → w.hub.conns[c]? = some x →
    w.inApp id = some row → row.tenantID ≠ x.client.tenantID → w'.inApp id = some row
  counts : w'.wsMessagesAcked = w'.processed

def AllAcknowledged (w₀ : WsWorld) (es : List WsEvent) : Prop :=
  ∀ before e after w w', es = before ++ e :: after → w₀.RunOf (fun _ _ => True) before w →
    w.step e = some w' → w.Acknowledges e w'

/-- `ServeWS` of the latest connection has not returned. -/
def LatestServes (w : WsWorld) : Prop :=
  ∃ x, w.hub.conns.getLast? = some x ∧ x.serve ≠ .done

theorem contextLives_iff {n : Nat} (hn : w.hub.conns.length = n + 1) :
    w.contextLives n = true ↔ w.LatestServes := by
  have hlast : w.hub.conns.getLast? = w.hub.conns[n]? := by
    rw [List.getLast?_eq_getElem?, hn]
    rfl
  rw [LatestServes, hlast, contextLives]
  cases hx : w.hub.conns[n]? with
  | none => simp
  | some x =>
      obtain ⟨client, send, closes, serve, read, write⟩ := x
      cases serve <;> simp

theorem id_ne_empty {m : WsMessage} {id : String} (hid : Uuid.read m.id = some id) :
    m.id ≠ "" := by
  intro hempty
  have hnone : Uuid.read "" = none := by decide
  rw [hempty, hnone] at hid
  simp at hid

theorem Tracked.inApp_message (h : w.Tracked) {c : Nat} {m : WsMessage} {x : Connection}
    {id : String} (htype : m.type = "ack") (hx : w.hub.conns[c]? = some x)
    (hid : Uuid.read m.id = some id) (hrow : w.inApp id = some ⟨x.client.tenantID, true⟩)
    (hstep : w.step (.message c (some m)) = some w') :
    (w.LatestServes ∧ w'.inApp = Function.update w.inApp id (some ⟨x.client.tenantID, false⟩)) ∨
      (¬w.LatestServes ∧ w'.inApp = w.inApp) := by
  obtain ⟨n, hn, hackFn⟩ := h.ackFn_of_conn hx
  have hack : m.isAck = true := by simp [WsMessage.isAck, htype, id_ne_empty hid]
  obtain ⟨client, send, closes, serve, read, write⟩ := x
  simp only [WsWorld.step, hx] at hstep
  split at hstep
  · next heq =>
      obtain rfl := Option.some.inj hstep
      cases heq
      rw [receive, if_pos hack, callAckFn_closure hackFn]
      by_cases hlives : w.contextLives n = true
      · refine .inl ⟨(contextLives_iff hn).mp hlives, ?_⟩
        rw [if_pos hlives, markRead, hid]
        simp [hrow]
      · refine .inr ⟨fun hserves => hlives ((contextLives_iff hn).mpr hserves), ?_⟩
        rw [if_neg hlives]
  · simp at hstep

theorem inApp_other {c : Nat} {m : WsMessage} (hack : m.isAck = false)
    (hstep : w.step (.message c (some m)) = some w') : w'.inApp = w.inApp := by
  simp only [WsWorld.step] at hstep
  split at hstep
  · obtain rfl := Option.some.inj hstep
    rw [receive, if_neg (by simp [hack])]
  · simp at hstep

theorem not_allAcknowledged {w₀ : WsWorld} {es : List WsEvent} (hfresh : w₀.Fresh)
    (hrun : w₀.RunOf (fun _ _ => True) es w) (he : e ∈ es) (hack : e.isAck = true) :
    ¬w₀.AllAcknowledged es := by
  intro hall
  obtain ⟨before, after, hes⟩ := List.append_of_mem he
  obtain ⟨u, u', hbefore, -, hstep⟩ := hrun.at_event hes
  have hcounts := (hall before e after u u' hes hbefore hstep).counts
  have hacked := ((hfresh.run hbefore).step hstep).acked
  have hprocessed := processed_step hstep
  rw [if_pos hack] at hprocessed
  omega

end WsWorld

/-- Acknowledgements take effect in a run if and only if there are none: `WSMessagesAcked` stays at
zero once a client has connected. Whether an acknowledgement marks its row is decided by the
latest connection, of whatever client: it does as long as that `ServeWS` has not returned. The rows
of other tenants never change. -/
theorem acks_take_effect_iff {w₀ w : WsWorld} {es : List WsEvent} (hfresh : w₀.Fresh)
    (hrun : w₀.RunOf (fun _ _ => True) es w) :
    (w₀.AllAcknowledged es ↔ ∀ e ∈ es, e.isAck = false) ∧
      ∀ c m x id w', m.type = "ack" → w.hub.conns[c]? = some x → Uuid.read m.id = some id →
        w.inApp id = some ⟨x.client.tenantID, true⟩ →
        w.step (.message c (some m)) = some w' →
        (w'.inApp id = some ⟨x.client.tenantID, false⟩ ↔ w.LatestServes) ∧
          ∀ id' row, w.inApp id' = some row → row.tenantID ≠ x.client.tenantID →
            w'.inApp id' = some row := by
  refine ⟨⟨?_, ?_⟩, ?_⟩
  · intro hall e he
    by_contra hack
    exact WsWorld.not_allAcknowledged hfresh hrun he (by simpa using hack) hall
  · intro hnone before e after u u' hes hbefore hstep
    have hack : e.isAck = false := hnone e (by simp [hes])
    have hprocessed : u.processed = 0 := by
      rw [WsWorld.processed_run hbefore, hfresh.processed, Nat.zero_add, List.countP_eq_zero]
      intro e' he'
      simp [hnone e' (by simp [hes, he'])]
    refine ⟨?_, ?_, ?_⟩
    · rintro c m x id rfl htype - hid -
      have hmessage : m.isAck = true := by
        simp [WsMessage.isAck, htype, WsWorld.id_ne_empty hid]
      rw [WsEvent.isAck, hmessage] at hack
      simp at hack
    · rintro c m x id row rfl - hrow -
      rw [WsWorld.inApp_other hack hstep]
      exact hrow
    · have hacked := ((hfresh.run hbefore).step hstep).acked
      rw [hacked, WsWorld.processed_step hstep, hprocessed, hack]
      rfl
  · intro c m x id w' htype hx hid hrow hstep
    rcases (hfresh.run hrun).inApp_message htype hx hid hrow hstep with
      ⟨hserves, hinApp⟩ | ⟨hserves, hinApp⟩
    · refine ⟨iff_of_true (by rw [hinApp, Function.update_self]) hserves, ?_⟩
      intro id' row hrow' htenant
      have hne : id' ≠ id := by
        rintro rfl
        rw [hrow] at hrow'
        exact htenant (by rw [← Option.some.inj hrow'])
      rw [hinApp, Function.update_of_ne hne]
      exact hrow'
    · refine ⟨iff_of_false ?_ hserves, ?_⟩
      · rw [hinApp, hrow]
        simp
      · intro id' row hrow' _
        rw [hinApp]
        exact hrow'

def quietProcess : WsWorld where
  hub := .new
  now := 0
  ackFn := none
  wsMessagesAcked := 0
  inApp id := if id = "00000000-0000-0000-0000-000000000001" then some ⟨"t1", true⟩ else none
  sessions := []
  ids := []
  times := []
  processed := 0

theorem quietProcess_fresh : quietProcess.Fresh := by
  constructor <;> rfl

/-- A client connects and is registered; `ServeWS` returns. -/
def clientConnects : List WsEvent :=
  [.accept ⟨"t1", "u1", "", "alice"⟩ (.error .driver), .hub (.receiveRegister 0), .hub .lock,
    .hub .process, .hub .unlock, .hub (.startWritePump 0), .hub (.startReadPump 0),
    .hub (.query 0 none)]

def rowAcknowledged : WsEvent :=
  .message 0 (some ⟨"ack", "00000000-0000-0000-0000-000000000001"⟩)

private theorem exists_ws_run (es : List WsEvent) (p : WsWorld → Bool)
    (h : (execute WsWorld.step (fun _ _ => true) quietProcess es).any p = true) :
    ∃ w, quietProcess.RunOf (fun _ _ => True) es w ∧ p w = true :=
  Run.exists_of_execute (fun _ _ _ => trivial) h

/-- A run without acknowledgements. -/
theorem acks_take_effect_without : ∃ w, quietProcess.RunOf (fun _ _ => True) clientConnects w ∧
    quietProcess.AllAcknowledged clientConnects := by
  obtain ⟨w, hrun, -⟩ := exists_ws_run clientConnects (fun _ => true) (by decide +kernel)
  exact ⟨w, hrun, (acks_take_effect_iff quietProcess_fresh hrun).1.mpr (by decide +kernel)⟩

/-- A client acknowledges an unread row of its tenant after its `ServeWS` has returned: the row
stays unread, and the counter stays at zero. -/
theorem ack_without_effect : ∃ w, quietProcess.RunOf (fun _ _ => True)
    (clientConnects ++ [rowAcknowledged]) w ∧
      (w.inApp "00000000-0000-0000-0000-000000000001").any InAppStatus.unread = true ∧
      w.wsMessagesAcked = 0 ∧ w.processed = 1 ∧
      ¬quietProcess.AllAcknowledged (clientConnects ++ [rowAcknowledged]) := by
  obtain ⟨w, hrun, hcheck⟩ := exists_ws_run (clientConnects ++ [rowAcknowledged])
    (fun w => (w.inApp "00000000-0000-0000-0000-000000000001").any InAppStatus.unread &&
      (decide (w.wsMessagesAcked = 0) && decide (w.processed = 1))) (by decide +kernel)
  simp only [Bool.and_eq_true, decide_eq_true_eq] at hcheck
  have hack : rowAcknowledged.isAck = true := by decide
  exact ⟨w, hrun, hcheck.1, hcheck.2.1, hcheck.2.2, WsWorld.not_allAcknowledged quietProcess_fresh
    hrun (List.mem_append_right _ (List.mem_singleton_self _)) hack⟩

namespace WsWorld

variable {w w₀ : WsWorld} {es : List WsEvent}

/-- No `ServeWS` and no disconnect is in progress. -/
structure Settled (w : WsWorld) : Prop where
  run : w.hub.run = .idle ∨ w.hub.run = .stopped
  conns : ∀ x ∈ w.hub.conns, x.serve = .done ∧ x.read ≠ .leaving

/-- The registered clients correspond one to one to the active rows of `websocket_sessions`, by
their connection identifiers. -/
def Mirrored (w : WsWorld) : Prop :=
  ∃ f : Nat → Nat,
    Set.BijOn f w.hub.hub.clients {i | ∃ row, w.sessions[i]? = some row ∧ row.active = true} ∧
    ∀ c ∈ w.hub.hub.clients, ∃ row id, w.sessions[f c]? = some row ∧ w.ids[c]? = some id ∧
      row.connectionID = id

theorem Tracked.mirrored_iff (h : w.Tracked) : w.Mirrored ↔ w.hub.hub.clients = ∅ := by
  constructor
  · rintro ⟨f, hbij, -⟩
    by_contra hne
    obtain ⟨c, hc⟩ := Finset.nonempty_iff_ne_empty.mpr hne
    obtain ⟨row, hrow, -⟩ := hbij.mapsTo hc
    rw [h.sessions] at hrow
    simp at hrow
  · intro hempty
    refine ⟨id, ?_, by simp [hempty]⟩
    have hnone : {i | ∃ row, w.sessions[i]? = some row ∧ row.active = true} = (∅ : Set Nat) := by
      simp [h.sessions]
    rw [hempty, hnone, Finset.coe_empty]
    exact Set.bijOn_empty id

theorem Tracked.ids_nodup_iff (h : w.Tracked) : w.ids.Nodup ↔ w.times.Nodup := by
  rw [h.ids]
  apply List.nodup_map_iff
  intro a b hab
  have hlist := congrArg String.toList hab
  simp only [String.toList_append, List.append_assoc] at hlist
  have hstamp := List.append_cancel_right (List.append_cancel_left hlist)
  exact Calendar.stamp_injective (String.toList_inj.mp hstamp)

end WsWorld

/-- The connection identifiers of a run are pairwise distinct and the active sessions mirror the
registered clients if and only if no two connections were accepted in the same second and nobody
is registered: nothing is ever recorded. -/
theorem sessions_mirror_iff {w₀ w : WsWorld} {es : List WsEvent} (hfresh : w₀.Fresh)
    (hrun : w₀.RunOf (fun _ _ => True) es w) :
    (w.ids.Nodup ∧ (w.Settled → w.Mirrored)) ↔
      w.times.Nodup ∧ (w.Settled → w.hub.hub.clients = ∅) := by
  have htracked := hfresh.run hrun
  rw [htracked.ids_nodup_iff, htracked.mirrored_iff]

def clientLeaves : List WsEvent :=
  [.hub (.readError 0), .hub (.receiveUnregister 0), .hub .lock, .hub .process, .hub .unlock]

theorem sessions_mirror_after_leaving : ∃ w, quietProcess.RunOf (fun _ _ => True)
    (clientConnects ++ clientLeaves) w ∧ w.times = [0] ∧ w.ids.Nodup ∧
      (w.Settled → w.Mirrored) := by
  obtain ⟨w, hrun, hcheck⟩ := exists_ws_run (clientConnects ++ clientLeaves)
    (fun w => decide (w.times = [0]) && decide (w.hub.hub.clients = ∅)) (by decide +kernel)
  simp only [Bool.and_eq_true, decide_eq_true_eq] at hcheck
  refine ⟨w, hrun, hcheck.1, (sessions_mirror_iff quietProcess_fresh hrun).mpr ⟨?_, fun _ => hcheck.2⟩⟩
  rw [hcheck.1]
  exact List.nodup_singleton 0

/-- Two clients that connect in the same second get the same identifier, and a registered client
has no session on record. -/
theorem connections_of_one_second : ¬∀ (w₀ w : WsWorld) (es : List WsEvent), w₀.Fresh →
    w₀.RunOf (fun _ _ => True) es w → w.ids.Nodup ∧ (w.Settled → w.Mirrored) := by
  intro h
  obtain ⟨w, hrun, hcheck⟩ := exists_ws_run
    (clientConnects ++ [.accept ⟨"t1", "u2", "", "bob"⟩ (.error .driver)])
    (fun w => decide (¬w.ids.Nodup)) (by decide +kernel)
  exact of_decide_eq_true hcheck (h _ w _ quietProcess_fresh hrun).1

end NotificationPlatform
