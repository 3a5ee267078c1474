import NotificationPlatform.Lib.Run
import NotificationPlatform.Notifications
import NotificationPlatform.Delivery
import NotificationPlatform.Retry

/-!
# The running system

Any number of `Send` requests, scheduler passes and message consumers run side by side, one call
at a time in any order, while administrators change the configuration. A consumer takes one
message and is a thread of its own; any number of worker processes per queue is a special case.
-/

namespace NotificationPlatform

open Lib

inductive AdminAction where
  | tenantStatus (tenantID : String) (status : TenantStatus)
  | tenantSlug (tenantID slug : String)
  | feature (row : TenantFeature)
  | channel (row : TenantChannel)
  | platformChannel (row : PlatformChannel)
  | providerConfigs (tenantID : String) (rows : List ProviderConfig)
  | platformProvider (row : PlatformProvider)
  | controlStatus (controlID : Nat) (status : ControlStatus)

def upsert {α : Type} (rows : List α) (same : α → Bool) (row : α) : List α :=
  if rows.any same then rows.map (fun r => if same r then row else r) else rows ++ [row]

def Db.admin (db : Db) : AdminAction → Db
  | .tenantStatus tenantID status =>
      { db with
        tenants := db.tenants.map fun t =>
          if t.id = tenantID then { t with status := status } else t }
  | .tenantSlug tenantID slug =>
      { db with
        tenants := db.tenants.map fun t =>
          if t.id = tenantID then { t with slug := slug } else t }
  | .feature row =>
      { db with
        features := upsert db.features
          (fun f => f.tenantID == row.tenantID && f.featureKey == row.featureKey) row }
  | .channel row =>
      { db with
        channels := upsert db.channels
          (fun c => c.tenantID == row.tenantID && c.channel == row.channel) row }
  | .platformChannel row =>
      { db with
        platformChannels := upsert db.platformChannels (fun p => p.channel == row.channel) row }
  | .providerConfigs tenantID rows =>
      { db with
        providerConfigs := db.providerConfigs.filter (fun c => c.tenantID != tenantID) ++
          rows.map (fun c => { c with tenantID := tenantID }) }
  | .platformProvider row =>
      { db with
        platformProviders := upsert db.platformProviders (fun p => p.provider == row.provider) row }
  | .controlStatus controlID status =>
      { db with
        controls := db.controls.map fun c =>
          if c.id = controlID then { c with status := status } else c }

structure Thread where
  party : Party
  prog : Code Unit

structure World where
  sys : Sys
  threads : List Thread

inductive Event where
  | request (unixNano : Nat) (tenantID : String) (req : Request)
  | tick
  | deliver (i : Nat)
  | step (i : Nat) (o : Outcome)
  | admin (a : AdminAction)
  | clock (seconds : Nat)
  | crash (i : Nat)
  | requeue (i : Nat)

def consumer (cfg : Config) (d : Delivery) : Option (Code Unit) :=
  match d.message.queue with
  | .scheduler => none
  | .retry => some (Retry.retryLoop cfg d)
  | .dead => some (Retry.retryDeadLetters d)
  | .router | .email | .sms | .fcm | .websocket => some (Worker.run d)

def forget {α : Type} (p : Go α) : Code Unit := p.run >>= fun _ => .ret ()

@[simps] def Sys.deliver (s : Sys) (i : Nat) (d : Delivery) : Sys :=
  { s with broker := { s.broker with
      ready := s.broker.ready.eraseIdx i
      unacked := s.broker.unacked ++ [d]
      nextTag := s.broker.nextTag + 1 } }

namespace World

def spawn (w : World) (party : Party) (prog : Code Unit) : World :=
  { w with threads := w.threads ++ [⟨party, prog⟩] }

def step (cfg : Config) (w : World) : Event → Option World
  | .request unixNano tenantID req =>
      some (w.spawn (.request tenantID req)
        (forget (Notifications.send cfg unixNano tenantID req)))
  | .tick => some (w.spawn (.pass w.threads.length) (forget Notifications.routeDueScheduled))
  | .deliver i =>
      match w.sys.broker.ready[i]? with
      | none => none
      | some m =>
          let d : Delivery := ⟨w.sys.broker.nextTag, m⟩
          (consumer cfg d).map fun prog =>
            spawn { w with sys := w.sys.deliver i d } (.consumer d) prog
  | .step i o =>
      match w.threads[i]? with
      | none => none
      | some th =>
          match th.prog with
          | .ret _ => none
          | .call c k =>
              let r := w.sys.exec cfg th.party c o
              some ⟨r.2, w.threads.set i { th with prog := k r.1 }⟩
  | .admin a => some { w with sys := { w.sys with db := w.sys.db.admin a } }
  | .clock seconds =>
      some { w with sys := { w.sys with db := { w.sys.db with now := w.sys.db.now + seconds } } }
  -- a crashed consumer's message stays unacknowledged until the broker requeues it
  | .crash i =>
      match w.threads[i]? with
      | none => none
      | some th => some { w with threads := w.threads.set i { th with prog := .ret () } }
  | .requeue i =>
      match w.sys.broker.unacked[i]? with
      | none => none
      | some d => some { w with sys := w.sys.requeue d }

/-- What an event does, as far as an assumption about the environment can speak of it. -/
inductive Label where
  | request (tenantID : String) (req : Request)
  | tick
  | deliver (m : Message)
  | call (party : Party) (c : Call) (o : Outcome)
  | admin (a : AdminAction)
  | clock
  | crash (party : Party)
  | requeue
  | none

def label (w : World) : Event → Label
  | .request _ tenantID req => .request tenantID req
  | .tick => .tick
  | .deliver i =>
      match w.sys.broker.ready[i]? with
      | some m => .deliver m
      | none => .none
  | .step i o =>
      match w.threads[i]? with
      | some ⟨party, .call c _⟩ => .call party c o
      | _ => .none
  | .admin a => .admin a
  | .clock _ => .clock
  | .crash i =>
      match w.threads[i]? with
      | some th => .crash th.party
      | none => .none
  | .requeue _ => .requeue

/-- A run of the system whose events all meet a condition on the state they are taken in. -/
abbrev RunOf (cfg : Config) (ok : World → Label → Prop) : World → List Event → World → Prop :=
  Run (step cfg) (fun w e => ok w (w.label e))

/-- A system into which nothing has been sent yet: any tenants, configuration and controls. -/
structure Fresh (w : World) : Prop where
  threads : w.threads = []
  ready : w.sys.broker.ready = []
  unacked : w.sys.broker.unacked = []
  deliveries : w.sys.db.deliveries = Table.empty
  notifications : w.sys.db.notifications = Table.empty
  scheduledJobs : w.sys.db.scheduledJobs = Table.empty
  calls : w.sys.calls = []
  published : w.sys.published = []
  inserted : w.sys.inserted = []
  selected : w.sys.selected = []

theorem exists_run (cfg : Config) (ok : World → Label → Prop) [∀ w l, Decidable (ok w l)]
    (w : World) (es : List Event) (p : World → Bool)
    (h : (execute (step cfg) (fun w e => decide (ok w (w.label e))) w es).any p = true) :
    ∃ w', w.RunOf cfg ok es w' ∧ p w' = true :=
  Run.exists_of_execute (fun _ _ hok => of_decide_eq_true hok) h

end World

/-! ## A small deployment -/

def sampleConfig (maxDeliveryTries : Int) : Config where
  maxDeliveryTries := maxDeliveryTries
  toLower := Char.toLower
  parseRFC3339 := fun s => if s = "2026-06-28T10:00:00Z" then some 10 else none

def sampleDb : Db where
  tenants := [⟨"t1", "acme", .active⟩]
  features := [⟨"t1", "channel.email", true⟩, ⟨"t1", "channel.sms", true⟩]
  channels := [⟨"t1", "email", true, "one_way"⟩, ⟨"t1", "sms", true, "one_way"⟩]
  platformChannels := [⟨"email", true⟩, ⟨"sms", true⟩]
  providerConfigs := [⟨"t1", "email", "mock", true, "active"⟩, ⟨"t1", "sms", "mock", true, "active"⟩]
  platformProviders := [⟨"mock", true⟩]
  controls := []
  notifications := Table.empty
  deliveries := Table.empty
  scheduledJobs := Table.empty
  attempts := []
  nextId := 0
  now := 0

def sampleWorld : World := ⟨⟨sampleDb, ⟨[], [], 0⟩, [], [], [], []⟩, []⟩

def sampleRequest (channels : List String) (schedule : Schedule) (idempotencyKey : String) :
    Request :=
  ⟨"order.created", channels, "order", ⟨"contact", some (JsonMap.empty.set "email" (.str "a@b.c")),
    "c1"⟩, none, 5, schedule, idempotencyKey⟩

theorem sampleWorld_fresh : sampleWorld.Fresh := by
  constructor <;> rfl

def steps (i n : Nat) : List Event := List.replicate n (.step i {})

def failure (i : Nat) : Event := .step i { fail := true }

end NotificationPlatform
