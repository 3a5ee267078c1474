import NotificationPlatform.Lib.Program
import NotificationPlatform.Database

/-!
# Calls to the database, the broker and the provider

Every interaction of the Go code with PostgreSQL, Redis, RabbitMQ or a provider is one call.
A call names the place in the code it is made from, so that a fault plan can say which call
fails. `Sys.exec` is the effect of a call on the shared state; the environment chooses the
outcome. A call that fails changes nothing.
-/

namespace NotificationPlatform

open Lib

/-- `providers.Message`; the code leaves the subject and the body empty. -/
structure ProviderMessage where
  tenantID : String
  notificationID : Nat
  deliveryID : Nat
  channel : String
  recipient : String
  data : JsonMap

/-- `providers.Result`, as far as it is stored. -/
structure ProviderResult where
  providerMessageID : String
  raw : Json

inductive Stmt where
  -- the gates of `Send`
  | selectTenantStatus (tenantID : String)
  | selectFeature (tenantID key : String)
  | selectChannelConfig (tenantID channel : String)
  | allow (tenantID channel : String)
  -- the transaction of `Send`
  | begin
  | insertNotification (row : Notification)
  | insertScheduledJob (row : ScheduledJob)
  | insertTxDelivery (row : DeliveryRow)
  | commit (tx : Tx)
  -- `RouteDueScheduled`
  | selectDue
  | scanDue (row : DueRow)
  | insertDelivery (row : DeliveryRow)
  | markRouted (jobID : Nat)
  -- queue controls
  | ensureControl (tenantID channel : String)
  | getControl (tenantID channel : String)
  -- the updates of a delivery
  | markPaused (id : Nat)
  | markBlocked (id : Nat)
  | markSending (id : Nat)
  | storeResult (id : Nat) (status : DeliveryStatus) (providerMessageID : Option String)
      (response : Json)
  | insertAttempt (tenantID : String) (id : Nat) (status : DeliveryStatus) (response : Json)
  | markDead (id : Nat)
  | storeRetryCount (id : Nat) (attempt : Nat)
  -- the provider and the broker
  | providerSend (message : ProviderMessage)
  | publish (queue : Queue) (job : Job)
  | ack (d : Delivery)
  | nack (d : Delivery) (requeue : Bool)

@[reducible] def Result : Stmt → Type
  | .selectTenantStatus _ => TenantStatus
  | .selectFeature _ _ => Bool
  | .selectChannelConfig _ _ => ChannelConfig
  | .allow _ _ => Bool
  | .insertNotification _ => Nat
  | .insertScheduledJob _ => Nat
  | .insertTxDelivery _ => Nat
  | .selectDue => List DueRow
  | .insertDelivery _ => Nat
  | .ensureControl _ _ => Control
  | .getControl _ _ => Control
  | .providerSend _ => ProviderResult
  | _ => Unit

inductive SendOp where
  | ensureActive
  | feature
  | validate
  | allow
  | begin
  | insertNotification
  | insertScheduledJob
  | insertDelivery
  | ensureControl
  | publish
  | commit
  deriving DecidableEq, Repr

/-- The calls of `RouteDueScheduled` for one job. -/
inductive RouteOp where
  | scan
  | insertDelivery
  | ensureControl
  | publish
  | mark
  deriving DecidableEq, Repr

/-- Where in the code a call is made: the call of a loop over channels carries its iteration,
a call of the scheduler also its job. -/
inductive Site where
  | send (op : SendOp) (i : Nat)
  | select
  | route (op : RouteOp) (jobID i : Nat)
  | worker
  | retryLoop
  | deadLetters
  deriving DecidableEq, Repr

structure Call where
  site : Site
  stmt : Stmt

/-- Every call of the code returns a value or an error. -/
abbrev Reply (c : Call) : Type := Except Err (Result c.stmt)

/-- Code that makes calls, and code that may also return an error. -/
abbrev Code := Prog Call Reply
abbrev Go := ExceptT Err Code

def invoke (site : Site) (stmt : Stmt) : Code (Except Err (Result stmt)) :=
  Prog.perform (⟨site, stmt⟩ : Call)

def call (site : Site) (stmt : Stmt) : Go (Result stmt) := ExceptT.mk (invoke site stmt)

def attempt (site : Site) (stmt : Stmt) : Go (Except Err (Result stmt)) :=
  ExceptT.lift (invoke site stmt)

structure Outcome where
  fail : Bool := false
  allowed : Bool := true
  messageID : String := ""
  raw : Json := .obj []

/-- Who makes a call: a `Send` request, a scheduler pass, or the consumer of a message. -/
inductive Party where
  | request (tenantID : String) (req : Request)
  | pass (id : Nat)
  | consumer (d : Delivery)

structure Broker where
  ready : List Message
  unacked : List Delivery
  nextTag : Nat

structure ProviderCall where
  message : ProviderMessage
  ok : Bool
  party : Party

structure Publication where
  party : Party
  queue : Queue
  job : Job

/-- The shared state, with the history of provider calls, publications, notification inserts
and scheduler queries, oldest first. -/
structure Sys where
  db : Db
  broker : Broker
  calls : List ProviderCall
  published : List Publication
  inserted : List (Nat × Notification)
  selected : List (Nat × Db)

namespace Sys

def withDb (s : Sys) (r : Except Err Db) : Except Err (Unit × Sys) :=
  r.map fun db => ((), { s with db := db })

@[simps] def fresh (s : Sys) : Sys := { s with db := { s.db with nextId := s.db.nextId + 1 } }

@[simps] def addPublication (s : Sys) (party : Party) (queue : Queue) (job : Job) : Sys :=
  { s with
    broker := { s.broker with ready := s.broker.ready ++ [⟨queue, some job⟩] }
    published := s.published ++ [⟨party, queue, job⟩] }

@[simps] def settle (s : Sys) (d : Delivery) : Sys :=
  { s with broker := { s.broker with
      unacked := s.broker.unacked.filter (fun u => u.tag != d.tag) } }

/-- The broker forgets a delivery tag and puts the message back into its queue. -/
@[simps] def requeue (s : Sys) (d : Delivery) : Sys :=
  { s with broker := { s.broker with
      unacked := s.broker.unacked.filter (fun u => u.tag != d.tag)
      ready := s.broker.ready ++ [d.message] } }

def knows (s : Sys) (d : Delivery) : Bool := s.broker.unacked.any (fun u => u.tag == d.tag)

def perform (cfg : Config) (party : Party) (o : Outcome) (s : Sys) :
    (st : Stmt) → Except Err (Result st × Sys)
  | .selectTenantStatus tenantID => (s.db.tenantStatus tenantID).map (·, s)
  | .selectFeature tenantID key => (s.db.featureEnabled tenantID key).map (·, s)
  | .selectChannelConfig tenantID channel => (s.db.channelConfig tenantID channel).map (·, s)
  | .allow _ _ => .ok (o.allowed, s)
  | .begin => .ok ((), s)
  | .insertNotification row =>
      .ok (s.db.nextId, { s.fresh with inserted := s.inserted ++ [(s.db.nextId, row)] })
  | .insertScheduledJob _ => .ok (s.db.nextId, s.fresh)
  | .insertTxDelivery _ => .ok (s.db.nextId, s.fresh)
  | .commit tx => .ok ((), { s with db := s.db.commit tx })
  | .selectDue => .ok (s.db.dueRows,
      match party with
      | .pass id => { s with selected := s.selected ++ [(id, s.db)] }
      | _ => s)
  | .scanDue _ => .ok ((), s)
  | .insertDelivery row => .ok (s.db.nextId, { s with db := s.db.insertDelivery row })
  | .markRouted jobID => .ok ((), { s with db := s.db.markRouted jobID })
  | .ensureControl tenantID channel =>
      (s.db.ensureControl cfg tenantID channel).map fun r => (r.1, { s with db := r.2 })
  | .getControl tenantID channel =>
      (s.db.getControl cfg tenantID channel).map fun r => (r.1, { s with db := r.2 })
  | .markPaused id => s.withDb (s.db.updateDelivery id (Db.mark .queued "queue_status" "paused"))
  | .markBlocked id =>
      s.withDb (s.db.updateDelivery id (Db.mark .blocked "queue_status" "stopped"))
  | .markSending id => s.withDb (s.db.updateDelivery id Db.markSending)
  | .storeResult id status providerMessageID response =>
      s.withDb (s.db.updateDelivery id
        (Db.storeResult s.db.now status providerMessageID response))
  | .insertAttempt tenantID id status response =>
      s.withDb (s.db.insertAttempt tenantID id status response)
  | .markDead id =>
      s.withDb (s.db.updateDelivery id (Db.mark .dead "dead_letter" "max_retries_exceeded"))
  | .storeRetryCount id attempt => s.withDb (s.db.updateDelivery id (Db.storeRetryCount attempt))
  | .providerSend message =>
      .ok (⟨o.messageID, o.raw⟩, { s with calls := s.calls ++ [⟨message, true, party⟩] })
  | .publish queue job => .ok ((), s.addPublication party queue job)
  | .ack d => .ok ((), s.settle d)
  | .nack d again =>
      .ok ((), if again && s.knows d then s.requeue d else s.settle d)

def failed (s : Sys) (party : Party) : Stmt → Sys
  | .providerSend message => { s with calls := s.calls ++ [⟨message, false, party⟩] }
  | _ => s

def exec (cfg : Config) (party : Party) (c : Call) (o : Outcome) (s : Sys) : Reply c × Sys :=
  if o.fail then (.error .driver, s.failed party c.stmt)
  else
    match s.perform cfg party o c.stmt with
    | .ok (r, s') => (.ok r, s')
    | .error e => (.error e, s)

end Sys

end NotificationPlatform
