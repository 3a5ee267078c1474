import NotificationPlatform.World

/-!
# The protocol of the pipeline

Which calls each party may make, in which order, and what it knows after each reply. The code is
checked against the protocol once; what holds in every state of the running system is then
proved from the protocol, by cases on the call that is made.
-/

namespace NotificationPlatform

open Lib

inductive Phase where
  | received
  /-- the queue control could not be read, or the stop could not be recorded -/
  | refused
  | checked (status : ControlStatus)
  | paused
  | sending
  | called (result : Except Err ProviderResult)
  /-- the status that stands for the answer has been written -/
  | stored (result : Except Err ProviderResult)
  /-- `handle` has returned an error -/
  | failed
  /-- the job has been published again -/
  | moved
  /-- the job could not be published again, or its end could not be recorded -/
  | lost
  /-- a final status has been written -/
  | settled
  | closed

/-- What a `Send` call has found out about its gates. -/
inductive GateFact where
  | active
  | feature (channel : String)
  | valid (channel : String)

/-- How far a party has come. A flag says whether the queue control of the current channel has
been ensured. -/
inductive Stage where
  | consumer (phase : Phase)
  | gates (facts : List GateFact)
  | begun
  /-- the transaction, every delivery of which has been published -/
  | open (notificationID : Nat) (tx : Tx) (todo : List String)
  /-- the last delivery of the transaction has not been published yet -/
  | creating (notificationID deliveryID : Nat) (tx : Tx) (channel : String)
      (todo : List String) (ensured : Bool)
  /-- the transaction with its scheduled job -/
  | filed (tx : Tx)
  | passing
  | between (rows : List DueRow)
  | routing (row : DueRow) (done todo : List String) (rest : List DueRow)
  /-- the delivery of the current channel has not been published yet -/
  | adding (row : DueRow) (deliveryID : Nat) (done : List String) (channel : String)
      (todo : List String) (rest : List DueRow) (ensured : Bool)
  | over

def Stage.ended : Stage → Bool
  | .consumer .closed | .gates _ | .between [] | .over => true
  | _ => false

def Stage.onOk {α : Type} (r : Except Err α) (f : α → Stage) : Stage :=
  match r with
  | .ok a => f a
  | .error _ => .over

def Queue.isChannel : Queue → Bool
  | .scheduler | .retry | .dead => false
  | .router | .email | .sms | .fcm | .websocket => true

def GatesPassed (req : Request) (facts : List GateFact) : Prop :=
  .active ∈ facts ∧ ∀ c ∈ req.channels, .feature c ∈ facts ∧ .valid c ∈ facts

/-- The calls the protocol allows a party, with the stage each reply leads to. -/
inductive Allowed (cfg : Config) :
    Party → Stage → (c : Call) → (Reply c → Stage) → Prop
  -- the consumer of a channel queue
  | getControl {d : Delivery} {job : Job} (hbody : d.message.body = some job)
      (hqueue : d.message.queue.isChannel = true) :
      Allowed cfg (.consumer d) (.consumer .received)
        ⟨.worker, .getControl job.tenantID job.channel⟩
        (fun r => .consumer (match r with
          | .ok control => .checked control.status
          | .error _ => .refused))
  | markPaused {d : Delivery} {job : Job} (hbody : d.message.body = some job) :
      Allowed cfg (.consumer d) (.consumer (.checked .paused))
        ⟨.worker, .markPaused job.deliveryID⟩ (fun _ => .consumer .paused)
  | markBlocked {d : Delivery} {job : Job} (hbody : d.message.body = some job) :
      Allowed cfg (.consumer d) (.consumer (.checked .stopped))
        ⟨.worker, .markBlocked job.deliveryID⟩
        (fun r => .consumer (match r with
          | .ok _ => .settled
          | .error _ => .refused))
  | markSending {d : Delivery} {job : Job} (hbody : d.message.body = some job) :
      Allowed cfg (.consumer d) (.consumer (.checked .active))
        ⟨.worker, .markSending job.deliveryID⟩ (fun _ => .consumer .sending)
  | providerSend {d : Delivery} {job : Job} (hbody : d.message.body = some job) :
      Allowed cfg (.consumer d) (.consumer .sending)
        ⟨.worker, .providerSend (Worker.providerMessage job)⟩ (fun r => .consumer (.called r))
  | storeResult {d : Delivery} {job : Job} {result : Except Err ProviderResult}
      (hbody : d.message.body = some job) :
      Allowed cfg (.consumer d) (.consumer (.called result))
        ⟨.worker, .storeResult job.deliveryID (Worker.resultStatus result)
          (Worker.resultMessageID result) (Worker.resultResponse result)⟩
        (fun r => .consumer (match r with
          | .ok _ => .stored result
          | .error _ => .failed))
  | insertAttempt {d : Delivery} {job : Job} {result : Except Err ProviderResult}
      (hbody : d.message.body = some job) :
      Allowed cfg (.consumer d) (.consumer (.stored result))
        ⟨.worker, .insertAttempt job.tenantID job.deliveryID (Worker.resultStatus result)
          (Worker.resultResponse result)⟩
        (fun r => .consumer (match result, r with
          | .ok _, .ok _ => .settled
          | _, _ => .failed))
  | publishRetry {d : Delivery} {job : Job} (hbody : d.message.body = some job) :
      Allowed cfg (.consumer d) (.consumer .failed)
        ⟨.worker, .publish .retry { job with attempt := job.attempt + 1 }⟩
        (fun r => .consumer (match r with
          | .ok _ => .moved
          | .error _ => .lost))
  -- the consumers of the retry and the dead queue
  | publishDead {d : Delivery} {job : Job} (hbody : d.message.body = some job)
      (hqueue : d.message.queue = .retry) (htries : cfg.maxDeliveryTries ≤ job.attempt) :
      Allowed cfg (.consumer d) (.consumer .received) ⟨.retryLoop, .publish .dead job⟩
        (fun r => .consumer (match r with
          | .ok _ => .moved
          | .error _ => .lost))
  | publishAgain {d : Delivery} {job : Job} (hbody : d.message.body = some job)
      (hqueue : d.message.queue = .retry) (htries : ¬cfg.maxDeliveryTries ≤ job.attempt) :
      Allowed cfg (.consumer d) (.consumer .received)
        ⟨.retryLoop, .publish (Retry.channelQueue job.channel)
          { job with attempt := job.attempt + 1 }⟩
        (fun r => .consumer (match r with
          | .ok _ => .moved
          | .error _ => .lost))
  | storeRetryCount {d : Delivery} {job : Job} (hbody : d.message.body = some job)
      (hqueue : d.message.queue = .retry) (htries : ¬cfg.maxDeliveryTries ≤ job.attempt) :
      Allowed cfg (.consumer d) (.consumer .moved)
        ⟨.retryLoop, .storeRetryCount job.deliveryID (job.attempt + 1)⟩
        (fun _ => .consumer .moved)
  | markDead {d : Delivery} {job : Job} (hbody : d.message.body = some job)
      (hqueue : d.message.queue = .dead) :
      Allowed cfg (.consumer d) (.consumer .received) ⟨.deadLetters, .markDead job.deliveryID⟩
        (fun r => .consumer (match r with
          | .ok _ => .settled
          | .error _ => .lost))
  -- settling a message
  | ack {d : Delivery} {phase : Phase} {site : Site}
      (hphase : phase = .settled ∨ phase = .moved ∨ phase = .lost) :
      Allowed cfg (.consumer d) (.consumer phase) ⟨site, .ack d⟩ (fun _ => .consumer .closed)
  | nackRequeue {d : Delivery} {phase : Phase} (hphase : phase = .refused ∨ phase = .paused) :
      Allowed cfg (.consumer d) (.consumer phase) ⟨.worker, .nack d true⟩
        (fun _ => .consumer .closed)
  | nackDiscard {d : Delivery} {phase : Phase} {site : Site}
      (hphase : phase = .lost ∨ phase = .received ∧ d.message.body = none) :
      Allowed cfg (.consumer d) (.consumer phase) ⟨site, .nack d false⟩
        (fun _ => .consumer .closed)
  -- a `Send` request
  | selectTenantStatus {t : String} {req : Request} {facts : List GateFact} :
      Allowed cfg (.request t req) (.gates facts)
        ⟨.send .ensureActive 0, .selectTenantStatus t⟩
        (fun r => .onOk r fun status =>
          if status = .active then .gates (facts ++ [.active]) else .over)
  | selectFeature {t : String} {req : Request} {facts : List GateFact} {channel : String}
      {i : Nat} (hchannel : channel ∈ req.channels) :
      Allowed cfg (.request t req) (.gates facts)
        ⟨.send .feature i, .selectFeature t ("channel." ++ channel)⟩
        (fun r => .onOk r fun enabled =>
          if enabled then .gates (facts ++ [.feature channel]) else .over)
  | selectChannelConfig {t : String} {req : Request} {facts : List GateFact} {channel : String}
      {i : Nat} (hchannel : channel ∈ req.channels) :
      Allowed cfg (.request t req) (.gates facts)
        ⟨.send .validate i, .selectChannelConfig t channel⟩
        (fun r => .onOk r fun config =>
          .onOk (Notifications.checkConfig config "one_way") fun _ =>
            .gates (facts ++ [.valid channel]))
  | allow {t : String} {req : Request} {facts : List GateFact} {channel : String} {i : Nat} :
      Allowed cfg (.request t req) (.gates facts) ⟨.send .allow i, .allow t channel⟩
        (fun _ => .gates facts)
  | begin {t : String} {req : Request} {facts : List GateFact} (hgates : GatesPassed req facts) :
      Allowed cfg (.request t req) (.gates facts) ⟨.send .begin 0, .begin⟩
        (fun r => .onOk r fun _ => .begun)
  | insertNotification {t publicID : String} {req : Request} {scheduledAt : Option Nat}
      {status : NotificationStatus}
      (hstate : scheduleState cfg req.withDefaultSchedule.schedule = .ok (scheduledAt, status)) :
      Allowed cfg (.request t req) .begun
        ⟨.send .insertNotification 0, .insertNotification (Notifications.newNotification t
          publicID req.withDefaultSchedule scheduledAt status)⟩
        (fun r => .onOk r fun n => .open n ⟨(n, Notifications.newNotification t publicID
          req.withDefaultSchedule scheduledAt status), [], none⟩ req.withDefaultSchedule.channels)
  | insertScheduledJob {t : String} {req : Request} {n dueAt : Nat} {tx : Tx}
      {todo : List String} (hempty : tx.deliveries = [])
      (hdue : tx.notification.2.scheduledAt = some dueAt) :
      Allowed cfg (.request t req) (.open n tx todo)
        ⟨.send .insertScheduledJob 0, .insertScheduledJob ⟨t, n, dueAt, .pending⟩⟩
        (fun r => .onOk r fun jobID =>
          .filed { tx with job := some (jobID, ⟨t, n, dueAt, .pending⟩) })
  | insertTxDelivery {t channel : String} {req : Request} {n i : Nat} {tx : Tx} {target : Json}
      {todo : List String} (hinstant : tx.notification.2.scheduledAt = none) :
      Allowed cfg (.request t req) (.open n tx (channel :: todo))
        ⟨.send .insertDelivery i, .insertTxDelivery (Db.newDelivery t n channel target)⟩
        (fun r => .onOk r fun id => .creating n id { tx with
          deliveries := tx.deliveries ++ [(id, Db.newDelivery t n channel target)] }
          channel todo false)
  | sendEnsureControl {t channel : String} {req : Request} {n i id : Nat} {tx : Tx}
      {todo : List String} :
      Allowed cfg (.request t req) (.creating n id tx channel todo false)
        ⟨.send .ensureControl i, .ensureControl t channel⟩
        (fun r => .onOk r fun _ => .creating n id tx channel todo true)
  | sendPublish {t channel queueName : String} {req : Request} {n i id : Nat} {tx : Tx}
      {todo : List String} :
      Allowed cfg (.request t req) (.creating n id tx channel todo true)
        ⟨.send .publish i, .publish (Notifications.channelQueue channel)
          (Notifications.newJob t n id channel queueName
            (jobPayload req.data req.target.recipient))⟩
        (fun r => .onOk r fun _ => .open n tx todo)
  | commit {t : String} {req : Request} {tx : Tx} {stage : Stage}
      (hstage : (∃ n, stage = .open n tx []) ∨ stage = .filed tx) :
      Allowed cfg (.request t req) stage ⟨.send .commit 0, .commit tx⟩ (fun _ => .over)
  -- a scheduler pass
  | selectDue {id : Nat} :
      Allowed cfg (.pass id) .passing ⟨.select, .selectDue⟩
        (fun r => .onOk r fun rows => .between rows)
  | scanDue {id : Nat} {row : DueRow} {rest : List DueRow} :
      Allowed cfg (.pass id) (.between (row :: rest))
        ⟨.route .scan row.jobID 0, .scanDue row⟩
        (fun r => .onOk r fun _ => .routing row [] row.channelList rest)
  | insertDelivery {id : Nat} {row : DueRow} {done todo : List String} {channel : String}
      {rest : List DueRow} :
      Allowed cfg (.pass id) (.routing row done (channel :: todo) rest)
        ⟨.route .insertDelivery row.jobID done.length, .insertDelivery
          (Db.newDelivery row.tenantID row.notificationID channel (.obj []))⟩
        (fun r => .onOk r fun new => .adding row new done channel todo rest false)
  | routeEnsureControl {id new : Nat} {row : DueRow} {done todo : List String}
      {channel : String} {rest : List DueRow} :
      Allowed cfg (.pass id) (.adding row new done channel todo rest false)
        ⟨.route .ensureControl row.jobID done.length, .ensureControl row.tenantID channel⟩
        (fun r => .onOk r fun _ => .adding row new done channel todo rest true)
  | routePublish {id new : Nat} {row : DueRow} {done todo : List String}
      {channel queueName : String} {rest : List DueRow} :
      Allowed cfg (.pass id) (.adding row new done channel todo rest true)
        ⟨.route .publish row.jobID done.length, .publish (Notifications.channelQueue channel)
          (Notifications.newJob row.tenantID row.notificationID new channel queueName
            row.payload)⟩
        (fun r => .onOk r fun _ => .routing row (done ++ [channel]) todo rest)
  | markRouted {id : Nat} {row : DueRow} {done : List String} {rest : List DueRow} :
      Allowed cfg (.pass id) (.routing row done [] rest)
        ⟨.route .mark row.jobID 0, .markRouted row.jobID⟩
        (fun r => .onOk r fun _ => .between rest)

end NotificationPlatform
