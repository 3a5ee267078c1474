import NotificationPlatform.Conformance

/-!
# What a call can do

Each call the protocol allows, with the change it makes to the shared state and the stage it
leads to. Invariants of the running system are proved by cases on `Effect`; nothing above this
module looks into `Sys.exec` again.
-/

namespace NotificationPlatform

open Lib

def Sys.succeeds (cfg : Config) (party : Party) (c : Call) (o : Outcome) (s : Sys) : Bool :=
  (s.exec cfg party c o).1.isOk

/-- What a fact about the gates says of the database. -/
def GateFact.Holds (t : String) (db : Db) : GateFact → Prop
  | .active => db.tenantStatus t = .ok .active
  | .feature c => db.featureEnabled t ("channel." ++ c) = .ok true
  | .valid c => ∃ config, db.channelConfig t c = .ok config ∧
      Notifications.checkConfig config "one_way" = .ok ()

/-- The updates a consumer makes to the row of its job: from which phase, by which call, to
what, and the phases a success and an error lead to. -/
inductive Writes (cfg : Config) (d : Delivery) (job : Job) (now : Nat) :
    Phase → Call → (DeliveryRow → Option DeliveryRow) → Phase → Phase → Prop
  | paused : Writes cfg d job now (.checked .paused) ⟨.worker, .markPaused job.deliveryID⟩
      (Db.mark .queued "queue_status" "paused") .paused .paused
  | blocked : Writes cfg d job now (.checked .stopped) ⟨.worker, .markBlocked job.deliveryID⟩
      (Db.mark .blocked "queue_status" "stopped") .settled .refused
  | sending : Writes cfg d job now (.checked .active) ⟨.worker, .markSending job.deliveryID⟩
      Db.markSending .sending .sending
  | result (r : Except Err ProviderResult) :
      Writes cfg d job now (.called r)
        ⟨.worker, .storeResult job.deliveryID (Worker.resultStatus r) (Worker.resultMessageID r)
          (Worker.resultResponse r)⟩
        (Db.storeResult now (Worker.resultStatus r) (Worker.resultMessageID r)
          (Worker.resultResponse r))
        (.stored r) .failed
  | retryCount (hqueue : d.message.queue = .retry) (htries : ¬cfg.maxDeliveryTries ≤ job.attempt) :
      Writes cfg d job now .moved ⟨.retryLoop, .storeRetryCount job.deliveryID (job.attempt + 1)⟩
        (Db.storeRetryCount (job.attempt + 1)) .moved .moved
  | dead (hqueue : d.message.queue = .dead) :
      Writes cfg d job now .received ⟨.deadLetters, .markDead job.deliveryID⟩
        (Db.mark .dead "dead_letter" "max_retries_exceeded") .settled .lost

inductive Republishes (cfg : Config) (d : Delivery) (job : Job) :
    Phase → Call → Queue → Job → Prop
  | retry : Republishes cfg d job .failed
      ⟨.worker, .publish .retry { job with attempt := job.attempt + 1 }⟩
      .retry { job with attempt := job.attempt + 1 }
  | dead (hqueue : d.message.queue = .retry) (htries : cfg.maxDeliveryTries ≤ job.attempt) :
      Republishes cfg d job .received ⟨.retryLoop, .publish .dead job⟩ .dead job
  | again (hqueue : d.message.queue = .retry) (htries : ¬cfg.maxDeliveryTries ≤ job.attempt) :
      Republishes cfg d job .received
        ⟨.retryLoop, .publish (Retry.channelQueue job.channel)
          { job with attempt := job.attempt + 1 }⟩
        (Retry.channelQueue job.channel) { job with attempt := job.attempt + 1 }

/-- What a call does: from a stage, by a call that succeeds or not, to a stage and a state. -/
inductive Effect (cfg : Config) (s : Sys) : Party → Stage → Call → Bool → Stage → Sys → Prop
  -- a consumer
  | getControl {d : Delivery} {job : Job} {control : Control} {db : Db}
      (hbody : d.message.body = some job) (hqueue : d.message.queue.isChannel = true)
      (hget : s.db.getControl cfg job.tenantID job.channel = .ok (control, db)) :
      Effect cfg s (.consumer d) (.consumer .received)
        ⟨.worker, .getControl job.tenantID job.channel⟩ true
        (.consumer (.checked control.status)) { s with db := db }
  | getControlError {d : Delivery} {job : Job} (hbody : d.message.body = some job)
      (hqueue : d.message.queue.isChannel = true) :
      Effect cfg s (.consumer d) (.consumer .received)
        ⟨.worker, .getControl job.tenantID job.channel⟩ false (.consumer .refused) s
  | write {d : Delivery} {job : Job} {phase onOk onError : Phase} {c : Call}
      {f : DeliveryRow → Option DeliveryRow} {db : Db} (hbody : d.message.body = some job)
      (hwrites : Writes cfg d job s.db.now phase c f onOk onError)
      (hdb : s.db.updateDelivery job.deliveryID f = .ok db) :
      Effect cfg s (.consumer d) (.consumer phase) c true (.consumer onOk) { s with db := db }
  | writeError {d : Delivery} {job : Job} {phase onOk onError : Phase} {c : Call}
      {f : DeliveryRow → Option DeliveryRow} (hbody : d.message.body = some job)
      (hwrites : Writes cfg d job s.db.now phase c f onOk onError) :
      Effect cfg s (.consumer d) (.consumer phase) c false (.consumer onError) s
  | providerSend {d : Delivery} {job : Job} (result : Except Err ProviderResult)
      (hbody : d.message.body = some job) :
      Effect cfg s (.consumer d) (.consumer .sending)
        ⟨.worker, .providerSend (Worker.providerMessage job)⟩ result.isOk
        (.consumer (.called result))
        { s with calls := s.calls ++ [⟨Worker.providerMessage job, result.isOk, .consumer d⟩] }
  | insertAttempt {d : Delivery} {job : Job} {result : Except Err ProviderResult} {db : Db}
      (hbody : d.message.body = some job)
      (hdb : s.db.insertAttempt job.tenantID job.deliveryID (Worker.resultStatus result)
        (Worker.resultResponse result) = .ok db) :
      Effect cfg s (.consumer d) (.consumer (.stored result))
        ⟨.worker, .insertAttempt job.tenantID job.deliveryID (Worker.resultStatus result)
          (Worker.resultResponse result)⟩ true
        (.consumer (if result.isOk then .settled else .failed)) { s with db := db }
  | insertAttemptError {d : Delivery} {job : Job} {result : Except Err ProviderResult}
      (hbody : d.message.body = some job) :
      Effect cfg s (.consumer d) (.consumer (.stored result))
        ⟨.worker, .insertAttempt job.tenantID job.deliveryID (Worker.resultStatus result)
          (Worker.resultResponse result)⟩ false
        (.consumer .failed) s
  | republish {d : Delivery} {job job' : Job} {phase : Phase} {c : Call} {q : Queue}
      (hbody : d.message.body = some job) (hrep : Republishes cfg d job phase c q job') :
      Effect cfg s (.consumer d) (.consumer phase) c true (.consumer .moved)
        (s.addPublication (.consumer d) q job')
  | republishError {d : Delivery} {job job' : Job} {phase : Phase} {c : Call} {q : Queue}
      (hbody : d.message.body = some job) (hrep : Republishes cfg d job phase c q job') :
      Effect cfg s (.consumer d) (.consumer phase) c false (.consumer .lost) s
  | settle {d : Delivery} {phase : Phase} {c : Call}
      (hphase : phase = .settled ∨ phase = .moved ∨ phase = .lost ∨
        phase = .received ∧ d.message.body = none) :
      Effect cfg s (.consumer d) (.consumer phase) c true (.consumer .closed) (s.settle d)
  | requeue {d : Delivery} {phase : Phase} (hphase : phase = .refused ∨ phase = .paused) :
      Effect cfg s (.consumer d) (.consumer phase) ⟨.worker, .nack d true⟩ true
        (.consumer .closed) (if s.knows d then s.requeue d else s.settle d)
  | settleError {d : Delivery} {phase : Phase} {c : Call}
      (hphase : phase = .settled ∨ phase = .moved ∨ phase = .lost ∨ phase = .refused ∨
        phase = .paused ∨ phase = .received ∧ d.message.body = none)
      (hstmt : c.stmt = .ack d ∨ ∃ again, c.stmt = .nack d again) :
      Effect cfg s (.consumer d) (.consumer phase) c false (.consumer .closed) s
  -- a request
  | gate {t : String} {req : Request} {facts facts' : List GateFact} {c : Call} {ok : Bool}
      (hfacts : ∀ x ∈ facts', x ∈ facts ∨ x.Holds t s.db) :
      Effect cfg s (.request t req) (.gates facts) c ok (.gates facts') s
  | gateClosed {t : String} {req : Request} {facts : List GateFact} {c : Call} {ok : Bool} :
      Effect cfg s (.request t req) (.gates facts) c ok .over s
  | begin {t : String} {req : Request} {facts : List GateFact}
      (hgates : GatesPassed req facts) :
      Effect cfg s (.request t req) (.gates facts) ⟨.send .begin 0, .begin⟩ true .begun s
  | insertNotification {t publicID : String} {req : Request} {scheduledAt : Option Nat}
      {status : NotificationStatus} {row : Notification}
      (hrow : row = Notifications.newNotification t publicID req.withDefaultSchedule
        scheduledAt status)
      (hstate : scheduleState cfg req.withDefaultSchedule.schedule = .ok (scheduledAt, status)) :
      Effect cfg s (.request t req) .begun
        ⟨.send .insertNotification 0, .insertNotification row⟩ true
        (.open s.db.nextId ⟨(s.db.nextId, row), [], none⟩ req.channels)
        { s.fresh with inserted := s.inserted ++ [(s.db.nextId, row)] }
  | insertScheduledJob {t : String} {req : Request} {n dueAt : Nat} {tx : Tx}
      {todo : List String} (hempty : tx.deliveries = [])
      (hdue : tx.notification.2.scheduledAt = some dueAt) :
      Effect cfg s (.request t req) (.open n tx todo)
        ⟨.send .insertScheduledJob 0, .insertScheduledJob ⟨t, n, dueAt, .pending⟩⟩ true
        (.filed { tx with job := some (s.db.nextId, ⟨t, n, dueAt, .pending⟩) }) s.fresh
  | insertTxDelivery {t channel : String} {req : Request} {n i : Nat} {tx : Tx} {target : Json}
      {todo : List String} (hinstant : tx.notification.2.scheduledAt = none) :
      Effect cfg s (.request t req) (.open n tx (channel :: todo))
        ⟨.send .insertDelivery i, .insertTxDelivery (Db.newDelivery t n channel target)⟩ true
        (.creating n s.db.nextId { tx with deliveries := tx.deliveries ++
          [(s.db.nextId, Db.newDelivery t n channel target)] } channel todo false) s.fresh
  | sendEnsureControl {t channel : String} {req : Request} {n i id : Nat} {tx : Tx}
      {todo : List String} {control : Control} {db : Db}
      (hensure : s.db.ensureControl cfg t channel = .ok (control, db)) :
      Effect cfg s (.request t req) (.creating n id tx channel todo false)
        ⟨.send .ensureControl i, .ensureControl t channel⟩ true
        (.creating n id tx channel todo true) { s with db := db }
  | sendPublish {t channel queueName : String} {req : Request} {n i id : Nat} {tx : Tx}
      {todo : List String} {job : Job}
      (hjob : job = Notifications.newJob t n id channel queueName
        (jobPayload req.data req.target.recipient)) :
      Effect cfg s (.request t req) (.creating n id tx channel todo true)
        ⟨.send .publish i, .publish (Notifications.channelQueue channel) job⟩ true
        (.open n tx todo)
        (s.addPublication (.request t req) (Notifications.channelQueue channel) job)
  | commit {t : String} {req : Request} {tx : Tx} {stage : Stage}
      (hstage : (∃ n, stage = .open n tx []) ∨ stage = .filed tx) :
      Effect cfg s (.request t req) stage ⟨.send .commit 0, .commit tx⟩ true .over
        { s with db := s.db.commit tx }
  -- a pass
  | selectDue {id : Nat} :
      Effect cfg s (.pass id) .passing ⟨.select, .selectDue⟩ true (.between s.db.dueRows)
        { s with selected := s.selected ++ [(id, s.db)] }
  | scanDue {id : Nat} {row : DueRow} {rest : List DueRow} :
      Effect cfg s (.pass id) (.between (row :: rest)) ⟨.route .scan row.jobID 0, .scanDue row⟩
        true (.routing row [] row.channelList rest) s
  | insertDelivery {id : Nat} {row : DueRow} {done todo : List String} {channel : String}
      {rest : List DueRow} {new : DeliveryRow}
      (hnew : new = Db.newDelivery row.tenantID row.notificationID channel (.obj [])) :
      Effect cfg s (.pass id) (.routing row done (channel :: todo) rest)
        ⟨.route .insertDelivery row.jobID done.length, .insertDelivery new⟩ true
        (.adding row s.db.nextId done channel todo rest false)
        { s with db := s.db.insertDelivery new }
  | routeEnsureControl {id new : Nat} {row : DueRow} {done todo : List String}
      {channel : String} {rest : List DueRow} {control : Control} {db : Db}
      (hensure : s.db.ensureControl cfg row.tenantID channel = .ok (control, db)) :
      Effect cfg s (.pass id) (.adding row new done channel todo rest false)
        ⟨.route .ensureControl row.jobID done.length, .ensureControl row.tenantID channel⟩ true
        (.adding row new done channel todo rest true) { s with db := db }
  | routePublish {id new : Nat} {row : DueRow} {done todo : List String}
      {channel queueName : String} {rest : List DueRow} {job : Job}
      (hjob : job = Notifications.newJob row.tenantID row.notificationID new channel queueName
        row.payload) :
      Effect cfg s (.pass id) (.adding row new done channel todo rest true)
        ⟨.route .publish row.jobID done.length,
          .publish (Notifications.channelQueue channel) job⟩ true
        (.routing row (done ++ [channel]) todo rest)
        (s.addPublication (.pass id) (Notifications.channelQueue channel) job)
  | markRouted {id : Nat} {row : DueRow} {done : List String} {rest : List DueRow} :
      Effect cfg s (.pass id) (.routing row done [] rest)
        ⟨.route .mark row.jobID 0, .markRouted row.jobID⟩ true (.between rest)
        { s with db := s.db.markRouted row.jobID }
  -- an error ends a request or a pass
  | giveUp {party : Party} {stage : Stage} {c : Call} {f : Reply c → Stage}
      (hallowed : Allowed cfg party stage c f) (hparty : ∀ d, party ≠ .consumer d) :
      Effect cfg s party stage c false .over s

private theorem exec_cases (cfg : Config) (party : Party) (c : Call) (o : Outcome) (s : Sys) :
    (∃ e, s.exec cfg party c o = (.error e, s.failed party c.stmt) ∧ o.fail = true) ∨
    (∃ e, s.exec cfg party c o = (.error e, s) ∧ s.perform cfg party o c.stmt = .error e) ∨
    ∃ r s', s.exec cfg party c o = (.ok r, s') ∧ s.perform cfg party o c.stmt = .ok (r, s') := by
  unfold Sys.exec
  cases hfail : o.fail with
  | true => exact .inl ⟨.driver, by simp⟩
  | false =>
      cases hp : s.perform cfg party o c.stmt with
      | error e => exact .inr (.inl ⟨e, by simp⟩)
      | ok p => exact .inr (.inr ⟨p.1, p.2, by simp⟩)

section

variable {cfg : Config} {o : Outcome} {s : Sys} {d : Delivery} {job : Job}

private theorem onOk_effect {party : Party} {stage : Stage} {site : Site} {stmt : Stmt}
    {f : Result stmt → Stage}
    (h : Allowed cfg party stage ⟨site, stmt⟩ (fun r => .onOk r f))
    (hparty : ∀ d, party ≠ .consumer d) (hfailed : s.failed party stmt = s)
    (hok : ∀ r s', s.perform cfg party o stmt = .ok (r, s') →
      Effect cfg s party stage ⟨site, stmt⟩ true (f r) s') :
    Effect cfg s party stage ⟨site, stmt⟩ (s.succeeds cfg party ⟨site, stmt⟩ o)
      (.onOk (s.exec cfg party ⟨site, stmt⟩ o).1 f) (s.exec cfg party ⟨site, stmt⟩ o).2 := by
  unfold Sys.succeeds
  rcases exec_cases cfg party ⟨site, stmt⟩ o s with ⟨e, hx, _⟩ | ⟨e, hx, _⟩ | ⟨r, s', hx, hp⟩
  · rw [hx, hfailed]
    exact .giveUp h hparty
  · rw [hx]
    exact .giveUp h hparty
  · rw [hx]
    exact hok r s' hp

private theorem write_effect {phase onOk onError : Phase} {site : Site} {stmt : Stmt}
    {f : DeliveryRow → Option DeliveryRow} {next : Reply ⟨site, stmt⟩ → Stage}
    (_ : Allowed cfg (.consumer d) (.consumer phase) ⟨site, stmt⟩ next)
    (hbody : d.message.body = some job)
    (hwrites : Writes cfg d job s.db.now phase ⟨site, stmt⟩ f onOk onError)
    (hfailed : s.failed (.consumer d) stmt = s)
    (hperform : ∀ r s', s.perform cfg (.consumer d) o stmt = .ok (r, s') →
      s.withDb (s.db.updateDelivery job.deliveryID f) = .ok ((), s'))
    (hok : ∀ r, next (.ok r) = .consumer onOk) (herror : ∀ e, next (.error e) = .consumer onError) :
    Effect cfg s (.consumer d) (.consumer phase) ⟨site, stmt⟩
      (s.succeeds cfg (.consumer d) ⟨site, stmt⟩ o)
      (next (s.exec cfg (.consumer d) ⟨site, stmt⟩ o).1)
      (s.exec cfg (.consumer d) ⟨site, stmt⟩ o).2 := by
  unfold Sys.succeeds
  rcases exec_cases cfg (.consumer d) ⟨site, stmt⟩ o s with
    ⟨e, hx, _⟩ | ⟨e, hx, _⟩ | ⟨r, s', hx, hp⟩
  · rw [hx, hfailed, herror]
    exact .writeError hbody hwrites
  · rw [hx, herror]
    exact .writeError hbody hwrites
  · rw [hx, hok]
    have hdb := hperform r s' hp
    cases hu : s.db.updateDelivery job.deliveryID f with
    | error e => simp [hu, Sys.withDb, Except.map] at hdb
    | ok db =>
        have hs' : s' = { s with db := db } := by
          simpa [hu, Sys.withDb, Except.map, eq_comm] using hdb
        rw [hs']
        exact .write hbody hwrites hu

private theorem republish_effect {phase : Phase} {site : Site} {q : Queue} {job' : Job}
    {next : Reply ⟨site, .publish q job'⟩ → Stage}
    (_ : Allowed cfg (.consumer d) (.consumer phase) ⟨site, .publish q job'⟩ next)
    (hbody : d.message.body = some job)
    (hrep : Republishes cfg d job phase ⟨site, .publish q job'⟩ q job')
    (hok : ∀ r, next (.ok r) = .consumer .moved) (herror : ∀ e, next (.error e) = .consumer .lost) :
    Effect cfg s (.consumer d) (.consumer phase) ⟨site, .publish q job'⟩
      (s.succeeds cfg (.consumer d) ⟨site, .publish q job'⟩ o)
      (next (s.exec cfg (.consumer d) ⟨site, .publish q job'⟩ o).1)
      (s.exec cfg (.consumer d) ⟨site, .publish q job'⟩ o).2 := by
  unfold Sys.succeeds
  rcases exec_cases cfg (.consumer d) ⟨site, .publish q job'⟩ o s with
    ⟨e, hx, _⟩ | ⟨e, hx, _⟩ | ⟨r, s', hx, hp⟩
  · rw [hx, herror]
    exact .republishError hbody hrep
  · rw [hx, herror]
    exact .republishError hbody hrep
  · rw [hx, hok]
    obtain ⟨rfl, rfl⟩ : () = r ∧ s.addPublication (.consumer d) q job' = s' := by
      simpa [Sys.perform] using hp
    exact .republish hbody hrep

end

theorem Allowed.effect {cfg : Config} {party : Party} {stage : Stage} {c : Call}
    {f : Reply c → Stage} (h : Allowed cfg party stage c f) (o : Outcome) (s : Sys) :
    Effect cfg s party stage c (s.succeeds cfg party c o) (f (s.exec cfg party c o).1)
      (s.exec cfg party c o).2 := by
  cases h with
  | @getControl d job hbody hqueue =>
      unfold Sys.succeeds
      rcases exec_cases cfg (.consumer d) _ o s with ⟨e, hx, _⟩ | ⟨e, hx, _⟩ | ⟨r, s', hx, hp⟩
      · rw [hx]
        exact .getControlError hbody hqueue
      · rw [hx]
        exact .getControlError hbody hqueue
      · rw [hx]
        cases hget : s.db.getControl cfg job.tenantID job.channel with
        | error e => simp [Sys.perform, hget, Except.map] at hp
        | ok p =>
            obtain ⟨rfl, rfl⟩ : p.1 = r ∧ { s with db := p.2 } = s' := by
              simpa [Sys.perform, hget, Except.map] using hp
            exact .getControl hbody hqueue hget
  | markPaused hbody =>
      exact write_effect (.markPaused hbody) hbody .paused rfl (fun _ _ h => h) (fun _ => rfl)
        fun _ => rfl
  | markBlocked hbody =>
      exact write_effect (.markBlocked hbody) hbody .blocked rfl (fun _ _ h => h) (fun _ => rfl)
        fun _ => rfl
  | markSending hbody =>
      exact write_effect (.markSending hbody) hbody .sending rfl (fun _ _ h => h) (fun _ => rfl)
        fun _ => rfl
  | @providerSend d job hbody =>
      unfold Sys.succeeds
      rcases exec_cases cfg (.consumer d) ⟨.worker, .providerSend (Worker.providerMessage job)⟩ o s
        with ⟨e, hx, _⟩ | ⟨e, hx, hp⟩ | ⟨r, s', hx, hp⟩
      · rw [hx]
        exact .providerSend (.error e) hbody
      · simp [Sys.perform] at hp
      · rw [hx]
        obtain ⟨_, rfl⟩ : _ ∧ { s with
            calls := s.calls ++ [⟨Worker.providerMessage job, true, .consumer d⟩] } = s' := by
          simpa [Sys.perform] using hp
        exact .providerSend (.ok r) hbody
  | storeResult hbody =>
      exact write_effect (.storeResult hbody) hbody (.result _) rfl (fun _ _ h => h) (fun _ => rfl)
        fun _ => rfl
  | @insertAttempt d job result hbody =>
      unfold Sys.succeeds
      rcases exec_cases cfg (.consumer d) ⟨.worker, .insertAttempt job.tenantID job.deliveryID
        (Worker.resultStatus result) (Worker.resultResponse result)⟩ o s
        with ⟨e, hx, _⟩ | ⟨e, hx, _⟩ | ⟨r, s', hx, hp⟩
      · rw [hx]
        cases result <;> exact .insertAttemptError hbody
      · rw [hx]
        cases result <;> exact .insertAttemptError hbody
      · rw [hx]
        cases hdb : s.db.insertAttempt job.tenantID job.deliveryID (Worker.resultStatus result)
            (Worker.resultResponse result) with
        | error e => simp [Sys.perform, Sys.withDb, hdb, Except.map] at hp
        | ok db =>
            obtain rfl : { s with db := db } = s' := by
              simpa [Sys.perform, Sys.withDb, hdb, Except.map] using hp
            cases result with
            | error e => exact Effect.insertAttempt hbody hdb
            | ok _ => exact Effect.insertAttempt hbody hdb
  | publishRetry hbody =>
      exact republish_effect (.publishRetry hbody) hbody .retry (fun _ => rfl) fun _ => rfl
  | publishDead hbody hqueue htries =>
      exact republish_effect (.publishDead hbody hqueue htries) hbody (.dead hqueue htries)
        (fun _ => rfl) fun _ => rfl
  | publishAgain hbody hqueue htries =>
      exact republish_effect (.publishAgain hbody hqueue htries) hbody (.again hqueue htries)
        (fun _ => rfl) fun _ => rfl
  | storeRetryCount hbody hqueue htries =>
      exact write_effect (.storeRetryCount hbody hqueue htries) hbody (.retryCount hqueue htries)
        rfl (fun _ _ h => h) (fun _ => rfl) fun _ => rfl
  | markDead hbody hqueue =>
      exact write_effect (.markDead hbody hqueue) hbody (.dead hqueue) rfl (fun _ _ h => h)
        (fun _ => rfl) fun _ => rfl
  | @ack d phase site hphase =>
      unfold Sys.succeeds
      rcases exec_cases cfg (.consumer d) ⟨site, .ack d⟩ o s with
        ⟨e, hx, _⟩ | ⟨e, hx, hp⟩ | ⟨r, s', hx, hp⟩
      · rw [hx]
        exact .settleError (by tauto) (.inl rfl)
      · simp [Sys.perform] at hp
      · rw [hx]
        obtain rfl : s.settle d = s' := by simpa [Sys.perform] using hp
        exact .settle (by tauto)
  | @nackRequeue d phase hphase =>
      unfold Sys.succeeds
      rcases exec_cases cfg (.consumer d) ⟨.worker, .nack d true⟩ o s with
        ⟨e, hx, _⟩ | ⟨e, hx, hp⟩ | ⟨r, s', hx, hp⟩
      · rw [hx]
        exact .settleError (by tauto) (.inr ⟨true, rfl⟩)
      · simp [Sys.perform] at hp
      · rw [hx]
        obtain rfl : (if s.knows d then s.requeue d else s.settle d) = s' := by
          simpa [Sys.perform] using hp
        exact .requeue hphase
  | @nackDiscard d phase site hphase =>
      unfold Sys.succeeds
      rcases exec_cases cfg (.consumer d) ⟨site, .nack d false⟩ o s with
        ⟨e, hx, _⟩ | ⟨e, hx, hp⟩ | ⟨r, s', hx, hp⟩
      · rw [hx]
        exact .settleError (by tauto) (.inr ⟨false, rfl⟩)
      · simp [Sys.perform] at hp
      · rw [hx]
        obtain rfl : s.settle d = s' := by simpa [Sys.perform] using hp
        exact .settle (by tauto)
  | @selectTenantStatus t req facts =>
      refine onOk_effect .selectTenantStatus (by simp) rfl fun r s' hp => ?_
      cases hstatus : s.db.tenantStatus t with
      | error e => simp [Sys.perform, hstatus, Except.map] at hp
      | ok status =>
          obtain ⟨rfl, rfl⟩ : status = r ∧ s = s' := by
            simpa [Sys.perform, hstatus, Except.map] using hp
          split
          · next hactive =>
              refine .gate fun x hx => ?_
              rcases List.mem_append.mp hx with hx | hx
              · exact .inl hx
              · obtain rfl := List.mem_singleton.mp hx
                exact .inr (by rw [GateFact.Holds, hstatus, hactive])
          · exact .gateClosed
  | @selectFeature t req facts channel i hchannel =>
      refine onOk_effect (.selectFeature hchannel) (by simp) rfl fun r s' hp => ?_
      cases henabled : s.db.featureEnabled t ("channel." ++ channel) with
      | error e => simp [Sys.perform, henabled, Except.map] at hp
      | ok enabled =>
          obtain ⟨rfl, rfl⟩ : enabled = r ∧ s = s' := by
            simpa [Sys.perform, henabled, Except.map] using hp
          split
          · next htrue =>
              refine .gate fun x hx => ?_
              rcases List.mem_append.mp hx with hx | hx
              · exact .inl hx
              · obtain rfl := List.mem_singleton.mp hx
                exact .inr (by rw [GateFact.Holds, henabled, htrue])
          · exact .gateClosed
  | @selectChannelConfig t req facts channel i hchannel =>
      refine onOk_effect (.selectChannelConfig hchannel) (by simp) rfl fun r s' hp => ?_
      cases hconfig : s.db.channelConfig t channel with
      | error e => simp [Sys.perform, hconfig, Except.map] at hp
      | ok config =>
          obtain ⟨rfl, rfl⟩ : config = r ∧ s = s' := by
            simpa [Sys.perform, hconfig, Except.map] using hp
          cases hcheck : Notifications.checkConfig config "one_way" with
          | error e => exact .gateClosed
          | ok _ =>
              refine .gate fun x hx => ?_
              rcases List.mem_append.mp hx with hx | hx
              · exact .inl hx
              · obtain rfl := List.mem_singleton.mp hx
                exact .inr ⟨config, hconfig, hcheck⟩
  | @allow t req facts channel i =>
      have hs : (s.exec cfg (.request t req) ⟨.send .allow i, .allow t channel⟩ o).2 = s := by
        unfold Sys.exec
        split <;> rfl
      rw [hs]
      exact .gate fun x hx => .inl hx
  | begin hgates =>
      refine onOk_effect (.begin hgates) (by simp) rfl fun r s' hp => ?_
      obtain rfl : s = s' := by simpa [Sys.perform] using hp
      exact .begin hgates
  | insertNotification hstate =>
      refine onOk_effect (.insertNotification hstate) (by simp) rfl fun r s' hp => ?_
      cases hp
      rw [Request.withDefaultSchedule_channels]
      exact .insertNotification rfl hstate
  | insertScheduledJob hempty hdue =>
      refine onOk_effect (.insertScheduledJob hempty hdue) (by simp) rfl fun r s' hp => ?_
      cases hp
      exact .insertScheduledJob hempty hdue
  | insertTxDelivery hinstant =>
      refine onOk_effect (.insertTxDelivery hinstant) (by simp) rfl fun r s' hp => ?_
      cases hp
      exact .insertTxDelivery hinstant
  | @sendEnsureControl t channel req n i id tx todo =>
      refine onOk_effect .sendEnsureControl (by simp) rfl fun r s' hp => ?_
      cases hensure : s.db.ensureControl cfg t channel with
      | error e => simp [Sys.perform, hensure, Except.map] at hp
      | ok p =>
          obtain ⟨rfl, rfl⟩ : p.1 = r ∧ { s with db := p.2 } = s' := by
            simpa [Sys.perform, hensure, Except.map] using hp
          exact .sendEnsureControl hensure
  | sendPublish =>
      refine onOk_effect .sendPublish (by simp) rfl fun r s' hp => ?_
      cases hp
      exact .sendPublish rfl
  | @commit t req tx stage hstage =>
      unfold Sys.succeeds
      rcases exec_cases cfg (.request t req) ⟨.send .commit 0, .commit tx⟩ o s with
        ⟨e, hx, _⟩ | ⟨e, hx, hp⟩ | ⟨r, s', hx, hp⟩
      · rw [hx]
        exact .giveUp (.commit hstage) (by simp)
      · simp [Sys.perform] at hp
      · rw [hx]
        obtain rfl : { s with db := s.db.commit tx } = s' := by simpa [Sys.perform] using hp
        exact .commit hstage
  | selectDue =>
      refine onOk_effect .selectDue (by simp) rfl fun r s' hp => ?_
      cases hp
      exact .selectDue
  | scanDue =>
      refine onOk_effect .scanDue (by simp) rfl fun r s' hp => ?_
      cases hp
      exact .scanDue
  | insertDelivery =>
      refine onOk_effect .insertDelivery (by simp) rfl fun r s' hp => ?_
      cases hp
      exact .insertDelivery rfl
  | @routeEnsureControl id new row done todo channel rest =>
      refine onOk_effect .routeEnsureControl (by simp) rfl fun r s' hp => ?_
      cases hensure : s.db.ensureControl cfg row.tenantID channel with
      | error e => simp [Sys.perform, hensure, Except.map] at hp
      | ok p =>
          obtain ⟨rfl, rfl⟩ : p.1 = r ∧ { s with db := p.2 } = s' := by
            simpa [Sys.perform, hensure, Except.map] using hp
          exact .routeEnsureControl hensure
  | routePublish =>
      refine onOk_effect .routePublish (by simp) rfl fun r s' hp => ?_
      cases hp
      exact .routePublish rfl
  | markRouted =>
      refine onOk_effect .markRouted (by simp) rfl fun r s' hp => ?_
      cases hp
      exact .markRouted

theorem Effect.not_closed {cfg : Config} {s s' : Sys} {u : Delivery} {c : Call} {success : Bool}
    {stage : Stage} : ¬Effect cfg s (.consumer u) (.consumer .closed) c success stage s' := by
  intro h
  cases h with
  | write _ hwrites _ => cases hwrites
  | writeError _ hwrites => cases hwrites
  | republish _ hrep => cases hrep
  | republishError _ hrep => cases hrep
  | settle hphase => simp at hphase
  | requeue hphase => simp at hphase
  | settleError hphase _ => simp at hphase
  | giveUp _ hparty => exact hparty u rfl

/-- The databases differ at most in deliveries, attempts, queue controls and identifiers. -/
def Db.Agrees (db db' : Db) : Prop :=
  ∃ controls deliveries attempts next, db' = { db with
    controls := controls, deliveries := deliveries, attempts := attempts, nextId := next }

theorem Effect.agrees_cases {cfg : Config} {s s' : Sys} {party : Party} {stage stage' : Stage}
    {c : Call} {success : Bool} (h : Effect cfg s party stage c success stage' s') :
    s.db.Agrees s'.db ∨
    (∃ t req tx, party = .request t req ∧ ((∃ n, stage = .open n tx []) ∨ stage = .filed tx) ∧
      stage' = .over ∧ s' = { s with db := s.db.commit tx }) ∨
    ∃ id row done rest, party = .pass id ∧ stage = .routing row done [] rest ∧
      stage' = .between rest ∧ c = ⟨.route .mark row.jobID 0, .markRouted row.jobID⟩ ∧
      s' = { s with db := s.db.markRouted row.jobID } := by
  cases h with
  | getControl _ _ hget =>
      obtain ⟨controls, next, rfl, -⟩ := Db.getControl_cases hget
      exact .inl ⟨_, _, _, _, rfl⟩
  | write _ _ hdb =>
      rcases Db.updateDelivery_cases hdb with ⟨-, rfl⟩ | ⟨_, _, -, -, rfl⟩ <;>
        exact .inl ⟨_, _, _, _, rfl⟩
  | insertAttempt _ hdb =>
      obtain ⟨-, attempts, rfl⟩ := Db.insertAttempt_cases hdb
      exact .inl ⟨_, _, _, _, rfl⟩
  | requeue _ => split <;> exact .inl ⟨_, _, _, _, rfl⟩
  | sendEnsureControl hensure =>
      obtain ⟨controls, next, rfl, -⟩ := Db.ensureControl_cases hensure
      exact .inl ⟨_, _, _, _, rfl⟩
  | routeEnsureControl hensure =>
      obtain ⟨controls, next, rfl, -⟩ := Db.ensureControl_cases hensure
      exact .inl ⟨_, _, _, _, rfl⟩
  | commit hstage => exact .inr (.inl ⟨_, _, _, rfl, hstage, rfl, rfl⟩)
  | markRouted => exact .inr (.inr ⟨_, _, _, _, rfl, rfl, rfl, rfl, rfl⟩)
  | _ => exact .inl ⟨_, _, _, _, rfl⟩

theorem Effect.nextId_le {cfg : Config} {s s' : Sys} {party : Party} {stage stage' : Stage}
    {c : Call} {success : Bool} (h : Effect cfg s party stage c success stage' s') :
    s.db.nextId ≤ s'.db.nextId := by
  cases h with
  | getControl _ _ hget =>
      obtain ⟨controls, next, rfl, hle⟩ := Db.getControl_cases hget
      exact hle
  | write _ _ hdb =>
      rcases Db.updateDelivery_cases hdb with ⟨-, rfl⟩ | ⟨_, _, -, -, rfl⟩ <;> exact le_refl _
  | insertAttempt _ hdb =>
      obtain ⟨-, attempts, rfl⟩ := Db.insertAttempt_cases hdb
      exact le_refl _
  | requeue _ => split <;> exact le_refl _
  | sendEnsureControl hensure =>
      obtain ⟨controls, next, rfl, hle⟩ := Db.ensureControl_cases hensure
      exact hle
  | routeEnsureControl hensure =>
      obtain ⟨controls, next, rfl, hle⟩ := Db.ensureControl_cases hensure
      exact hle
  | _ => simp

theorem Effect.row_cases {cfg : Config} {s s' : Sys} {party : Party} {stage stage' : Stage}
    {c : Call} {success : Bool} (h : Effect cfg s party stage c success stage' s') {d : Nat}
    {row : DeliveryRow} (hrow : s.db.deliveries.get? d = some row) :
    s'.db.deliveries.get? d = some row ∨
    ∃ u job phase f onOk onError row', party = .consumer u ∧ u.message.body = some job ∧
      job.deliveryID = d ∧ stage = .consumer phase ∧ stage' = .consumer onOk ∧
      Writes cfg u job s.db.now phase c f onOk onError ∧ f row = some row' ∧
      s'.db.deliveries.get? d = some row' := by
  cases h with
  | getControl _ _ hget =>
      obtain ⟨controls, next, rfl, -⟩ := Db.getControl_cases hget
      exact .inl hrow
  | @write u job phase _ _ _ _ _ hbody hwrites hdb =>
      rcases Db.updateDelivery_cases hdb with ⟨-, rfl⟩ | ⟨old, new, hold, hf, rfl⟩
      · exact .inl hrow
      · by_cases hd : d = job.deliveryID
        · obtain rfl : row = old := by simpa [hd, hold, eq_comm] using hrow
          refine .inr ⟨u, job, phase, _, _, _, new, rfl, hbody, hd.symm, rfl, rfl, hwrites, hf, ?_⟩
          simp [hd, hold]
        · exact .inl (by rw [Table.get?_modify_ne _ _ hd]; exact hrow)
  | insertAttempt _ hdb =>
      obtain ⟨-, attempts, rfl⟩ := Db.insertAttempt_cases hdb
      exact .inl hrow
  | requeue _ => split <;> exact .inl hrow
  | sendEnsureControl hensure =>
      obtain ⟨controls, next, rfl, -⟩ := Db.ensureControl_cases hensure
      exact .inl hrow
  | routeEnsureControl hensure =>
      obtain ⟨controls, next, rfl, -⟩ := Db.ensureControl_cases hensure
      exact .inl hrow
  | commit _ => exact .inl (Table.get?_insertAll_of_some hrow)
  | insertDelivery _ => exact .inl (Table.get?_insert_of_some hrow)
  | _ => exact .inl hrow

end NotificationPlatform
