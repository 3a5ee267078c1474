import NotificationPlatform.Protocol

/-!
# The code keeps to the protocol

Each party's code is walked through once, call by call. The loops over channels and rows go by
induction on what is left of them.
-/

namespace NotificationPlatform

open Lib

abbrev Keeps (cfg : Config) (party : Party) (stage : Stage) (p : Code Unit) : Prop :=
  Prog.Follows (Allowed cfg party) (fun stage _ => stage.ended = true) stage p

private theorem settle_keeps {cfg : Config} {party : Party} {stage : Stage} {c : Call}
    {f : Reply c → Stage} (h : Allowed cfg party stage c f) (hend : ∀ r, (f r).ended = true) :
    Keeps cfg party stage (.call c fun _ => .ret ()) :=
  Prog.follows_call f h hend

private theorem handle_keeps (cfg : Config) (d : Delivery) (job : Job)
    (hbody : d.message.body = some job) :
    Prog.Follows (Allowed cfg (.consumer d))
      (fun stage r => (r = .ok () ∧ stage = .consumer .settled) ∨
        (r ≠ .ok () ∧ stage = .consumer .failed))
      (.consumer (.checked .active)) (Worker.handle job).run := by
  refine Prog.follows_call _ (.markSending hbody) fun _ => ?_
  refine Prog.follows_call _ (.providerSend hbody) fun result => ?_
  refine Prog.follows_call _ (.storeResult hbody) fun stored => ?_
  cases stored with
  | error e => exact Or.inr ⟨by simp, rfl⟩
  | ok _ =>
      refine Prog.follows_call _ (.insertAttempt hbody) fun inserted => ?_
      cases result with
      | error e => exact Or.inr ⟨by simp, rfl⟩
      | ok _ =>
          cases inserted with
          | error e => exact Or.inr ⟨by simp, rfl⟩
          | ok _ => exact Or.inl ⟨rfl, rfl⟩

private theorem applyQueueControl_keeps (cfg : Config) (d : Delivery) (job : Job)
    (hbody : d.message.body = some job) (hqueue : d.message.queue.isChannel = true) :
    Prog.Follows (Allowed cfg (.consumer d))
      (fun stage r => match r with
        | .error _ => stage = .consumer .refused
        | .ok .paused => stage = .consumer .paused
        | .ok .stopped => stage = .consumer .settled
        | .ok .proceed => stage = .consumer (.checked .active))
      (.consumer .received) (Worker.applyQueueControl job).run := by
  refine Prog.follows_call _ (.getControl hbody hqueue) fun control => ?_
  cases control with
  | error e => exact rfl
  | ok control =>
      obtain ⟨id, tenantID, channel, queueName, status⟩ := control
      cases status with
      | active => exact rfl
      | paused => exact Prog.follows_call _ (.markPaused hbody) fun _ => rfl
      | stopped =>
          refine Prog.follows_call _ (.markBlocked hbody) fun marked => ?_
          cases marked <;> exact rfl

theorem workerRun_keeps (cfg : Config) (d : Delivery)
    (hqueue : d.message.queue.isChannel = true) :
    Keeps cfg (.consumer d) (.consumer .received) (Worker.run d) := by
  unfold Worker.run
  cases hbody : d.message.body with
  | none => exact settle_keeps (.nackDiscard (.inr ⟨rfl, hbody⟩)) fun _ => rfl
  | some job =>
      refine (applyQueueControl_keeps cfg d job hbody hqueue).bind fun stage action h => ?_
      match action, h with
      | .error _, h => subst h; exact settle_keeps (.nackRequeue (.inl rfl)) fun _ => rfl
      | .ok .paused, h => subst h; exact settle_keeps (.nackRequeue (.inr rfl)) fun _ => rfl
      | .ok .stopped, h => subst h; exact settle_keeps (.ack (.inl rfl)) fun _ => rfl
      | .ok .proceed, h =>
          subst h
          refine (handle_keeps cfg d job hbody).bind fun stage result h => ?_
          rcases h with ⟨rfl, rfl⟩ | ⟨hr, rfl⟩
          · exact settle_keeps (.ack (.inl rfl)) fun _ => rfl
          · cases result with
            | ok _ => exact absurd rfl hr
            | error e =>
                refine Prog.follows_call _ (.publishRetry hbody) fun published => ?_
                cases published with
                | error _ => exact settle_keeps (.ack (.inr (.inr rfl))) fun _ => rfl
                | ok _ => exact settle_keeps (.ack (.inr (.inl rfl))) fun _ => rfl

theorem retryLoop_keeps (cfg : Config) (d : Delivery) (hqueue : d.message.queue = .retry) :
    Keeps cfg (.consumer d) (.consumer .received) (Retry.retryLoop cfg d) := by
  unfold Retry.retryLoop
  cases hbody : d.message.body with
  | none => exact settle_keeps (.nackDiscard (.inr ⟨rfl, hbody⟩)) fun _ => rfl
  | some job =>
      dsimp only
      split
      · next htries =>
          refine Prog.follows_call _ (.publishDead hbody hqueue htries) fun published => ?_
          cases published with
          | error _ => exact settle_keeps (.nackDiscard (.inl rfl)) fun _ => rfl
          | ok _ => exact settle_keeps (.ack (.inr (.inl rfl))) fun _ => rfl
      · next htries =>
          refine Prog.follows_call _ (.publishAgain hbody hqueue htries) fun published => ?_
          cases published with
          | error _ => exact settle_keeps (.nackDiscard (.inl rfl)) fun _ => rfl
          | ok _ =>
              refine Prog.follows_call _ (.storeRetryCount hbody hqueue htries) fun _ => ?_
              exact settle_keeps (.ack (.inr (.inl rfl))) fun _ => rfl

theorem retryDeadLetters_keeps (cfg : Config) (d : Delivery) (hqueue : d.message.queue = .dead) :
    Keeps cfg (.consumer d) (.consumer .received) (Retry.retryDeadLetters d) := by
  unfold Retry.retryDeadLetters
  cases hbody : d.message.body with
  | none => exact settle_keeps (.nackDiscard (.inr ⟨rfl, hbody⟩)) fun _ => rfl
  | some job =>
      refine Prog.follows_call _ (.markDead hbody hqueue) fun marked => ?_
      cases marked with
      | error _ => exact settle_keeps (.ack (.inr (.inr rfl))) fun _ => rfl
      | ok _ => exact settle_keeps (.ack (.inl rfl)) fun _ => rfl

theorem consumer_keeps {cfg : Config} {d : Delivery} {p : Code Unit}
    (h : consumer cfg d = some p) : Keeps cfg (.consumer d) (.consumer .received) p := by
  unfold consumer at h
  split at h
  · simp at h
  · next hq => cases h; exact retryLoop_keeps cfg d hq
  · next hq => cases h; exact retryDeadLetters_keeps cfg d hq
  all_goals
    next hq => cases h; exact workerRun_keeps cfg d (by rw [hq]; rfl)

/-! ## Requests and passes -/

private theorem follows_bind {cfg : Config} {party : Party} {stage : Stage} {α β : Type}
    {Q : Stage → Except Err α → Prop} {Q' : Stage → Except Err β → Prop}
    {x : Go α} {f : α → Go β} (hx : Prog.Follows (Allowed cfg party) Q stage x.run)
    (hok : ∀ stage a, Q stage (.ok a) → Prog.Follows (Allowed cfg party) Q' stage (f a).run)
    (herror : ∀ stage e, Q stage (.error e) → Q' stage (.error e)) :
    Prog.Follows (Allowed cfg party) Q' stage (x >>= f).run := by
  refine hx.bind fun stage r hr => ?_
  cases r with
  | ok a => exact hok stage a hr
  | error e => exact herror stage e hr

/-- The code returns an error only where it may end, and a value only where `Q` holds. -/
private def Yields {α : Type} (Q : Stage → α → Prop) (stage : Stage) : Except Err α → Prop
  | .ok a => Q stage a
  | .error _ => stage.ended = true

private theorem forget_keeps {cfg : Config} {party : Party} {stage : Stage} {α : Type}
    {p : Go α} (h : Prog.Follows (Allowed cfg party)
      (Yields fun stage _ => stage.ended = true) stage p.run) :
    Keeps cfg party stage (forget p) := by
  refine h.bind fun stage r hr => ?_
  cases r <;> exact hr

private theorem ensureActive_keeps (cfg : Config) (t : String) (req : Request)
    (facts : List GateFact) :
    Prog.Follows (Allowed cfg (.request t req))
      (Yields fun stage _ => stage = .gates (facts ++ [.active]))
      (.gates facts) (Notifications.ensureActive t).run := by
  refine Prog.follows_call _ .selectTenantStatus fun r => ?_
  cases r with
  | error e => exact rfl
  | ok status => cases status <;> exact rfl

private theorem checkChannel_keeps (cfg : Config) (t : String) (req : Request)
    (facts : List GateFact) (i : Nat) {channel : String} (h : channel ∈ req.channels) :
    Prog.Follows (Allowed cfg (.request t req))
      (Yields fun stage _ => stage = .gates (facts ++ [.feature channel] ++ [.valid channel]))
      (.gates facts) (Notifications.checkChannel t i channel).run := by
  refine Prog.follows_call _ (.selectFeature h) fun r => ?_
  match r with
  | .error e => exact rfl
  | .ok false => exact rfl
  | .ok true =>
      refine Prog.follows_call _ (.selectChannelConfig h) fun r => ?_
      cases r with
      | error e => exact rfl
      | ok config =>
          dsimp only [Stage.onOk, Prog.bind, Function.comp, ExceptT.bindCont]
          cases hc : Notifications.checkConfig config "one_way" with
          | error e => exact rfl
          | ok _ =>
              refine Prog.follows_call _ .allow fun r => ?_
              match r with
              | .error e => exact rfl
              | .ok false => exact rfl
              | .ok true => exact rfl

private theorem checkChannels_keeps (cfg : Config) (t : String) (req : Request)
    (facts : List GateFact) (i : Nat) (channels : List String)
    (h : ∀ c ∈ channels, c ∈ req.channels) :
    Prog.Follows (Allowed cfg (.request t req))
      (Yields fun stage _ => ∃ facts', stage = .gates facts' ∧ (∀ x ∈ facts, x ∈ facts') ∧
        ∀ c ∈ channels, .feature c ∈ facts' ∧ .valid c ∈ facts')
      (.gates facts) (Notifications.checkChannels t i channels).run := by
  induction channels generalizing facts i with
  | nil => exact ⟨facts, rfl, fun x hx => hx, by simp⟩
  | cons channel rest ih =>
      refine follows_bind (checkChannel_keeps cfg t req facts i (h channel (by simp)))
        (fun stage _ hstage => ?_) fun _ _ hended => hended
      obtain rfl := hstage
      have hrest := ih (facts ++ [.feature channel] ++ [.valid channel]) (i + 1)
        fun c hc => h c (by simp [hc])
      refine hrest.mono fun stage r hr => ?_
      cases r with
      | error e => exact hr
      | ok _ =>
          obtain ⟨facts', hstage, hsub, hall⟩ := hr
          refine ⟨facts', hstage, fun x hx => hsub x (by simp [hx]), ?_⟩
          intro c hc
          rcases List.mem_cons.mp hc with rfl | hc
          · exact ⟨hsub _ (by simp), hsub _ (by simp)⟩
          · exact hall c hc

private theorem sendChannels_keeps (cfg : Config) (t : String) (req : Request) (n : Nat)
    (target : Json) (i : Nat) (channels : List String) (tx : Tx)
    (hinstant : tx.notification.2.scheduledAt = none) :
    Prog.Follows (Allowed cfg (.request t req)) (Yields fun stage tx => stage = .open n tx [])
      (.open n tx channels)
      (Notifications.sendChannels t n target (jobPayload req.data req.target.recipient) i
        channels tx).run := by
  induction channels generalizing i tx with
  | nil => exact rfl
  | cons channel rest ih =>
      refine Prog.follows_call _ (.insertTxDelivery hinstant) fun r => ?_
      cases r with
      | error e => exact rfl
      | ok id =>
          refine Prog.follows_call _ .sendEnsureControl fun r => ?_
          cases r with
          | error e => exact rfl
          | ok control =>
              refine Prog.follows_call _ .sendPublish fun r => ?_
              cases r with
              | error e => exact rfl
              | ok _ => exact ih (i + 1) _ hinstant

private theorem fileJob_keeps (cfg : Config) (t : String) (req : Request) (n dueAt : Nat)
    (tx : Tx) (channels : List String) (hempty : tx.deliveries = [])
    (hdue : tx.notification.2.scheduledAt = some dueAt) :
    Prog.Follows (Allowed cfg (.request t req)) (Yields fun stage tx => stage = .filed tx)
      (.open n tx channels) (Notifications.fileJob t n dueAt tx).run := by
  refine Prog.follows_call _ (.insertScheduledJob hempty hdue) fun r => ?_
  cases r <;> exact rfl

private theorem commit_keeps {cfg : Config} {t : String} {req : Request} {tx : Tx}
    {stage : Stage} (hstage : (∃ n, stage = .open n tx []) ∨ stage = .filed tx) :
    Prog.Follows (Allowed cfg (.request t req)) (Yields fun stage _ => stage.ended = true) stage
      (call (.send .commit 0) (.commit tx)).run := by
  refine Prog.follows_call _ (.commit hstage) fun r => ?_
  cases r <;> exact rfl

private theorem store_keeps (cfg : Config) (t publicID : String) (req : Request)
    (scheduledAt : Option Nat) (status : NotificationStatus) (facts : List GateFact)
    (hgates : GatesPassed req facts)
    (hstate : scheduleState cfg req.withDefaultSchedule.schedule = .ok (scheduledAt, status)) :
    Prog.Follows (Allowed cfg (.request t req)) (Yields fun stage _ => stage.ended = true)
      (.gates facts)
      (Notifications.store t publicID req.withDefaultSchedule scheduledAt status).run := by
  refine Prog.follows_call _ (.begin hgates) fun r => ?_
  cases r with
  | error e => exact rfl
  | ok _ =>
      refine Prog.follows_call _ (.insertNotification hstate) fun r => ?_
      cases r with
      | error e => exact rfl
      | ok n =>
          cases scheduledAt with
          | some dueAt =>
              refine follows_bind (fileJob_keeps cfg t req n dueAt _ _ rfl rfl)
                (fun stage tx hstage => ?_) fun _ _ hended => hended
              exact commit_keeps (.inr hstage)
          | none =>
              rw [req.withDefaultSchedule_data, req.withDefaultSchedule_target]
              refine follows_bind (sendChannels_keeps cfg t req n _ 0 _ _ rfl)
                (fun stage tx hstage => ?_) fun _ _ hended => hended
              exact commit_keeps (.inl ⟨n, hstage⟩)

private theorem send_yields (cfg : Config) (unixNano : Nat) (t : String) (req : Request) :
    Prog.Follows (Allowed cfg (.request t req)) (Yields fun stage _ => stage.ended = true)
      (.gates []) (Notifications.send cfg unixNano t req).run := by
  unfold Notifications.send
  by_cases ht : t = ""
  · simp only [if_pos ht]
    exact rfl
  by_cases hc : req.channels = []
  · simp only [if_neg ht, if_pos hc]
    exact rfl
  simp only [if_neg ht, if_neg hc]
  refine follows_bind (ensureActive_keeps cfg t req []) (fun stage _ hstage => ?_)
    fun _ _ hended => hended
  rw [hstage, List.nil_append]
  have hcheck := checkChannels_keeps cfg t req [.active] 0 req.channels fun c hc => hc
  rw [← req.withDefaultSchedule_channels] at hcheck
  refine follows_bind hcheck (fun stage _ hstage => ?_) fun _ _ hended => hended
  obtain ⟨facts, rfl, hactive, hall⟩ := hstage
  rw [req.withDefaultSchedule_channels] at hall
  cases hs : scheduleState cfg req.withDefaultSchedule.schedule with
  | error e => exact rfl
  | ok state =>
      refine follows_bind (store_keeps cfg t _ req state.1 state.2 facts
        ⟨hactive _ (by simp), hall⟩ hs) (fun stage _ hstage => ?_) fun _ _ hended => hended
      exact hstage

theorem send_keeps (cfg : Config) (unixNano : Nat) (t : String) (req : Request) :
    Keeps cfg (.request t req) (.gates []) (forget (Notifications.send cfg unixNano t req)) :=
  forget_keeps (send_yields cfg unixNano t req)

theorem send_follows (cfg : Config) (unixNano : Nat) (t : String) (req : Request) :
    Prog.Follows (Allowed cfg (.request t req)) (fun _ _ => True) (.gates [])
      (Notifications.send cfg unixNano t req).run :=
  (send_yields cfg unixNano t req).mono fun _ _ _ => trivial

private theorem routeChannels_keeps (cfg : Config) (id : Nat) (row : DueRow)
    (done channels : List String) (rest : List DueRow) :
    Prog.Follows (Allowed cfg (.pass id))
      (Yields fun stage _ => stage = .routing row (done ++ channels) [] rest)
      (.routing row done channels rest)
      (Notifications.routeChannels row row.payload done.length channels).run := by
  induction channels generalizing done with
  | nil =>
      rw [List.append_nil]
      exact rfl
  | cons channel todo ih =>
      refine Prog.follows_call _ .insertDelivery fun r => ?_
      cases r with
      | error e => exact rfl
      | ok new =>
          refine Prog.follows_call _ .routeEnsureControl fun r => ?_
          cases r with
          | error e => exact rfl
          | ok control =>
              refine Prog.follows_call _ .routePublish fun r => ?_
              cases r with
              | error e => exact rfl
              | ok _ =>
                  have hrest := ih (done ++ [channel])
                  rw [List.length_append, List.append_assoc] at hrest
                  exact hrest

private theorem routeRows_keeps (cfg : Config) (id : Nat) (rows : List DueRow) :
    Prog.Follows (Allowed cfg (.pass id)) (Yields fun stage _ => stage.ended = true)
      (.between rows) (Notifications.routeRows rows).run := by
  induction rows with
  | nil => exact rfl
  | cons row rest ih =>
      refine Prog.follows_call _ .scanDue fun r => ?_
      cases r with
      | error e => exact rfl
      | ok _ =>
          refine follows_bind (routeChannels_keeps cfg id row [] row.channelList rest)
            (fun stage _ hstage => ?_) fun _ _ hended => hended
          obtain rfl := hstage
          refine Prog.follows_call _ .markRouted fun r => ?_
          cases r with
          | error e => exact rfl
          | ok _ => exact ih

theorem routeDueScheduled_keeps (cfg : Config) (id : Nat) :
    Keeps cfg (.pass id) .passing (forget Notifications.routeDueScheduled) := by
  apply forget_keeps
  refine Prog.follows_call _ .selectDue fun r => ?_
  cases r with
  | error e => exact rfl
  | ok rows => exact routeRows_keeps cfg id rows

end NotificationPlatform
