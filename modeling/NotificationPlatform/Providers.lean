import NotificationPlatform.Tokens
import NotificationPlatform.Addressing

/-!
# The provider of a channel

Each command under `cmd/` consumes one queue with one provider. A job reaches the provider of its
own channel when the table of `Send`, the table of the retry loop and the switch of `RunChannel`
agree about the channel. They do for the four channels that have a queue; any other channel goes
to the router queue, whose worker falls through to the email provider.
-/

namespace NotificationPlatform

open Lib

def runChannel : String → String
  | "sms" => "sms"
  | "fcm" => "fcm"
  | "websocket" => "websocket"
  | _ => "email"

def Queue.command : Queue → Option String
  | .email => some "email"
  | .sms => some "sms"
  | .fcm => some "fcm"
  | .websocket => some "websocket"
  | .router => some "router"
  | .scheduler | .retry | .dead => none

/-- The channel for which the provider of the queue's worker is built. -/
def Queue.provider (q : Queue) : Option String := q.command.map runChannel

/-- The channel for which the provider of a call was built. -/
def ProviderCall.provider (c : ProviderCall) : Option String :=
  match c.party with
  | .consumer d => d.message.queue.provider
  | _ => none

def ownQueue : List String := ["email", "sms", "fcm", "websocket"]

theorem channelQueue_provider {channel : String} (h : channel ∈ ownQueue) :
    (Notifications.channelQueue channel).provider = some channel := by
  simp only [ownQueue, List.mem_cons, List.not_mem_nil, or_false] at h
  rcases h with rfl | rfl | rfl | rfl <;> rfl

theorem retry_channelQueue (channel : String) :
    Retry.channelQueue channel = Notifications.channelQueue channel := rfl

def Message.Placed (m : Message) : Prop :=
  m.queue.isChannel = true → ∀ job, m.body = some job →
    m.queue = Notifications.channelQueue job.channel

def ProviderCall.Placed (c : ProviderCall) : Prop :=
  ∃ d, c.party = .consumer d ∧ d.message.queue = Notifications.channelQueue c.message.channel

def Phase.ofWorker : Phase → Bool
  | .refused | .checked _ | .paused | .sending | .called _ | .stored _ | .failed => true
  | _ => false

structure Sys.Placed (s : Sys) : Prop where
  ready : ∀ m ∈ s.broker.ready, m.Placed
  unacked : ∀ d ∈ s.broker.unacked, d.message.Placed
  calls : ∀ c ∈ s.calls, c.Placed

def placed : Party × Stage → Prop
  | (.consumer d, .consumer phase) =>
      d.message.Placed ∧ (phase.ofWorker = true → d.message.queue.isChannel = true)
  | (.consumer d, _) => d.message.Placed
  | _ => True

section

variable {cfg : Config} {s s' : Sys} {before after : Members} {party : Party}
  {stage stage' : Stage} {c : Call} {success : Bool}

private theorem placed_message {d : Delivery} (h : placed (.consumer d, stage)) :
    d.message.Placed := by
  cases stage with
  | consumer phase => exact h.1
  | _ => exact h

private theorem Writes.ofWorker {d : Delivery} {job : Job} {now : Nat}
    {phase onOk onError : Phase} {f : DeliveryRow → Option DeliveryRow}
    (h : Writes cfg d job now phase c f onOk onError) :
    (onOk.ofWorker = true → phase.ofWorker = true) ∧
      (onError.ofWorker = true → phase.ofWorker = true) := by
  cases h <;> simp [Phase.ofWorker]

private theorem Republishes.placed {d : Delivery} {job job' : Job} {phase : Phase} {q : Queue}
    (h : Republishes cfg d job phase c q job') : Message.Placed ⟨q, some job'⟩ := by
  intro hq job₀ hbody
  obtain rfl := Option.some.inj hbody
  cases h with
  | retry => simp [Queue.isChannel] at hq
  | dead _ _ => simp [Queue.isChannel] at hq
  | again _ _ => exact retry_channelQueue job.channel

private theorem newJob_placed {t queueName channel : String} {n id : Nat} {payload : JsonMap} :
    Message.Placed ⟨Notifications.channelQueue channel,
      some (Notifications.newJob t n id channel queueName payload)⟩ := by
  intro _ job hbody
  obtain rfl := Option.some.inj hbody
  rfl

private theorem Effect.ready_placed (h : Effect cfg s party stage c success stage' s')
    (hself : placed (party, stage)) {m : Message} (hm : m ∈ s'.broker.ready) :
    m ∈ s.broker.ready ∨ m.Placed := by
  cases h with
  | republish hbody hrep =>
      simp only [Sys.addPublication_broker_ready, List.mem_append, List.mem_singleton] at hm
      refine hm.imp id fun hm => ?_
      rw [hm]
      exact hrep.placed
  | requeue _ =>
      split at hm
      · simp only [Sys.requeue_broker_ready, List.mem_append, List.mem_singleton] at hm
        refine hm.imp id fun hm => ?_
        rw [hm]
        exact hself.1
      · exact .inl hm
  | sendPublish hjob =>
      simp only [Sys.addPublication_broker_ready, List.mem_append, List.mem_singleton] at hm
      refine hm.imp id fun hm => ?_
      rw [hm, hjob]
      exact newJob_placed
  | routePublish hjob =>
      simp only [Sys.addPublication_broker_ready, List.mem_append, List.mem_singleton] at hm
      refine hm.imp id fun hm => ?_
      rw [hm, hjob]
      exact newJob_placed
  | _ => exact .inl hm

private theorem Effect.placed (h : Effect cfg s party stage c success stage' s')
    (hself : placed (party, stage)) : placed (party, stage') := by
  cases h with
  | getControl _ hqueue _ => exact ⟨hself.1, fun _ => hqueue⟩
  | getControlError _ hqueue => exact ⟨hself.1, fun _ => hqueue⟩
  | write _ hwrites _ => exact ⟨hself.1, fun hphase => hself.2 (hwrites.ofWorker.1 hphase)⟩
  | writeError _ hwrites => exact ⟨hself.1, fun hphase => hself.2 (hwrites.ofWorker.2 hphase)⟩
  | providerSend _ _ => exact ⟨hself.1, fun _ => hself.2 rfl⟩
  | insertAttempt _ _ => exact ⟨hself.1, fun _ => hself.2 rfl⟩
  | insertAttemptError _ => exact ⟨hself.1, fun _ => hself.2 rfl⟩
  | republish _ _ => exact ⟨hself.1, by simp [Phase.ofWorker]⟩
  | republishError _ _ => exact ⟨hself.1, by simp [Phase.ofWorker]⟩
  | settle _ => exact ⟨hself.1, by simp [Phase.ofWorker]⟩
  | requeue _ => exact ⟨hself.1, by simp [Phase.ofWorker]⟩
  | settleError _ _ => exact ⟨hself.1, by simp [Phase.ofWorker]⟩
  | giveUp _ hparty =>
      cases party with
      | consumer d => exact absurd rfl (hparty d)
      | _ => trivial
  | _ => trivial

private theorem Effect.sysPlaced (h : Effect cfg s party stage c success stage' s')
    (hself : NotificationPlatform.placed (party, stage)) (hs : s.Placed) : s'.Placed where
  ready := by
    intro m hm
    rcases h.ready_placed hself hm with hold | hnew
    · exact hs.ready m hold
    · exact hnew
  unacked := fun d hd => hs.unacked d (h.unacked_subset hd)
  calls := by
    intro x hx
    rcases h.calls_cases with hsame | ⟨u, job, result, hbody, rfl, rfl, -, rfl⟩
    · exact hs.calls x (by rwa [hsame] at hx)
    · simp only [List.mem_append, List.mem_singleton] at hx
      rcases hx with hx | rfl
      · exact hs.calls x hx
      · exact ⟨u, rfl, hself.1 (hself.2 rfl) job hbody⟩

end

theorem placed_inductive (cfg : Config) : Inductive cfg (fun _ _ => True) Anything
    (fun s ms => s.Placed ∧ ∀ m ∈ ms, placed m) := by
  apply Inductive.each
  case call =>
    intro w before after party stage stage' c o success s' _ _ heffect _ hs hms
    have hself := hms (party, stage) (by simp)
    refine ⟨heffect.sysPlaced hself hs, heffect.placed hself, fun m hm => hms m ?_⟩
    simp only [List.mem_append, List.mem_cons] at hm ⊢
    tauto
  case request => exact fun _ => trivial
  case tick => exact fun {_} => trivial
  case deliver =>
    intro s i m hm hs
    have hplaced := hs.ready m (List.mem_of_getElem? hm)
    refine ⟨⟨fun x hx => hs.ready x (List.mem_of_mem_eraseIdx hx), fun d hd => ?_, hs.calls⟩,
      ⟨hplaced, by simp [Phase.ofWorker]⟩, fun x hx => hx⟩
    rcases List.mem_append.mp hd with hd | hd
    · exact hs.unacked d hd
    · rw [List.mem_singleton.mp hd]
      exact hplaced
  case admin => exact fun hs => ⟨⟨hs.ready, hs.unacked, hs.calls⟩, fun x hx => hx⟩
  case clock => exact fun _ hs => ⟨⟨hs.ready, hs.unacked, hs.calls⟩, fun x hx => hx⟩
  case crash =>
    intro s party stage h
    cases party with
    | consumer d => exact placed_message h
    | _ => trivial
  case requeue =>
    intro s d hd hs
    refine ⟨⟨fun m hm => ?_, fun u hu => hs.unacked u (List.mem_of_mem_filter hu), hs.calls⟩,
      fun x hx => hx⟩
    rcases List.mem_append.mp hm with hm | hm
    · exact hs.ready m hm
    · rw [List.mem_singleton.mp hm]
      exact hs.unacked d hd

def Sys.Succeeded (s : Sys) (id : Nat) : Prop :=
  ∃ c ∈ s.calls, c.message.deliveryID = id ∧ c.ok = true

def Sys.SentAfterSuccess (s : Sys) : Prop :=
  ∀ id row, s.db.deliveries.get? id = some row → row.status = .sent → s.Succeeded id

/-- A success that is yet to be stored has been reported, and rows that are yet to be committed
are queued. -/
structure Answers (s : Sys) (m : Party × Stage) : Prop where
  called : ∀ d r job, m = (.consumer d, .consumer (.called (.ok r))) →
    d.message.body = some job → s.Succeeded job.deliveryID
  opened : ∀ tx, m.2.tx? = some tx → ∀ p ∈ tx.deliveries, p.2.status = .queued

section

variable {cfg : Config} {s s' : Sys} {before after : Members} {party : Party}
  {stage stage' : Stage} {c : Call} {success : Bool}

theorem Effect.calls_mono (h : Effect cfg s party stage c success stage' s') {x : ProviderCall}
    (hx : x ∈ s.calls) : x ∈ s'.calls := by
  rcases h.calls_cases with hsame | ⟨_, _, _, -, -, -, -, rfl⟩
  · rwa [hsame]
  · exact List.mem_append_left _ hx

theorem Effect.succeeded_mono (h : Effect cfg s party stage c success stage' s') {id : Nat}
    (hid : s.Succeeded id) : s'.Succeeded id := by
  obtain ⟨x, hx, hrest⟩ := hid
  exact ⟨x, h.calls_mono hx, hrest⟩

private theorem Writes.sent {d : Delivery} {job : Job} {now : Nat} {phase onOk onError : Phase}
    {f : DeliveryRow → Option DeliveryRow} {row row' : DeliveryRow}
    (h : Writes cfg d job now phase c f onOk onError) (hf : f row = some row')
    (hsent : row'.status = .sent) : row.status = .sent ∨ ∃ r, phase = .called (.ok r) := by
  cases h with
  | sending =>
      obtain rfl := Option.some.inj hf
      simp at hsent
  | result r =>
      obtain rfl := Option.some.inj hf
      cases r with
      | error e => simp [Worker.resultStatus] at hsent
      | ok r => exact .inr ⟨r, rfl⟩
  | retryCount =>
      obtain ⟨response, -, rfl⟩ := Option.map_eq_some_iff.mp hf
      exact .inl hsent
  | _ =>
      obtain ⟨response, -, rfl⟩ := Option.map_eq_some_iff.mp hf
      simp at hsent

private theorem Effect.sentRow_cases (h : Effect cfg s party stage c success stage' s') {id : Nat}
    {row : DeliveryRow} (hrow : s'.db.deliveries.get? id = some row) (hsent : row.status = .sent) :
    (∃ old, s.db.deliveries.get? id = some old ∧ old.status = .sent) ∨
    (∃ d job r, party = .consumer d ∧ stage = .consumer (.called (.ok r)) ∧
      d.message.body = some job ∧ job.deliveryID = id) ∨
    ∃ tx, stage.tx? = some tx ∧ (id, row) ∈ tx.deliveries := by
  have hsame : s'.db.deliveries = s.db.deliveries →
      ∃ old, s.db.deliveries.get? id = some old ∧ old.status = .sent := by
    intro heq
    rw [heq] at hrow
    exact ⟨row, hrow, hsent⟩
  cases h with
  | getControl _ _ hget =>
      obtain ⟨controls, next, rfl, -⟩ := Db.getControl_cases hget
      exact .inl (hsame rfl)
  | @write _ job _ _ _ _ _ _ hbody hwrites hdb =>
      rcases Db.updateDelivery_cases hdb with ⟨-, rfl⟩ | ⟨old, new, hold, hf, rfl⟩
      · exact .inl (hsame rfl)
      · have hget := Table.get?_modify s.db.deliveries job.deliveryID id fun _ => new
        rw [hrow] at hget
        split at hget
        · next hid =>
            obtain rfl : row = new := by simpa [hid, hold] using hget
            rcases hwrites.sent hf hsent with hsent | ⟨r, rfl⟩
            · exact .inl ⟨old, by rw [hid, hold], hsent⟩
            · exact .inr (.inl ⟨_, job, r, rfl, rfl, hbody, hid.symm⟩)
        · exact .inl ⟨row, hget.symm, hsent⟩
  | insertAttempt _ hdb =>
      obtain ⟨-, attempts, rfl⟩ := Db.insertAttempt_cases hdb
      exact .inl (hsame rfl)
  | requeue _ => exact .inl (hsame (by split <;> rfl))
  | sendEnsureControl hensure =>
      obtain ⟨controls, next, rfl, -⟩ := Db.ensureControl_cases hensure
      exact .inl (hsame rfl)
  | routeEnsureControl hensure =>
      obtain ⟨controls, next, rfl, -⟩ := Db.ensureControl_cases hensure
      exact .inl (hsame rfl)
  | @commit _ _ tx _ hstage =>
      have htx : stage.tx? = some tx := by
        rcases hstage with ⟨n, rfl⟩ | rfl <;> rfl
      rcases Table.get?_insertAll_cases hrow with hold | hmem
      · exact .inl ⟨row, hold, hsent⟩
      · exact .inr (.inr ⟨tx, htx, hmem⟩)
  | @insertDelivery _ _ _ _ _ _ new hnew =>
      have hadd : (s.db.deliveries.insertAll [(s.db.nextId, new)]).get? id = some row := hrow
      rcases Table.get?_insertAll_cases hadd with hold | hmem
      · exact .inl ⟨row, hold, hsent⟩
      · have hrow : row = new := congrArg Prod.snd (List.mem_singleton.mp hmem)
        rw [hrow, hnew] at hsent
        simp [Db.newDelivery] at hsent
  | _ => exact .inl (hsame rfl)

private theorem Effect.sentAfterSuccess (h : Effect cfg s party stage c success stage' s')
    (hself : Answers s (party, stage)) (hs : s.SentAfterSuccess) : s'.SentAfterSuccess := by
  intro id row hrow hsent
  rcases h.sentRow_cases hrow hsent with ⟨old, hold, hsent⟩ | ⟨d, job, r, rfl, rfl, hbody, hid⟩ |
    ⟨tx, htx, hmem⟩
  · exact h.succeeded_mono (hs id old hold hsent)
  · rw [← hid]
    exact h.succeeded_mono (hself.called d r job rfl hbody)
  · have hqueued := hself.opened tx htx _ hmem
    simp [hsent] at hqueued

private theorem Effect.answers (h : Effect cfg s party stage c success stage' s')
    (hself : Answers s (party, stage)) : Answers s' (party, stage') := by
  constructor
  · intro d r job heq hbody
    obtain ⟨u, job', hparty, hbody', rfl⟩ := h.called_cases (congrArg Prod.snd heq)
    obtain rfl : d = u := by simpa [hparty] using (congrArg Prod.fst heq).symm
    obtain rfl : job = job' := by simpa [hbody] using hbody'
    exact ⟨_, List.mem_append_right _ (List.mem_singleton.mpr rfl), rfl, rfl⟩
  · intro tx htx p hp
    cases h with
    | insertNotification _ _ =>
        obtain rfl := Option.some.inj htx
        simp at hp
    | insertScheduledJob _ _ =>
        obtain rfl := Option.some.inj htx
        exact hself.opened _ rfl p hp
    | insertTxDelivery _ =>
        obtain rfl := Option.some.inj htx
        rcases List.mem_append.mp hp with hp | hp
        · exact hself.opened _ rfl p hp
        · rw [List.mem_singleton.mp hp]
          rfl
    | sendEnsureControl _ => exact hself.opened tx htx p hp
    | sendPublish _ => exact hself.opened tx htx p hp
    | _ => simp [Stage.tx?] at htx

end

theorem sentAfterSuccess_inductive (cfg : Config) : Inductive cfg (fun _ _ => True) Anything
    (fun s ms => s.SentAfterSuccess ∧ ∀ m ∈ ms, Answers s m) := by
  apply Inductive.each
  case call =>
    intro w before after party stage stage' c o success s' _ _ heffect _ hs hms
    have hself := hms (party, stage) (by simp)
    refine ⟨heffect.sentAfterSuccess hself hs, heffect.answers hself, fun m hm => ?_⟩
    have hold := hms m (by simp only [List.mem_append, List.mem_cons] at hm ⊢; tauto)
    exact ⟨fun d r job heq hbody => heffect.succeeded_mono (hold.called d r job heq hbody),
      hold.opened⟩
  case request => exact fun _ => ⟨by simp, by simp [Stage.tx?]⟩
  case tick => exact fun {_} => ⟨by simp, by simp [Stage.tx?]⟩
  case deliver =>
    intro s i m hm hs
    exact ⟨hs, ⟨by simp, by simp [Stage.tx?]⟩, fun x hx => ⟨hx.called, hx.opened⟩⟩
  case admin =>
    intro s a hs
    cases a <;> exact ⟨hs, fun x hx => ⟨hx.called, hx.opened⟩⟩
  case clock => exact fun _ hs => ⟨hs, fun x hx => ⟨hx.called, hx.opened⟩⟩
  case crash => exact fun _ => ⟨by simp, by simp [Stage.tx?]⟩
  case requeue => exact fun _ hs => ⟨hs, fun x hx => ⟨hx.called, hx.opened⟩⟩

def World.Label.begins? : World.Label → Option Request
  | .call (.request _ req) ⟨.send .begin _, _⟩ _ => some req
  | _ => Option.none

/-- A request that has passed its gates names only channels with a queue of their own. -/
def OwnQueues (_ : World) (l : World.Label) : Prop :=
  ∀ req ∈ l.begins?, ∀ channel ∈ req.channels, channel ∈ ownQueue

instance (w : World) (l : World.Label) : Decidable (OwnQueues w l) :=
  inferInstanceAs (Decidable (∀ req ∈ l.begins?, ∀ channel ∈ req.channels, channel ∈ ownQueue))

def ahead : Party × Stage → List String
  | (.request _ req, .begun) => req.channels
  | (_, .open _ _ todo) => todo
  | (_, .creating _ _ _ _ todo _) => todo
  | (_, .between rows) => rows.flatMap DueRow.channelList
  | (_, .routing _ _ todo rest) => todo ++ rest.flatMap DueRow.channelList
  | (_, .adding _ _ _ _ todo rest _) => todo ++ rest.flatMap DueRow.channelList
  | _ => []

structure Sys.OwnQueues (s : Sys) : Prop where
  inserted : ∀ a ∈ s.inserted, ∀ channel ∈ a.2.channelList, channel ∈ ownQueue
  rows : ∀ n, ∀ e ∈ s.db.rowsOf n, e.2 ∈ ownQueue

structure HasQueues (m : Party × Stage) : Prop where
  ahead : ∀ channel ∈ ahead m, channel ∈ ownQueue
  opened : ∀ tx, m.2.tx? = some tx → ∀ p ∈ tx.deliveries, p.2.channel ∈ ownQueue

section

variable {cfg : Config} {s s' : Sys} {before after : Members} {party : Party}
  {stage stage' : Stage} {c : Call} {success : Bool}

private theorem Effect.ahead_cases (h : Effect cfg s party stage c success stage' s')
    {channel : String} (hc : channel ∈ ahead (party, stage')) :
    channel ∈ ahead (party, stage) ∨
    (∃ t req, party = .request t req ∧ c = ⟨.send .begin 0, .begin⟩ ∧ channel ∈ req.channels) ∨
    ∃ row ∈ s.db.dueRows, channel ∈ row.channelList := by
  cases h with
  | begin _ => exact .inr (.inl ⟨_, _, rfl, rfl, hc⟩)
  | insertNotification _ _ => exact .inl hc
  | insertTxDelivery _ => exact .inl (List.mem_cons_of_mem _ hc)
  | sendEnsureControl _ => exact .inl hc
  | sendPublish _ => exact .inl hc
  | selectDue =>
      obtain ⟨row, hrow, hc⟩ := List.mem_flatMap.mp hc
      exact .inr (.inr ⟨row, hrow, hc⟩)
  | scanDue => exact .inl (by simpa [ahead, List.flatMap_cons] using hc)
  | insertDelivery _ => exact .inl (List.mem_cons_of_mem _ hc)
  | routeEnsureControl _ => exact .inl hc
  | routePublish _ => exact .inl hc
  | markRouted => exact .inl (by simpa [ahead] using hc)
  | commit _ => simp [ahead] at hc
  | giveUp _ _ => cases party <;> simp [ahead] at hc
  | _ => simp [ahead] at hc

private theorem Effect.sysOwnQueues (h : Effect cfg s party stage c success stage' s')
    (howned : OwnedOnce s (before ++ (party, stage) :: after))
    (hself : HasQueues (party, stage)) (hs : s.OwnQueues) : s'.OwnQueues := by
  constructor
  · intro a ha channel hc
    rcases h.tx_cases with ⟨hsame, -⟩ | ⟨t, req, _, _, _, row, rfl, rfl, rfl, -, -, rfl⟩
    · exact hs.inserted a (by rwa [hsame] at ha) channel hc
    · rcases List.mem_append.mp ha with ha | ha
      · exact hs.inserted a ha channel hc
      · rw [List.mem_singleton.mp ha] at hc
        have hreq : channel ∈ req.channels := by
          simpa [Notifications.newNotification, Notification.channelList,
            Json.toStrings_ofStrings, Request.withDefaultSchedule_channels] using hc
        exact hself.ahead channel hreq
  · intro n e he
    rcases h.rowsOf_cases howned with hsame | ⟨tx, htx, -, rfl, hrows⟩ |
      ⟨row, done, channel, todo, rest, rfl, -, hrows, -⟩
    · exact hs.rows n e (by rwa [hsame] at he)
    · rw [hrows] at he
      rcases List.mem_append.mp he with he | he
      · exact hs.rows n e he
      · obtain ⟨p, hp, heq⟩ := List.mem_filterMap.mp he
        have hown := hself.opened tx htx p hp
        split at heq
        · rw [← Option.some.inj heq]
          exact hown
        · simp at heq
    · rw [hrows] at he
      rcases List.mem_append.mp he with he | he
      · exact hs.rows n e he
      · have hchannel : e.2 = channel := by
          split at he
          · rw [List.mem_singleton.mp he]
          · simp at he
        rw [hchannel]
        exact hself.ahead channel (by simp [ahead])

private theorem Effect.hasQueues (h : Effect cfg s party stage c success stage' s')
    {w : World} {o : Outcome} (hok : NotificationPlatform.OwnQueues w (.call party c o))
    (htraced : Traced s (before ++ (party, stage) :: after))
    (hself : HasQueues (party, stage)) (hs : s.OwnQueues) : HasQueues (party, stage') := by
  constructor
  · intro channel hc
    rcases h.ahead_cases hc with hold | ⟨t, req, rfl, rfl, hreq⟩ | ⟨row, hrow, hchannel⟩
    · exact hself.ahead channel hold
    · exact hok req rfl channel hreq
    · obtain ⟨entry, -, hdue⟩ := Db.mem_dueRows hrow
      obtain ⟨-, -, notification, hget, rfl⟩ := Db.dueRow?_eq_some hdue
      exact hs.inserted _ (htraced.committed _ _ hget) channel hchannel
  · intro tx htx p hp
    cases h with
    | insertNotification _ _ =>
        obtain rfl := Option.some.inj htx
        simp at hp
    | insertScheduledJob _ _ =>
        obtain rfl := Option.some.inj htx
        exact hself.opened _ rfl p hp
    | insertTxDelivery _ =>
        obtain rfl := Option.some.inj htx
        rcases List.mem_append.mp hp with hp | hp
        · exact hself.opened _ rfl p hp
        · rw [List.mem_singleton.mp hp]
          exact hself.ahead _ List.mem_cons_self
    | sendEnsureControl _ => exact hself.opened tx htx p hp
    | sendPublish _ => exact hself.opened tx htx p hp
    | _ => simp [Stage.tx?] at htx

end

theorem ownQueues_inductive (cfg : Config) : Inductive cfg OwnQueues
    (fun s ms => Traced s ms ∧ OwnedOnce s ms)
    (fun s ms => s.OwnQueues ∧ ∀ m ∈ ms, HasQueues m) := by
  apply Inductive.each
  case call =>
    intro w before after party stage stage' c o success s' hok _ heffect hK hs hms
    have hself := hms (party, stage) (by simp)
    refine ⟨heffect.sysOwnQueues hK.2 hself hs, heffect.hasQueues hok hK.1 hself hs,
      fun m hm => hms m ?_⟩
    simp only [List.mem_append, List.mem_cons] at hm ⊢
    tauto
  case request => exact fun _ => ⟨by simp [ahead], by simp [Stage.tx?]⟩
  case tick => exact fun {_} => ⟨by simp [ahead], by simp [Stage.tx?]⟩
  case deliver =>
    exact fun _ hs => ⟨⟨hs.inserted, hs.rows⟩, ⟨by simp [ahead], by simp [Stage.tx?]⟩,
      fun _ hx => hx⟩
  case admin =>
    intro s a hs
    cases a <;> exact ⟨⟨hs.inserted, hs.rows⟩, fun _ hx => hx⟩
  case clock => exact fun _ hs => ⟨⟨hs.inserted, hs.rows⟩, fun _ hx => hx⟩
  case crash =>
    intro s party stage _
    refine ⟨?_, by simp [Stage.tx?]⟩
    cases party <;> simp [ahead]
  case requeue => exact fun _ hs => ⟨⟨hs.inserted, hs.rows⟩, fun _ hx => hx⟩

/-- Every provider call for a delivery is made on a provider built for its channel, and a
delivery is sent only after such a provider reported success. -/
structure Sys.OwnProvider (s : Sys) : Prop where
  calls : ∀ d row, s.db.deliveries.get? d = some row → ∀ c ∈ s.calls,
    c.message.deliveryID = d → c.provider = some row.channel
  sent : ∀ d row, s.db.deliveries.get? d = some row → row.status = .sent →
    ∃ c ∈ s.calls, c.message.deliveryID = d ∧ c.ok = true ∧ c.provider = some row.channel

/-- In every run in which the requests that pass their gates name only channels with a queue of
their own, deliveries are sent by the provider of their channel. -/
theorem sent_by_own_provider {cfg : Config} {w₀ w : World} {es : List Event} (hfresh : w₀.Fresh)
    (hrun : w₀.RunOf cfg OwnQueues es w) : w.sys.OwnProvider := by
  have hK := (traced_inductive cfg).and ((ownedOnce_inductive cfg).given fun _ _ _ => trivial)
  have hfirst := And.intro (traced_fresh hfresh) (ownedOnce_fresh hfresh)
  have hany : w₀.RunOf cfg (fun _ _ => True) es w := hrun.mono fun _ _ _ => trivial
  obtain ⟨_, -, -, book, hb⟩ := (hK.and (addressed_inductive cfg)).reachable hfresh hany
    ⟨hfirst, addressed_fresh hfresh⟩
  obtain ⟨_, -, hplaced, -⟩ := (placed_inductive cfg).reachable hfresh hany
    ⟨⟨by simp [hfresh.ready], by simp [hfresh.unacked], by simp [hfresh.calls]⟩, by simp⟩
  obtain ⟨_, -, hsent, -⟩ := (sentAfterSuccess_inductive cfg).reachable hfresh hany
    ⟨by simp [Sys.SentAfterSuccess, hfresh.deliveries], by simp⟩
  obtain ⟨_, -, -, hqueues, -⟩ := ((hK.mono fun _ _ _ => trivial).and
    (ownQueues_inductive cfg)).reachable hfresh hrun
      ⟨hfirst, ⟨by simp [hfresh.inserted], by simp [Db.rowsOf, hfresh.deliveries]⟩, by simp⟩
  have hcalls : ∀ d row, w.sys.db.deliveries.get? d = some row → ∀ c ∈ w.sys.calls,
      c.message.deliveryID = d → c.provider = some row.channel := by
    intro d row hrow c hc hid
    have hown : row.channel ∈ ownQueue := by
      apply hqueues.rows row.notificationID (d, row.channel)
      exact List.mem_filterMap.mpr ⟨(d, row), Table.get?_eq_some.mp hrow, by simp⟩
    have hchannel : c.message.channel = row.channel := hb.call_channel hrow hc hid
    obtain ⟨u, hparty, hqueue⟩ := hplaced.calls c hc
    rw [ProviderCall.provider, hparty]
    show u.message.queue.provider = some row.channel
    rw [hqueue, hchannel]
    exact channelQueue_provider hown
  refine ⟨hcalls, fun d row hrow hstatus => ?_⟩
  obtain ⟨c, hc, hid, hsuccess⟩ := hsent d row hrow hstatus
  exact ⟨c, hc, hid, hsuccess, hcalls d row hrow c hc hid⟩

/-- A delivery that fails once is sent by the provider of its channel. -/
theorem sent_by_own_provider_retried : ∃ es w,
    sampleWorld.RunOf (sampleConfig 3) OwnQueues es w ∧
      w.sys.calls.map ProviderCall.provider = [some "sms", some "sms"] ∧
      (w.sys.db.deliveries.get? 1).map DeliveryRow.status = some .sent ∧ w.sys.OwnProvider := by
  obtain ⟨w, hrun, hw⟩ := World.exists_run (sampleConfig 3) OwnQueues sampleWorld
    (List.flatten [[.request 1 "t1" (sampleRequest ["sms"] ⟨"", ""⟩ "")], steps 0 10,
      [.deliver 0], steps 1 2, [failure 1], steps 1 4, [.deliver 0], steps 2 3, [.deliver 0],
      steps 3 4])
    (fun w => w.sys.calls.map ProviderCall.provider == [some "sms", some "sms"] &&
      (w.sys.db.deliveries.get? 1).map DeliveryRow.status == some .sent)
    (by decide +kernel)
  simp only [Bool.and_eq_true, beq_iff_eq] at hw
  exact ⟨_, w, hrun, hw.1, hw.2, sent_by_own_provider sampleWorld_fresh hrun⟩

/-- The platform offers a channel that has no queue, and a tenant may send on it. -/
def enableWhatsapp : List Event :=
  [.admin (.platformChannel ⟨"whatsapp", true⟩),
    .admin (.channel ⟨"t1", "whatsapp", true, "one_way"⟩),
    .admin (.feature ⟨"t1", "channel.whatsapp", true⟩),
    .admin (.providerConfigs "t1" [⟨"t1", "whatsapp", "mock", true, "active"⟩])]

/-- A delivery on a channel without a queue is sent by the email provider of the router worker. -/
theorem whatsapp_sent_by_email : ¬∀ (w₀ w : World) (es : List Event), w₀.Fresh →
    w₀.RunOf (sampleConfig 3) (fun _ _ => True) es w → w.sys.OwnProvider := by
  intro hclaim
  obtain ⟨w, hrun, hw⟩ := World.exists_run (sampleConfig 3) (fun _ _ => True) sampleWorld
    (List.flatten [enableWhatsapp, [.request 1 "t1" (sampleRequest ["whatsapp"] ⟨"", ""⟩ "")],
      steps 0 10, [.deliver 0], steps 1 6])
    (fun w => (w.sys.db.deliveries.get? 1).map (fun row => (row.channel, row.status)) ==
        some ("whatsapp", .sent) &&
      w.sys.calls.all fun c => c.provider == some "email") (by decide +kernel)
  simp only [Bool.and_eq_true, beq_iff_eq, List.all_eq_true] at hw
  obtain ⟨row, hrow, heq⟩ := Option.map_eq_some_iff.mp hw.1
  obtain ⟨hchannel, hstatus⟩ : row.channel = "whatsapp" ∧ row.status = .sent := by simpa using heq
  obtain ⟨c, hc, -, -, hprovider⟩ := (hclaim _ w _ sampleWorld_fresh hrun).sent 1 row hrow hstatus
  have hemail := hw.2 c hc
  rw [hprovider, hchannel] at hemail
  simp at hemail

end NotificationPlatform
