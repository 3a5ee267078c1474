import NotificationPlatform.Routing

/-!
# The address of a delivery

When its row is created, a delivery is given a tenant, a notification, a channel and a payload.
A book of these addresses, kept beside a run, never changes an entry; every job and every
provider call of a delivery agrees with its entry, whatever fails, is retried, paused or crashes.
-/

namespace NotificationPlatform

open Lib

structure Address where
  tenantID : String
  notificationID : Nat
  channel : String
  payload : JsonMap

def Job.address (job : Job) : Address :=
  ⟨job.tenantID, job.notificationID, job.channel, job.payload⟩

abbrev Book := Nat → Option Address

def DeliveryRow.At (row : DeliveryRow) (a : Address) : Prop :=
  row.tenantID = a.tenantID ∧ row.notificationID = a.notificationID ∧ row.channel = a.channel

/-- The row belongs to the address that was booked for it. -/
def Book.Holds (book : Book) (id : Nat) (row : DeliveryRow) : Prop :=
  ∃ a, book id = some a ∧ row.At a

def Book.add (book : Book) (id : Nat) (a : Address) : Book :=
  fun id' => if id' = id then some a else book id'

def Notification.payload (row : Notification) : JsonMap :=
  jobPayload (Request.ofJson row.data).data (Target.ofJson row.target).recipient

/-- A `Send` of the tenant has inserted notification `n`. -/
def Sys.Files (s : Sys) (t : String) (n : Nat) : Prop :=
  ∃ row, (n, row) ∈ s.inserted ∧ row.tenantID = t

/-- A `Send` of the tenant has inserted notification `n` with the payload. -/
def Sys.Submits (s : Sys) (t : String) (n : Nat) (payload : JsonMap) : Prop :=
  ∃ row, (n, row) ∈ s.inserted ∧ row.tenantID = t ∧ row.payload = payload

def hands : Party × Stage → Option (Nat × Address)
  | (.consumer d, _) => d.message.body.map fun job => (job.deliveryID, job.address)
  | (.request t req, .creating n id _ channel _ _) =>
      some (id, ⟨t, n, channel, jobPayload req.data req.target.recipient⟩)
  | (.pass _, .adding row new _ channel _ _ _) =>
      some (new, ⟨row.tenantID, row.notificationID, channel, row.payload⟩)
  | _ => none

/-- The notification of a request's transaction has the payload of the request. -/
def payloadOf (row : Notification) : Party → Prop
  | .request _ req => row.payload = jobPayload req.data req.target.recipient
  | _ => True

structure Booked (book : Book) (s : Sys) (ms : Members) : Prop where
  lt : ∀ id a, book id = some a → id < s.db.nextId
  submits : ∀ id a, book id = some a → s.Submits a.tenantID a.notificationID a.payload
  rows : ∀ id row, s.db.deliveries.get? id = some row → book.Holds id row
  jobs : ∀ r ∈ s.db.scheduledJobs.rows, s.Files r.2.tenantID r.2.notificationID
  ready : ∀ m ∈ s.broker.ready, ∀ job, m.body = some job →
    book job.deliveryID = some job.address
  unacked : ∀ d ∈ s.broker.unacked, ∀ job, d.message.body = some job →
    book job.deliveryID = some job.address
  calls : ∀ c ∈ s.calls, ∃ job, book job.deliveryID = some job.address ∧
    c.message = Worker.providerMessage job
  hands : ∀ m ∈ ms, ∀ e, hands m = some e → book e.1 = some e.2
  deliveries : ∀ m ∈ ms, ∀ tx, m.2.tx? = some tx → ∀ p ∈ tx.deliveries, book.Holds p.1 p.2
  filed : ∀ m ∈ ms, ∀ tx, m.2.tx? = some tx → ∀ e ∈ tx.job, s.Files e.2.tenantID e.2.notificationID
  opened : ∀ m ∈ ms, ∀ tx, m.2.tx? = some tx → payloadOf tx.notification.2 m.1
  due : ∀ m ∈ ms, ∀ row ∈ m.2.toDo, s.Submits row.tenantID row.notificationID row.payload

section

variable {cfg : Config} {s s' : Sys} {before after : Members} {party : Party}
  {stage stage' : Stage} {c : Call} {success : Bool} {book : Book}

private theorem Book.add_self (id : Nat) (a : Address) : book.add id a id = some a := by
  simp [Book.add]

private theorem Book.add_of_some {id id' : Nat} {a a' : Address} (hnew : book id = none)
    (h : book id' = some a') : book.add id a id' = some a' := by
  have hne : id' ≠ id := by
    rintro rfl
    simp [hnew] at h
  simpa [Book.add, hne] using h

theorem Notification.payload_new (t publicID : String) (req : Request) (scheduledAt : Option Nat)
    (status : NotificationStatus) :
    (Notifications.newNotification t publicID req.withDefaultSchedule scheduledAt status).payload =
      jobPayload req.data req.target.recipient := by
  simp [Notification.payload, Notifications.newNotification, Request.ofJson_toJson,
    Target.ofJson_toJson, Request.withDefaultSchedule_data, Request.withDefaultSchedule_target]

private theorem Writes.address {d : Delivery} {job : Job} {now : Nat} {phase onOk onError : Phase}
    {c : Call} {f : DeliveryRow → Option DeliveryRow} {row row' : DeliveryRow}
    (h : Writes cfg d job now phase c f onOk onError) (hf : f row = some row') :
    row'.tenantID = row.tenantID ∧ row'.notificationID = row.notificationID ∧
      row'.channel = row.channel := by
  cases h with
  | sending =>
      obtain rfl := Option.some.inj hf
      exact ⟨rfl, rfl, rfl⟩
  | result r =>
      obtain rfl := Option.some.inj hf
      exact ⟨rfl, rfl, rfl⟩
  | _ =>
      obtain ⟨response, -, rfl⟩ := Option.map_eq_some_iff.mp hf
      exact ⟨rfl, rfl, rfl⟩

private theorem Republishes.address {d : Delivery} {job job' : Job} {phase : Phase} {q : Queue}
    (h : Republishes cfg d job phase c q job') :
    job'.deliveryID = job.deliveryID ∧ job'.address = job.address := by
  cases h <;> exact ⟨rfl, rfl⟩

private theorem Effect.delivery_cases (h : Effect cfg s party stage c success stage' s')
    {id : Nat} {row : DeliveryRow} (hrow : s'.db.deliveries.get? id = some row) :
    (∃ old, s.db.deliveries.get? id = some old ∧ row.tenantID = old.tenantID ∧
      row.notificationID = old.notificationID ∧ row.channel = old.channel) ∨
    (∃ tx, stage.tx? = some tx ∧ (id, row) ∈ tx.deliveries) ∨
    ∃ a, hands (party, stage') = some (id, a) ∧ row.At a := by
  have hsame : s'.db.deliveries = s.db.deliveries →
      ∃ old, s.db.deliveries.get? id = some old ∧ row.tenantID = old.tenantID ∧
        row.notificationID = old.notificationID ∧ row.channel = old.channel := by
    intro heq
    rw [heq] at hrow
    exact ⟨row, hrow, rfl, rfl, rfl⟩
  cases h with
  | getControl _ _ hget =>
      obtain ⟨controls, next, rfl, -⟩ := Db.getControl_cases hget
      exact .inl (hsame rfl)
  | @write _ job _ _ _ _ _ _ _ hwrites hdb =>
      rcases Db.updateDelivery_cases hdb with ⟨-, rfl⟩ | ⟨old, new, hold, hf, rfl⟩
      · exact .inl (hsame rfl)
      · have hget := Table.get?_modify s.db.deliveries job.deliveryID id fun _ => new
        rw [hrow] at hget
        split at hget
        · next hid =>
            obtain rfl : row = new := by simpa [hid, hold] using hget
            exact .inl ⟨old, by rw [hid, hold], hwrites.address hf⟩
        · exact .inl ⟨row, hget.symm, rfl, rfl, rfl⟩
  | insertAttempt _ hdb =>
      obtain ⟨-, attempts, rfl⟩ := Db.insertAttempt_cases hdb
      exact .inl (hsame rfl)
  | requeue _ => exact .inl (hsame (by split <;> rfl))
  | sendEnsureControl hensure =>
      obtain ⟨controls, next, rfl, -⟩ := Db.ensureControl_cases hensure
      exact .inl (hsame rfl)
  | routeEnsureControl hensure =>
      obtain ⟨controls, next, rfl, -⟩ := Db.ensureControl_cases hensure
      exact .inl (hsame rfl)
  | @commit _ _ tx _ hstage =>
      have htx : stage.tx? = some tx := by
        rcases hstage with ⟨n, rfl⟩ | rfl <;> rfl
      rcases Table.get?_insertAll_cases hrow with hold | hmem
      · exact .inl ⟨row, hold, rfl, rfl, rfl⟩
      · exact .inr (.inl ⟨tx, htx, hmem⟩)
  | @insertDelivery _ due _ _ _ _ new hnew =>
      have hadd : (s.db.deliveries.insertAll [(s.db.nextId, new)]).get? id = some row := hrow
      rcases Table.get?_insertAll_cases hadd with hold | hmem
      · exact .inl ⟨row, hold, rfl, rfl, rfl⟩
      · have heq := List.mem_singleton.mp hmem
        have hid : id = s.db.nextId := congrArg Prod.fst heq
        have hrow : row = new := congrArg Prod.snd heq
        refine .inr (.inr ⟨_, by rw [hid]; rfl, ?_⟩)
        rw [hrow, hnew]
        exact ⟨rfl, rfl, rfl⟩
  | _ => exact .inl (hsame rfl)

private theorem Effect.txDelivery_cases (h : Effect cfg s party stage c success stage' s')
    {tx : Tx} (htx : stage'.tx? = some tx) {p : Nat × DeliveryRow} (hp : p ∈ tx.deliveries) :
    (∃ old, stage.tx? = some old ∧ p ∈ old.deliveries) ∨
      ∃ a, hands (party, stage') = some (p.1, a) ∧ p.2.At a := by
  cases h with
  | insertNotification _ _ =>
      obtain rfl := Option.some.inj htx
      simp at hp
  | insertScheduledJob _ _ =>
      obtain rfl := Option.some.inj htx
      exact .inl ⟨_, rfl, hp⟩
  | insertTxDelivery _ =>
      obtain rfl := Option.some.inj htx
      rcases List.mem_append.mp hp with hp | hp
      · exact .inl ⟨_, rfl, hp⟩
      · obtain rfl := List.mem_singleton.mp hp
        exact .inr ⟨_, rfl, rfl, rfl, rfl⟩
  | sendEnsureControl _ => exact .inl ⟨tx, htx, hp⟩
  | sendPublish _ => exact .inl ⟨tx, htx, hp⟩
  | _ => simp [Stage.tx?] at htx

private theorem Effect.txJob_cases (h : Effect cfg s party stage c success stage' s')
    (hnumbered : stage.numbered) {tx : Tx} (htx : stage'.tx? = some tx)
    {e : Nat × ScheduledJob} (he : e ∈ tx.job) :
    (∃ old, stage.tx? = some old ∧ e ∈ old.job) ∨
      ∃ old t req, stage.tx? = some old ∧ party = .request t req ∧ e.2.tenantID = t ∧
        e.2.notificationID = old.notification.1 := by
  cases h with
  | insertNotification _ _ =>
      obtain rfl := Option.some.inj htx
      simp at he
  | insertScheduledJob _ _ =>
      obtain rfl := Option.some.inj htx
      obtain rfl := Option.mem_some_iff.mp he
      exact .inr ⟨_, _, _, rfl, rfl, rfl, Eq.symm hnumbered⟩
  | insertTxDelivery _ =>
      obtain rfl := Option.some.inj htx
      exact .inl ⟨_, rfl, he⟩
  | sendEnsureControl _ => exact .inl ⟨tx, htx, he⟩
  | sendPublish _ => exact .inl ⟨tx, htx, he⟩
  | _ => simp [Stage.tx?] at htx

private theorem Effect.ready_hands (h : Effect cfg s party stage c success stage' s')
    {m : Message} (hm : m ∈ s'.broker.ready) {job : Job} (hbody : m.body = some job) :
    m ∈ s.broker.ready ∨ hands (party, stage) = some (job.deliveryID, job.address) := by
  cases h with
  | republish hold hrep =>
      simp only [Sys.addPublication_broker_ready, List.mem_append, List.mem_singleton] at hm
      refine hm.imp id fun hm => ?_
      subst m
      obtain rfl := Option.some.inj hbody
      obtain ⟨hid, haddress⟩ := hrep.address
      simp [hands, hold, hid, haddress]
  | requeue _ =>
      split at hm
      · simp only [Sys.requeue_broker_ready, List.mem_append, List.mem_singleton] at hm
        refine hm.imp id fun hm => ?_
        subst m
        simp [hands, hbody]
      · exact .inl hm
  | sendPublish hjob =>
      simp only [Sys.addPublication_broker_ready, List.mem_append, List.mem_singleton] at hm
      refine hm.imp id fun hm => ?_
      subst m
      obtain rfl := Option.some.inj hbody
      simp [hands, hjob, Notifications.newJob, Job.address]
  | routePublish hjob =>
      simp only [Sys.addPublication_broker_ready, List.mem_append, List.mem_singleton] at hm
      refine hm.imp id fun hm => ?_
      subst m
      obtain rfl := Option.some.inj hbody
      simp [hands, hjob, Notifications.newJob, Job.address]
  | _ => exact .inl hm

private theorem Effect.calls_hands (h : Effect cfg s party stage c success stage' s')
    {x : ProviderCall} (hx : x ∈ s'.calls) :
    x ∈ s.calls ∨ ∃ job, hands (party, stage) = some (job.deliveryID, job.address) ∧
      x.message = Worker.providerMessage job := by
  cases h with
  | @providerSend d job result hbody =>
      simp only [List.mem_append, List.mem_singleton] at hx
      refine hx.imp id fun hx => ⟨job, by simp [hands, hbody], ?_⟩
      rw [hx]
  | requeue _ => split at hx <;> exact .inl hx
  | _ => exact .inl hx

private theorem Effect.hands_cases (h : Effect cfg s party stage c success stage' s')
    (htraced : Traced s (before ++ (party, stage) :: after))
    (hb : Booked book s (before ++ (party, stage) :: after)) {e : Nat × Address}
    (he : hands (party, stage') = some e) :
    hands (party, stage) = some e ∨ e.1 = s.db.nextId ∧ s.db.nextId < s'.db.nextId ∧
      s.Submits e.2.tenantID e.2.notificationID e.2.payload := by
  have hmem : (party, stage) ∈ before ++ (party, stage) :: after := by simp
  cases h with
  | insertTxDelivery _ =>
      obtain rfl := Option.some.inj he
      obtain ⟨hinserted, hby⟩ := htraced.opened _ hmem _ rfl
      have hnumbered := htraced.numbered _ hmem
      have hpayload := hb.opened _ hmem _ rfl
      have hn : Prod.fst _ = _ := hnumbered
      exact .inr ⟨rfl, Nat.lt_succ_self _, _, by rw [← hn]; exact hinserted, hby.1, hpayload⟩
  | insertDelivery _ =>
      obtain rfl := Option.some.inj he
      exact .inr ⟨rfl, Nat.lt_succ_self _, hb.due _ hmem _ (by simp [Stage.toDo])⟩
  | sendEnsureControl _ => exact .inl he
  | routeEnsureControl _ => exact .inl he
  | giveUp _ hparty =>
      cases party with
      | consumer d => exact absurd rfl (hparty d)
      | _ => simp [hands] at he
  | commit _ => simp [hands] at he
  | _ => first
    | exact .inl he
    | simp [hands] at he

private theorem dueRow?_submits {ms : Members} (htraced : Traced s ms) (hb : Booked book s ms)
    {entry : Nat × ScheduledJob} (hentry : entry ∈ s.db.scheduledJobs.rows) {row : DueRow}
    (hdue : s.db.dueRow? entry = some row) :
    s.Submits row.tenantID row.notificationID row.payload := by
  obtain ⟨-, -, notification, hget, rfl⟩ := Db.dueRow?_eq_some hdue
  have hinserted := htraced.committed _ _ hget
  obtain ⟨filed, hfiled, htenant⟩ := hb.jobs entry hentry
  have hsame : (entry.2.notificationID, filed) = (entry.2.notificationID, notification) :=
    List.inj_on_of_nodup_map htraced.ids hfiled hinserted rfl
  obtain rfl : filed = notification := congrArg Prod.snd hsame
  exact ⟨filed, hinserted, htenant, rfl⟩

private theorem Effect.exists_book (h : Effect cfg s party stage c success stage' s')
    (htraced : Traced s (before ++ (party, stage) :: after))
    (hb : Booked book s (before ++ (party, stage) :: after)) :
    ∃ book' : Book, (∀ id a, book id = some a → book' id = some a) ∧
      (∀ id a, book' id = some a → id < s'.db.nextId ∧
        s.Submits a.tenantID a.notificationID a.payload) ∧
      ∀ e, hands (party, stage') = some e → book' e.1 = some e.2 := by
  have hold : ∀ id a, book id = some a → id < s'.db.nextId ∧
      s.Submits a.tenantID a.notificationID a.payload := fun id a hid =>
    ⟨(hb.lt id a hid).trans_le h.nextId_le, hb.submits id a hid⟩
  have hkeep : (∀ e, hands (party, stage') = some e → book e.1 = some e.2) →
      ∃ book' : Book, (∀ id a, book id = some a → book' id = some a) ∧
        (∀ id a, book' id = some a → id < s'.db.nextId ∧
          s.Submits a.tenantID a.notificationID a.payload) ∧
        ∀ e, hands (party, stage') = some e → book' e.1 = some e.2 := fun hhands =>
    ⟨book, fun _ _ hid => hid, hold, hhands⟩
  cases he : hands (party, stage') with
  | none => exact he ▸ hkeep (by simp [he])
  | some e =>
      rcases h.hands_cases htraced hb he with hsame | ⟨hid, hlt, hsubmits⟩
      · have hbooked := hb.hands (party, stage) (by simp) e hsame
        exact he ▸ hkeep fun e' he' => by rw [← Option.some.inj (he.symm.trans he')]; exact hbooked
      · have hnew : book e.1 = none := by
          cases hnone : book e.1 with
          | none => rfl
          | some a =>
              have hlt := hb.lt e.1 a hnone
              omega
        refine ⟨book.add e.1 e.2, fun id a ha => Book.add_of_some hnew ha, fun id a ha => ?_, ?_⟩
        · by_cases hne : id = e.1
          · obtain rfl : e.2 = a := by simpa [Book.add, hne] using ha
            exact ⟨by omega, hsubmits⟩
          · exact hold id a (by simpa [Book.add, hne] using ha)
        · intro e' he'
          rw [← Option.some.inj he']
          exact Book.add_self e.1 e.2

private theorem booked_call (heffect : Effect cfg s party stage c success stage' s')
    (hK : Traced s (before ++ (party, stage) :: after) ∧
      OwnedOnce s (before ++ (party, stage) :: after))
    (hb : Booked book s (before ++ (party, stage) :: after)) :
    ∃ book', Booked book' s' (before ++ (party, stage') :: after) := by
  obtain ⟨htraced, howned⟩ := hK
  have hself : (party, stage) ∈ before ++ (party, stage) :: after := by simp
  obtain ⟨book', hmono, hnew, hhands⟩ := heffect.exists_book htraced hb
  have hsubmits : ∀ {t n payload}, s.Submits t n payload → s'.Submits t n payload := by
    rintro t n payload ⟨row, hrow, hrest⟩
    exact ⟨row, heffect.inserted_mono hrow, hrest⟩
  have hfiles : ∀ {t n}, s.Files t n → s'.Files t n := by
    rintro t n ⟨row, hrow, hrest⟩
    exact ⟨row, heffect.inserted_mono hrow, hrest⟩
  have hholds : ∀ {id row}, book.Holds id row → book'.Holds id row := by
    rintro id row ⟨a, ha, hrow⟩
    exact ⟨a, hmono id a ha, hrow⟩
  have hown : ∀ e, hands (party, stage) = some e → book' e.1 = some e.2 := fun e he =>
    hmono _ _ (hb.hands _ hself e he)
  -- what holds of the members follows for the others from the book, for the caller from the call
  have hothers : ∀ {P : Party × Stage → Prop},
      (∀ m ∈ before ++ (party, stage) :: after, P m) → P (party, stage') →
      ∀ m ∈ before ++ (party, stage') :: after, P m := by
    intro P hall hcaller m hm
    simp only [List.mem_append, List.mem_cons] at hm
    rcases hm with hm | rfl | hm
    · exact hall m (by simp [hm])
    · exact hcaller
    · exact hall m (by simp [hm])
  refine ⟨book', fun id a ha => (hnew id a ha).1, fun id a ha => hsubmits (hnew id a ha).2,
    ?_, ?_, ?_, ?_, ?_, ?_, ?_, ?_, ?_, ?_⟩
  · intro id row hrow
    rcases heffect.delivery_cases hrow with ⟨old, hold, ht, hn, hc⟩ | ⟨tx, htx, hmem⟩ | ⟨a, ha, hat⟩
    · obtain ⟨a, ha, hat, han, hac⟩ := hb.rows id old hold
      exact ⟨a, hmono id a ha, ht.trans hat, hn.trans han, hc.trans hac⟩
    · exact hholds (hb.deliveries _ hself tx htx _ hmem)
    · exact ⟨a, hhands (id, a) ha, hat⟩
  · intro r hr
    rcases heffect.job_cases howned hr with ⟨old, hold, ht, hn, -⟩ | ⟨tx, htx, hmem⟩
    · rw [ht, hn]
      exact hfiles (hb.jobs old hold)
    · exact hfiles (hb.filed _ hself tx htx r hmem)
  · intro m hm job hbody
    rcases heffect.ready_hands hm hbody with hm | he
    · exact hmono _ _ (hb.ready m hm job hbody)
    · exact hown _ he
  · intro d hd job hbody
    exact hmono _ _ (hb.unacked d (heffect.unacked_subset hd) job hbody)
  · intro x hx
    rcases heffect.calls_hands hx with hx | ⟨job, he, hmessage⟩
    · obtain ⟨job, hjob, hmessage⟩ := hb.calls x hx
      exact ⟨job, hmono _ _ hjob, hmessage⟩
    · exact ⟨job, hown _ he, hmessage⟩
  · exact hothers (fun m hm e he => hmono _ _ (hb.hands m hm e he)) hhands
  · apply hothers (fun m hm tx htx p hp => hholds (hb.deliveries m hm tx htx p hp))
    intro tx htx p hp
    rcases heffect.txDelivery_cases htx hp with ⟨old, hold, hp⟩ | ⟨a, ha, hat⟩
    · exact hholds (hb.deliveries _ hself old hold p hp)
    · exact ⟨a, hhands _ ha, hat⟩
  · apply hothers (fun m hm tx htx e he => hfiles (hb.filed m hm tx htx e he))
    intro tx htx e he
    rcases heffect.txJob_cases (htraced.numbered _ hself) htx he with
      ⟨old, hold, he⟩ | ⟨old, t, req, hold, rfl, ht, hn⟩
    · exact hfiles (hb.filed _ hself old hold e he)
    · obtain ⟨hinserted, hby⟩ := htraced.opened _ hself old hold
      refine hfiles ⟨old.notification.2, ?_, hby.1.trans ht.symm⟩
      rw [hn]
      exact hinserted
  · apply hothers (fun m hm tx htx => hb.opened m hm tx htx)
    intro tx htx
    rcases heffect.tx_cases with
    ⟨-, hold⟩ | ⟨t, req, publicID, at_, status, row, rfl, -, rfl, -, rfl, -⟩
    · obtain ⟨old, htx, heq⟩ := hold tx htx
      rw [← heq]
      exact hb.opened _ hself old htx
    · obtain rfl := Option.some.inj htx
      exact Notification.payload_new t publicID req at_ status
  · apply hothers (fun m hm row hrow => hsubmits (hb.due m hm row hrow))
    intro row hrow
    rcases heffect.toDo_cases hrow with hrow | ⟨-, hrow⟩
    · exact hsubmits (hb.due _ hself row hrow)
    · obtain ⟨entry, hentry, hdue⟩ := Db.mem_dueRows hrow
      exact hsubmits (dueRow?_submits htraced hb hentry hdue)

end

private theorem booked_members {book : Book} {s : Sys} {ms ms' : Members} (hb : Booked book s ms)
    (hms : ∀ m ∈ ms', m ∈ ms ∨ m.2.tx? = none ∧ m.2.toDo = [] ∧
      ∀ e, hands m = some e → book e.1 = some e.2) : Booked book s ms' where
  lt := hb.lt
  submits := hb.submits
  rows := hb.rows
  jobs := hb.jobs
  ready := hb.ready
  unacked := hb.unacked
  calls := hb.calls
  hands := by
    intro m hm
    rcases hms m hm with hold | ⟨-, -, hhands⟩
    · exact hb.hands m hold
    · exact hhands
  deliveries := by
    intro m hm tx htx
    rcases hms m hm with hold | ⟨hnone, -, -⟩
    · exact hb.deliveries m hold tx htx
    · simp [hnone] at htx
  filed := by
    intro m hm tx htx
    rcases hms m hm with hold | ⟨hnone, -, -⟩
    · exact hb.filed m hold tx htx
    · simp [hnone] at htx
  opened := by
    intro m hm tx htx
    rcases hms m hm with hold | ⟨hnone, -, -⟩
    · exact hb.opened m hold tx htx
    · simp [hnone] at htx
  due := by
    intro m hm row hrow
    rcases hms m hm with hold | ⟨-, hnil, -⟩
    · exact hb.due m hold row hrow
    · simp [hnil] at hrow

private theorem booked_spawn {book : Book} {s : Sys} {ms : Members} {party : Party} {stage : Stage}
    (hb : Booked book s ms) (htx : stage.tx? = none) (htoDo : stage.toDo = [])
    (hhands : ∀ e, hands (party, stage) = some e → book e.1 = some e.2) :
    Booked book s (ms ++ [(party, stage)]) := by
  apply booked_members hb
  intro m hm
  refine (List.mem_append.mp hm).imp id fun hm => ?_
  rw [List.mem_singleton.mp hm]
  exact ⟨htx, htoDo, hhands⟩

theorem Booked.call_channel {book : Book} {s : Sys} {ms : Members} (hb : Booked book s ms)
    {d : Nat} {row : DeliveryRow} (hrow : s.db.deliveries.get? d = some row) {c : ProviderCall}
    (hc : c ∈ s.calls) (hid : c.message.deliveryID = d) : c.message.channel = row.channel := by
  obtain ⟨a, ha, -, -, hchannel⟩ := hb.rows d row hrow
  obtain ⟨job, hjob, hmessage⟩ := hb.calls c hc
  have hjobID : job.deliveryID = d := by
    rw [← hid, hmessage]
    rfl
  rw [hjobID, ha] at hjob
  rw [hmessage, hchannel, Option.some.inj hjob]
  rfl

theorem Booked.submitted {book : Book} {s : Sys} {ms : Members} (hb : Booked book s ms)
    (htraced : Traced s ms) {n d : Nat} {notification : Notification} {row : DeliveryRow}
    (hn : s.db.notifications.get? n = some notification)
    (hrow : s.db.deliveries.get? d = some row) (hrown : row.notificationID = n) :
    ∃ a, book d = some a ∧ row.At a ∧ notification.tenantID = a.tenantID ∧
      notification.payload = a.payload := by
  obtain ⟨a, ha, hat⟩ := hb.rows d row hrow
  obtain ⟨filed, hinserted, htenant, hpayload⟩ := hb.submits d a ha
  have hid : a.notificationID = n := hat.2.1.symm.trans hrown
  have hsame : (a.notificationID, filed) = (n, notification) :=
    List.inj_on_of_nodup_map htraced.ids hinserted (htraced.committed _ _ hn) hid
  obtain rfl : filed = notification := congrArg Prod.snd hsame
  exact ⟨a, ha, hat, htenant, hpayload⟩

def Addressed (s : Sys) (ms : Members) : Prop := ∃ book, Booked book s ms

theorem addressed_inductive (cfg : Config) : Inductive cfg (fun _ _ => True)
    (fun s ms => Traced s ms ∧ OwnedOnce s ms) Addressed where
  call := by
    intro w before after party stage stage' c o success s' _ _ _ heffect hK h
    obtain ⟨book, hb⟩ := h
    exact booked_call heffect hK hb
  request := by
    intro w ms t req _ _ _ h
    obtain ⟨book, hb⟩ := h
    exact ⟨book, booked_spawn hb rfl rfl (by simp [hands])⟩
  tick := by
    intro w ms _ _ _ h
    obtain ⟨book, hb⟩ := h
    exact ⟨book, booked_spawn hb rfl rfl (by simp [hands])⟩
  deliver := by
    intro w ms i m _ _ hm _ h
    obtain ⟨book, hb⟩ := h
    have hmem := List.mem_of_getElem? hm
    have hsys : Booked book (w.sys.deliver i ⟨w.sys.broker.nextTag, m⟩) ms := by
      refine { hb with ready := fun x hx => hb.ready x (List.mem_of_mem_eraseIdx hx), unacked := ?_ }
      intro d hd
      rcases List.mem_append.mp hd with hd | hd
      · exact hb.unacked d hd
      · obtain rfl := List.mem_singleton.mp hd
        exact hb.ready m hmem
    refine ⟨book, booked_spawn hsys rfl rfl fun e he => ?_⟩
    obtain ⟨job, hjob, rfl⟩ := Option.map_eq_some_iff.mp he
    exact hb.ready m hmem job hjob
  admin := by
    intro w ms a _ _ _ h
    obtain ⟨book, hb⟩ := h
    refine ⟨book, ?_⟩
    cases a <;> exact { hb with }
  clock := by
    intro w ms now _ _ _ _ h
    obtain ⟨book, hb⟩ := h
    exact ⟨book, { hb with }⟩
  crash := by
    intro w before after party stage _ _ _ h
    obtain ⟨book, hb⟩ := h
    refine ⟨book, booked_members hb fun m hm => ?_⟩
    simp only [List.mem_append, List.mem_cons] at hm
    rcases hm with hm | rfl | hm
    · exact .inl (by simp [hm])
    · refine .inr ⟨rfl, rfl, fun e he => hb.hands (party, stage) (by simp) e ?_⟩
      cases party with
      | consumer d => exact he
      | _ => simp [hands] at he
    · exact .inl (by simp [hm])
  requeue := by
    intro w ms d _ _ hd _ h
    obtain ⟨book, hb⟩ := h
    refine ⟨book, { hb with
        ready := ?_
        unacked := fun u hu => hb.unacked u (List.mem_of_mem_filter hu) }⟩
    intro m hm
    rcases List.mem_append.mp hm with hm | hm
    · exact hb.ready m hm
    · obtain rfl := List.mem_singleton.mp hm
      exact hb.unacked d hd

theorem addressed_fresh {w : World} (h : w.Fresh) : Addressed w.sys [] := by
  refine ⟨fun _ => none, ?_⟩
  constructor <;> simp [h.deliveries, h.scheduledJobs, h.ready, h.unacked, h.calls]

/-! ## Who receives a message -/

def addressKey : String → Option String
  | "email" => some "email"
  | "sms" => some "phone"
  | "fcm" => some "fcm_token"
  | _ => none

theorem recipientFor_of_key {channel key value : String} {payload : JsonMap}
    (hkey : addressKey channel = some key) (hvalue : payload.get? key = some (.str value)) :
    Worker.recipientFor channel payload = value := by
  unfold addressKey at hkey
  split at hkey
  · obtain rfl := Option.some.inj hkey
    simp [Worker.recipientFor, hvalue]
  · obtain rfl := Option.some.inj hkey
    simp [Worker.recipientFor, hvalue]
  · obtain rfl := Option.some.inj hkey
    simp [Worker.recipientFor, hvalue]
  · simp at hkey

theorem get?_jobPayload (data : GoMap) {recipient : JsonMap} {key : String} {value : Json}
    (h : recipient.get? key = some value) :
    (jobPayload data (some recipient)).get? key = some value :=
  JsonMap.get?_setAll_of_mem recipient.nodup (JsonMap.mem_fields_of_get? h)

/-- The message is the one for delivery `d` of the request: it is addressed as the row says. -/
structure ProviderMessage.SentFor (m : ProviderMessage) (d : Nat) (row : DeliveryRow)
    (req : Request) : Prop where
  tenantID : m.tenantID = row.tenantID
  notificationID : m.notificationID = row.notificationID
  deliveryID : m.deliveryID = d
  channel : m.channel = row.channel
  data : m.data = jobPayload req.data req.target.recipient
  recipient : ∀ recipient key value, req.target.recipient = some recipient →
    addressKey row.channel = some key → recipient.get? key = some (.str value) →
    m.recipient = value

/-- Every provider call for a delivery of an accepted request is for that row and that request. -/
def Sys.AddressedRight (s : Sys) : Prop :=
  ∀ t publicID req scheduledAt status n, s.db.notifications.get? n =
      some (Notifications.newNotification t publicID (Request.withDefaultSchedule req) scheduledAt
        status) →
    ∀ d row, s.db.deliveries.get? d = some row → row.notificationID = n →
      row.tenantID = t ∧ ∀ c ∈ s.calls, c.message.deliveryID = d → c.message.SentFor d row req

/-- In every run, whatever fails, is retried or paused, every provider call made for a delivery
is addressed as its row and carries the payload of the request. -/
theorem addressing_stable {cfg : Config} {w₀ w : World} {es : List Event} (hfresh : w₀.Fresh)
    (hrun : w₀.RunOf cfg (fun _ _ => True) es w) : w.sys.AddressedRight := by
  have hK := (traced_inductive cfg).and ((ownedOnce_inductive cfg).given fun _ _ _ => trivial)
  obtain ⟨ms, -, ⟨htraced, -⟩, book, hb⟩ := (hK.and (addressed_inductive cfg)).reachable hfresh
    hrun ⟨⟨traced_fresh hfresh, ownedOnce_fresh hfresh⟩, addressed_fresh hfresh⟩
  intro t publicID req scheduledAt status n hn d row hrow hrown
  obtain ⟨a, ha, ⟨hat, han, hac⟩, htenant, hpayload⟩ := hb.submitted htraced hn hrow hrown
  rw [Notification.payload_new] at hpayload
  refine ⟨hat.trans htenant.symm, fun c hc hid => ?_⟩
  obtain ⟨job, hjob, hmessage⟩ := hb.calls c hc
  have hjobID : job.deliveryID = d := by
    rw [← hid, hmessage]
    rfl
  have haddress : a = job.address := by
    rw [hjobID, ha] at hjob
    exact Option.some.inj hjob
  subst haddress
  have hdata : job.payload = jobPayload req.data req.target.recipient := hpayload.symm
  rw [hmessage]
  refine ⟨hat.symm, han.symm, hjobID, hac.symm, hdata, ?_⟩
  intro recipient key value hrecipient hkey hvalue
  have hchannel : row.channel = job.channel := hac
  show Worker.recipientFor job.channel job.payload = value
  apply recipientFor_of_key (hchannel ▸ hkey)
  rw [hdata, hrecipient]
  exact get?_jobPayload req.data hvalue

/-- Both provider calls of a delivery that fails once and is retried are addressed right. -/
theorem addressing_stable_retried : ∃ es w,
    sampleWorld.RunOf (sampleConfig 3) (fun _ _ => True) es w ∧ w.sys.calls.length = 2 ∧
      (w.sys.calls.all fun c => c.message.deliveryID == 1 && c.message.recipient == "a@b.c") = true ∧
      (w.sys.db.deliveries.get? 1).isSome = true ∧
      (w.sys.db.notifications.get? 0).isSome = true ∧ w.sys.AddressedRight := by
  obtain ⟨w, hrun, hw⟩ := World.exists_run (sampleConfig 3) (fun _ _ => True) sampleWorld
    (List.flatten [[.request 1 "t1" (sampleRequest ["email"] ⟨"", ""⟩ "")], steps 0 10,
      [.deliver 0], steps 1 2, [failure 1], steps 1 4, [.deliver 0], steps 2 3, [.deliver 0],
      steps 3 3])
    (fun w => w.sys.calls.length == 2 &&
      (w.sys.calls.all fun c => c.message.deliveryID == 1 && c.message.recipient == "a@b.c") &&
      (w.sys.db.deliveries.get? 1).isSome && (w.sys.db.notifications.get? 0).isSome)
    (by decide +kernel)
  simp only [Bool.and_eq_true, beq_iff_eq] at hw
  exact ⟨_, w, hrun, hw.1.1.1, hw.1.1.2, hw.1.2, hw.2, addressing_stable sampleWorld_fresh hrun⟩

end NotificationPlatform
