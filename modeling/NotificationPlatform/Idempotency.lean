import NotificationPlatform.Submission

/-!
# Submissions under an idempotency key

`Send` stores the key of a request but never looks for it. What holds of the submissions of a key
is therefore what the callers of `Send` take care of: that a notification is inserted under a
key only while no earlier one is committed, published or open in another transaction.
-/

namespace NotificationPlatform

open Lib

def Notification.hasKey (t k : String) (row : Notification) : Bool :=
  row.tenantID == t && row.idempotencyKey == some k

def Party.isRequest : Party → Bool
  | .request _ _ => true
  | _ => false

/-- The channels `Send` has published a job of notification `n` for. -/
def Sys.sentChannels (s : Sys) (n : Nat) : List String :=
  (s.published.filter fun p => p.party.isRequest && p.job.notificationID == n).map
    fun p => p.job.channel

/-- What an open transaction has published and has yet to publish makes up its channels. -/
def Stage.inOrder (s : Sys) : Stage → Prop
  | .open n tx todo => s.sentChannels n ++ todo = tx.notification.2.channelList
  | .creating n _ tx channel todo _ =>
      s.sentChannels n ++ channel :: todo = tx.notification.2.channelList
  | _ => True

/-- `Send` publishes the jobs of a notification in the order of its channels, each one once. -/
structure SentInOrder (s : Sys) (ms : Members) : Prop where
  sets : ∀ a ∈ s.inserted, s.sentChannels a.1 <+: a.2.channelList
  members : ∀ m ∈ ms, m.2.inOrder s

section

variable {cfg : Config} {s s' : Sys} {before after : Members} {party : Party}
  {stage stage' : Stage} {c : Call} {success : Bool} {n : Nat}

private theorem sentChannels_add (party : Party) (q : Queue) (job : Job) (n : Nat) :
    (s.addPublication party q job).sentChannels n = s.sentChannels n ++
      if party.isRequest && job.notificationID == n then [job.channel] else [] := by
  simp only [Sys.sentChannels, Sys.addPublication_published, List.filter_append, List.map_append]
  cases hp : party.isRequest && job.notificationID == n <;> simp [hp]

private theorem Effect.sent_cases (h : Effect cfg s party stage c success stage' s') :
    (∀ n, s'.sentChannels n = s.sentChannels n) ∨
    ∃ n id tx channel todo, stage = .creating n id tx channel todo true ∧
      stage' = .open n tx todo ∧
      ∀ n', s'.sentChannels n' = s.sentChannels n' ++ if n = n' then [channel] else [] := by
  cases h with
  | requeue _ => exact .inl fun n => by split <;> rfl
  | republish _ _ => exact .inl fun n => by simp [sentChannels_add, Party.isRequest]
  | sendPublish hjob =>
      refine .inr ⟨_, _, _, _, _, rfl, rfl, fun n' => ?_⟩
      simp [sentChannels_add, Party.isRequest, hjob, Notifications.newJob]
  | routePublish _ => exact .inl fun n => by simp [sentChannels_add, Party.isRequest]
  | _ => exact .inl fun n => rfl

private theorem sent_nextId {ms : Members} (h : Traced s ms) : s.sentChannels s.db.nextId = [] := by
  rw [Sys.sentChannels, List.map_eq_nil_iff, List.filter_eq_nil_iff]
  intro p hp
  obtain ⟨a, ha, hid⟩ := List.mem_map.mp (h.published p hp)
  have hlt := h.lt a ha
  simp only [Bool.and_eq_true, beq_iff_eq, not_and]
  intro _ hnext
  omega

private theorem inOrder_congr (hsent : ∀ n, stage.tx?.map (fun tx => tx.notification.1) = some n →
      s'.sentChannels n = s.sentChannels n)
    (hnumbered : stage.numbered) (h : stage.inOrder s) : stage.inOrder s' := by
  cases stage with
  | «open» n tx todo =>
      have hn : tx.notification.1 = n := hnumbered
      rw [Stage.inOrder, hsent n (by simp [Stage.tx?, hn])]
      exact h
  | creating n id tx channel todo ensured =>
      have hn : tx.notification.1 = n := hnumbered
      rw [Stage.inOrder, hsent n (by simp [Stage.tx?, hn])]
      exact h
  | _ => trivial

private theorem Effect.inOrder (heffect : Effect cfg s party stage c success stage' s')
    (hnext : s.sentChannels s.db.nextId = []) (h : stage.inOrder s) : stage'.inOrder s' := by
  cases heffect with
  | insertNotification hrow =>
      change s.sentChannels s.db.nextId ++ _ = _
      simp [hnext, hrow, Notifications.newNotification, Notification.channelList,
        Json.toStrings_ofStrings, Request.withDefaultSchedule_channels]
  | insertTxDelivery => exact h
  | sendEnsureControl _ => exact h
  | sendPublish hjob =>
      have hold : s.sentChannels _ ++ _ :: _ = _ := h
      simp [Stage.inOrder, sentChannels_add, Party.isRequest, hjob, Notifications.newJob, ← hold]
  | _ => trivial

private theorem eq_of_fst_eq {ms : Members} (h : Traced s ms) {a b : Nat × Notification}
    (ha : a ∈ s.inserted) (hb : b ∈ s.inserted) (hab : a.1 = b.1) : a = b :=
  List.inj_on_of_nodup_map h.ids ha hb hab

private theorem sentInOrder_call (heffect : Effect cfg s party stage c success stage' s')
    (hK : Traced s (before ++ (party, stage) :: after) ∧
      OwnedOnce s (before ++ (party, stage) :: after))
    (h : SentInOrder s (before ++ (party, stage) :: after)) :
    SentInOrder s' (before ++ (party, stage') :: after) := by
  obtain ⟨htraced, howned⟩ := hK
  have hself := h.members (party, stage) (by simp)
  have hnumbered := htraced.numbered (party, stage) (by simp)
  have hmem : ∀ m ∈ before ++ after, m ∈ before ++ (party, stage) :: after := by
    intro m hm
    simp only [List.mem_append, List.mem_cons] at hm ⊢
    tauto
  have hothers : ∀ m ∈ before ++ after, m.2.inOrder s' := by
    intro m hm
    refine inOrder_congr (fun n hn => ?_) (htraced.numbered m (hmem m hm)) (h.members m (hmem m hm))
    obtain ⟨tx', htx', rfl⟩ := Option.map_eq_some_iff.mp hn
    rcases heffect.sent_cases with hsame | ⟨n, id, tx, channel, todo, rfl, rfl, hsent⟩
    · exact hsame _
    · have hne : n ≠ tx'.notification.1 := by
        have hn : tx.notification.1 = n := hnumbered
        rw [← hn]
        exact (howned.notification_ne rfl hm htx').symm
      simp [hsent, hne]
  constructor
  · intro a ha
    rcases heffect.sent_cases with hsame | ⟨n, id, tx, channel, todo, rfl, rfl, hsent⟩
    · rw [hsame]
      rcases heffect.tx_cases with ⟨hinserted, -⟩ | ⟨_, _, _, _, _, row, -, -, -, -, -, rfl⟩
      · exact h.sets a (by rwa [hinserted] at ha)
      · rcases List.mem_append.mp ha with ha | ha
        · exact h.sets a ha
        · obtain rfl := List.mem_singleton.mp ha
          simp [sent_nextId htraced]
    · have hn : tx.notification.1 = n := hnumbered
      have hold : s.sentChannels n ++ channel :: todo = tx.notification.2.channelList := hself
      have ha : a ∈ s.inserted := by
        rcases heffect.tx_cases with ⟨hinserted, -⟩ | ⟨_, _, _, _, _, _, -, hstage, -⟩
        · rwa [hinserted] at ha
        · simp at hstage
      by_cases hne : n = a.1
      · obtain rfl := eq_of_fst_eq htraced ha (htraced.opened
          (party, .creating n id tx channel todo true) (by simp) tx rfl).1 (hne.symm.trans hn.symm)
        rw [hsent, if_pos hne, ← hne, ← hold]
        exact ⟨todo, by simp⟩
      · rw [hsent, if_neg hne, List.append_nil]
        exact h.sets a ha
  · intro m hm
    simp only [List.mem_append, List.mem_cons] at hm
    rcases hm with hm | rfl | hm
    · exact hothers m (by simp [hm])
    · exact heffect.inOrder (sent_nextId htraced) hself
    · exact hothers m (by simp [hm])

end

theorem sentInOrder_inductive (cfg : Config) : Inductive cfg (fun _ _ => True)
    (fun s ms => Traced s ms ∧ OwnedOnce s ms) SentInOrder where
  call := fun _ _ _ heffect hK h => sentInOrder_call heffect hK h
  request := by
    intro w ms t req _ _ _ h
    refine ⟨h.sets, fun m hm => ?_⟩
    rcases List.mem_append.mp hm with hm | hm
    · exact h.members m hm
    · obtain rfl := List.mem_singleton.mp hm
      trivial
  tick := by
    intro w ms _ _ _ h
    refine ⟨h.sets, fun m hm => ?_⟩
    rcases List.mem_append.mp hm with hm | hm
    · exact h.members m hm
    · obtain rfl := List.mem_singleton.mp hm
      trivial
  deliver := by
    intro w ms i m _ _ _ _ h
    refine ⟨h.sets, fun x hx => ?_⟩
    rcases List.mem_append.mp hx with hx | hx
    · exact h.members x hx
    · obtain rfl := List.mem_singleton.mp hx
      trivial
  admin := by
    intro w ms a _ _ _ h
    exact ⟨h.sets, h.members⟩
  clock := by
    intro w ms now _ _ _ _ h
    exact ⟨h.sets, h.members⟩
  crash := by
    intro w before after party stage _ _ _ h
    refine ⟨h.sets, fun m hm => ?_⟩
    simp only [List.mem_append, List.mem_cons] at hm
    rcases hm with hm | rfl | hm
    · exact h.members m (by simp [hm])
    · trivial
    · exact h.members m (by simp [hm])
  requeue := by
    intro w ms d _ _ _ _ h
    exact ⟨h.sets, h.members⟩

/-- The calls `Send` makes after the insertion of its notification. -/
def SendOp.inTransaction : SendOp → Bool
  | .insertScheduledJob | .insertDelivery | .ensureControl | .publish | .commit => true
  | _ => false

/-- The thread is a `Send` of tenant `t` under key `k` that has its notification inserted. -/
def Thread.submitting (t k : String) (th : Thread) : Bool :=
  match th.party, th.prog.next? with
  | .request t' req, some ⟨.send op _, _⟩ =>
      t' == t && nullIfEmpty req.idempotencyKey == some k && op.inTransaction
  | _, _ => false

instance (s : Sys) (n : Nat) : Decidable (s.uses n) :=
  decidable_of_iff ((s.db.notifications.get? n).isSome = true ∨
    ∃ p ∈ s.published, p.job.notificationID = n) (by rw [Option.isSome_iff_exists]; rfl)

def World.keyFree (w : World) (t k : String) : Bool :=
  w.sys.inserted.all (fun a => !(a.2.hasKey t k && decide (w.sys.uses a.1))) &&
    w.threads.all fun th => !th.submitting t k

def World.admitsSubmission (w : World) : Stmt → Bool
  | .insertNotification row => row.idempotencyKey.all (w.keyFree row.tenantID)
  | _ => true

/-- A `Send` inserts a notification under a key only while the key is free. -/
def KeyFree (w : World) : World.Label → Prop
  | .call _ c _ => w.admitsSubmission c.stmt = true
  | _ => True

instance (w : World) : (l : World.Label) → Decidable (KeyFree w l)
  | .call _ c _ => inferInstanceAs (Decidable (w.admitsSubmission c.stmt = true))
  | .deliver _ | .request _ _ | .tick | .admin _ | .clock | .crash _ | .requeue | .none =>
      inferInstanceAs (Decidable True)

def InPlay (s : Sys) (ms : Members) (n : Nat) : Prop :=
  s.uses n ∨ ∃ m ∈ ms, ∃ tx, m.2.tx? = some tx ∧ tx.notification.1 = n

def KeyedOnce (t k : String) (s : Sys) (ms : Members) : Prop :=
  ∀ a ∈ s.inserted, ∀ b ∈ s.inserted, a.2.hasKey t k = true → b.2.hasKey t k = true →
    InPlay s ms a.1 → InPlay s ms b.1 → a = b

private theorem submitting_of_aligned {cfg : Config} {s : Sys} {ms : Members}
    {threads : List Thread} (hal : Aligned cfg ms threads) (htraced : Traced s ms)
    {m : Party × Stage} (hm : m ∈ ms) {tx : Tx} (htx : m.2.tx? = some tx) {t k : String}
    (hkey : tx.notification.2.hasKey t k = true) : ∃ th ∈ threads, th.submitting t k = true := by
  obtain ⟨th, hth, hparty, hkeeps⟩ := exists_of_mem_forall₂ hal hm
  refine ⟨th, hth, ?_⟩
  obtain ⟨-, hby⟩ := htraced.opened m hm tx htx
  obtain ⟨party, stage⟩ := m
  obtain ⟨party', prog⟩ := th
  obtain rfl : party = party' := hparty
  cases prog with
  | ret _ =>
      have hended : stage.ended = true := hkeeps
      cases stage <;> simp [Stage.tx?, Stage.ended] at htx hended
  | call c next =>
      obtain ⟨f, hallowed, -⟩ := hkeeps
      cases party with
      | request t' req =>
          obtain ⟨htenant, hidem⟩ := hby
          simp only [Notification.hasKey, Bool.and_eq_true, beq_iff_eq] at hkey
          have hop : ∃ op i stmt, c = ⟨.send op i, stmt⟩ ∧ op.inTransaction = true := by
            cases hallowed <;> first
              | exact ⟨_, _, _, rfl, rfl⟩
              | simp [Stage.tx?] at htx
          obtain ⟨op, i, stmt, rfl, hop⟩ := hop
          simp [Thread.submitting, Prog.next?, hop, ← htenant, ← hidem, hkey]
      | pass _ => exact hby.elim
      | consumer _ => exact hby.elim

private theorem keyedOnce_of_same {t k : String} {s s' : Sys} {ms ms' : Members}
    (hinserted : s'.inserted = s.inserted) (huses : ∀ n, s'.uses n → s.uses n)
    (hms : ∀ m ∈ ms', m ∈ ms ∨ m.2.tx? = none) (h : KeyedOnce t k s ms) :
    KeyedOnce t k s' ms' := by
  have hplay : ∀ n, InPlay s' ms' n → InPlay s ms n := by
    rintro n (hn | ⟨m, hm, tx, htx, hn⟩)
    · exact .inl (huses n hn)
    · rcases hms m hm with hold | hnone
      · exact .inr ⟨m, hold, tx, htx, hn⟩
      · simp [hnone] at htx
  intro a ha b hb hakey hbkey haplay hbplay
  rw [hinserted] at ha hb
  exact h a ha b hb hakey hbkey (hplay _ haplay) (hplay _ hbplay)

private theorem mem_spawn {ms : Members} {party : Party} {stage : Stage}
    (hstage : stage.tx? = none) :
    ∀ m ∈ ms ++ [(party, stage)], m ∈ ms ∨ m.2.tx? = none := by
  intro m hm
  refine (List.mem_append.mp hm).imp id fun hm => ?_
  rw [List.mem_singleton.mp hm]
  exact hstage

private theorem Effect.inPlay {cfg : Config} {s s' : Sys} {before after : Members} {party : Party}
    {stage stage' : Stage} {c : Call} {success : Bool} {n : Nat}
    (heffect : Effect cfg s party stage c success stage' s')
    (htraced : Traced s (before ++ (party, stage) :: after)) (hn : n < s.db.nextId)
    (h : InPlay s' (before ++ (party, stage') :: after) n) :
    InPlay s (before ++ (party, stage) :: after) n := by
  rcases h with (⟨row, hrow⟩ | ⟨p, hp, rfl⟩) | ⟨m, hm, tx, htx, hid⟩
  · rcases heffect.notifications_cases hrow with hrow | ⟨tx, htx, heq⟩
    · exact .inl (.inl ⟨row, hrow⟩)
    · exact .inr ⟨(party, stage), by simp, tx, htx, by rw [heq]⟩
  · rcases heffect.publication_cases (htraced.numbered (party, stage) (by simp)) hp with
      hp | hrefs | ⟨tx, htx, heq⟩
    · exact .inl (.inr ⟨p, hp, rfl⟩)
    · exact .inl (htraced.refs (party, stage) (by simp) _ hrefs)
    · exact .inr ⟨(party, stage), by simp, tx, htx, heq⟩
  · simp only [List.mem_append, List.mem_cons] at hm
    rcases hm with hm | rfl | hm
    · exact .inr ⟨m, by simp [hm], tx, htx, hid⟩
    · rcases heffect.tx_cases with ⟨-, hold⟩ | ⟨_, _, _, _, _, row, -, -, -, -, rfl, -⟩
      · obtain ⟨tx₀, htx₀, heq⟩ := hold tx htx
        exact .inr ⟨(party, stage), by simp, tx₀, htx₀, by rw [heq, hid]⟩
      · obtain rfl := Option.some.inj htx
        exact absurd hid hn.ne'
    · exact .inr ⟨m, by simp [hm], tx, htx, hid⟩

theorem keyedOnce_inductive (cfg : Config) (t k : String) :
    Inductive cfg KeyFree Traced (KeyedOnce t k) where
  call := by
    intro w before after party stage stage' c o success s' hal hok _ heffect htraced h a ha b hb
      hakey hbkey haplay hbplay
    have hold : ∀ a ∈ w.sys.inserted, InPlay s' (before ++ (party, stage') :: after) a.1 →
        InPlay w.sys (before ++ (party, stage) :: after) a.1 := fun a ha hplay =>
      heffect.inPlay htraced (htraced.lt a ha) hplay
    rcases heffect.tx_cases with ⟨hsame, -⟩ | ⟨t', req, _, _, _, row, rfl, rfl, -, rfl, rfl, rfl⟩
    · rw [hsame] at ha hb
      exact h a ha b hb hakey hbkey (hold a ha haplay) (hold b hb hbplay)
    · -- nothing of the key of the new notification is in play before its insertion
      have hfree : ∀ a ∈ w.sys.inserted, a.2.hasKey t k = true → row.hasKey t k = true →
          ¬InPlay w.sys (before ++ (.request t' req, .begun) :: after) a.1 := by
        intro a ha hakey hrowkey hplay
        simp only [Notification.hasKey, Bool.and_eq_true, beq_iff_eq] at hrowkey
        have hadmits : w.keyFree row.tenantID k = true := by
          have hall : row.idempotencyKey.all (w.keyFree row.tenantID) = true := hok
          simpa [hrowkey.2] using hall
        rw [hrowkey.1, World.keyFree, Bool.and_eq_true, List.all_eq_true, List.all_eq_true]
          at hadmits
        rcases hplay with huses | ⟨m, hm, tx, htx, hid⟩
        · have hnot := hadmits.1 a ha
          simp [hakey, huses] at hnot
        · have heq := eq_of_fst_eq htraced (htraced.opened m hm tx htx).1 ha hid
          obtain ⟨th, hth, hsubmitting⟩ :=
            submitting_of_aligned hal htraced hm htx (by rw [heq]; exact hakey)
          have hnot := hadmits.2 th hth
          simp [hsubmitting] at hnot
      rcases List.mem_append.mp ha with ha | ha <;> rcases List.mem_append.mp hb with hb | hb
      · exact h a ha b hb hakey hbkey (hold a ha haplay) (hold b hb hbplay)
      · obtain rfl := List.mem_singleton.mp hb
        exact absurd (hold a ha haplay) (hfree a ha hakey hbkey)
      · obtain rfl := List.mem_singleton.mp ha
        exact absurd (hold b hb hbplay) (hfree b hb hbkey hakey)
      · rw [List.mem_singleton.mp ha, List.mem_singleton.mp hb]
  request := by
    intro w ms t' req _ _ _ h
    exact keyedOnce_of_same rfl (fun _ hn => hn) (mem_spawn rfl) h
  tick := by
    intro w ms _ _ _ h
    exact keyedOnce_of_same rfl (fun _ hn => hn) (mem_spawn rfl) h
  deliver := by
    intro w ms i m _ _ _ _ h
    exact keyedOnce_of_same rfl (fun _ hn => hn) (mem_spawn rfl) h
  admin := by
    intro w ms a _ _ _ h
    cases a <;> exact keyedOnce_of_same rfl (fun _ hn => hn) (fun _ hm => .inl hm) h
  clock := by
    intro w ms now _ _ _ _ h
    exact keyedOnce_of_same rfl (fun _ hn => hn) (fun _ hm => .inl hm) h
  crash := by
    intro w before after party stage _ _ _ h
    refine keyedOnce_of_same rfl (fun _ hn => hn) (fun m hm => ?_) h
    simp only [List.mem_append, List.mem_cons] at hm
    rcases hm with hm | rfl | hm
    · exact .inl (by simp [hm])
    · exact .inr rfl
    · exact .inl (by simp [hm])
  requeue := by
    intro w ms d _ _ _ _ h
    exact keyedOnce_of_same rfl (fun _ hn => hn) (fun _ hm => .inl hm) h

/-- Of the submissions of tenant `t` under key `k` at most one is committed or has jobs published
for it, and `Send` has published at most one set of jobs for it. -/
structure Sys.SubmittedOnce (s : Sys) (t k : String) : Prop where
  rows : (s.db.notifications.rows.filter fun r => r.2.hasKey t k).length ≤ 1
  jobs : ∀ a ∈ s.inserted, ∀ b ∈ s.inserted, a.2.hasKey t k = true → b.2.hasKey t k = true →
    s.uses a.1 → s.uses b.1 → a.1 = b.1
  sets : ∀ a ∈ s.inserted, a.2.hasKey t k = true → s.sentChannels a.1 <+: a.2.channelList

private theorem length_filter_le_one {ρ : Type} (t : Table ρ) (p : Nat × ρ → Bool)
    (h : ∀ a ∈ t.rows, ∀ b ∈ t.rows, p a = true → p b = true → a = b) :
    (t.rows.filter p).length ≤ 1 := by
  have hnd : (t.rows.filter p).Nodup := t.nodup.of_map.filter p
  match hrows : t.rows.filter p with
  | [] => simp
  | [_] => simp
  | a :: b :: rest =>
      have ha := List.mem_filter.mp (hrows ▸ List.mem_cons_self : a ∈ t.rows.filter p)
      have hb := List.mem_filter.mp
        (hrows ▸ List.mem_cons_of_mem a List.mem_cons_self : b ∈ t.rows.filter p)
      rw [hrows, h a ha.1 b hb.1 ha.2 hb.2] at hnd
      simp at hnd

/-- In every run in which a `Send` inserts a notification under a key only while no earlier
submission of the key is committed, published or under way, every key is submitted once. -/
theorem idempotent_submission {cfg : Config} {w₀ w : World} {es : List Event}
    (hfresh : w₀.Fresh) (hrun : w₀.RunOf cfg KeyFree es w) (t k : String) :
    w.sys.SubmittedOnce t k := by
  have htraced : Inductive cfg KeyFree Anything Traced :=
    (traced_inductive cfg).mono fun _ _ _ => trivial
  have howned : Inductive cfg KeyFree Traced OwnedOnce :=
    ((ownedOnce_inductive cfg).mono fun _ _ _ => trivial).given fun _ _ _ => trivial
  have hsent : Inductive cfg KeyFree (fun s ms => Traced s ms ∧ OwnedOnce s ms) SentInOrder :=
    (sentInOrder_inductive cfg).mono fun _ _ _ => trivial
  have hkeyed : Inductive cfg KeyFree
      (fun s ms => (Traced s ms ∧ OwnedOnce s ms) ∧ SentInOrder s ms) (KeyedOnce t k) :=
    (keyedOnce_inductive cfg t k).given fun _ _ h => h.1.1
  have hfirst : SentInOrder w₀.sys [] := by
    constructor <;> simp [hfresh.inserted]
  have hnone : KeyedOnce t k w₀.sys [] := by
    simp [KeyedOnce, hfresh.inserted]
  obtain ⟨ms, -, ⟨⟨htraced, -⟩, hsent⟩, hkeyed⟩ :=
    (((htraced.and howned).and hsent).and hkeyed).reachable hfresh hrun
      ⟨⟨⟨traced_fresh hfresh, ownedOnce_fresh hfresh⟩, hfirst⟩, hnone⟩
  constructor
  · refine length_filter_le_one _ _ fun a ha b hb hakey hbkey => ?_
    have hrow : ∀ r ∈ w.sys.db.notifications.rows, r ∈ w.sys.inserted ∧ w.sys.uses r.1 :=
      fun r hr => ⟨htraced.committed r.1 r.2 (Table.get?_eq_some.mpr hr),
        .inl ⟨r.2, Table.get?_eq_some.mpr hr⟩⟩
    exact hkeyed a (hrow a ha).1 b (hrow b hb).1 hakey hbkey (.inl (hrow a ha).2)
      (.inl (hrow b hb).2)
  · intro a ha b hb hakey hbkey hause hbuse
    rw [hkeyed a ha b hb hakey hbkey (.inl hause) (.inl hbuse)]
  · intro a ha _
    exact hsent.sets a ha

/-- The first submission of a key fails before it publishes anything; the second one succeeds. -/
theorem idempotent_submission_retried : ∃ es w, sampleWorld.RunOf (sampleConfig 3) KeyFree es w ∧
    w.sys.inserted.length = 2 ∧ w.sys.published.length = 1 ∧ w.sys.SubmittedOnce "t1" "k1" := by
  obtain ⟨w, hrun, hw⟩ := World.exists_run (sampleConfig 3) KeyFree sampleWorld
    (List.flatten [[.request 1 "t1" (sampleRequest ["email"] ⟨"", ""⟩ "k1")], steps 0 7,
      [failure 0], [.request 2 "t1" (sampleRequest ["email"] ⟨"", ""⟩ "k1")], steps 1 10])
    (fun w => w.sys.inserted.length == 2 && w.sys.published.length == 1) (by decide +kernel)
  simp only [Bool.and_eq_true, beq_iff_eq] at hw
  exact ⟨_, w, hrun, hw.1, hw.2, idempotent_submission sampleWorld_fresh hrun "t1" "k1"⟩

/-- The same request sent twice, one after the other, is stored and published twice. -/
theorem submitted_twice : ¬∀ (w₀ w : World) (es : List Event) (t k : String), w₀.Fresh → k ≠ "" →
    w₀.RunOf (sampleConfig 3) (fun _ _ => True) es w → w.sys.SubmittedOnce t k := by
  intro hclaim
  obtain ⟨w, hrun, hw⟩ := World.exists_run (sampleConfig 3) (fun _ _ => True) sampleWorld
    (List.flatten [[.request 1 "t1" (sampleRequest ["email"] ⟨"", ""⟩ "k1")], steps 0 10,
      [.request 2 "t1" (sampleRequest ["email"] ⟨"", ""⟩ "k1")], steps 1 10])
    (fun w => (w.sys.db.notifications.rows.filter fun r => r.2.hasKey "t1" "k1").length == 2)
    (by decide +kernel)
  have hone := (hclaim _ w _ "t1" "k1" sampleWorld_fresh (by decide) hrun).rows
  rw [beq_iff_eq.mp hw] at hone
  omega

end NotificationPlatform
