import NotificationPlatform.NoLoss
import NotificationPlatform.Submission

/-!
# Deliveries across crashes

A process may crash between any two calls. A crashed request leaves its transaction uncommitted
and the messages it has published behind; the message of a crashed consumer goes back into its
queue. So a job may be worked on twice at a time and its row may leave a final status again. What
is not lost is the obligation: a published delivery that has not ended is in a queue, or in the
hands of a consumer that has neither passed its job on nor written its end.
-/

namespace NotificationPlatform

open Lib

def mayCommit (d : Nat) : Code Unit → Prop
  | .ret _ => False
  | .call c k => (∃ tx, c.stmt = .commit tx ∧ ∃ p ∈ tx.deliveries, p.1 = d) ∨
      ∃ r, mayCommit d (k r)

def World.pending (w : World) (d : Nat) : Prop := ∃ th ∈ w.threads, mayCommit d th.prog

/-- The row of delivery `d` is there, or no transaction will bring it any more. -/
def World.decided (w : World) (d : Nat) : Prop :=
  (w.sys.db.deliveries.get? d).isSome = true ∨ ¬w.pending d

/-- The publications of the consumers and the update of the dead-letter loop succeed, and a
final status is not written while the transaction of its row is open. -/
def Durable (cfg : Config) (w : World) : World.Label → Prop
  | .call party c o => match c.stmt with
      | .publish _ _ => c.site = .worker ∨ c.site = .retryLoop →
          w.sys.succeeds cfg party c o = true
      | .markDead id => w.sys.succeeds cfg party c o = true ∧ w.decided id
      | .markBlocked id => w.decided id
      | .storeResult id status _ _ => status = .sent → w.decided id
      | _ => True
  | _ => True

def World.stopped (w : World) (u : Delivery) : Prop :=
  ∀ th ∈ w.threads, th.party = .consumer u → th.prog.next? = none

/-- Errors and crashes may occur anywhere else, and the broker requeues a message whose consumer
has stopped without settling it. -/
def Recovering (cfg : Config) (w : World) (e : Event) : Prop :=
  Durable cfg w (w.label e) ∧
    ∀ i, e = .requeue i → ∀ u, w.sys.broker.unacked[i]? = some u → w.stopped u

def Phase.owes : Phase → Bool
  | .stored (.ok _) | .moved | .lost | .settled => false
  | _ => true

/-- A message that carries delivery `d` waits, or a consumer owes the delivery its end. -/
def Owed (d : Nat) (s : Sys) (ms : Members) : Prop :=
  0 < s.waiting d ∨ ∃ u ∈ s.broker.unacked, u.message.carries d = true ∧
    ∀ phase, (Party.consumer u, Stage.consumer phase) ∈ ms → phase.owes = true

def Gone (d : Nat) (s : Sys) (ms : Members) : Prop :=
  s.db.deliveries.get? d = none ∧
    ∀ m ∈ ms, ∀ tx, m.2.tx? = some tx → ∀ p ∈ tx.deliveries, p.1 ≠ d

/-- Every delivery that somebody holds, or that a message carries, has been given its
identifier. -/
structure Given (s : Sys) (ms : Members) : Prop where
  tokens : ∀ d, 0 < tokens d s ms → d < s.db.nextId
  unacked : ∀ d, ∀ u ∈ s.broker.unacked, u.message.carries d = true → d < s.db.nextId

structure Survives (s : Sys) (ms : Members) : Prop where
  known : ∀ p ∈ s.published, p.job.deliveryID < s.db.nextId
  published : ∀ p ∈ s.published, Gone p.job.deliveryID s ms ∨ Final p.job.deliveryID s.db ∨
    Owed p.job.deliveryID s ms

/-- What is known of every state of a run with crashes. -/
structure Accounted (s : Sys) (ms : Members) : Prop where
  owned : OwnedOnce s ms
  tags : TagsUsedOnce s ms
  given : Given s ms

private theorem mayCommit_of_keeps {cfg : Config} {party : Party} {d : Nat} (p : Code Unit) :
    ∀ {stage : Stage} {tx : Tx}, Keeps cfg party stage p → stage.tx? = some tx →
      (∃ x ∈ tx.deliveries, x.1 = d) → mayCommit d p := by
  induction p with
  | ret a =>
      intro stage tx hkeeps htx hmem
      cases stage <;> simp_all [Keeps, Stage.ended, Stage.tx?, Prog.Follows]
  | call c k ih =>
      intro stage tx hkeeps htx hmem
      obtain ⟨f, hallowed, hk⟩ := hkeeps
      obtain ⟨x, hx, hxd⟩ := hmem
      cases hallowed with
      | insertScheduledJob hempty _ =>
          obtain rfl := Option.some.inj htx
          simp [hempty] at hx
      | insertTxDelivery _ =>
          obtain rfl := Option.some.inj htx
          exact .inr ⟨.ok 0, ih _ (hk (.ok 0)) rfl ⟨x, List.mem_append_left _ hx, hxd⟩⟩
      | sendEnsureControl =>
          have control : Control := ⟨0, "", "", "", .active⟩
          exact .inr ⟨.ok control, ih _ (hk (.ok control)) htx ⟨x, hx, hxd⟩⟩
      | sendPublish => exact .inr ⟨.ok (), ih _ (hk (.ok ())) htx ⟨x, hx, hxd⟩⟩
      | @commit _ _ tx' _ hstage =>
          obtain rfl : tx' = tx := by
            rcases hstage with ⟨n, rfl⟩ | rfl <;> exact Option.some.inj htx
          exact .inl ⟨tx', rfl, x, hx, hxd⟩
      | _ => simp [Stage.tx?] at htx

section

variable {cfg : Config} {w : World} {before after ms : Members} {party : Party}
  {stage stage' : Stage} {c : Call} {o : Outcome} {success : Bool} {s s' : Sys} {d : Nat}
  {u : Delivery}

private theorem given_deliver {i : Nat} {m : Message} (hm : s.broker.ready[i]? = some m)
    (h : Given s ms) : Given (s.deliver i ⟨s.broker.nextTag, m⟩)
      (ms ++ [(.consumer ⟨s.broker.nextTag, m⟩, .consumer .received)]) where
  tokens := by
    intro d hd
    refine h.tokens d ?_
    have hcount := countP_deliver hm (Message.carries d)
    simp only [NotificationPlatform.tokens, List.countP_append, List.countP_singleton,
      holds_consumer, Sys.deliver_broker_ready, Phase.live, Bool.and_true] at hd ⊢
    omega
  unacked := by
    intro d u hu hcarries
    rw [Sys.deliver_broker_unacked, List.mem_append, List.mem_singleton] at hu
    rcases hu with hu | rfl
    · exact h.unacked d u hu hcarries
    · refine h.tokens d ?_
      have hpos : 0 < s.broker.ready.countP (Message.carries d) :=
        List.countP_pos_iff.mpr ⟨m, List.mem_of_getElem? hm, hcarries⟩
      rw [NotificationPlatform.tokens]
      omega

private theorem given_requeue (hu : u ∈ s.broker.unacked) (h : Given s ms) :
    Given (s.requeue u) ms where
  tokens := by
    intro d hd
    by_cases hcarries : u.message.carries d = true
    · exact h.unacked d u hu hcarries
    · refine h.tokens d ?_
      simpa [NotificationPlatform.tokens, List.countP_append, List.countP_singleton, hcarries]
        using hd
  unacked := fun d v hv => h.unacked d v (List.mem_of_mem_filter hv)

theorem given_inductive (cfg : Config) : Inductive cfg Unrepeated Anything Given where
  call := by
    intro w before after party stage stage' c o success s' _ _ _ heffect _ h
    have hnext := heffect.nextId_le
    refine ⟨fun d hd => ?_, fun d u hu hcarries =>
      (h.unacked d u (heffect.unacked_subset hu) hcarries).trans_le hnext⟩
    rcases heffect.tokens_le before after d with hle | ⟨rfl, hsucc, -⟩
    · exact (h.tokens d (hd.trans_le hle)).trans_le hnext
    · omega
  request := by
    intro w ms t req _ _ _ h
    exact ⟨fun d hd => h.tokens d (by simpa [tokens, holds] using hd), h.unacked⟩
  tick := by
    intro w ms _ _ _ h
    exact ⟨fun d hd => h.tokens d (by simpa [tokens, holds] using hd), h.unacked⟩
  deliver := fun _ _ hm _ h => given_deliver hm h
  admin := by
    intro w ms a _ _ _ h
    cases a <;> exact ⟨h.tokens, h.unacked⟩
  clock := fun _ _ _ _ h => ⟨h.tokens, h.unacked⟩
  crash := by
    intro w before after party stage _ _ _ h
    exact ⟨fun d hd => h.tokens d (hd.trans_le (tokens_over_le d w.sys before after party stage)),
      h.unacked⟩
  requeue := fun _ hok => hok.elim

theorem accounted_inductive (cfg : Config) : Inductive cfg Unrepeated Anything Accounted := by
  have howned : Inductive cfg Unrepeated Anything OwnedOnce :=
    (ownedOnce_inductive cfg).mono fun _ _ _ => trivial
  have htags : Inductive cfg Unrepeated OwnedOnce fun s ms => TagsUsedOnce s ms ∧ Given s ms :=
    ((tags_inductive_of_unrepeated cfg).and
      ((given_inductive cfg).given fun _ _ _ => trivial)).given fun _ _ _ => trivial
  exact (howned.and htags).congr fun s ms =>
    ⟨fun h => ⟨h.1, h.2.1, h.2.2⟩, fun h => ⟨h.owned, h.tags, h.given⟩⟩

def Free (d : Nat) (m : Party × Stage) : Prop :=
  ∀ u phase, m = (.consumer u, .consumer phase) → u.message.carries d = true → phase.owes = false

private theorem final_of_free (h : Effect cfg s party stage c success stage' s')
    (hfree : Free d (party, stage)) (hfinal : Final d s.db) : Final d s'.db := by
  obtain ⟨st, at?, hst, hend⟩ := hfinal
  obtain ⟨row, hrow, hstamp⟩ := Option.map_eq_some_iff.mp hst
  rcases h.row_cases hrow with hsame | ⟨u, job, phase, f, onOk, onError, row', rfl, hbody, hid, rfl,
    -, hwrites, hf, hrow'⟩
  · exact ⟨st, at?, by simp [Db.stamp?, hsame, hstamp], hend⟩
  · have howes : phase.owes = false := hfree u phase rfl (by simp [carries_of_body hbody, hid])
    have hlive : phase.live = false := by cases hwrites <;> simp_all [Phase.owes]
    exact ⟨st, at?, by simp [Db.stamp?, hrow', hwrites.stamp_eq hlive hf, hstamp], hend⟩

private theorem Effect.tx_rows (h : Effect cfg s party stage c success stage' s') {tx' : Tx}
    (htx' : stage'.tx? = some tx') {p : Nat × DeliveryRow} (hp : p ∈ tx'.deliveries) :
    (∃ tx, stage.tx? = some tx ∧ p ∈ tx.deliveries) ∨ p.1 = s.db.nextId := by
  cases h with
  | insertNotification _ =>
      obtain rfl := Option.some.inj htx'
      simp at hp
  | insertScheduledJob _ _ =>
      obtain rfl := Option.some.inj htx'
      exact .inl ⟨_, rfl, hp⟩
  | insertTxDelivery _ =>
      obtain rfl := Option.some.inj htx'
      rcases List.mem_append.mp hp with hp | hp
      · exact .inl ⟨_, rfl, hp⟩
      · exact .inr (congrArg Prod.fst (List.mem_singleton.mp hp))
  | sendEnsureControl _ => exact .inl ⟨tx', htx', hp⟩
  | sendPublish _ => exact .inl ⟨tx', htx', hp⟩
  | _ => simp [Stage.tx?] at htx'

private theorem gone_step (heffect : Effect cfg s party stage c success stage' s')
    (hlt : d < s.db.nextId) (h : Gone d s (before ++ (party, stage) :: after)) :
    Gone d s' (before ++ (party, stage') :: after) := by
  refine ⟨?_, fun m hm tx htx p hp => ?_⟩
  · by_contra hsome
    obtain ⟨row, hrow⟩ := Option.ne_none_iff_exists'.mp hsome
    rcases heffect.committed_cases hrow with ⟨row', hrow'⟩ | ⟨n, tx, hstage, hmem⟩ |
      ⟨_, _, _, _, _, rfl⟩
    · simp [h.1] at hrow'
    · exact h.2 (party, stage) (by simp) tx (by rcases hstage with rfl | rfl <;> rfl) _ hmem rfl
    · cases heffect with
      | insertDelivery _ => exact lt_irrefl _ hlt
  · rw [List.mem_append, List.mem_cons] at hm
    rcases hm with hm | rfl | hm
    · exact h.2 m (by simp [hm]) tx htx p hp
    · rcases heffect.tx_rows htx hp with ⟨tx', htx', hp'⟩ | hnew
      · exact h.2 (party, stage) (by simp) tx' htx' p hp'
      · omega
    · exact h.2 m (by simp [hm]) tx htx p hp

private theorem owed_self {phase : Phase}
    (htags : TagsUsedOnce s (before ++ (.consumer u, stage) :: after))
    (hu : u ∈ s'.broker.unacked) (hcarries : u.message.carries d = true)
    (howes : phase.owes = true) :
    Owed d s' (before ++ (.consumer u, .consumer phase) :: after) := by
  refine .inr ⟨u, hu, hcarries, fun phase' hmem => ?_⟩
  rw [List.mem_append, List.mem_cons] at hmem
  rcases hmem with hmem | hmem | hmem
  · exact absurd rfl (htags.tag_ne (List.mem_append_left _ hmem))
  · obtain ⟨-, hstage⟩ := Prod.mk.inj hmem
    rwa [Stage.consumer.inj hstage]
  · exact absurd rfl (htags.tag_ne (List.mem_append_right _ hmem))

private theorem owed_of_free (heffect : Effect cfg s party stage c success stage' s')
    (htags : TagsUsedOnce s (before ++ (party, stage) :: after))
    (hfree : Free d (party, stage)) (h : Owed d s (before ++ (party, stage) :: after)) :
    Owed d s' (before ++ (party, stage') :: after) := by
  rcases h with h | ⟨u, hu, hcarries, howes⟩
  · exact .inl (h.trans_le (heffect.waiting_le d))
  · by_cases hparty : party = .consumer u
    · subst hparty
      -- a consumer that is over makes no call, one at work would have to owe
      cases stage with
      | consumer phase =>
          have hnot := hfree u phase rfl hcarries
          simp [howes phase (by simp)] at hnot
      | _ => cases heffect with | giveUp hallowed _ => cases hallowed
    · refine .inr ⟨u, heffect.mem_unacked htags hu hparty, hcarries, fun phase hmem => ?_⟩
      refine howes phase ?_
      simp only [List.mem_append, List.mem_cons, Prod.mk.injEq] at hmem ⊢
      rcases hmem with hmem | ⟨heq, -⟩ | hmem
      · exact .inl hmem
      · exact absurd heq.symm hparty
      · exact .inr (.inr hmem)

private theorem gone_of_not_pending (hal : Aligned cfg ms w.threads)
    (hrow : (w.sys.db.deliveries.get? d).isSome = false) (hpending : ¬w.pending d) :
    Gone d w.sys ms := by
  refine ⟨by simpa using hrow, fun m hm tx htx p hp hpd => ?_⟩
  obtain ⟨th, hth, -, hkeeps⟩ := exists_of_mem_forall₂ hal hm
  exact hpending ⟨th, hth, mayCommit_of_keeps th.prog hkeeps htx ⟨p, hp, hpd⟩⟩

private theorem ended_of_decided {phase : Phase} {f : DeliveryRow → Option DeliveryRow} {db : Db}
    (heffect : Effect cfg w.sys (.consumer u) (.consumer phase) c success stage'
      { w.sys with db := db })
    (hal : Aligned cfg (before ++ (.consumer u, .consumer phase) :: after) w.threads)
    (hlt : d < w.sys.db.nextId) (hdecided : w.decided d)
    (hdb : w.sys.db.updateDelivery d f = .ok db)
    (hf : ∀ row row', f row = some row' → row'.status.final = true) :
    Gone d { w.sys with db := db } (before ++ (.consumer u, stage') :: after) ∨ Final d db := by
  cases hrow : (w.sys.db.deliveries.get? d).isSome with
  | true => exact .inr (final_of_update hrow hdb hf)
  | false =>
      have hpending : ¬w.pending d := hdecided.resolve_left (by simp [hrow])
      exact .inl (gone_step heffect hlt (gone_of_not_pending hal hrow hpending))

private theorem survives_by_holder {phase : Phase} (hok : Durable cfg w (.call (.consumer u) c o))
    (hsuccess : w.sys.succeeds cfg (.consumer u) c o = success)
    (heffect : Effect cfg w.sys (.consumer u) (.consumer phase) c success stage' s')
    (hal : Aligned cfg (before ++ (.consumer u, .consumer phase) :: after) w.threads)
    (htags : TagsUsedOnce w.sys (before ++ (.consumer u, .consumer phase) :: after))
    (hlt : d < w.sys.db.nextId) (hcarries : u.message.carries d = true)
    (howes : phase.owes = true) :
    Gone d s' (before ++ (.consumer u, stage') :: after) ∨ Final d s'.db ∨
      Owed d s' (before ++ (.consumer u, stage') :: after) := by
  have hopen : phase ≠ .closed := by
    rintro rfl
    exact heffect.not_closed
  have hu : u ∈ w.sys.broker.unacked := htags.held u phase (by simp) hopen
  have heffect' := heffect
  cases heffect with
  | getControl _ _ _ => exact .inr (.inr (owed_self htags hu hcarries rfl))
  | getControlError _ _ => exact .inr (.inr (owed_self htags hu hcarries rfl))
  | write hbody hwrites hdb =>
      obtain rfl : _ = d := by simpa [carries_of_body hbody] using hcarries
      cases hwrites with
      | blocked =>
          refine (ended_of_decided heffect' hal hlt hok hdb fun row row' hf => ?_).imp id .inl
          obtain ⟨response, -, rfl⟩ := Option.map_eq_some_iff.mp hf
          rfl
      | dead _ =>
          refine (ended_of_decided heffect' hal hlt hok.2 hdb fun row row' hf => ?_).imp id .inl
          obtain ⟨response, -, rfl⟩ := Option.map_eq_some_iff.mp hf
          rfl
      | result r =>
          cases r with
          | error e => exact .inr (.inr (owed_self htags hu hcarries rfl))
          | ok r =>
              refine (ended_of_decided heffect' hal hlt (hok rfl) hdb
                fun row row' hf => ?_).imp id .inl
              obtain rfl := Option.some.inj hf
              rfl
      | retryCount => simp [Phase.owes] at howes
      | _ => exact .inr (.inr (owed_self htags hu hcarries rfl))
  | writeError hbody hwrites =>
      cases hwrites with
      | dead _ =>
          have hsucc : w.sys.succeeds cfg (.consumer u) _ o = true := hok.1
          simp [hsucc] at hsuccess
      | retryCount => simp [Phase.owes] at howes
      | _ => exact .inr (.inr (owed_self htags hu hcarries rfl))
  | providerSend _ _ => exact .inr (.inr (owed_self htags hu hcarries rfl))
  | @insertAttempt _ job result _ hbody hdb =>
      cases result with
      | error e => exact .inr (.inr (owed_self htags hu hcarries rfl))
      | ok r => simp [Phase.owes] at howes
  | @insertAttemptError _ job result hbody =>
      exact .inr (.inr (owed_self htags hu hcarries rfl))
  | republish hbody hrep =>
      obtain ⟨-, hid⟩ := hrep.live
      have hd := by simpa [carries_of_body hbody] using hcarries
      refine .inr (.inr (.inl ?_))
      rw [waiting_addPublication, hid, if_pos hd]
      exact Nat.succ_pos _
  | republishError hbody hrep =>
      have hsucc : w.sys.succeeds cfg (.consumer u) c o = true := by
        cases hrep with
        | retry => exact hok (.inl rfl)
        | dead _ _ => exact hok (.inr rfl)
        | again _ _ => exact hok (.inr rfl)
      simp [hsucc] at hsuccess
  | settle hphase =>
      rcases hphase with rfl | rfl | rfl | ⟨rfl, hbody⟩
      · simp [Phase.owes] at howes
      · simp [Phase.owes] at howes
      · simp [Phase.owes] at howes
      · simp [Message.carries, hbody] at hcarries
  | requeue hphase =>
      have hknows : w.sys.knows u = true := by
        rw [Sys.knows, List.any_eq_true]
        exact ⟨u, hu, by simp⟩
      rw [if_pos hknows]
      refine .inr (.inr (.inl ?_))
      simp [Sys.waiting, List.countP_append, hcarries]
  | settleError _ _ => exact .inr (.inr (owed_self htags hu hcarries rfl))
  | giveUp _ hparty => exact absurd rfl (hparty u)

private theorem survives_call (hok : Durable cfg w (.call party c o))
    (hsuccess : w.sys.succeeds cfg party c o = success)
    (heffect : Effect cfg w.sys party stage c success stage' s')
    (hal : Aligned cfg (before ++ (party, stage) :: after) w.threads)
    (hK : Accounted w.sys (before ++ (party, stage) :: after))
    (h : Survives w.sys (before ++ (party, stage) :: after)) :
    Survives s' (before ++ (party, stage') :: after) := by
  have hnew : ∀ p ∈ s'.published, p ∈ w.sys.published ∨
      p.job.deliveryID < w.sys.db.nextId ∧ 0 < s'.waiting p.job.deliveryID := by
    intro p hp
    rcases heffect.published_cases with hsame | ⟨q, job, rfl, hholds⟩
    · exact .inl (hsame ▸ hp)
    · rcases List.mem_append.mp hp with hp | hp
      · exact .inl hp
      · obtain rfl := List.mem_singleton.mp hp
        refine .inr ⟨hK.given.tokens _ ?_, by simp [waiting_addPublication]⟩
        rw [tokens_split, if_pos hholds]
        omega
  constructor
  · intro p hp
    have hlt : p.job.deliveryID < w.sys.db.nextId := (hnew p hp).elim (h.known p) And.left
    exact hlt.trans_le heffect.nextId_le
  · intro p hp
    rcases hnew p hp with hp | ⟨-, hwaiting⟩
    · have hlt := h.known p hp
      by_cases hholder : ∃ u phase, party = .consumer u ∧ stage = .consumer phase ∧
          u.message.carries p.job.deliveryID = true ∧ phase.owes = true
      · obtain ⟨u, phase, rfl, rfl, hcarries, howes⟩ := hholder
        exact survives_by_holder hok hsuccess heffect hal hK.tags hlt hcarries howes
      · have hfree : Free p.job.deliveryID (party, stage) := by
          intro u phase heq hcarries
          obtain ⟨rfl, rfl⟩ := Prod.mk.inj heq
          by_contra howes
          exact hholder ⟨u, phase, rfl, rfl, hcarries, by simpa using howes⟩
        rcases h.published p hp with hgone | hfinal | howed
        · exact .inl (gone_step heffect hlt hgone)
        · exact .inr (.inl (final_of_free heffect hfree hfinal))
        · exact .inr (.inr (owed_of_free heffect hK.tags hfree howed))
    · exact .inr (.inr (.inl hwaiting))

private theorem survives_append (hparty : ∀ u, party ≠ .consumer u) (hstage : stage.tx? = none)
    (h : Survives s ms) : Survives s (ms ++ [(party, stage)]) where
  known := h.known
  published := by
    intro p hp
    refine (h.published p hp).imp (fun hgone => ⟨hgone.1, fun m hm tx htx => ?_⟩)
      (Or.imp_right (Or.imp_right fun ⟨u, hu, hcarries, howes⟩ =>
        ⟨u, hu, hcarries, fun phase hmem => ?_⟩))
    · rcases List.mem_append.mp hm with hm | hm
      · exact hgone.2 m hm tx htx
      · obtain rfl := List.mem_singleton.mp hm
        simp [hstage] at htx
    · refine howes phase ?_
      simpa [Ne.symm (hparty u)] using hmem

private theorem survives_deliver {i : Nat} {m : Message} (hm : s.broker.ready[i]? = some m)
    (htags : TagsUsedOnce s ms) (h : Survives s ms) :
    Survives (s.deliver i ⟨s.broker.nextTag, m⟩)
      (ms ++ [(.consumer ⟨s.broker.nextTag, m⟩, .consumer .received)]) where
  known := h.known
  published := by
    intro p hp
    refine (h.published p hp).imp (fun hgone => ⟨hgone.1, fun x hx tx htx => ?_⟩)
      (Or.imp_right fun howed => ?_)
    · rcases List.mem_append.mp hx with hx | hx
      · exact hgone.2 x hx tx htx
      · obtain rfl := List.mem_singleton.mp hx
        simp [Stage.tx?] at htx
    · have hcount := countP_deliver hm (Message.carries p.job.deliveryID)
      by_cases hcarries : m.carries p.job.deliveryID = true
      · refine .inr ⟨⟨s.broker.nextTag, m⟩, List.mem_append_right _ (by simp), hcarries, ?_⟩
        intro phase hmem
        rcases List.mem_append.mp hmem with hmem | hmem
        · have hlt := htags.members_lt s.broker.nextTag
            (List.mem_filterMap.mpr ⟨_, List.mem_map.mpr ⟨_, hmem, rfl⟩, rfl⟩)
          exact absurd hlt (lt_irrefl _)
        · obtain ⟨-, hphase⟩ := Prod.mk.inj (List.mem_singleton.mp hmem)
          rw [Stage.consumer.inj hphase]
          rfl
      · rw [if_neg hcarries, Nat.add_zero] at hcount
        rcases howed with hwaiting | ⟨u, hu, hu', howes⟩
        · refine .inl ?_
          rw [Sys.waiting] at hwaiting ⊢
          rwa [Sys.deliver_broker_ready, hcount]
        · refine .inr ⟨u, List.mem_append_left _ hu, hu', fun phase hmem => ?_⟩
          rcases List.mem_append.mp hmem with hmem | hmem
          · exact howes phase hmem
          · have hlt := htags.unacked_lt u hu
            obtain ⟨⟨rfl⟩, -⟩ := Prod.mk.inj (List.mem_singleton.mp hmem)
            exact absurd hlt (lt_irrefl _)

private theorem survives_crash (h : Survives s (before ++ (party, stage) :: after)) :
    Survives s (before ++ (party, .over) :: after) where
  known := h.known
  published := by
    have hother : ∀ m ∈ before ++ (party, Stage.over) :: after, m.2 ≠ .over →
        m ∈ before ++ (party, stage) :: after := by
      intro m hm hne
      simp only [List.mem_append, List.mem_cons] at hm ⊢
      rcases hm with hm | rfl | hm
      · exact .inl hm
      · exact absurd rfl hne
      · exact .inr (.inr hm)
    intro p hp
    refine (h.published p hp).imp (fun hgone => ⟨hgone.1, fun m hm tx htx => ?_⟩)
      (Or.imp_right (Or.imp_right fun ⟨u, hu, hcarries, howes⟩ =>
        ⟨u, hu, hcarries, fun phase hmem => howes phase (hother _ hmem (by simp))⟩))
    refine hgone.2 m (hother m hm ?_) tx htx
    intro hover
    simp [hover, Stage.tx?] at htx

theorem survives_inductive (cfg : Config) :
    Inductive cfg (fun w l => Durable cfg w l ∧ Unrepeated w l) Accounted Survives where
  call := fun hal hok hsuccess heffect hK h => survives_call hok.1 hsuccess heffect hal hK h
  request := fun _ _ _ h => survives_append (by simp) rfl h
  tick := fun _ _ _ h => survives_append (by simp) rfl h
  deliver := fun _ _ hm hK h => survives_deliver hm hK.tags h
  admin := by
    intro w ms a _ _ _ h
    cases a <;> exact ⟨h.known, h.published⟩
  clock := fun _ _ _ _ h => ⟨h.known, h.published⟩
  crash := fun _ _ _ h => survives_crash h
  requeue := fun _ hok => hok.2.elim

private theorem closed_of_stopped {phase : Phase} (hal : Aligned cfg ms w.threads)
    (hstopped : w.stopped u) (hmem : (Party.consumer u, Stage.consumer phase) ∈ ms) :
    phase = .closed := by
  obtain ⟨th, hth, hparty, hkeeps⟩ := exists_of_mem_forall₂ hal hmem
  have hnext := hstopped th hth hparty.symm
  cases hprog : th.prog with
  | call c k => simp [hprog, Prog.next?] at hnext
  | ret a =>
      rw [hprog] at hkeeps
      cases phase <;> simp_all [Keeps, Stage.ended]

private theorem tags_requeue (hal : Aligned cfg ms w.threads) (hu : u ∈ w.sys.broker.unacked)
    (hstopped : w.stopped u) (h : TagsUsedOnce w.sys ms) : TagsUsedOnce (w.sys.requeue u) ms where
  unacked := h.unacked.sublist (List.filter_sublist.map _)
  unacked_lt := fun v hv => h.unacked_lt v (List.mem_of_mem_filter hv)
  members := h.members
  members_lt := h.members_lt
  held := by
    intro v phase hmem hphase
    have hv := h.held v phase hmem hphase
    refine List.mem_filter.mpr ⟨hv, ?_⟩
    by_contra htag
    have hsame : v = u := List.inj_on_of_nodup_map h.unacked hv hu (by simpa using htag)
    exact hphase (closed_of_stopped hal (hsame ▸ hstopped) (hsame ▸ hmem))

private theorem survives_requeue (hu : u ∈ s.broker.unacked) (htags : TagsUsedOnce s ms)
    (h : Survives s ms) : Survives (s.requeue u) ms where
  known := h.known
  published := by
    intro p hp
    refine (h.published p hp).imp id (Or.imp_right fun howed => ?_)
    by_cases hcarries : u.message.carries p.job.deliveryID = true
    · exact .inl (by simp [Sys.waiting, List.countP_append, hcarries])
    · rcases howed with hwaiting | ⟨v, hv, hv', howes⟩
      · exact .inl (by simpa [Sys.waiting, List.countP_append, hcarries] using hwaiting)
      · refine .inr ⟨v, List.mem_filter.mpr ⟨hv, ?_⟩, hv', howes⟩
        by_contra htag
        have hsame : v = u := List.inj_on_of_nodup_map htags.unacked hv hu (by simpa using htag)
        exact hcarries (hsame ▸ hv')

theorem survives_step {w' : World} {e : Event} (hok : Recovering cfg w e)
    (hstep : w.step cfg e = some w')
    (h : Described cfg (fun s ms => Accounted s ms ∧ Survives s ms) w) :
    Described cfg (fun s ms => Accounted s ms ∧ Survives s ms) w' := by
  have hinductive : Inductive cfg (fun w l => Durable cfg w l ∧ Unrepeated w l) Anything
      (fun s ms => Accounted s ms ∧ Survives s ms) :=
    ((accounted_inductive cfg).mono fun _ _ h => h.2).and (survives_inductive cfg)
  by_cases hrequeue : ∃ i, e = .requeue i
  · obtain ⟨i, rfl⟩ := hrequeue
    obtain ⟨ms, hal, hK, hS⟩ := h
    simp only [World.step] at hstep
    split at hstep
    · simp at hstep
    · next u hu =>
        obtain rfl := Option.some.inj hstep
        have hmem := List.mem_of_getElem? hu
        exact ⟨ms, hal, ⟨hK.owned, tags_requeue hal hmem (hok.2 i rfl u hu) hK.tags,
          given_requeue hmem hK.given⟩, survives_requeue hmem hK.tags hS⟩
  · refine hinductive.step h ⟨hok.1, ?_⟩ hstep
    cases e with
    | requeue i => exact hrequeue ⟨i, rfl⟩
    | deliver i => simp only [World.label]; split <;> trivial
    | step i o => simp only [World.label]; split <;> trivial
    | crash i => simp only [World.label]; split <;> trivial
    | _ => trivial

end

theorem survives_fresh {w : World} (h : w.Fresh) :
    Accounted w.sys [] ∧ Survives w.sys [] := by
  refine ⟨⟨ownedOnce_fresh h, tags_fresh h, ?_⟩, ?_⟩
  · constructor <;> simp [tokens, h.ready, h.unacked]
  · constructor <;> simp [h.published]

/-- **Crashes lose no published delivery.** In every state of a run in which any process may
crash at any call and the broker requeues what stopped consumers have left, a published delivery
whose row is committed and not final has a message in a queue or one that has been handed out and
not settled. -/
theorem published_delivery_survives {cfg : Config} {w₀ w : World} {es : List Event}
    (hfresh : w₀.Fresh) (hrun : Run (World.step cfg) (Recovering cfg) w₀ es w) :
    ∀ p ∈ w.sys.published, ∀ row, w.sys.db.deliveries.get? p.job.deliveryID = some row →
      row.status.final = false →
        0 < w.sys.waiting p.job.deliveryID ∨ w.handling p.job.deliveryID := by
  have hstart : Described cfg (fun s ms => Accounted s ms ∧ Survives s ms) w₀ :=
    ⟨[], by rw [hfresh.threads]; exact .nil, survives_fresh hfresh⟩
  obtain ⟨ms, hal, -, h⟩ := Run.invariant hrun
    (fun _ _ _ h hok hstep => survives_step hok hstep h) hstart
  intro p hp row hrow hstatus
  rcases h.published p hp with hgone | ⟨st, at?, hst, hfinal⟩ | hwaiting | ⟨u, hu, hcarries, -⟩
  · simp [hgone.1] at hrow
  · obtain ⟨rfl, -⟩ : row.status = st ∧ _ := by
      simpa [Db.stamp?, hrow, DeliveryRow.stamp] using hst
    simp [hstatus] at hfinal
  · exact .inl hwaiting
  · exact .inr ⟨u, hu, hcarries⟩

def durableCheck (cfg : Config) (w : World) : World.Label → Bool
  | .call party c o => match c.stmt with
      | .publish _ _ => w.sys.succeeds cfg party c o
      | .markDead id => w.sys.succeeds cfg party c o && (w.sys.db.deliveries.get? id).isSome
      | .markBlocked id => (w.sys.db.deliveries.get? id).isSome
      | .storeResult id _ _ _ => (w.sys.db.deliveries.get? id).isSome
      | _ => true
  | _ => true

def stoppedCheck (w : World) : Event → Bool
  | .requeue i => (w.sys.broker.unacked[i]?).all fun u => w.threads.all fun th =>
      match th.party with
      | .consumer v => v.tag != u.tag || th.prog.next?.isNone
      | _ => true
  | _ => true

private theorem durable_of_check {cfg : Config} {w : World} {l : World.Label}
    (h : durableCheck cfg w l = true) : Durable cfg w l := by
  cases l with
  | call party c o =>
      obtain ⟨site, stmt⟩ := c
      cases stmt with
      | publish q job => exact fun _ => h
      | markDead id =>
          obtain ⟨hsucc, hrow⟩ := Bool.and_eq_true_iff.mp h
          exact ⟨hsucc, .inl hrow⟩
      | markBlocked id => exact .inl h
      | storeResult id status _ _ => exact fun _ => .inl h
      | _ => trivial
  | _ => trivial

private theorem recovering_of_check {cfg : Config} {w : World} {e : Event}
    (h : (durableCheck cfg w (w.label e) && stoppedCheck w e) = true) : Recovering cfg w e := by
  obtain ⟨hdurable, hstopped⟩ := Bool.and_eq_true_iff.mp h
  refine ⟨durable_of_check hdurable, ?_⟩
  rintro i rfl u hu th hth hparty
  simp only [stoppedCheck, hu, Option.all_some, List.all_eq_true] at hstopped
  simpa [hparty] using hstopped th hth

/-- A worker crashes after the provider has been called; its message is requeued and the provider
called again, with the row of the delivery not final in between. -/
theorem published_delivery_survives_crash : ∃ es w,
    Run (World.step (sampleConfig 3)) (Recovering (sampleConfig 3)) sampleWorld es w ∧
    w.sys.calls.length = 2 ∧ w.sys.db.stamp? 1 = some (.sending, false) ∧
    ∀ p ∈ w.sys.published, ∀ row, w.sys.db.deliveries.get? p.job.deliveryID = some row →
      row.status.final = false →
        0 < w.sys.waiting p.job.deliveryID ∨ w.handling p.job.deliveryID := by
  let es : List Event := List.flatten [[.request 1 "t1" (sampleRequest ["email"] ⟨"", ""⟩ "")],
    steps 0 10, [.deliver 0], steps 1 3, [.crash 1, .requeue 0, .deliver 0], steps 2 3]
  let check (w : World) (e : Event) : Bool :=
    durableCheck (sampleConfig 3) w (w.label e) && stoppedCheck w e
  let seen (w : World) : Bool :=
    w.sys.calls.length == 2 && w.sys.db.stamp? 1 == some (.sending, false)
  have hexec : (execute (World.step (sampleConfig 3)) check sampleWorld es).any seen = true := by
    decide +kernel
  obtain ⟨w, hrun, hw⟩ := Run.exists_of_execute (fun _ _ h => recovering_of_check h) hexec
  obtain ⟨hcalls, hstamp⟩ := Bool.and_eq_true_iff.mp hw
  exact ⟨es, w, hrun, beq_iff_eq.mp hcalls, beq_iff_eq.mp hstamp,
    published_delivery_survives sampleWorld_fresh hrun⟩

end NotificationPlatform
