import NotificationPlatform.Conservation

/-!
# Losing a delivery

The error exits of the three consumers choose between putting a message back, giving its job to
another queue and dropping it. Three of them drop a job whose delivery has not ended: a failed
publication to the retry queue, a failed republication of the retry loop, and a failed update of
the dead-letter loop. A fourth loss comes from an update that meets no row because the
transaction of its delivery is still open. While none of these happens, no delivery is lost.
-/

namespace NotificationPlatform

open Lib

/-- The calls `RouteDueScheduled` makes for a job. -/
def Site.isRoute : Site → Bool
  | .route _ _ _ => true
  | _ => false

/-- Errors occur in the calls of the consumers, and in those of `Send`; the scheduler's calls
succeed, no process crashes and no message is handed out twice. -/
def Transient (cfg : Config) (w : World) : World.Label → Prop
  | .call party c o => c.site.isRoute = true → w.sys.succeeds cfg party c o = true
  | .crash _ | .requeue => False
  | _ => True

/-- Every publication of a consumer succeeds, as does the update of the dead-letter loop; the
rows of blocked and dead deliveries are committed; and where the attempt of a success is
recorded, the row has its final status already. -/
def keepsJobs (cfg : Config) (party : Party) (c : Call) (o : Outcome) (s : Sys) : Bool :=
  match c.stmt with
  | .publish _ _ => !(c.site == .worker || c.site == .retryLoop) || s.succeeds cfg party c o
  | .markDead id => (s.db.deliveries.get? id).isSome && s.succeeds cfg party c o
  | .markBlocked id => (s.db.deliveries.get? id).isSome
  | .insertAttempt _ id status _ =>
      status != .sent || (s.db.deliveries.get? id).all (fun row => row.status.final)
  | _ => true

def Keeping (cfg : Config) (w : World) : World.Label → Prop
  | .call party c o => keepsJobs cfg party c o w.sys = true
  | _ => True

instance (cfg : Config) (w : World) : (l : World.Label) → Decidable (Transient cfg w l)
  | .call party c o => inferInstanceAs
      (Decidable (c.site.isRoute = true → w.sys.succeeds cfg party c o = true))
  | .crash _ | .requeue => inferInstanceAs (Decidable False)
  | .deliver _ | .request _ _ | .tick | .admin _ | .clock | .none =>
      inferInstanceAs (Decidable True)

instance (cfg : Config) (w : World) : (l : World.Label) → Decidable (Keeping cfg w l)
  | .call party c o => inferInstanceAs (Decidable (keepsJobs cfg party c o w.sys = true))
  | .crash _ | .requeue | .deliver _ | .request _ _ | .tick | .admin _ | .clock | .none =>
      inferInstanceAs (Decidable True)

/-- The consumer has not given up its message: it is at work on it, or failed to return it. -/
def Phase.keeps : Phase → Bool
  | .moved | .lost | .settled => false
  | _ => true

/-- A job of delivery `d` waits in a queue or is kept by a consumer. -/
def Kept (d : Nat) (s : Sys) (ms : Members) : Prop :=
  0 < s.waiting d ∨ ∃ u ∈ s.broker.unacked, u.message.carries d = true ∧
    ∀ stage, (Party.consumer u, stage) ∈ ms →
      ∃ phase, stage = .consumer phase ∧ phase.keeps = true

def Final (d : Nat) (db : Db) : Prop := ∃ st at?, db.stamp? d = some (st, at?) ∧ st.final = true

structure NothingLost (s : Sys) (ms : Members) : Prop where
  known : ∀ p ∈ s.published, p.job.deliveryID < s.db.nextId
  published : ∀ p ∈ s.published, Final p.job.deliveryID s.db ∨ Kept p.job.deliveryID s ms
  committed : ∀ d row, s.db.deliveries.get? d = some row →
    (∃ p ∈ s.published, p.job.deliveryID = d) ∨
    ∃ id due done channel todo rest ensured,
      (Party.pass id, Stage.adding due d done channel todo rest ensured) ∈ ms
  pending : ∀ m ∈ ms, ∀ tx, m.2.tx? = some tx → ∀ p ∈ tx.deliveries,
    (∃ x ∈ s.published, x.job.deliveryID = p.1) ∨
      ∃ n tx' channel todo ensured, m.2 = .creating n p.1 tx' channel todo ensured

section

variable {cfg : Config} {w : World} {before after : Members} {party : Party}
  {stage stage' : Stage} {c : Call} {o : Outcome} {success : Bool} {s s' : Sys} {d : Nat}

theorem Effect.waiting_le (h : Effect cfg s party stage c success stage' s') (d : Nat) :
    s.waiting d ≤ s'.waiting d := by
  cases h with
  | requeue _ => split <;> simp [Sys.waiting]
  | _ => simp [Sys.waiting]

theorem Effect.mem_unacked (h : Effect cfg s party stage c success stage' s')
    (htags : TagsUsedOnce s (before ++ (party, stage) :: after)) {u : Delivery}
    (hu : u ∈ s.broker.unacked) (hne : party ≠ .consumer u) : u ∈ s'.broker.unacked := by
  have htag : ∀ {v : Delivery} {phase : Phase}, party = .consumer v → stage = .consumer phase →
      phase ≠ .closed → u.tag ≠ v.tag := by
    rintro v phase rfl rfl hphase htag
    have hv := htags.held v phase (by simp) hphase
    exact hne (congrArg _ (List.inj_on_of_nodup_map htags.unacked hv hu htag.symm))
  cases h with
  | settle hphase =>
      have htag' := htag rfl rfl (by rcases hphase with rfl | rfl | rfl | ⟨rfl, -⟩ <;> simp)
      exact List.mem_filter.mpr ⟨hu, by simpa using htag'⟩
  | requeue hphase =>
      have htag' := htag rfl rfl (by rcases hphase with rfl | rfl <;> simp)
      split <;> exact List.mem_filter.mpr ⟨hu, by simpa using htag'⟩
  | _ => exact hu

private theorem kept_self {u : Delivery} {phase : Phase}
    (htags : TagsUsedOnce s (before ++ (.consumer u, stage) :: after))
    (hu : u ∈ s'.broker.unacked) (hcarries : u.message.carries d = true)
    (hphase : phase.keeps = true) :
    Kept d s' (before ++ (.consumer u, .consumer phase) :: after) := by
  refine .inr ⟨u, hu, hcarries, fun stage' hmem => ?_⟩
  rw [List.mem_append, List.mem_cons] at hmem
  rcases hmem with hmem | hmem | hmem
  · exact absurd rfl (htags.tag_ne (List.mem_append_left _ hmem))
  · exact ⟨phase, congrArg Prod.snd hmem, hphase⟩
  · exact absurd rfl (htags.tag_ne (List.mem_append_right _ hmem))

private theorem kept_of_other (heffect : Effect cfg s party stage c success stage' s')
    (htags : TagsUsedOnce s (before ++ (party, stage) :: after))
    (hidle : ∀ u phase, party = .consumer u → stage = .consumer phase →
      u.message.carries d = true → phase.keeps = false)
    (h : Kept d s (before ++ (party, stage) :: after)) :
    Kept d s' (before ++ (party, stage') :: after) := by
  rcases h with h | ⟨u, hu, hcarries, hkeeps⟩
  · exact .inl (h.trans_le (heffect.waiting_le d))
  · have hne : party ≠ .consumer u := by
      intro hparty
      obtain ⟨phase, hphase, hkeep⟩ := hkeeps stage (by simp [hparty])
      simp [hidle u phase hparty hphase hcarries] at hkeep
    refine .inr ⟨u, heffect.mem_unacked htags hu hne, hcarries, fun stage₀ hmem => ?_⟩
    refine hkeeps stage₀ ?_
    simp only [List.mem_append, List.mem_cons, Prod.mk.injEq] at hmem ⊢
    rcases hmem with hmem | ⟨hparty, -⟩ | hmem
    · exact .inl hmem
    · exact absurd hparty.symm hne
    · exact .inr (.inr hmem)

theorem final_of_update {db db' : Db} {id : Nat} {f : DeliveryRow → Option DeliveryRow}
    (hrow : (db.deliveries.get? id).isSome = true) (hdb : db.updateDelivery id f = .ok db')
    (hf : ∀ row row', f row = some row' → row'.status.final = true) : Final id db' := by
  rcases Db.updateDelivery_cases hdb with ⟨hnone, -⟩ | ⟨row, row', hget, hrow', rfl⟩
  · simp [hnone] at hrow
  · exact ⟨row'.status, row'.deliveredAt.isSome, by simp [Db.stamp?, hget, DeliveryRow.stamp],
      hf row row' hrow'⟩

theorem final_of_mark {db db' : Db} {id : Nat} {status : DeliveryStatus}
    {key value : String} (hrow : (db.deliveries.get? id).isSome = true)
    (hdb : db.updateDelivery id (Db.mark status key value) = .ok db')
    (hfinal : status.final = true) : Final id db' := by
  refine final_of_update hrow hdb fun row row' hf => ?_
  obtain ⟨response, -, rfl⟩ := Option.map_eq_some_iff.mp hf
  exact hfinal

private theorem secured_by_holder {u : Delivery} {phase : Phase}
    (hok : Keeping cfg w (.call (.consumer u) c o))
    (hsuccess : w.sys.succeeds cfg (.consumer u) c o = success)
    (heffect : Effect cfg w.sys (.consumer u) (.consumer phase) c success stage' s')
    (htags : TagsUsedOnce w.sys (before ++ (.consumer u, .consumer phase) :: after))
    (hcarries : u.message.carries d = true) (hlive : phase.live = true) :
    Final d s'.db ∨ Kept d s' (before ++ (.consumer u, stage') :: after) := by
  have hu : u ∈ w.sys.broker.unacked := htags.held u phase (by simp) (by rintro rfl; simp at hlive)
  cases heffect with
  | getControl _ _ _ => exact .inr (kept_self htags hu hcarries rfl)
  | getControlError _ _ => exact .inr (kept_self htags hu hcarries rfl)
  | write hbody hwrites hdb =>
      obtain rfl : _ = d := by simpa [carries_of_body hbody] using hcarries
      cases hwrites with
      | blocked => exact .inl (final_of_mark hok hdb rfl)
      | dead _ => exact .inl (final_of_mark (Bool.and_eq_true_iff.mp hok).1 hdb rfl)
      | retryCount => simp at hlive
      | _ => exact .inr (kept_self htags hu hcarries rfl)
  | writeError hbody hwrites =>
      cases hwrites with
      | dead _ => simp [(Bool.and_eq_true_iff.mp hok).2] at hsuccess
      | retryCount => simp at hlive
      | _ => exact .inr (kept_self htags hu hcarries rfl)
  | providerSend _ _ => exact .inr (kept_self htags hu hcarries rfl)
  | @insertAttempt _ job result _ hbody hdb =>
      obtain rfl : job.deliveryID = d := by simpa [carries_of_body hbody] using hcarries
      cases result with
      | error e => exact .inr (kept_self htags hu hcarries rfl)
      | ok r =>
          obtain ⟨⟨row, hrow⟩, attempts, rfl⟩ := Db.insertAttempt_cases hdb
          have hall : (w.sys.db.deliveries.get? job.deliveryID).all
              (fun row => row.status.final) = true := hok
          have hfinal : row.status.final = true := by simpa [hrow] using hall
          exact .inl ⟨row.status, row.deliveredAt.isSome,
            by simp [Db.stamp?, hrow, DeliveryRow.stamp], hfinal⟩
  | insertAttemptError _ => exact .inr (kept_self htags hu hcarries rfl)
  | republish hbody hrep =>
      obtain ⟨-, hid⟩ := hrep.live
      have hd := by simpa [carries_of_body hbody] using hcarries
      refine .inr (.inl ?_)
      rw [waiting_addPublication, hid, if_pos hd]
      exact Nat.succ_pos _
  | republishError hbody hrep =>
      have hsucc : w.sys.succeeds cfg (.consumer u) c o = true := by
        cases hrep with
        | retry => exact hok
        | dead _ _ => exact hok
        | again _ _ => exact hok
      simp [hsucc] at hsuccess
  | settle hphase =>
      rcases hphase with rfl | rfl | rfl | ⟨rfl, hbody⟩
      · simp [Phase.live] at hlive
      · simp at hlive
      · simp [Phase.live] at hlive
      · simp [Message.carries, hbody] at hcarries
  | requeue hphase =>
      have hknows : w.sys.knows u = true := by
        rw [Sys.knows, List.any_eq_true]
        exact ⟨u, hu, by simp⟩
      rw [if_pos hknows]
      refine .inr (.inl ?_)
      simp [Sys.waiting, List.countP_append, hcarries]
  | settleError _ _ => exact .inr (kept_self htags hu hcarries rfl)
  | giveUp _ hparty => exact absurd rfl (hparty u)

private theorem secured_step (hok : Keeping cfg w (.call party c o))
    (hsuccess : w.sys.succeeds cfg party c o = success)
    (heffect : Effect cfg w.sys party stage c success stage' s')
    (htags : TagsUsedOnce w.sys (before ++ (party, stage) :: after))
    (h : Final d w.sys.db ∨ Kept d w.sys (before ++ (party, stage) :: after)) :
    Final d s'.db ∨ Kept d s' (before ++ (party, stage') :: after) := by
  by_cases hholder : ∃ u phase, party = .consumer u ∧ stage = .consumer phase ∧
      u.message.carries d = true ∧ phase.live = true
  · obtain ⟨u, phase, rfl, rfl, hcarries, hlive⟩ := hholder
    exact secured_by_holder hok hsuccess heffect htags hcarries hlive
  · have hidle : ∀ u phase, party = .consumer u → stage = .consumer phase →
        u.message.carries d = true → phase.live = false := by
      intro u phase hu hphase hcarries
      by_contra hlive
      exact hholder ⟨u, phase, hu, hphase, hcarries, by simpa using hlive⟩
    rcases h with ⟨st, at?, hst, hfinal⟩ | h
    · exact .inl ⟨st, at?, heffect.stamp?_of_idle hidle hst, hfinal⟩
    · refine .inr (kept_of_other heffect htags ?_ h)
      intro u phase hu hphase hcarries
      have hlive := hidle u phase hu hphase hcarries
      have hopen : phase ≠ .closed := by
        rintro rfl
        subst hu hphase
        exact heffect.not_closed
      cases phase <;> simp_all [Phase.live, Phase.keeps]

private theorem pending_step (heffect : Effect cfg s party stage c success stage' s')
    (hsub : ∀ p ∈ s.published, p ∈ s'.published)
    (h : ∀ tx, stage.tx? = some tx → ∀ p ∈ tx.deliveries,
      (∃ x ∈ s.published, x.job.deliveryID = p.1) ∨
        ∃ n tx' channel todo ensured, stage = .creating n p.1 tx' channel todo ensured)
    {tx : Tx} (htx : stage'.tx? = some tx) {p : Nat × DeliveryRow} (hp : p ∈ tx.deliveries) :
    (∃ x ∈ s'.published, x.job.deliveryID = p.1) ∨
      ∃ n tx' channel todo ensured, stage' = .creating n p.1 tx' channel todo ensured := by
  cases heffect with
  | insertNotification _ =>
      obtain rfl := Option.some.inj htx
      simp at hp
  | insertScheduledJob hempty =>
      obtain rfl := Option.some.inj htx
      simp [hempty] at hp
  | @insertTxDelivery _ _ _ _ _ tx₀ _ _ =>
      obtain rfl := Option.some.inj htx
      rcases List.mem_append.mp hp with hp | hp
      · rcases h tx₀ rfl p hp with ⟨x, hx, hid⟩ | ⟨_, _, _, _, _, heq⟩
        · exact .inl ⟨x, hsub x hx, hid⟩
        · simp at heq
      · obtain rfl := List.mem_singleton.mp hp
        exact .inr ⟨_, _, _, _, _, rfl⟩
  | sendEnsureControl _ =>
      rcases h tx htx p hp with ⟨x, hx, hid⟩ | ⟨_, _, _, _, _, heq⟩
      · exact .inl ⟨x, hx, hid⟩
      · obtain ⟨-, rfl, -⟩ := Stage.creating.inj heq
        exact .inr ⟨_, _, _, _, _, rfl⟩
  | sendPublish hjob =>
      rcases h tx htx p hp with ⟨x, hx, hid⟩ | ⟨_, _, _, _, _, heq⟩
      · exact .inl ⟨x, hsub x hx, hid⟩
      · obtain ⟨-, rfl, -⟩ := Stage.creating.inj heq
        exact .inl ⟨_, List.mem_append_right _ (List.mem_singleton.mpr rfl), by rw [hjob]; rfl⟩
  | _ => simp [Stage.tx?] at htx

private theorem nothingLost_call (htransient : Transient cfg w (.call party c o))
    (hok : Keeping cfg w (.call party c o)) (hsuccess : w.sys.succeeds cfg party c o = success)
    (heffect : Effect cfg w.sys party stage c success stage' s')
    (hK : Tidy w.sys (before ++ (party, stage) :: after))
    (h : NothingLost w.sys (before ++ (party, stage) :: after)) :
    NothingLost s' (before ++ (party, stage') :: after) := by
  have hnext := heffect.nextId_le
  have hnew : ∀ p ∈ s'.published, p ∈ w.sys.published ∨
      0 < s'.waiting p.job.deliveryID ∧ holds p.job.deliveryID (party, stage) = true := by
    intro p hp
    rcases heffect.published_cases with hsame | ⟨q, job, rfl, hholds⟩
    · exact .inl (hsame ▸ hp)
    · rcases List.mem_append.mp hp with hp | hp
      · exact .inl hp
      · obtain rfl := List.mem_singleton.mp hp
        exact .inr ⟨by simp [waiting_addPublication], hholds⟩
  have hsub : ∀ p ∈ w.sys.published, p ∈ s'.published := by
    intro p hp
    rcases heffect.published_cases with hsame | ⟨q, job, rfl, -⟩
    · rwa [hsame]
    · exact List.mem_append_left _ hp
  constructor
  · intro p hp
    rcases hnew p hp with hp | ⟨-, hholds⟩
    · exact (h.known p hp).trans_le hnext
    · exact (hK.token.lt_nextId hholds).trans_le hnext
  · intro p hp
    rcases hnew p hp with hp | ⟨hwaiting, -⟩
    · exact secured_step hok hsuccess heffect hK.tags (h.published p hp)
    · exact .inr (.inl hwaiting)
  · intro d row hrow
    rcases heffect.committed_cases hrow with ⟨row', hrow'⟩ | ⟨n, tx, hstage, hmem⟩ |
      ⟨_, _, _, _, _, rfl⟩
    · rcases h.committed d row' hrow' with ⟨p, hp, hid⟩ | ⟨id, due, done, channel, todo, rest,
        ensured, hmem⟩
      · exact .inl ⟨p, hsub p hp, hid⟩
      · rw [List.mem_append, List.mem_cons] at hmem
        rcases hmem with hmem | hmem | hmem
        · exact .inr ⟨id, due, done, channel, todo, rest, ensured, by simp [hmem]⟩
        · -- the inserting pass itself: it goes on, publishes, or would have to fail
          obtain ⟨rfl, rfl⟩ := Prod.mk.inj hmem
          cases heffect with
          | routeEnsureControl _ =>
              exact .inr ⟨id, due, done, channel, todo, rest, true, by simp⟩
          | routePublish hjob =>
              exact .inl ⟨_, List.mem_append_right _ (List.mem_singleton.mpr rfl), by rw [hjob]; rfl⟩
          | giveUp hallowed _ =>
              have hsucc : w.sys.succeeds cfg (.pass id) c o = true := by
                cases hallowed <;> exact htransient rfl
              simp [hsucc] at hsuccess
        · exact .inr ⟨id, due, done, channel, todo, rest, ensured, by simp [hmem]⟩
    · have hpending := h.pending (party, stage) (by simp) tx
        (by rcases hstage with rfl | rfl <;> rfl) (d, row) hmem
      rcases hpending with ⟨x, hx, hid⟩ | ⟨_, _, _, _, _, heq⟩
      · exact .inl ⟨x, hsub x hx, hid⟩
      · rcases hstage with rfl | rfl <;> simp at heq
    · cases heffect with
      | insertDelivery _ =>
          exact .inr ⟨_, _, _, _, _, _, _, List.mem_append_right _ (List.mem_cons_self ..)⟩
  · intro m hm tx htx p hp
    rw [List.mem_append, List.mem_cons] at hm
    rcases hm with hm | rfl | hm
    · exact (h.pending m (by simp [hm]) tx htx p hp).imp
        (fun ⟨x, hx, hid⟩ => ⟨x, hsub x hx, hid⟩) id
    · exact pending_step heffect hsub (h.pending (party, stage) (by simp)) htx hp
    · exact (h.pending m (by simp [hm]) tx htx p hp).imp
        (fun ⟨x, hx, hid⟩ => ⟨x, hsub x hx, hid⟩) id

end

private theorem nothingLost_append {s : Sys} {ms : Members} {party : Party} {stage : Stage}
    (h : NothingLost s ms) (hparty : ∀ u, party ≠ .consumer u) (hstage : stage.tx? = none) :
    NothingLost s (ms ++ [(party, stage)]) where
  known := h.known
  published := by
    intro p hp
    refine (h.published p hp).imp id ?_
    rintro (hwaiting | ⟨u, hu, hcarries, hkeeps⟩)
    · exact .inl hwaiting
    · refine .inr ⟨u, hu, hcarries, fun stage' hmem => hkeeps stage' ?_⟩
      simpa [Ne.symm (hparty u)] using hmem
  committed := by
    intro d row hrow
    refine (h.committed d row hrow).imp id ?_
    rintro ⟨id, due, done, channel, todo, rest, ensured, hmem⟩
    exact ⟨id, due, done, channel, todo, rest, ensured, List.mem_append_left _ hmem⟩
  pending := by
    intro m hm tx htx
    rcases List.mem_append.mp hm with hm | hm
    · exact h.pending m hm tx htx
    · obtain rfl := List.mem_singleton.mp hm
      simp [hstage] at htx

private theorem nothingLost_deliver {w : World} {ms : Members} {i : Nat} {m : Message}
    (hm : w.sys.broker.ready[i]? = some m) (hK : Tidy w.sys ms) (h : NothingLost w.sys ms) :
    NothingLost (w.sys.deliver i ⟨w.sys.broker.nextTag, m⟩)
      (ms ++ [(.consumer ⟨w.sys.broker.nextTag, m⟩, .consumer .received)]) where
  known := h.known
  published := by
    intro p hp
    refine (h.published p hp).imp id fun hkept => ?_
    have hold : ∀ {u stage}, (Party.consumer u, stage) ∈ ms → u.tag ≠ w.sys.broker.nextTag := by
      intro u stage hmem htag
      have hlt := hK.tags.members_lt u.tag
        (List.mem_filterMap.mpr ⟨.consumer u, List.mem_map.mpr ⟨_, hmem, rfl⟩, rfl⟩)
      omega
    have hcount := countP_deliver hm (Message.carries p.job.deliveryID)
    by_cases hcarries : m.carries p.job.deliveryID = true
    · refine .inr ⟨⟨w.sys.broker.nextTag, m⟩, List.mem_append_right _ (by simp), hcarries, ?_⟩
      intro stage hmem
      rcases List.mem_append.mp hmem with hmem | hmem
      · exact absurd rfl (hold hmem)
      · exact ⟨.received, congrArg Prod.snd (List.mem_singleton.mp hmem), rfl⟩
    · rw [if_neg hcarries, Nat.add_zero] at hcount
      rcases hkept with hwaiting | ⟨u, hu, hu', hkeeps⟩
      · refine .inl ?_
        rw [Sys.waiting] at hwaiting ⊢
        rwa [Sys.deliver_broker_ready, hcount]
      · refine .inr ⟨u, List.mem_append_left _ hu, hu', fun stage hmem => ?_⟩
        rcases List.mem_append.mp hmem with hmem | hmem
        · exact hkeeps stage hmem
        · have hlt := hK.tags.unacked_lt u hu
          obtain ⟨⟨rfl⟩, -⟩ := Prod.mk.inj (List.mem_singleton.mp hmem)
          exact absurd hlt (lt_irrefl _)
  committed := by
    intro d row hrow
    refine (h.committed d row hrow).imp id ?_
    rintro ⟨id, due, done, channel, todo, rest, ensured, hmem⟩
    exact ⟨id, due, done, channel, todo, rest, ensured, List.mem_append_left _ hmem⟩
  pending := by
    intro x hx tx htx
    rcases List.mem_append.mp hx with hx | hx
    · exact h.pending x hx tx htx
    · obtain rfl := List.mem_singleton.mp hx
      simp [Stage.tx?] at htx

theorem nothingLost_inductive (cfg : Config) :
    Inductive cfg (fun w l => Transient cfg w l ∧ Keeping cfg w l) Tidy NothingLost where
  call := fun _ hok hsuccess heffect hK h =>
    nothingLost_call hok.1 hok.2 hsuccess heffect hK h
  request := fun _ _ _ h => nothingLost_append h (by simp) rfl
  tick := fun _ _ _ h => nothingLost_append h (by simp) rfl
  deliver := fun _ _ hm hK h => nothingLost_deliver hm hK h
  admin := by
    intro w ms a _ _ _ h
    cases a <;> exact ⟨h.known, h.published, h.committed, h.pending⟩
  clock := by
    intro w ms now _ _ _ _ h
    exact ⟨h.known, h.published, h.committed, h.pending⟩
  crash := by
    intro w before after party stage _ hok
    exact hok.1.elim
  requeue := by
    intro w ms d _ hok
    exact hok.1.elim

theorem Transient.steady {cfg : Config} {w : World} {l : World.Label} (h : Transient cfg w l) :
    Steady w l := by
  cases l with
  | crash _ => exact h.elim
  | requeue => exact h.elim
  | _ => trivial

/-- In every run with transient errors that keeps the jobs, a committed delivery that has not
ended has a message in a queue or with a consumer that has not settled it, or its job is just
being created. -/
theorem no_delivery_lost {cfg : Config} {w₀ w : World} {es : List Event} (hfresh : w₀.Fresh)
    (hrun : w₀.RunOf cfg (fun w l => Transient cfg w l ∧ Keeping cfg w l) es w) :
    ∀ d row, w.sys.db.deliveries.get? d = some row → row.status.final = false →
      ¬w.creating d → 0 < w.sys.waiting d ∨ w.handling d := by
  have hfirst : NothingLost w₀.sys [] := by
    constructor <;> simp [hfresh.published, hfresh.deliveries]
  obtain ⟨ms, hal, hK, h⟩ := (((tidy_inductive cfg).mono fun _ _ h => h.1.steady).and
    (nothingLost_inductive cfg)).reachable hfresh hrun ⟨tidy_fresh hfresh, hfirst⟩
  intro d row hrow hstatus hcreating
  rcases h.committed d row hrow with ⟨p, hp, rfl⟩ | ⟨_, _, _, _, _, _, _, hmem⟩
  · rcases h.published p hp with ⟨st, at?, hst, hfinal⟩ | hwaiting | ⟨u, hu, hcarries, -⟩
    · obtain ⟨rfl, -⟩ : row.status = st ∧ _ := by
        simpa [Db.stamp?, hrow, DeliveryRow.stamp] using hst
      simp [hstatus] at hfinal
    · exact .inl hwaiting
    · exact .inr ⟨u, hu, hcarries⟩
  · obtain ⟨th, hth, -, hkeeps⟩ := exists_of_mem_forall₂ hal hmem
    exact absurd ⟨th, hth, creates_of_adding hkeeps⟩ hcreating

/-- A failed delivery waits in the retry queue, although both of its status updates failed. -/
theorem no_delivery_lost_failed : ∃ es w, sampleWorld.RunOf (sampleConfig 3)
    (fun w l => Transient (sampleConfig 3) w l ∧ Keeping (sampleConfig 3) w l) es w ∧
    w.sys.db.stamp? 1 = some (.queued, false) ∧
    ∀ d row, w.sys.db.deliveries.get? d = some row → row.status.final = false →
      ¬w.creating d → 0 < w.sys.waiting d ∨ w.handling d := by
  obtain ⟨w, hrun, hw⟩ := World.exists_run (sampleConfig 3)
    (fun w l => Transient (sampleConfig 3) w l ∧ Keeping (sampleConfig 3) w l) sampleWorld
    (List.flatten [[.request 1 "t1" (sampleRequest ["email"] ⟨"", ""⟩ "")], steps 0 10,
      [.deliver 0], steps 1 1, [failure 1, failure 1, failure 1], steps 1 2])
    (fun w => w.sys.db.stamp? 1 == some (.queued, false)) (by decide +kernel)
  exact ⟨_, w, hrun, by simpa using hw, no_delivery_lost sampleWorld_fresh hrun⟩

/-- The provider fails, then the publication to the retry queue; the worker acknowledges its
message all the same. -/
theorem delivery_lost_by_worker : ¬∀ (w₀ w : World) (es : List Event), w₀.Fresh →
    w₀.RunOf (sampleConfig 3) (Transient (sampleConfig 3)) es w →
    ∀ d row, w.sys.db.deliveries.get? d = some row → row.status.final = false →
      ¬w.creating d → 0 < w.sys.waiting d ∨ w.handling d := by
  intro hclaim
  obtain ⟨w, hrun, hw⟩ := World.exists_run (sampleConfig 3) (Transient (sampleConfig 3))
    sampleWorld (List.flatten [[.request 1 "t1" (sampleRequest ["email"] ⟨"", ""⟩ "")],
      steps 0 10, [.deliver 0], steps 1 2, [failure 1], steps 1 2, [failure 1], steps 1 1])
    (fun w => w.sys.db.stamp? 1 == some (.failed, false) && w.sys.broker.ready.isEmpty &&
      w.sys.broker.unacked.isEmpty && w.threads.all fun th => th.prog.next?.isNone)
    (by decide +kernel)
  simp only [Bool.and_eq_true, beq_iff_eq, List.isEmpty_iff, List.all_eq_true,
    Option.isNone_iff_eq_none] at hw
  obtain ⟨⟨⟨hstamp, hready⟩, hunacked⟩, hthreads⟩ := hw
  obtain ⟨row, hrow, hst⟩ := Option.map_eq_some_iff.mp hstamp
  have hfailed : row.status = .failed := congrArg Prod.fst hst
  have hcreating : ¬w.creating 1 := by
    rintro ⟨th, hth, ⟨_, _, _, _, hprog, -⟩ | ⟨_, _, _, _, hprog, -⟩⟩
    · simpa [hprog, Prog.next?] using hthreads th hth
    · simpa [hprog, Prog.next?] using hthreads th hth
  rcases hclaim _ w _ sampleWorld_fresh hrun 1 row hrow (by rw [hfailed]; rfl) hcreating with
    h | ⟨u, hu, -⟩
  · simp [Sys.waiting, hready] at h
  · simp [hunacked] at hu

end NotificationPlatform
