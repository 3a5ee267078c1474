import Mathlib.Data.List.Perm.Basic
import NotificationPlatform.Ownership

/-!
# The job of a delivery

Unless a consumer crashes or the broker hands out a message again, a delivery has at most one job
that can still make something happen: in a queue, with a consumer that has not moved or settled
it, or with the party that is about to publish it. It is the token of the delivery.
-/

namespace NotificationPlatform

open Lib

def Phase.live : Phase → Bool
  | .moved | .lost | .settled | .closed => false
  | _ => true

@[simp] theorem Phase.live_moved : Phase.moved.live = false := rfl

@[simp] theorem Phase.live_closed : Phase.closed.live = false := rfl

def holds (id : Nat) : Party × Stage → Bool
  | (.consumer d, .consumer phase) => d.message.carries id && phase.live
  | (.request _ _, .creating _ new _ _ _ _) => new == id
  | (.pass _, .adding _ new _ _ _ _ _) => new == id
  | _ => false

def tokens (id : Nat) (s : Sys) (ms : Members) : Nat :=
  s.broker.ready.countP (Message.carries id) + ms.countP (holds id)

/-- A delivery has at most one token, and one whose identifier is not given out has none. -/
def TokenOnce (s : Sys) (ms : Members) : Prop :=
  ∀ id, tokens id s ms ≤ if id < s.db.nextId then 1 else 0

theorem TokenOnce.le_one {s : Sys} {ms : Members} (h : TokenOnce s ms) (id : Nat) :
    tokens id s ms ≤ 1 :=
  (h id).trans (by split <;> omega)

def Steady (_ : World) : World.Label → Prop
  | .crash (.consumer _) | .requeue => False
  | _ => True

instance (w : World) : (l : World.Label) → Decidable (Steady w l)
  | .crash (.consumer _) | .requeue => inferInstanceAs (Decidable False)
  | .crash (.request _ _) | .crash (.pass _) | .call _ _ _ | .deliver _ | .request _ _ | .tick
  | .admin _ | .clock | .none => inferInstanceAs (Decidable True)

theorem tokens_split (id : Nat) (s : Sys) (before after : Members) (m : Party × Stage) :
    tokens id s (before ++ m :: after) =
      s.broker.ready.countP (Message.carries id) + (if holds id m then 1 else 0) +
        (before.countP (holds id) + after.countP (holds id)) := by
  simp only [tokens, List.countP_append, List.countP_cons]
  omega

theorem Writes.live {d : Delivery} {job : Job} {now : Nat} {phase onOk onError : Phase}
    {c : Call} {f : DeliveryRow → Option DeliveryRow}
    (h : Writes cfg d job now phase c f onOk onError) :
    (onOk.live = true → phase.live = true) ∧ (onError.live = true → phase.live = true) := by
  cases h <;> simp [Phase.live]

theorem Republishes.live {cfg : Config} {d : Delivery} {job job' : Job} {phase : Phase}
    {c : Call} {q : Queue} (h : Republishes cfg d job phase c q job') :
    phase.live = true ∧ job'.deliveryID = job.deliveryID := by
  cases h <;> simp [Phase.live]

@[simp] theorem holds_consumer (id : Nat) (d : Delivery) (phase : Phase) :
    holds id (.consumer d, .consumer phase) = (d.message.carries id && phase.live) := rfl

theorem carries_of_body {d : Delivery} {job : Job} (h : d.message.body = some job) (id : Nat) :
    d.message.carries id = (job.deliveryID == id) := by
  simp [Message.carries, h]

theorem countP_deliver {ready : List Message} {i : Nat} {m : Message} (h : ready[i]? = some m)
    (p : Message → Bool) :
    (ready.eraseIdx i).countP p + (if p m then 1 else 0) = ready.countP p := by
  obtain ⟨hi, rfl⟩ := List.getElem?_eq_some_iff.mp h
  rw [← List.Perm.countP_eq p (List.getElem_cons_eraseIdx_perm hi), List.countP_cons]

theorem Notifications.channelQueue_isChannel (channel : String) :
    (Notifications.channelQueue channel).isChannel = true := by
  unfold Notifications.channelQueue
  split <;> rfl

theorem Retry.channelQueue_isChannel (channel : String) :
    (Retry.channelQueue channel).isChannel = true := by
  unfold Retry.channelQueue
  split <;> rfl

section

variable {cfg : Config} {s s' : Sys} {before after : Members} {party : Party}
  {stage stage' : Stage} {m m' : Party × Stage} {c : Call} {success : Bool} {id : Nat}

private theorem tokens_le_of_le (before after : Members)
    (h : s'.broker.ready.countP (Message.carries id) + (if holds id m' then 1 else 0) ≤
      s.broker.ready.countP (Message.carries id) + (if holds id m then 1 else 0)) :
    tokens id s' (before ++ m' :: after) ≤ tokens id s (before ++ m :: after) := by
  rw [tokens_split, tokens_split]
  omega

theorem Effect.tokens_le (h : Effect cfg s party stage c success stage' s')
    (before after : Members) (id : Nat) :
    tokens id s' (before ++ (party, stage') :: after) ≤
        tokens id s (before ++ (party, stage) :: after) ∨
      id = s.db.nextId ∧ s'.db.nextId = s.db.nextId + 1 ∧
        tokens id s' (before ++ (party, stage') :: after) ≤
          tokens id s (before ++ (party, stage) :: after) + 1 := by
  cases h with
  | write hbody hwrites hdb =>
      refine .inl (tokens_le_of_le before after ?_)
      have hlive := hwrites.live.1
      simp only [holds_consumer, Bool.and_eq_true]
      split <;> split <;> simp_all
  | writeError hbody hwrites =>
      refine .inl (tokens_le_of_le before after ?_)
      have hlive := hwrites.live.2
      simp only [holds_consumer, Bool.and_eq_true]
      split <;> split <;> simp_all
  | insertAttempt hbody hdb =>
      refine .inl (tokens_le_of_le before after ?_)
      simp only [holds_consumer, Phase.live, Bool.and_true]
      split <;> simp
  | republish hbody hrep =>
      refine .inl (tokens_le_of_le before after ?_)
      obtain ⟨hlive, hid⟩ := hrep.live
      simp [List.countP_append, carries_of_body hbody, hlive, hid]
  | requeue hphase =>
      refine .inl (tokens_le_of_le before after ?_)
      have hlive : ∀ {phase : Phase}, phase = .refused ∨ phase = .paused →
          phase.live = true := by
        rintro phase (rfl | rfl) <;> rfl
      split <;> simp [List.countP_append, List.countP_singleton, hlive hphase]
  | sendPublish hjob =>
      refine .inl (tokens_le_of_le before after ?_)
      simp [List.countP_append, holds, hjob, Notifications.newJob]
  | insertTxDelivery =>
      by_cases hid : id = s.db.nextId
      · refine .inr ⟨hid, rfl, ?_⟩
        rw [tokens_split, tokens_split]
        simp [hid, holds]
        omega
      · exact .inl (tokens_le_of_le before after (by simp [holds, Ne.symm hid]))
  | insertDelivery _ =>
      by_cases hid : id = s.db.nextId
      · refine .inr ⟨hid, rfl, ?_⟩
        rw [tokens_split, tokens_split]
        simp [hid, holds]
        omega
      · exact .inl (tokens_le_of_le before after (by simp [holds, Ne.symm hid]))
  | routePublish hjob =>
      refine .inl (tokens_le_of_le before after ?_)
      simp [List.countP_append, holds, hjob, Notifications.newJob]
  | _ => exact .inl (tokens_le_of_le before after (by simp [holds, Phase.live]))

theorem Effect.published_cases (h : Effect cfg s party stage c success stage' s') :
    s'.published = s.published ∨ ∃ q job, s' = s.addPublication party q job ∧
      holds job.deliveryID (party, stage) = true := by
  cases h with
  | republish hbody hrep =>
      obtain ⟨hlive, hid⟩ := hrep.live
      exact .inr ⟨_, _, rfl, by simp [carries_of_body hbody, hid, hlive]⟩
  | requeue _ => split <;> exact .inl rfl
  | sendPublish hjob => exact .inr ⟨_, _, rfl, by simp [holds, hjob, Notifications.newJob]⟩
  | routePublish hjob => exact .inr ⟨_, _, rfl, by simp [holds, hjob, Notifications.newJob]⟩
  | _ => exact .inl rfl

/-- The messages a call puts into a queue: a consumer's job under another attempt, a message it
returns, or the first message of a delivery. -/
theorem Effect.ready_cases (h : Effect cfg s party stage c success stage' s') {m : Message}
    (hm : m ∈ s'.broker.ready) :
    m ∈ s.broker.ready ∨
    (∃ u job phase q job', party = .consumer u ∧ stage = .consumer phase ∧
      u.message.body = some job ∧ Republishes cfg u job phase c q job' ∧ m = ⟨q, some job'⟩ ∧
      s' = s.addPublication party q job') ∨
    (∃ u phase, party = .consumer u ∧ stage = .consumer phase ∧
      (phase = .refused ∨ phase = .paused) ∧ m = u.message) ∨
    ∃ q job, (∀ u, party ≠ .consumer u) ∧ q.isChannel = true ∧ job.attempt = 0 ∧
      holds job.deliveryID (party, stage) = true ∧ m = ⟨q, some job⟩ := by
  cases h with
  | republish hbody hrep =>
      simp only [Sys.addPublication_broker_ready, List.mem_append, List.mem_singleton] at hm
      exact hm.imp id fun hm => .inl ⟨_, _, _, _, _, rfl, rfl, hbody, hrep, hm, rfl⟩
  | requeue hphase =>
      split at hm
      · simp only [Sys.requeue_broker_ready, List.mem_append, List.mem_singleton] at hm
        exact hm.imp id fun hm => .inr (.inl ⟨_, _, rfl, rfl, hphase, hm⟩)
      · exact .inl hm
  | sendPublish hjob =>
      simp only [Sys.addPublication_broker_ready, List.mem_append, List.mem_singleton] at hm
      refine hm.imp id fun hm => .inr (.inr ⟨_, _, by simp,
        Notifications.channelQueue_isChannel _, ?_, ?_, hm⟩) <;>
        simp [hjob, holds, Notifications.newJob]
  | routePublish hjob =>
      simp only [Sys.addPublication_broker_ready, List.mem_append, List.mem_singleton] at hm
      refine hm.imp id fun hm => .inr (.inr ⟨_, _, by simp,
        Notifications.channelQueue_isChannel _, ?_, ?_, hm⟩) <;>
        simp [hjob, holds, Notifications.newJob]
  | _ => exact .inl hm

theorem Effect.calls_cases (h : Effect cfg s party stage c success stage' s') :
    s'.calls = s.calls ∨
    ∃ u job result, u.message.body = some job ∧ party = .consumer u ∧
      stage = .consumer .sending ∧ stage' = .consumer (.called result) ∧
      s' = { s with
        calls := s.calls ++ [⟨Worker.providerMessage job, result.isOk, party⟩] } := by
  cases h with
  | providerSend result hbody => exact .inr ⟨_, _, result, hbody, rfl, rfl, rfl, rfl⟩
  | requeue _ => split <;> exact .inl rfl
  | _ => exact .inl rfl

theorem Effect.called_cases (h : Effect cfg s party stage c success stage' s')
    {result : Except Err ProviderResult} (hstage : stage' = .consumer (.called result)) :
    ∃ u job, party = .consumer u ∧ u.message.body = some job ∧
      s' = { s with calls := s.calls ++ [⟨Worker.providerMessage job, result.isOk, party⟩] } := by
  cases h with
  | providerSend result' hbody =>
      obtain rfl : result' = result := by simpa using hstage
      exact ⟨_, _, rfl, hbody, rfl⟩
  | write _ hwrites _ => cases hwrites <;> simp at hstage
  | writeError _ hwrites => cases hwrites <;> simp at hstage
  | insertAttempt _ _ => split at hstage <;> simp at hstage
  | _ => simp at hstage

theorem Effect.committed_cases (h : Effect cfg s party stage c success stage' s') {d : Nat}
    {row : DeliveryRow} (hrow : s'.db.deliveries.get? d = some row) :
    (∃ row', s.db.deliveries.get? d = some row') ∨
    (∃ n tx, (stage = .open n tx [] ∨ stage = .filed tx) ∧ (d, row) ∈ tx.deliveries) ∨
    ∃ due done channel todo rest, stage' = .adding due d done channel todo rest false := by
  cases h with
  | getControl _ _ hget =>
      obtain ⟨controls, next, rfl, -⟩ := Db.getControl_cases hget
      exact .inl ⟨row, hrow⟩
  | write _ _ hdb =>
      rcases Db.updateDelivery_cases hdb with ⟨-, rfl⟩ | ⟨row₀, row', -, -, rfl⟩
      · exact .inl ⟨row, hrow⟩
      · rw [Table.get?_modify] at hrow
        split at hrow
        · obtain ⟨row₁, hrow₁, -⟩ := Option.map_eq_some_iff.mp hrow
          exact .inl ⟨row₁, hrow₁⟩
        · exact .inl ⟨row, hrow⟩
  | insertAttempt _ hdb =>
      obtain ⟨-, attempts, rfl⟩ := Db.insertAttempt_cases hdb
      exact .inl ⟨row, hrow⟩
  | requeue _ => split at hrow <;> exact .inl ⟨row, hrow⟩
  | sendEnsureControl hensure =>
      obtain ⟨controls, next, rfl, -⟩ := Db.ensureControl_cases hensure
      exact .inl ⟨row, hrow⟩
  | routeEnsureControl hensure =>
      obtain ⟨controls, next, rfl, -⟩ := Db.ensureControl_cases hensure
      exact .inl ⟨row, hrow⟩
  | @commit _ _ tx _ hstage =>
      rcases Table.get?_insertAll_cases hrow with hrow | hmem
      · exact .inl ⟨row, hrow⟩
      · rcases hstage with ⟨n, hstage⟩ | hstage
        · exact .inr (.inl ⟨n, tx, .inl hstage, hmem⟩)
        · exact .inr (.inl ⟨0, tx, .inr hstage, hmem⟩)
  | insertDelivery _ =>
      by_cases hd : d = s.db.nextId
      · subst hd
        exact .inr (.inr ⟨_, _, _, _, _, rfl⟩)
      · exact .inl ⟨row, by rwa [Db.insertDelivery_deliveries, Table.get?_insert_ne _ _ hd] at hrow⟩
  | _ => exact .inl ⟨row, hrow⟩

theorem tokens_over_le (id : Nat) (s : Sys) (before after : Members) (party : Party)
    (stage : Stage) : tokens id s (before ++ (party, .over) :: after) ≤
      tokens id s (before ++ (party, stage) :: after) :=
  tokens_le_of_le before after (by simp [holds])

end

theorem tokenOnce_inductive (cfg : Config) : Inductive cfg Steady Anything TokenOnce where
  call := by
    intro w before after party stage stage' c o success s' _ _ _ heffect _ h id
    have hid := h id
    have hnext := heffect.nextId_le
    rcases heffect.tokens_le before after id with hle | ⟨rfl, hsucc, hle⟩
    · refine (hle.trans hid).trans ?_
      split <;> split <;> omega
    · rw [if_neg (lt_irrefl _)] at hid
      rw [hsucc, if_pos (Nat.lt_succ_self _)]
      omega
  request := by
    intro w ms t req _ _ _ h id
    simpa [tokens, holds] using h id
  tick := by
    intro w ms _ _ _ h id
    simpa [tokens, holds] using h id
  deliver := by
    intro w ms i m _ _ hm _ h id
    have hid := h id
    have hcount := countP_deliver hm (Message.carries id)
    simp only [tokens, List.countP_append, List.countP_singleton, holds_consumer,
      Sys.deliver_broker_ready, Sys.deliver_db, Phase.live, Bool.and_true] at hid ⊢
    omega
  admin := by
    intro w ms a _ _ _ h id
    have hid := h id
    cases a <;> exact hid
  clock := by
    intro w ms now _ _ _ _ h
    exact h
  crash := by
    intro w before after party stage _ hok _ h id
    exact (tokens_over_le id w.sys before after party stage).trans (h id)
  requeue := by
    intro w ms d _ hok
    exact hok.elim

theorem TokenOnce.sole {s : Sys} {before after : Members} {m : Party × Stage} {id : Nat}
    (h : TokenOnce s (before ++ m :: after)) (hm : holds id m = true) :
    (∀ x ∈ s.broker.ready, x.carries id = false) ∧ ∀ x ∈ before ++ after, holds id x = false := by
  have hbound := h.le_one id
  rw [tokens_split, if_pos hm] at hbound
  have hready : s.broker.ready.countP (Message.carries id) = 0 := by omega
  have hrest : (before ++ after).countP (holds id) = 0 := by
    rw [List.countP_append]
    omega
  rw [List.countP_eq_zero] at hready hrest
  exact ⟨fun x hx => by simpa using hready x hx, fun x hx => by simpa using hrest x hx⟩

theorem TokenOnce.lt_nextId {s : Sys} {before after : Members} {m : Party × Stage} {id : Nat}
    (h : TokenOnce s (before ++ m :: after)) (hm : holds id m = true) : id < s.db.nextId := by
  by_contra hid
  have hzero := h id
  rw [if_neg hid, tokens_split, if_pos hm] at hzero
  omega

def Party.tag? : Party → Option Nat
  | .consumer d => some d.tag
  | _ => none

/-- The tags of the messages handed out, and of the consumers, are used once; a consumer that
has not closed its message still has it unacknowledged. -/
structure TagsUsedOnce (s : Sys) (ms : Members) : Prop where
  unacked : (s.broker.unacked.map Delivery.tag).Nodup
  unacked_lt : ∀ d ∈ s.broker.unacked, d.tag < s.broker.nextTag
  members : ((ms.map Prod.fst).filterMap Party.tag?).Nodup
  members_lt : ∀ tag ∈ (ms.map Prod.fst).filterMap Party.tag?, tag < s.broker.nextTag
  held : ∀ d phase, (Party.consumer d, Stage.consumer phase) ∈ ms → phase ≠ .closed →
    d ∈ s.broker.unacked

theorem tokenOnce_fresh {w : World} (h : w.Fresh) : TokenOnce w.sys [] := by
  intro id
  simp [tokens, h.ready]

section

variable {s s' : Sys} {before after : Members} {party : Party} {stage stage' : Stage}

theorem TagsUsedOnce.tag_ne {d d' : Delivery} {phase : Stage}
    (h : TagsUsedOnce s (before ++ (.consumer d, stage) :: after))
    (hmem : (Party.consumer d', phase) ∈ before ++ after) : d'.tag ≠ d.tag := by
  have hnd := h.members
  simp only [List.map_append, List.map_cons, List.filterMap_append, Party.tag?] at hnd
  have hnotMem := (List.nodup_middle.mp hnd).notMem
  have htag : d'.tag ∈ (before.map Prod.fst).filterMap Party.tag? ++
      (after.map Prod.fst).filterMap Party.tag? := by
    rw [← List.filterMap_append, ← List.map_append]
    exact List.mem_filterMap.mpr ⟨.consumer d', List.mem_map.mpr ⟨_, hmem, rfl⟩, rfl⟩
  intro htags
  exact hnotMem (htags ▸ htag)

private theorem mem_of_mem_append {m : Party × Stage}
    (h : m ∈ before ++ after) : m ∈ before ++ (party, stage) :: after := by
  simp only [List.mem_append, List.mem_cons] at h ⊢
  tauto

private theorem tags_of_same (h : TagsUsedOnce s (before ++ (party, stage) :: after))
    (hunacked : s'.broker.unacked = s.broker.unacked) (htag : s'.broker.nextTag = s.broker.nextTag)
    (hheld : ∀ d phase, party = .consumer d → stage' = .consumer phase → phase ≠ .closed →
      ∃ phase', stage = .consumer phase' ∧ phase' ≠ .closed) :
    TagsUsedOnce s' (before ++ (party, stage') :: after) where
  unacked := by rw [hunacked]; exact h.unacked
  unacked_lt := by rw [hunacked, htag]; exact h.unacked_lt
  members := by simpa using h.members
  members_lt := by rw [htag]; simpa using h.members_lt
  held := by
    intro d phase hmem hphase
    rw [hunacked]
    rw [List.mem_append, List.mem_cons] at hmem
    rcases hmem with hmem | hmem | hmem
    · exact h.held d phase (by simp [hmem]) hphase
    · obtain ⟨rfl, rfl⟩ := Prod.mk.inj hmem
      obtain ⟨phase', rfl, hphase'⟩ := hheld d phase rfl rfl hphase
      exact h.held d phase' (by simp) hphase'
    · exact h.held d phase (by simp [hmem]) hphase

private theorem tags_of_settle {d : Delivery}
    (h : TagsUsedOnce s (before ++ (.consumer d, stage) :: after))
    (hunacked : s'.broker.unacked = s.broker.unacked.filter (fun u => u.tag != d.tag))
    (htag : s'.broker.nextTag = s.broker.nextTag) :
    TagsUsedOnce s' (before ++ (.consumer d, .consumer .closed) :: after) where
  unacked := by
    rw [hunacked]
    exact h.unacked.sublist (List.filter_sublist.map _)
  unacked_lt := by
    rw [hunacked, htag]
    intro u hu
    exact h.unacked_lt u (List.mem_of_mem_filter hu)
  members := by simpa using h.members
  members_lt := by rw [htag]; simpa using h.members_lt
  held := by
    intro d' phase hmem hphase
    rw [hunacked, List.mem_filter]
    have hmem' : (Party.consumer d', Stage.consumer phase) ∈ before ++ after := by
      simp only [List.mem_append, List.mem_cons, Prod.mk.injEq, Stage.consumer.injEq] at hmem ⊢
      tauto
    exact ⟨h.held d' phase (mem_of_mem_append hmem') hphase, by simpa using h.tag_ne hmem'⟩

end

def Unrepeated (_ : World) : World.Label → Prop
  | .requeue => False
  | _ => True

theorem Steady.unrepeated {w : World} {l : World.Label} (h : Steady w l) : Unrepeated w l := by
  cases l with
  | requeue => exact h.elim
  | _ => trivial

theorem tags_inductive_of_unrepeated (cfg : Config) :
    Inductive cfg Unrepeated Anything TagsUsedOnce where
  call := by
    intro w before after party stage stage' c o success s' _ _ _ heffect _ h
    cases heffect with
    | settle hphase => exact tags_of_settle h rfl rfl
    | requeue hphase =>
        split <;> exact tags_of_settle h rfl rfl
    | write hbody hwrites hdb =>
        refine tags_of_same h rfl rfl ?_
        cases hwrites <;> simp
    | writeError hbody hwrites =>
        refine tags_of_same h rfl rfl ?_
        cases hwrites <;> simp
    | republish hbody hrep =>
        refine tags_of_same h rfl rfl ?_
        cases hrep <;> simp
    | republishError hbody hrep =>
        refine tags_of_same h rfl rfl ?_
        cases hrep <;> simp
    | giveUp _ hparty => exact tags_of_same h rfl rfl (by simp)
    | _ => exact tags_of_same h rfl rfl (by simp)
  request := by
    intro w ms t req _ _ _ h
    exact ⟨h.unacked, h.unacked_lt, by simpa [Party.tag?, List.filterMap_cons] using h.members,
      by simpa [Party.tag?] using h.members_lt,
      fun d phase hmem => h.held d phase (by simpa using hmem)⟩
  tick := by
    intro w ms _ _ _ h
    exact ⟨h.unacked, h.unacked_lt, by simpa [Party.tag?, List.filterMap_cons] using h.members,
      by simpa [Party.tag?] using h.members_lt,
      fun d phase hmem => h.held d phase (by simpa using hmem)⟩
  deliver := by
    intro w ms i m _ _ hm _ h
    have hnew : ∀ tags : List Nat, (∀ tag ∈ tags, tag < w.sys.broker.nextTag) → tags.Nodup →
        (tags ++ [w.sys.broker.nextTag]).Nodup := by
      intro tags hlt hnd
      rw [List.nodup_append]
      refine ⟨hnd, by simp, ?_⟩
      intro a ha b hb
      obtain rfl := List.mem_singleton.mp hb
      exact (hlt a ha).ne
    refine ⟨?_, ?_, ?_, ?_, ?_⟩
    · simpa using hnew _ (by simpa using h.unacked_lt) h.unacked
    · intro u hu
      simp only [Sys.deliver_broker_unacked, List.mem_append, List.mem_singleton] at hu
      rcases hu with hu | rfl
      · exact Nat.lt_succ_of_lt (h.unacked_lt u hu)
      · exact Nat.lt_succ_self _
    · simpa [Party.tag?] using hnew _ h.members_lt h.members
    · intro tag htag
      simp only [List.map_append, List.filterMap_append, List.mem_append] at htag
      rcases htag with htag | htag
      · exact Nat.lt_succ_of_lt (h.members_lt tag htag)
      · obtain rfl : tag = w.sys.broker.nextTag := by simpa [Party.tag?, eq_comm] using htag
        exact Nat.lt_succ_self _
    · intro d phase hmem hphase
      simp only [List.mem_append, List.mem_singleton, Prod.mk.injEq, Party.consumer.injEq] at hmem
      simp only [Sys.deliver_broker_unacked, List.mem_append, List.mem_singleton]
      rcases hmem with hmem | ⟨rfl, -⟩
      · exact .inl (h.held d phase hmem hphase)
      · exact .inr rfl
  admin := by
    intro w ms a _ _ _ h
    exact ⟨h.unacked, h.unacked_lt, h.members, h.members_lt, h.held⟩
  clock := by
    intro w ms now _ _ _ _ h
    exact ⟨h.unacked, h.unacked_lt, h.members, h.members_lt, h.held⟩
  crash := by
    intro w before after party stage _ _ _ h
    exact tags_of_same h rfl rfl (by simp)
  requeue := by
    intro w ms d _ hok
    exact hok.elim

theorem tags_inductive (cfg : Config) : Inductive cfg Steady Anything TagsUsedOnce :=
  (tags_inductive_of_unrepeated cfg).mono fun _ _ h => h.unrepeated

theorem tags_fresh {w : World} (h : w.Fresh) : TagsUsedOnce w.sys [] := by
  constructor <;> simp [h.unacked]

structure Tidy (s : Sys) (ms : Members) : Prop where
  owned : OwnedOnce s ms
  token : TokenOnce s ms
  tags : TagsUsedOnce s ms

theorem tidy_inductive (cfg : Config) : Inductive cfg Steady Anything Tidy := by
  have howned : Inductive cfg Steady Anything OwnedOnce :=
    (ownedOnce_inductive cfg).mono fun _ _ _ => trivial
  have htoken := tokenOnce_inductive cfg
  have htags := tags_inductive cfg
  exact {
    call := fun hal hok hs he _ h => ⟨howned.call hal hok hs he trivial h.owned,
      htoken.call hal hok hs he trivial h.token, htags.call hal hok hs he trivial h.tags⟩
    request := fun hal hok _ h => ⟨howned.request hal hok trivial h.owned,
      htoken.request hal hok trivial h.token, htags.request hal hok trivial h.tags⟩
    tick := fun hal hok _ h => ⟨howned.tick hal hok trivial h.owned,
      htoken.tick hal hok trivial h.token, htags.tick hal hok trivial h.tags⟩
    deliver := fun hal hok hm _ h => ⟨howned.deliver hal hok hm trivial h.owned,
      htoken.deliver hal hok hm trivial h.token, htags.deliver hal hok hm trivial h.tags⟩
    admin := fun hal hok _ h => ⟨howned.admin hal hok trivial h.owned,
      htoken.admin hal hok trivial h.token, htags.admin hal hok trivial h.tags⟩
    clock := fun hal hok hle _ h => ⟨howned.clock hal hok hle trivial h.owned,
      htoken.clock hal hok hle trivial h.token, htags.clock hal hok hle trivial h.tags⟩
    crash := fun hal hok _ h => ⟨howned.crash hal hok trivial h.owned,
      htoken.crash hal hok trivial h.token, htags.crash hal hok trivial h.tags⟩
    requeue := fun hal hok hd _ h => ⟨howned.requeue hal hok hd trivial h.owned,
      htoken.requeue hal hok hd trivial h.token, htags.requeue hal hok hd trivial h.tags⟩ }

theorem tidy_fresh {w : World} (h : w.Fresh) : Tidy w.sys [] :=
  ⟨ownedOnce_fresh h, tokenOnce_fresh h, tags_fresh h⟩

end NotificationPlatform
