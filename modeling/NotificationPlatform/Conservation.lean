import NotificationPlatform.Tokens

/-!
# Conservation of deliveries

When nothing fails, a committed delivery either waits in exactly one queue or has reached a final
status. Around each delivery `d` the argument needs three things only: the stamp of its row, the
number of messages that carry it, and what the parties are doing.
-/

namespace NotificationPlatform

open Lib

def DeliveryRow.stamp (row : DeliveryRow) : DeliveryStatus × Bool :=
  (row.status, row.deliveredAt.isSome)

def Db.stamp? (db : Db) (d : Nat) : Option (DeliveryStatus × Bool) :=
  (db.deliveries.get? d).map DeliveryRow.stamp

def Phase.fits : Phase → DeliveryStatus → Prop
  | .received, st | .refused, st | .checked _, st => st = .queued ∨ st = .failed
  | .paused, st => st = .queued
  | .sending, st | .called _, st => st = .sending
  | .stored r, st => st = Worker.resultStatus r
  | .failed, st => st = .failed
  | _, _ => True

/-- What a party does agrees with the stamp of delivery `d` and the messages that carry it. -/
def Fits (d : Nat) (stamp : Option (DeliveryStatus × Bool)) (waiting : Nat) :
    Party × Stage → Prop
  | (.consumer u, .consumer phase) => u.message.carries d = true → phase.live = true →
      ∃ st at?, stamp = some (st, at?) ∧ phase.fits st
  | (.pass _, .adding _ new _ _ _ _ _) => new = d → stamp = some (.queued, false)
  | (.request _ _, .creating _ new tx _ _ _) => (new = d → stamp = none) ∧
      ∀ p ∈ tx.deliveries, p.1 = d → p.2.stamp = (.queued, false) ∧ (0 < waiting ∨ new = d)
  | (.request _ _, .open _ tx _) =>
      ∀ p ∈ tx.deliveries, p.1 = d → p.2.stamp = (.queued, false) ∧ 0 < waiting
  | (.request _ _, .filed tx) => ∀ p ∈ tx.deliveries, p.1 ≠ d
  | _ => True

structure Conserved (d : Nat) (stamp : Option (DeliveryStatus × Bool)) (waiting : Nat)
    (ms : Members) : Prop where
  stamped : ∀ st at?, stamp = some (st, at?) → (at? = true ↔ st = .sent)
  waits : ∀ st at?, stamp = some (st, at?) → 0 < waiting → st = .queued ∨ st = .failed
  spent : ∀ st at?, stamp = some (st, at?) → waiting = 0 → ms.countP (holds d) = 0 →
    st.final = true
  fits : ∀ m ∈ ms, Fits d stamp waiting m

theorem Fits.mono {d waiting waiting' : Nat} {stamp : Option (DeliveryStatus × Bool)}
    {m : Party × Stage} (h : Fits d stamp waiting m) (hle : waiting ≤ waiting') :
    Fits d stamp waiting' m := by
  unfold Fits at h ⊢
  split at h
  · exact h
  · exact h
  · refine ⟨h.1, fun p hp hd => ⟨(h.2 p hp hd).1, ?_⟩⟩
    have := (h.2 p hp hd).2
    omega
  · exact fun p hp hd => ⟨(h p hp hd).1, by have := (h p hp hd).2; omega⟩
  · exact h
  · trivial

theorem Fits.of_not_holds {d waiting : Nat} {stamp stamp' : Option (DeliveryStatus × Bool)}
    {m : Party × Stage} (h : Fits d stamp waiting m) (hholds : holds d m = false) :
    Fits d stamp' waiting m := by
  unfold Fits at h ⊢
  split at h
  · intro hcarries hlive
    simp [hcarries, hlive] at hholds
  · intro hnew
    simp [holds, hnew] at hholds
  · refine ⟨fun hnew => ?_, h.2⟩
    simp [holds, hnew] at hholds
  · exact h
  · exact h
  · trivial

def Idle (d : Nat) (m : Party × Stage) : Prop :=
  holds d m = false ∧ ∀ tx, m.2.tx? = some tx → ∀ p ∈ tx.deliveries, p.1 ≠ d

theorem Idle.fits {d : Nat} {m : Party × Stage} (h : Idle d m)
    (stamp : Option (DeliveryStatus × Bool)) (waiting : Nat) : Fits d stamp waiting m := by
  obtain ⟨hholds, htx⟩ := h
  unfold Fits
  split
  · intro hcarries hlive
    simp [hcarries, hlive] at hholds
  · intro hnew
    simp [holds, hnew] at hholds
  · next tx _ _ _ =>
      refine ⟨fun hnew => ?_, fun p hp hd => absurd hd (htx tx rfl p hp)⟩
      simp [holds, hnew] at hholds
  · next tx _ => exact fun p hp hd => absurd hd (htx tx rfl p hp)
  · next tx => exact htx tx rfl
  · trivial

section

variable {d n n' : Nat} {stamp stamp' : Option (DeliveryStatus × Bool)}
  {before after : Members} {m m' : Party × Stage}

private theorem countP_split (d : Nat) (before after : Members) (m : Party × Stage) :
    (before ++ m :: after).countP (holds d) =
      before.countP (holds d) + after.countP (holds d) + if holds d m then 1 else 0 := by
  simp only [List.countP_append, List.countP_cons]
  omega

theorem Conserved.replace (h : Conserved d stamp n (before ++ m :: after))
    (hfits : Fits d stamp n m')
    (hspent : holds d m = true → holds d m' = false →
      ∀ st at?, stamp = some (st, at?) → st.final = true) :
    Conserved d stamp n (before ++ m' :: after) where
  stamped := h.stamped
  waits := h.waits
  spent := by
    intro st at? hst hn hcount
    rw [countP_split] at hcount
    by_cases hm' : holds d m' = true
    · rw [if_pos hm'] at hcount
      omega
    · rw [if_neg hm'] at hcount
      by_cases hm : holds d m = true
      · exact hspent hm (by simpa using hm') st at? hst
      · refine h.spent st at? hst hn ?_
        rw [countP_split, if_neg hm]
        exact hcount
  fits := by
    intro x hx
    rw [List.mem_append, List.mem_cons] at hx
    rcases hx with hx | rfl | hx
    · exact h.fits x (by simp [hx])
    · exact hfits
    · exact h.fits x (by simp [hx])

theorem Conserved.keep (h : Conserved d stamp n (before ++ m :: after))
    (hfits : Fits d stamp n m → Fits d stamp n m') (hholds : holds d m' = holds d m) :
    Conserved d stamp n (before ++ m' :: after) :=
  h.replace (hfits (h.fits m (by simp))) fun hm hm' => by simp [← hholds, hm'] at hm

theorem Conserved.more (h : Conserved d stamp n (before ++ m :: after)) (hn : n < n')
    (hfits : Fits d stamp n' m')
    (hwaits : ∀ st at?, stamp = some (st, at?) → st = .queued ∨ st = .failed) :
    Conserved d stamp n' (before ++ m' :: after) where
  stamped := h.stamped
  waits := fun st at? hst _ => hwaits st at? hst
  spent := by
    intro st at? hst hzero
    omega
  fits := by
    intro x hx
    rw [List.mem_append, List.mem_cons] at hx
    rcases hx with hx | rfl | hx
    · exact (h.fits x (by simp [hx])).mono hn.le
    · exact hfits
    · exact (h.fits x (by simp [hx])).mono hn.le

theorem Conserved.sole (hidle : ∀ x ∈ before ++ after, Idle d x) (hfits : Fits d stamp n m')
    (hstamped : ∀ st at?, stamp = some (st, at?) → (at? = true ↔ st = .sent))
    (hwaits : ∀ st at?, stamp = some (st, at?) → 0 < n → st = .queued ∨ st = .failed)
    (hspent : holds d m' = false → n = 0 → ∀ st at?, stamp = some (st, at?) → st.final = true) :
    Conserved d stamp n (before ++ m' :: after) where
  stamped := hstamped
  waits := hwaits
  spent := by
    intro st at? hst hn hcount
    rw [countP_split] at hcount
    refine hspent ?_ hn st at? hst
    by_contra hm'
    rw [if_pos (by simpa using hm')] at hcount
    omega
  fits := by
    intro x hx
    rw [List.mem_append, List.mem_cons] at hx
    rcases hx with hx | rfl | hx
    · exact (hidle x (by simp [hx])).fits stamp n
    · exact hfits
    · exact (hidle x (by simp [hx])).fits stamp n

end

def Sys.waiting (s : Sys) (d : Nat) : Nat := s.broker.ready.countP (Message.carries d)

def AllConserved (s : Sys) (ms : Members) : Prop :=
  ∀ d, Conserved d (s.db.stamp? d) (s.waiting d) ms

theorem idle_of_holds {s : Sys} {before after : Members} {m : Party × Stage} {d : Nat}
    {row : DeliveryRow} (htoken : TokenOnce s (before ++ m :: after))
    (howned : OwnedOnce s (before ++ m :: after)) (hm : holds d m = true)
    (hrow : s.db.deliveries.get? d = some row) :
    s.waiting d = 0 ∧ ∀ x ∈ before ++ after, Idle d x := by
  obtain ⟨hready, hothers⟩ := htoken.sole hm
  refine ⟨?_, fun x hx => ⟨hothers x hx, ?_⟩⟩
  · rw [Sys.waiting, List.countP_eq_zero]
    exact fun x hx => by simp [hready x hx]
  · intro tx htx p hp hd
    have hx' : x ∈ before ++ m :: after := by
      simp only [List.mem_append, List.mem_cons] at hx ⊢
      tauto
    have hnone := howned.get?_eq_none hx' htx hp
    rw [hd, hrow] at hnone
    simp at hnone

theorem stamp?_update_ne {db db' : Db} {id d : Nat} {f : DeliveryRow → Option DeliveryRow}
    (h : db.updateDelivery id f = .ok db') (hd : d ≠ id) : db'.stamp? d = db.stamp? d := by
  rcases Db.updateDelivery_cases h with ⟨-, rfl⟩ | ⟨row, row', -, -, rfl⟩
  · rfl
  · simp [Db.stamp?, Table.get?_modify_ne _ _ hd]

private theorem Writes.conserves {u : Delivery} {job : Job} {now : Nat}
    {phase onOk onError : Phase} {c : Call} {f : DeliveryRow → Option DeliveryRow}
    (h : Writes cfg u job now phase c f onOk onError) {row row' : DeliveryRow}
    (hf : f row = some row') (hlive : phase.live = true) (hfits : phase.fits row.status)
    (hstamped : row.deliveredAt.isSome = true ↔ row.status = .sent) :
    (row'.deliveredAt.isSome = true ↔ row'.status = .sent) ∧
      onOk.fits row'.status ∧ (onOk.live = false → row'.status.final = true) := by
  cases h with
  | paused =>
      obtain ⟨response, -, rfl⟩ := Option.map_eq_some_iff.mp hf
      rcases hfits with h | h <;> simp_all [Phase.fits, Phase.live]
  | blocked =>
      obtain ⟨response, -, rfl⟩ := Option.map_eq_some_iff.mp hf
      rcases hfits with h | h <;> simp_all [Phase.fits, Phase.live, DeliveryStatus.final]
  | sending =>
      obtain rfl := Option.some.inj hf
      rcases hfits with h | h <;> simp_all [Phase.fits, Phase.live]
  | result r =>
      obtain rfl := Option.some.inj hf
      simp only [Phase.live, Phase.fits]
      split <;> simp_all
  | retryCount => simp at hlive
  | dead _ =>
      obtain ⟨response, -, rfl⟩ := Option.map_eq_some_iff.mp hf
      rcases hfits with h | h <;> simp_all [Phase.fits, Phase.live, DeliveryStatus.final]

theorem Writes.stamp_eq {u : Delivery} {job : Job} {now : Nat} {phase onOk onError : Phase}
    {c : Call} {f : DeliveryRow → Option DeliveryRow}
    (h : Writes cfg u job now phase c f onOk onError) (hlive : phase.live = false)
    {row row' : DeliveryRow} (hf : f row = some row') : row'.stamp = row.stamp := by
  cases h with
  | retryCount =>
      obtain ⟨response, -, rfl⟩ := Option.map_eq_some_iff.mp hf
      rfl
  | _ => simp [Phase.live] at hlive

theorem stamp?_update_same {db db' : Db} {id : Nat} {f : DeliveryRow → Option DeliveryRow}
    (h : db.updateDelivery id f = .ok db')
    (hf : ∀ row row', f row = some row' → row'.stamp = row.stamp) :
    db'.stamp? id = db.stamp? id := by
  rcases Db.updateDelivery_cases h with ⟨-, rfl⟩ | ⟨row, row', hrow, hrow', rfl⟩
  · rfl
  · simp [Db.stamp?, hrow, hf row row' hrow']

def Stmt.answersFreely : Stmt → Bool
  | .selectTenantStatus _ | .selectFeature _ _ | .selectChannelConfig _ _ | .allow _ _
  | .providerSend _ => true
  | _ => false

/-- The row of the job a message carries has been committed. -/
def Message.committed (db : Db) (m : Message) : Bool :=
  match m.body with
  | some job => (db.deliveries.get? job.deliveryID).isSome
  | none => true

/-- Every statement, publication and acknowledgement succeeds, no process crashes, each message
is handed out once, and a job is consumed only after its row has been committed. -/
def Clean (cfg : Config) (w : World) : World.Label → Prop
  | .call party c o => c.stmt.answersFreely = true ∨ w.sys.succeeds cfg party c o = true
  | .deliver m => m.committed w.sys.db = true
  | .crash _ | .requeue => False
  | _ => True

instance (cfg : Config) (w : World) : (l : World.Label) → Decidable (Clean cfg w l)
  | .call party c o => inferInstanceAs
      (Decidable (c.stmt.answersFreely = true ∨ w.sys.succeeds cfg party c o = true))
  | .deliver m => inferInstanceAs (Decidable (m.committed w.sys.db = true))
  | .crash _ | .requeue => inferInstanceAs (Decidable False)
  | .request _ _ | .tick | .admin _ | .clock | .none => inferInstanceAs (Decidable True)

theorem Clean.steady {cfg : Config} {w : World} {l : World.Label} (h : Clean cfg w l) :
    Steady w l := by
  cases l with
  | crash _ => exact h.elim
  | requeue => exact h.elim
  | _ => trivial

theorem Clean.succeeds {cfg : Config} {w : World} {party : Party} {c : Call} {o : Outcome}
    (h : Clean cfg w (.call party c o)) (hc : c.stmt.answersFreely = false) :
    w.sys.succeeds cfg party c o = true :=
  h.resolve_left (by simp [hc])

theorem waiting_addPublication (s : Sys) (party : Party) (q : Queue) (job : Job) (d : Nat) :
    (s.addPublication party q job).waiting d =
      s.waiting d + if job.deliveryID = d then 1 else 0 := by
  simp [Sys.waiting, List.countP_append, List.countP_singleton]

section

variable {d n : Nat} {stamp : Option (DeliveryStatus × Bool)} {before after ms : Members}

private theorem Conserved.other {u : Delivery} {phase phase' : Phase}
    (h : Conserved d stamp n (before ++ (.consumer u, .consumer phase) :: after))
    (hcarries : u.message.carries d = false) :
    Conserved d stamp n (before ++ (.consumer u, .consumer phase') :: after) :=
  h.replace (by intro hc; simp [hcarries] at hc) (by simp [hcarries])

private theorem Conserved.advance {u : Delivery} {phase phase' : Phase}
    (h : Conserved d stamp n (before ++ (.consumer u, .consumer phase) :: after))
    (hlive : phase'.live = true → phase.live = true)
    (hfits : ∀ st, phase.live = true → phase.fits st →
      (phase'.live = true → phase'.fits st) ∧ (phase'.live = false → st.final = true)) :
    Conserved d stamp n (before ++ (.consumer u, .consumer phase') :: after) := by
  have hold := h.fits (.consumer u, .consumer phase) (by simp)
  refine h.replace ?_ ?_
  · intro hcarries hphase'
    obtain ⟨st, at?, hst, hfit⟩ := hold hcarries (hlive hphase')
    exact ⟨st, at?, hst, (hfits st (hlive hphase') hfit).1 hphase'⟩
  · intro hm hm' st at? hst
    simp only [holds_consumer, Bool.and_eq_true] at hm
    obtain ⟨st', at?', hst', hfit⟩ := hold hm.1 hm.2
    obtain ⟨rfl, rfl⟩ : st' = st ∧ at?' = at? := by simpa [hst] using hst'.symm
    refine (hfits st' hm.2 hfit).2 ?_
    simpa [hm.1] using hm'

private theorem Conserved.pass {u : Delivery} {phase phase' : Phase}
    (h : Conserved d stamp n (before ++ (.consumer u, .consumer phase) :: after))
    (hcarries : u.message.carries d = true) (hlive : phase.live = true)
    (hlive' : phase'.live = false)
    (hfits : ∀ st, phase.fits st → st = .queued ∨ st = .failed) :
    Conserved d stamp (n + 1) (before ++ (.consumer u, .consumer phase') :: after) := by
  refine h.more (Nat.lt_succ_self n) ?_ ?_
  · intro _ hphase'
    simp [hlive'] at hphase'
  · intro st at? hst
    obtain ⟨st', at?', hst', hfit⟩ :=
      h.fits (.consumer u, .consumer phase) (by simp) hcarries hlive
    obtain ⟨rfl, rfl⟩ : st' = st ∧ at?' = at? := by simpa [hst] using hst'.symm
    exact hfits st' hfit

private theorem Conserved.append {m : Party × Stage} (h : Conserved d stamp n ms)
    (hfits : Fits d stamp n m) (hm : holds d m = false) : Conserved d stamp n (ms ++ [m]) where
  stamped := h.stamped
  waits := h.waits
  spent := by
    intro st at? hst hn hcount
    refine h.spent st at? hst hn ?_
    simpa [List.countP_append, hm] using hcount
  fits := by
    intro x hx
    rcases List.mem_append.mp hx with hx | hx
    · exact h.fits x hx
    · obtain rfl := List.mem_singleton.mp hx
      exact hfits

end

section

variable {s : Sys} {before after : Members} {u : Delivery} {job : Job} {d : Nat}

private theorem write_conserved {phase onOk onError : Phase} {c : Call}
    {f : DeliveryRow → Option DeliveryRow} {db : Db}
    (hK : Tidy s (before ++ (.consumer u, .consumer phase) :: after))
    (h : AllConserved s (before ++ (.consumer u, .consumer phase) :: after))
    (hbody : u.message.body = some job)
    (hwrites : Writes cfg u job s.db.now phase c f onOk onError)
    (hdb : s.db.updateDelivery job.deliveryID f = .ok db) :
    Conserved d (db.stamp? d) (s.waiting d) (before ++ (.consumer u, .consumer onOk) :: after) := by
  by_cases hd : d = job.deliveryID
  · subst hd
    have hcarries : u.message.carries job.deliveryID = true := by
      simp [carries_of_body hbody]
    cases hlive : phase.live with
    | true =>
        have hholds : holds job.deliveryID (.consumer u, .consumer phase) = true := by
          simp [hcarries, hlive]
        obtain ⟨st, at?, hst, hfits⟩ :=
          (h job.deliveryID).fits (.consumer u, .consumer phase) (by simp) hcarries hlive
        obtain ⟨row, hrow, hstamp⟩ := Option.map_eq_some_iff.mp hst
        obtain ⟨rfl, rfl⟩ := Prod.mk.inj hstamp
        obtain ⟨hwaiting, hidle⟩ := idle_of_holds hK.token hK.owned hholds hrow
        rcases Db.updateDelivery_cases hdb with ⟨hnone, -⟩ | ⟨row₀, row', hrow₀, hf, rfl⟩
        · simp [hrow] at hnone
        obtain rfl : row₀ = row := by simpa [hrow] using hrow₀.symm
        obtain ⟨hstamped, hfits', hfinal⟩ :=
          hwrites.conserves hf hlive hfits ((h _).stamped _ _ hst)
        have hstamp' : Db.stamp? { s.db with
            deliveries := s.db.deliveries.modify job.deliveryID (fun _ => row') }
            job.deliveryID = some row'.stamp := by
          simp [Db.stamp?, hrow]
        rw [hstamp', hwaiting]
        refine Conserved.sole hidle ?_ ?_ ?_ ?_
        · exact fun _ _ => ⟨_, _, rfl, hfits'⟩
        · rintro _ _ ⟨⟩
          exact hstamped
        · intro _ _ _ hpos
          exact absurd hpos (lt_irrefl _)
        · rintro hm' - _ _ ⟨⟩
          exact hfinal (by simpa [hcarries] using hm')
    | false =>
        rw [stamp?_update_same hdb fun _ _ hf => hwrites.stamp_eq hlive hf]
        exact (h _).advance hwrites.live.1 (by simp [hlive])
  · rw [stamp?_update_ne hdb hd]
    exact (h d).other (by simp [carries_of_body hbody, Ne.symm hd])

end

private theorem commit_conserved {s : Sys} {before after : Members} {t : String} {req : Request}
    {stage : Stage} {tx : Tx} {d : Nat}
    (hK : Tidy s (before ++ (.request t req, stage) :: after))
    (h : AllConserved s (before ++ (.request t req, stage) :: after))
    (hstage : (∃ n, stage = .open n tx []) ∨ stage = .filed tx) :
    Conserved d ((s.db.commit tx).stamp? d) (s.waiting d)
      (before ++ (.request t req, .over) :: after) := by
  have htx : stage.tx? = some tx := by
    rcases hstage with ⟨n, rfl⟩ | rfl <;> rfl
  have hholds : holds d (.request t req, stage) = false := by
    rcases hstage with ⟨n, rfl⟩ | rfl <;> rfl
  have hfits := (h d).fits (.request t req, stage) (by simp)
  by_cases hmem : ∃ p ∈ tx.deliveries, p.1 = d
  · obtain ⟨p, hp, rfl⟩ := hmem
    obtain ⟨hqueued, hpos⟩ : p.2.stamp = (.queued, false) ∧ 0 < s.waiting p.1 := by
      rcases hstage with ⟨n, rfl⟩ | rfl
      · exact hfits p hp rfl
      · exact absurd rfl (hfits p hp)
    have hstamp : (s.db.commit tx).stamp? p.1 = some (.queued, false) := by
      rw [Db.stamp?, hK.owned.get?_commit_of_mem htx hp, Option.map_some, hqueued]
    -- its message is waiting, so nobody holds the token
    have hnone : ∀ x ∈ before ++ (.request t req, stage) :: after, holds p.1 x = false := by
      have hbound := hK.token.le_one p.1
      have hzero : (before ++ (.request t req, stage) :: after).countP (holds p.1) = 0 := by
        rw [tokens] at hbound
        rw [Sys.waiting] at hpos
        omega
      rw [List.countP_eq_zero] at hzero
      intro x hx
      simpa using hzero x hx
    rw [hstamp]
    constructor
    · rintro _ _ ⟨⟩
      simp
    · rintro _ _ ⟨⟩ _
      exact .inl rfl
    · intro _ _ _ hzero
      omega
    · intro x hx
      rw [List.mem_append, List.mem_cons] at hx
      rcases hx with hx | rfl | hx
      · exact ((h p.1).fits x (by simp [hx])).of_not_holds (hnone x (by simp [hx]))
      · trivial
      · exact ((h p.1).fits x (by simp [hx])).of_not_holds (hnone x (by simp [hx]))
  · have hne : ∀ p ∈ tx.deliveries, p.1 ≠ d := fun p hp hpd => hmem ⟨p, hp, hpd⟩
    rw [Db.stamp?, hK.owned.get?_commit_of_ne htx hne]
    exact (h d).replace trivial (by simp [hholds])

private theorem insertDelivery_conserved {s : Sys} {before after : Members} {id : Nat}
    {row : DueRow} {done todo : List String} {channel : String} {rest : List DueRow} {d : Nat}
    {new : DeliveryRow}
    (hK : Tidy s (before ++ (.pass id, .routing row done (channel :: todo) rest) :: after))
    (h : AllConserved s (before ++ (.pass id, .routing row done (channel :: todo) rest) :: after))
    (hnew : new = Db.newDelivery row.tenantID row.notificationID channel (.obj [])) :
    Conserved d ((s.db.insertDelivery new).stamp? d) (s.waiting d)
      (before ++ (.pass id, .adding row s.db.nextId done channel todo rest false) :: after) := by
  have hnone := hK.owned.get?_nextId
  by_cases hd : d = s.db.nextId
  · subst hd
    have hstamp : (s.db.insertDelivery new).stamp? s.db.nextId = some (.queued, false) := by
      rw [Db.stamp?, Db.insertDelivery_deliveries, Table.get?_insert_self hnone, hnew]
      rfl
    have hnot : ∀ x ∈ before ++ (.pass id, .routing row done (channel :: todo) rest) :: after,
        holds s.db.nextId x = false := by
      have hbound := hK.token s.db.nextId
      rw [if_neg (lt_irrefl _), tokens, Nat.le_zero, Nat.add_eq_zero_iff,
        List.countP_eq_zero, List.countP_eq_zero] at hbound
      intro x hx
      simpa using hbound.2 x hx
    rw [hstamp]
    constructor
    · rintro _ _ ⟨⟩
      simp
    · rintro _ _ ⟨⟩ _
      exact .inl rfl
    · intro _ _ _ _ hcount
      rw [countP_split, if_pos (by simp [holds])] at hcount
      omega
    · intro x hx
      rw [List.mem_append, List.mem_cons] at hx
      rcases hx with hx | rfl | hx
      · exact ((h _).fits x (by simp [hx])).of_not_holds (hnot x (by simp [hx]))
      · exact fun _ => rfl
      · exact ((h _).fits x (by simp [hx])).of_not_holds (hnot x (by simp [hx]))
  · rw [Db.stamp?, Db.insertDelivery_deliveries, Table.get?_insert_ne _ _ hd]
    exact (h d).replace (fun hnextId => absurd hnextId.symm hd) (by simp [holds])

theorem conserved_inductive (cfg : Config) :
    Inductive cfg (Clean cfg) Tidy AllConserved where
  call := by
    intro w before after party stage stage' c o success s' _ hok hsuccess heffect hK h d
    cases heffect with
    | getControl _ _ hget =>
        obtain ⟨controls, next, rfl, -⟩ := Db.getControl_cases hget
        exact (h d).advance (fun _ => rfl) (fun st _ hfits => ⟨fun _ => hfits, by simp [Phase.live]⟩)
    | getControlError => simp [hok.succeeds rfl] at hsuccess
    | write hbody hwrites hdb =>
        have hwrite : Conserved d _ (w.sys.waiting d) _ := write_conserved hK h hbody hwrites hdb
        exact hwrite
    | writeError hbody hwrites =>
        have hsucc := hok.succeeds (by cases hwrites <;> rfl)
        simp [hsucc] at hsuccess
    | providerSend result _ =>
        exact (h d).advance (fun _ => rfl) (fun st _ hfits => ⟨fun _ => hfits, by simp [Phase.live]⟩)
    | @insertAttempt u job result db _ hdb =>
        obtain ⟨-, attempts, rfl⟩ := Db.insertAttempt_cases hdb
        refine (h d).advance (fun _ => rfl) (fun st _ hfits => ?_)
        obtain rfl := hfits
        cases result with
        | error e => exact ⟨fun _ => rfl, by simp [Except.isOk, Except.toBool, Phase.live]⟩
        | ok r => exact ⟨by simp [Except.isOk, Except.toBool, Phase.live], fun _ => rfl⟩
    | insertAttemptError _ => simp [hok.succeeds rfl] at hsuccess
    | @republish u job job' phase _ q hbody hrep =>
        obtain ⟨hlive, hid⟩ := hrep.live
        have hstamp : (w.sys.addPublication (.consumer u) q job').db.stamp? d =
          w.sys.db.stamp? d := rfl
        rw [hstamp, waiting_addPublication, hid]
        have hcarries := carries_of_body hbody d
        split
        · next hd =>
            refine (h d).pass (by simp [hcarries, hd]) hlive rfl ?_
            cases hrep with
            | retry => exact fun st hfits => .inr hfits
            | dead _ _ => exact fun st hfits => hfits
            | again _ _ => exact fun st hfits => hfits
        · next hd => exact (h d).other (by simp [hcarries, hd])
    | republishError hbody hrep =>
        have hsucc := hok.succeeds (by cases hrep <;> rfl)
        simp [hsucc] at hsuccess
    | @settle u phase _ hphase =>
        rcases hphase with rfl | rfl | rfl | ⟨rfl, hbody⟩
        · exact (h d).advance (by simp) (by simp [Phase.live])
        · exact (h d).advance (by simp) (by simp [Phase.live])
        · exact (h d).advance (by simp) (by simp [Phase.live])
        · exact (h d).other (by simp [Message.carries, hbody])
    | @requeue u phase hphase =>
        have hlive : phase.live = true := by rcases hphase with rfl | rfl <;> rfl
        have hopen : phase ≠ .closed := by rcases hphase with rfl | rfl <;> simp
        have hknows : w.sys.knows u = true := by
          rw [Sys.knows, List.any_eq_true]
          exact ⟨u, hK.tags.held u phase (by simp) hopen, by simp⟩
        rw [if_pos hknows]
        have hwaiting : (w.sys.requeue u).waiting d =
            w.sys.waiting d + if u.message.carries d then 1 else 0 := by
          simp [Sys.waiting, List.countP_append, List.countP_singleton]
        rw [hwaiting]
        split
        · next hcarries =>
            refine (h d).pass hcarries hlive rfl ?_
            rcases hphase with rfl | rfl
            · exact fun st hfits => hfits
            · exact fun st hfits => .inl hfits
        · next hcarries => exact (h d).other (by simpa using hcarries)
    | settleError _ hstmt =>
        have hsucc := hok.succeeds (by
          rcases hstmt with hstmt | ⟨again, hstmt⟩ <;> rw [hstmt] <;> rfl)
        simp [hsucc] at hsuccess
    | insertNotification _ =>
        exact (h d).replace (by simp [Fits]) (by simp [holds])
    | insertScheduledJob hempty =>
        exact (h d).replace (by simp [Fits, hempty]) (by simp [holds])
    | @insertTxDelivery t channel req n i tx target todo =>
        refine (h d).replace ⟨?_, ?_⟩ (by simp [holds])
        · rintro rfl
          simp [Db.stamp?, hK.owned.get?_nextId]
        · intro p hp hd
          have hold := (h d).fits (.request t req, .open n tx (channel :: todo)) (by simp)
          rcases List.mem_append.mp hp with hp | hp
          · exact ⟨(hold p hp hd).1, .inl (hold p hp hd).2⟩
          · obtain rfl := List.mem_singleton.mp hp
            exact ⟨rfl, .inr hd⟩
    | sendEnsureControl hensure =>
        obtain ⟨controls, next, rfl, -⟩ := Db.ensureControl_cases hensure
        exact (h d).keep (fun hfits => hfits) rfl
    | @sendPublish t channel queueName req n i id tx todo job hjob =>
        have hid : job.deliveryID = id := by rw [hjob]; rfl
        have hold := (h d).fits (.request t req, .creating n id tx channel todo true) (by simp)
        have hstamp : (w.sys.addPublication (.request t req) (Notifications.channelQueue channel)
          job).db.stamp? d = w.sys.db.stamp? d := rfl
        rw [hstamp, waiting_addPublication, hid]
        split
        · next hd =>
            refine (h d).more (Nat.lt_succ_self _) ?_ (by simp [hold.1 hd])
            exact fun p hp hpd => ⟨(hold.2 p hp hpd).1, Nat.succ_pos _⟩
        · next hd =>
            refine (h d).keep (fun _ p hp hpd => ?_) (by simp [holds, hd])
            exact ⟨(hold.2 p hp hpd).1, (hold.2 p hp hpd).2.resolve_right hd⟩
    | commit hstage => exact commit_conserved hK h hstage
    | insertDelivery hnew => exact insertDelivery_conserved hK h hnew
    | routeEnsureControl hensure =>
        obtain ⟨controls, next, rfl, -⟩ := Db.ensureControl_cases hensure
        exact (h d).keep (fun hfits => hfits) rfl
    | @routePublish id new row done todo channel queueName rest job hjob =>
        have hid : job.deliveryID = new := by rw [hjob]; rfl
        have hold := (h d).fits (.pass id, .adding row new done channel todo rest true) (by simp)
        have hstamp : (w.sys.addPublication (.pass id) (Notifications.channelQueue channel)
          job).db.stamp? d = w.sys.db.stamp? d := rfl
        rw [hstamp, waiting_addPublication, hid]
        split
        · next hd =>
            refine (h d).more (Nat.lt_succ_self _) trivial ?_
            intro st at? hst
            rw [hold hd] at hst
            exact .inl (by simpa using congrArg Prod.fst (Option.some.inj hst.symm))
        · next hd => exact (h d).keep (fun _ => trivial) (by simp [holds, hd])
    | giveUp hallowed hparty =>
        by_cases hfree : c.stmt.answersFreely = true
        · cases hallowed with
          | selectTenantStatus => exact (h d).keep (fun _ => trivial) rfl
          | selectFeature _ => exact (h d).keep (fun _ => trivial) rfl
          | selectChannelConfig _ => exact (h d).keep (fun _ => trivial) rfl
          | allow => exact (h d).keep (fun _ => trivial) rfl
          | providerSend _ => exact absurd rfl (hparty _)
          | _ => simp [Stmt.answersFreely] at hfree
        · simp [hok.succeeds (by simpa using hfree)] at hsuccess
    | _ => exact (h d).replace trivial (by simp [holds])
  request := by
    intro w ms t req _ _ _ h d
    exact (h d).append trivial rfl
  tick := by
    intro w ms _ _ _ h d
    exact (h d).append trivial rfl
  deliver := by
    intro w ms i m _ hok hm hK h d
    have hstamp : (w.sys.deliver i ⟨w.sys.broker.nextTag, m⟩).db.stamp? d = w.sys.db.stamp? d :=
      rfl
    have hwaiting : (w.sys.deliver i ⟨w.sys.broker.nextTag, m⟩).waiting d +
        (if m.carries d then 1 else 0) = w.sys.waiting d := countP_deliver hm _
    rw [hstamp]
    by_cases hcarries : m.carries d = true
    · rw [if_pos hcarries] at hwaiting
      obtain ⟨job, hbody, rfl⟩ : ∃ job, m.body = some job ∧ job.deliveryID = d := by
        unfold Message.carries at hcarries
        split at hcarries
        · next job hbody => exact ⟨job, hbody, by simpa using hcarries⟩
        · simp at hcarries
      have hcommitted : m.committed w.sys.db = true := hok
      rw [Message.committed, hbody] at hcommitted
      obtain ⟨row, hrow⟩ := Option.isSome_iff_exists.mp hcommitted
      have hst : w.sys.db.stamp? job.deliveryID = some row.stamp := by
        rw [Db.stamp?, hrow, Option.map_some]
      have hbound := hK.token.le_one job.deliveryID
      rw [tokens, ← Sys.waiting] at hbound
      have hnone : ms.countP (holds job.deliveryID) = 0 := by omega
      have hzero : (w.sys.deliver i ⟨w.sys.broker.nextTag, m⟩).waiting job.deliveryID = 0 := by
        omega
      rw [hzero]
      refine Conserved.sole (fun x hx => ⟨?_, ?_⟩) ?_ (h _).stamped ?_ ?_
      · rw [List.countP_eq_zero] at hnone
        simpa using hnone x (by simpa using hx)
      · intro tx htx p hp hpd
        have hp' := hK.owned.get?_eq_none (by simpa using hx) htx hp
        simp [hpd, hrow] at hp'
      · exact fun _ _ => ⟨_, _, hst, (h _).waits _ _ hst (by omega)⟩
      · intro _ _ _ hpos
        exact absurd hpos (lt_irrefl _)
      · intro hm'
        simp [hcarries, Phase.live] at hm'
    · rw [if_neg hcarries, Nat.add_zero] at hwaiting
      rw [hwaiting]
      refine (h d).append ?_ (by simp [hcarries])
      exact fun hc => absurd hc hcarries
  admin := by
    intro w ms a _ _ _ h d
    cases a <;> exact h d
  clock := by
    intro w ms now _ _ _ _ h
    exact h
  crash := by
    intro w before after party stage _ hok
    exact hok.elim
  requeue := by
    intro w ms d _ hok
    exact hok.elim

theorem conserved_fresh {w : World} (h : w.Fresh) : AllConserved w.sys [] := by
  intro d
  constructor <;> simp [Db.stamp?, h.deliveries]

def Ended (d : Nat) (stamp : DeliveryStatus × Bool) (s : Sys) (ms : Members) : Prop :=
  tokens d s ms = 0 ∧ d < s.db.nextId ∧ s.db.stamp? d = some stamp

private theorem holds_eq_false {s : Sys} {before after : Members} {m : Party × Stage} {d : Nat}
    (h : tokens d s (before ++ m :: after) = 0) : holds d m = false := by
  rw [tokens_split] at h
  by_contra hm
  rw [if_pos (by simpa using hm)] at h
  omega

theorem Effect.stamp?_of_idle {cfg : Config} {s s' : Sys} {party : Party} {stage stage' : Stage}
    {c : Call} {success : Bool} {d : Nat} {stamp : DeliveryStatus × Bool}
    (h : Effect cfg s party stage c success stage' s')
    (hidle : ∀ u phase, party = .consumer u → stage = .consumer phase →
      u.message.carries d = true → phase.live = false)
    (hstamp : s.db.stamp? d = some stamp) : s'.db.stamp? d = some stamp := by
  obtain ⟨row, hrow, rfl⟩ := Option.map_eq_some_iff.mp hstamp
  cases h with
  | getControl _ _ hget =>
      obtain ⟨controls, next, rfl, -⟩ := Db.getControl_cases hget
      exact hstamp
  | @write u job phase _ _ _ _ _ hbody hwrites hdb =>
      rw [← hstamp]
      by_cases hd : d = job.deliveryID
      · subst hd
        have hlive := hidle u phase rfl rfl (by simp [carries_of_body hbody])
        exact stamp?_update_same hdb fun _ _ hf => hwrites.stamp_eq hlive hf
      · exact stamp?_update_ne hdb hd
  | insertAttempt _ hdb =>
      obtain ⟨-, attempts, rfl⟩ := Db.insertAttempt_cases hdb
      exact hstamp
  | requeue _ => split <;> exact hstamp
  | sendEnsureControl hensure =>
      obtain ⟨controls, next, rfl, -⟩ := Db.ensureControl_cases hensure
      exact hstamp
  | routeEnsureControl hensure =>
      obtain ⟨controls, next, rfl, -⟩ := Db.ensureControl_cases hensure
      exact hstamp
  | commit _ =>
      rw [Db.stamp?, Db.commit_deliveries, Table.get?_insertAll_of_some hrow, Option.map_some]
  | insertDelivery _ =>
      rw [Db.stamp?, Db.insertDelivery_deliveries, Table.get?_insert_of_some hrow,
        Option.map_some]
  | _ => exact hstamp

theorem ended_inductive (cfg : Config) (d : Nat) (stamp : DeliveryStatus × Bool) :
    Inductive cfg Steady Anything (Ended d stamp) where
  call := by
    intro w before after party stage stage' c o success s' _ _ _ heffect _ ⟨hzero, hlt, hstamp⟩
    have hle := heffect.tokens_le before after d
    refine ⟨by omega, hlt.trans_le heffect.nextId_le, heffect.stamp?_of_idle ?_ hstamp⟩
    rintro u phase rfl rfl hcarries
    have hholds := holds_eq_false hzero
    simpa [hcarries] using hholds
  request := by
    intro w ms t req _ _ _ ⟨hzero, hlt, hstamp⟩
    exact ⟨by simpa [tokens, holds] using hzero, hlt, hstamp⟩
  tick := by
    intro w ms _ _ _ ⟨hzero, hlt, hstamp⟩
    exact ⟨by simpa [tokens, holds] using hzero, hlt, hstamp⟩
  deliver := by
    intro w ms i m _ _ hm _ ⟨hzero, hlt, hstamp⟩
    refine ⟨?_, hlt, hstamp⟩
    have hcount := countP_deliver hm (Message.carries d)
    simp only [tokens, List.countP_append, List.countP_singleton, holds_consumer,
      Sys.deliver_broker_ready, Phase.live, Bool.and_true] at hzero ⊢
    omega
  admin := by
    intro w ms a _ _ _ ⟨hzero, hlt, hstamp⟩
    refine ⟨hzero, ?_, ?_⟩ <;> cases a <;> assumption
  clock := by
    intro w ms now _ _ _ _ h
    exact h
  crash := by
    intro w before after party stage _ _ _ ⟨hzero, hlt, hstamp⟩
    have hle := tokens_over_le d w.sys before after party stage
    exact ⟨by omega, hlt, hstamp⟩
  requeue := by
    intro w ms d _ hok
    exact hok.elim

def publishesNext (d : Nat) (p : Code Unit) : Prop :=
  ∃ site q job k, p = .call ⟨site, .publish q job⟩ k ∧ job.deliveryID = d

/-- The thread has inserted delivery `d` and goes on to publish its job. -/
def Thread.creates (d : Nat) (th : Thread) : Prop :=
  publishesNext d th.prog ∨ ∃ site t channel k,
    th.prog = .call ⟨site, .ensureControl t channel⟩ k ∧
      ∀ control, publishesNext d (k (.ok control))

def World.creating (w : World) (d : Nat) : Prop := ∃ th ∈ w.threads, th.creates d

/-- The job of delivery `d` is being handled: a consumer has it and has not settled it. -/
def World.handling (w : World) (d : Nat) : Prop :=
  ∃ u ∈ w.sys.broker.unacked, u.message.carries d = true

private theorem publishesNext_of_adding {cfg : Config} {id new : Nat} {row : DueRow}
    {done todo : List String} {channel : String} {rest : List DueRow} {p : Code Unit}
    (h : Keeps cfg (.pass id) (.adding row new done channel todo rest true) p) :
    publishesNext new p := by
  cases p with
  | ret _ => simp [Stage.ended] at h
  | call c k =>
      obtain ⟨f, hallowed, -⟩ := h
      cases hallowed
      exact ⟨_, _, _, _, rfl, rfl⟩

theorem creates_of_adding {cfg : Config} {id new : Nat} {row : DueRow}
    {done todo : List String} {channel : String} {rest : List DueRow} {ensured : Bool}
    {th : Thread} (h : Keeps cfg (.pass id) (.adding row new done channel todo rest ensured)
      th.prog) : th.creates new := by
  cases ensured with
  | true => exact .inl (publishesNext_of_adding h)
  | false =>
      obtain ⟨party, p⟩ := th
      cases p with
      | ret _ => simp [Stage.ended] at h
      | call c k =>
          obtain ⟨f, hallowed, hk⟩ := h
          cases hallowed
          exact .inr ⟨_, _, _, _, rfl, fun control => publishesNext_of_adding (hk (.ok control))⟩

theorem handling_or_creating {w : World} {ms : Members} {d : Nat} {m : Party × Stage}
    (htags : TagsUsedOnce w.sys ms) (hm : m ∈ ms) (hholds : holds d m = true) :
    w.handling d ∨
    (∃ t req n tx channel todo ensured,
      m = (.request t req, .creating n d tx channel todo ensured)) ∨
    ∃ id row done channel todo rest ensured,
      m = (.pass id, .adding row d done channel todo rest ensured) := by
  unfold holds at hholds
  split at hholds
  · next u phase =>
      rw [Bool.and_eq_true] at hholds
      have hopen : phase ≠ .closed := by
        rintro rfl
        simp at hholds
      exact .inl ⟨u, htags.held u phase hm hopen, hholds.1⟩
  · obtain rfl := beq_iff_eq.mp hholds
    exact .inr (.inl ⟨_, _, _, _, _, _, _, rfl⟩)
  · obtain rfl := beq_iff_eq.mp hholds
    exact .inr (.inr ⟨_, _, _, _, _, _, _, rfl⟩)
  · simp at hholds

theorem described_of_clean {cfg : Config} {w₀ w : World} {es : List Event}
    (hfresh : w₀.Fresh) (hrun : w₀.RunOf cfg (Clean cfg) es w) :
    Described cfg (fun s ms => Tidy s ms ∧ AllConserved s ms) w :=
  (((tidy_inductive cfg).mono fun _ _ h => h.steady).and (conserved_inductive cfg)).reachable
    hfresh hrun ⟨tidy_fresh hfresh, conserved_fresh hfresh⟩

theorem no_holder {w : World} {ms : Members} {d : Nat} {row : DeliveryRow}
    (hK : Tidy w.sys ms) (hC : AllConserved w.sys ms)
    (hrow : w.sys.db.deliveries.get? d = some row) (hhandling : ¬w.handling d)
    (hadding : ∀ id row done channel todo rest ensured,
      (Party.pass id, Stage.adding row d done channel todo rest ensured) ∉ ms) :
    ms.countP (holds d) = 0 := by
  rw [List.countP_eq_zero]
  intro m hm hholds
  rcases handling_or_creating hK.tags hm hholds with h | ⟨_, _, _, _, _, _, _, rfl⟩ |
    ⟨_, _, _, _, _, _, _, rfl⟩
  · exact hhandling h
  · have hnone := ((hC d).fits _ hm).1 rfl
    simp [Db.stamp?, hrow] at hnone
  · exact hadding _ _ _ _ _ _ _ hm

/-- **Conservation.** In every state of a clean run, a committed delivery whose job is neither
being created nor handled has either exactly one message in the queues and waits, or none and a
final status, which it keeps in every continuation of the run. It has a delivery time exactly
when it has been sent. -/
theorem delivery_conservation {cfg : Config} {w₀ w : World} {es : List Event}
    (hfresh : w₀.Fresh) (hrun : w₀.RunOf cfg (Clean cfg) es w) :
    (∀ d row, w.sys.db.deliveries.get? d = some row → ¬w.creating d → ¬w.handling d →
      Xor (w.sys.waiting d = 1 ∧ (row.status = .queued ∨ row.status = .failed))
        (w.sys.waiting d = 0 ∧ row.status.final = true)) ∧
    (∀ d row, w.sys.db.deliveries.get? d = some row → ¬w.handling d → w.sys.waiting d = 0 →
      row.status.final = true → ∀ es' w', w.RunOf cfg (Clean cfg) es' w' →
        ∃ row', w'.sys.db.deliveries.get? d = some row' ∧ row'.status = row.status) ∧
    (∀ d row, w.sys.db.deliveries.get? d = some row →
      (row.deliveredAt.isSome = true ↔ row.status = .sent)) := by
  obtain ⟨ms, hal, hK, hC⟩ := described_of_clean hfresh hrun
  have hstamp : ∀ {d row}, w.sys.db.deliveries.get? d = some row →
      w.sys.db.stamp? d = some (row.status, row.deliveredAt.isSome) := by
    intro d row hrow
    rw [Db.stamp?, hrow, Option.map_some, DeliveryRow.stamp]
  refine ⟨fun d row hrow hcreating hhandling => ?_, fun d row hrow hhandling hwaiting hfinal => ?_,
    fun d row hrow => (hC d).stamped _ _ (hstamp hrow)⟩
  · have hnone := no_holder hK hC hrow hhandling fun _ _ _ _ _ _ _ hmem => by
      obtain ⟨th, hth, -, hkeeps⟩ := exists_of_mem_forall₂ hal hmem
      exact hcreating ⟨th, hth, creates_of_adding hkeeps⟩
    have hbound := hK.token.le_one d
    rw [tokens, hnone, ← Sys.waiting] at hbound
    rcases Nat.eq_zero_or_pos (w.sys.waiting d) with hzero | hpos
    · refine .inr ⟨⟨hzero, (hC d).spent _ _ (hstamp hrow) hzero hnone⟩, ?_⟩
      rintro ⟨hone, -⟩
      omega
    · refine .inl ⟨⟨by omega, (hC d).waits _ _ (hstamp hrow) hpos⟩, ?_⟩
      rintro ⟨hzero, -⟩
      omega
  · intro es' w' hrun'
    have hnone := no_holder hK hC hrow hhandling fun _ _ _ _ _ _ _ hmem => by
      have hqueued := (hC d).fits _ hmem rfl
      obtain ⟨hst, -⟩ : row.status = .queued ∧ _ := by simpa [hstamp hrow] using hqueued
      simp [hst, DeliveryStatus.final] at hfinal
    have hended : Described cfg (Ended d (row.status, row.deliveredAt.isSome)) w := by
      refine ⟨ms, hal, ?_, hK.owned.lt_nextId hrow, hstamp hrow⟩
      rw [tokens, hnone, ← Sys.waiting, hwaiting]
    obtain ⟨ms', -, -, -, hstamp'⟩ := ((ended_inductive cfg d _).mono
      fun _ _ h => Clean.steady h).run hrun' hended
    obtain ⟨row', hrow', hst'⟩ := Option.map_eq_some_iff.mp hstamp'
    exact ⟨row', hrow', congrArg Prod.fst hst'⟩

/-- A request is sent, its job consumed and the provider called; the row is sent for good. -/
theorem delivery_conservation_sent : ∃ es w, sampleWorld.RunOf (sampleConfig 3)
    (Clean (sampleConfig 3)) es w ∧ w.sys.db.stamp? 1 = some (.sent, true) ∧
    ∀ d row, w.sys.db.deliveries.get? d = some row →
      (row.deliveredAt.isSome = true ↔ row.status = .sent) := by
  obtain ⟨w, hrun, hw⟩ := World.exists_run (sampleConfig 3) (Clean (sampleConfig 3)) sampleWorld
    (List.flatten [[.request 1 "t1" (sampleRequest ["email"] ⟨"", ""⟩ "")], steps 0 10,
      [.deliver 0], steps 1 6]) (fun w => w.sys.db.stamp? 1 == some (.sent, true)) (by decide +kernel)
  exact ⟨_, w, hrun, by simpa using hw, (delivery_conservation sampleWorld_fresh hrun).2.2⟩

end NotificationPlatform
