import NotificationPlatform.Invariant

/-!
# Row identifiers

Every identifier is given out once: it belongs to a committed row or to one open transaction. So
a commit never meets a row that is already there.
-/

namespace NotificationPlatform

open Lib

def Tx.ids (tx : Tx) : List Nat :=
  tx.notification.1 :: (tx.deliveries.map Prod.fst ++ tx.job.toList.map Prod.fst)

def Stage.tx? : Stage → Option Tx
  | .open _ tx _ | .creating _ _ tx _ _ _ | .filed tx => some tx
  | _ => none

def Stage.ids (stage : Stage) : List Nat := (stage.tx?.map Tx.ids).getD []

def Db.ids (db : Db) : List Nat :=
  db.notifications.rows.map Prod.fst ++
    (db.deliveries.rows.map Prod.fst ++ db.scheduledJobs.rows.map Prod.fst)

def owners (x : Nat) (s : Sys) (ms : Members) : Nat :=
  s.db.ids.count x + (ms.map fun m => m.2.ids.count x).sum

/-- Every identifier has at most one owner, and one that is not given out has none. -/
def OwnedOnce (s : Sys) (ms : Members) : Prop :=
  ∀ x, owners x s ms ≤ if x < s.db.nextId then 1 else 0

theorem owners_split (x : Nat) (s : Sys) (before after : Members) (party : Party)
    (stage : Stage) : owners x s (before ++ (party, stage) :: after) =
      s.db.ids.count x + stage.ids.count x +
        ((before.map fun m => m.2.ids.count x).sum + (after.map fun m => m.2.ids.count x).sum) := by
  simp only [owners, List.map_append, List.map_cons, List.sum_append, List.sum_cons]
  omega

theorem OwnedOnce.get?_nextId {s : Sys} {ms : Members} (h : OwnedOnce s ms) :
    s.db.deliveries.get? s.db.nextId = none := by
  have hx := h s.db.nextId
  rw [if_neg (lt_irrefl _), owners, Db.ids] at hx
  rw [Table.get?_eq_none, ← List.count_eq_zero]
  simp only [List.count_append] at hx
  omega

theorem OwnedOnce.lt_nextId {s : Sys} {ms : Members} (h : OwnedOnce s ms) {d : Nat}
    {row : DeliveryRow} (hrow : s.db.deliveries.get? d = some row) : d < s.db.nextId := by
  by_contra hd
  have hx := h d
  have hmem : d ∈ s.db.deliveries.rows.map Prod.fst :=
    List.mem_map.mpr ⟨(d, row), Table.get?_eq_some.mp hrow, rfl⟩
  have hpos := List.count_pos_iff.mpr hmem
  rw [if_neg hd, owners, Db.ids] at hx
  simp only [List.count_append] at hx
  omega

section

variable {s : Sys} {before after : Members} {party : Party} {stage : Stage} {tx : Tx}

private theorem commit_count (h : OwnedOnce s (before ++ (party, stage) :: after))
    (htx : stage.tx? = some tx) (x : Nat) : s.db.ids.count x + tx.ids.count x ≤ 1 := by
  have hx := h x
  rw [owners_split, Stage.ids, htx] at hx
  simp only [Option.map_some, Option.getD_some] at hx
  split at hx <;> omega

theorem OwnedOnce.commit_rows (h : OwnedOnce s (before ++ (party, stage) :: after))
    (htx : stage.tx? = some tx) :
    (s.db.commit tx).notifications.rows = s.db.notifications.rows ++ [tx.notification] ∧
    (s.db.commit tx).deliveries.rows = s.db.deliveries.rows ++ tx.deliveries ∧
    (s.db.commit tx).scheduledJobs.rows = s.db.scheduledJobs.rows ++ tx.job.toList := by
  have hcount := commit_count h htx
  simp only [Db.ids, Tx.ids, List.count_append, List.count_cons] at hcount
  refine ⟨Table.rows_insert ?_ _, Table.rows_insertAll ?_, Table.rows_insertAll ?_⟩
  · rw [Table.get?_eq_none, ← List.count_eq_zero]
    have hx := hcount tx.notification.1
    simp only [beq_self_eq_true, if_true] at hx
    omega
  · rw [List.nodup_iff_count_le_one]
    intro x
    have hx := hcount x
    rw [List.count_append]
    omega
  · rw [List.nodup_iff_count_le_one]
    intro x
    have hx := hcount x
    rw [List.count_append]
    omega

end

private theorem ids_commit_count {s : Sys} {before after : Members} {party : Party}
    {stage : Stage} {tx : Tx} (h : OwnedOnce s (before ++ (party, stage) :: after))
    (htx : stage.tx? = some tx) (x : Nat) :
    (s.db.commit tx).ids.count x = s.db.ids.count x + stage.ids.count x := by
  obtain ⟨hn, hd, hj⟩ := h.commit_rows htx
  simp only [Db.ids, hn, hd, hj, Stage.ids, htx, Tx.ids, List.map_append, List.count_append,
    Option.map_some, Option.getD_some, List.count_cons, List.map_cons, List.map_nil, List.count_nil]
  omega

private theorem ownedOnce_of_le {s s' : Sys} {before after : Members} {party party' : Party}
    {stage stage' : Stage} (h : OwnedOnce s (before ++ (party, stage) :: after))
    (hids : s'.db.ids = s.db.ids) (hstage : ∀ x, stage'.ids.count x ≤ stage.ids.count x)
    (hnext : s.db.nextId ≤ s'.db.nextId) :
    OwnedOnce s' (before ++ (party', stage') :: after) := by
  intro x
  have hx := h x
  have hle := hstage x
  rw [owners_split] at hx ⊢
  rw [hids]
  split at hx <;> split <;> omega

private theorem ownedOnce_of_fresh {s s' : Sys} {before after : Members} {party party' : Party}
    {stage stage' : Stage} (h : OwnedOnce s (before ++ (party, stage) :: after))
    (hcount : ∀ x, s'.db.ids.count x + stage'.ids.count x ≤
      s.db.ids.count x + stage.ids.count x + if x = s.db.nextId then 1 else 0)
    (hnext : s'.db.nextId = s.db.nextId + 1) :
    OwnedOnce s' (before ++ (party', stage') :: after) := by
  intro x
  have hx := h x
  have hc := hcount x
  rw [owners_split] at hx ⊢
  rw [hnext]
  split at hx <;> split at hc <;> split <;> omega

private theorem updateDelivery_ids {db db' : Db} {id : Nat}
    {f : DeliveryRow → Option DeliveryRow} (h : db.updateDelivery id f = .ok db') :
    db'.ids = db.ids ∧ db'.nextId = db.nextId := by
  rcases Db.updateDelivery_cases h with ⟨-, rfl⟩ | ⟨row, row', -, -, rfl⟩
  · exact ⟨rfl, rfl⟩
  · simp [Db.ids]

theorem ownedOnce_inductive (cfg : Config) :
    Inductive cfg (fun _ _ => True) Anything OwnedOnce where
  call := by
    intro w before after party stage stage' c o success s' _ _ _ heffect _ h
    cases heffect with
    | getControl _ _ hget =>
        obtain ⟨controls, next, rfl, hle⟩ := Db.getControl_cases hget
        exact ownedOnce_of_le h rfl (fun x => le_refl _) hle
    | write _ _ hdb =>
        obtain ⟨hids, hnext⟩ := updateDelivery_ids hdb
        exact ownedOnce_of_le h hids (fun x => le_refl _) hnext.ge
    | insertAttempt _ hdb =>
        obtain ⟨-, attempts, rfl⟩ := Db.insertAttempt_cases hdb
        exact ownedOnce_of_le h rfl (fun x => le_refl _) (le_refl _)
    | requeue _ =>
        have hdb : ∀ {d}, (if w.sys.knows d then w.sys.requeue d else w.sys.settle d).db =
            w.sys.db := by
          intro d
          split <;> rfl
        exact ownedOnce_of_le h (by rw [hdb]) (fun x => le_refl _) (by rw [hdb])
    | insertNotification _ =>
        refine ownedOnce_of_fresh h (fun x => ?_) rfl
        simp [Db.ids, Stage.ids, Stage.tx?, Tx.ids, List.count_cons, eq_comm (a := x)]
    | insertScheduledJob _ =>
        refine ownedOnce_of_fresh h (fun x => ?_) rfl
        simp [Db.ids, Stage.ids, Stage.tx?, Tx.ids, List.count_cons, eq_comm (a := x)]
        omega
    | insertTxDelivery =>
        refine ownedOnce_of_fresh h (fun x => ?_) rfl
        simp [Db.ids, Stage.ids, Stage.tx?, Tx.ids, List.count_cons, eq_comm (a := x)]
        omega
    | sendEnsureControl hensure =>
        obtain ⟨controls, next, rfl, hle⟩ := Db.ensureControl_cases hensure
        exact ownedOnce_of_le h rfl (fun x => le_refl _) hle
    | @commit t req tx _ hstage =>
        have htx : stage.tx? = some tx := by
          rcases hstage with ⟨n, rfl⟩ | rfl <;> rfl
        intro x
        have hx := h x
        rw [owners_split] at hx ⊢
        dsimp only
        rw [ids_commit_count h htx]
        simpa [Stage.ids, Stage.tx?] using hx
    | insertDelivery _ =>
        refine ownedOnce_of_fresh h (fun x => ?_) rfl
        have hnone := h.get?_nextId
        simp only [Db.ids, Db.insertDelivery_notifications, Db.insertDelivery_deliveries,
          Db.insertDelivery_scheduledJobs, Table.rows_insert hnone, List.map_append,
          List.count_append]
        simp [Stage.ids, Stage.tx?, List.count_singleton, eq_comm (a := x)]
        omega
    | routeEnsureControl hensure =>
        obtain ⟨controls, next, rfl, hle⟩ := Db.ensureControl_cases hensure
        exact ownedOnce_of_le h rfl (fun x => le_refl _) hle
    | markRouted =>
        exact ownedOnce_of_le h (by simp [Db.markRouted, Db.ids]) (fun x => le_refl _) (le_refl _)
    | _ => exact ownedOnce_of_le h rfl (fun x => by simp [Stage.ids, Stage.tx?]) (le_refl _)
  request := by
    intro w ms t req _ _ _ h x
    simpa [owners, Stage.ids, Stage.tx?] using h x
  tick := by
    intro w ms _ _ _ h x
    simpa [owners, Stage.ids, Stage.tx?] using h x
  deliver := by
    intro w ms i m _ _ _ _ h x
    simpa [owners, Stage.ids, Stage.tx?] using h x
  admin := by
    intro w ms a _ _ _ h x
    have hx := h x
    cases a <;> exact hx
  clock := by
    intro w ms now _ _ _ _ h
    exact h
  crash := by
    intro w before after party stage _ _ _ h
    exact ownedOnce_of_le h rfl (fun x => by simp [Stage.ids, Stage.tx?]) (le_refl _)
  requeue := by
    intro w ms d _ _ _ _ h
    exact h

theorem ownedOnce_fresh {w : World} (h : w.Fresh) : OwnedOnce w.sys [] := by
  intro x
  simp [owners, Db.ids, h.notifications, h.deliveries, h.scheduledJobs]

theorem OwnedOnce.get?_eq_none {s : Sys} {ms : Members} (h : OwnedOnce s ms)
    {m : Party × Stage} (hm : m ∈ ms) {tx : Tx} (htx : m.2.tx? = some tx)
    {p : Nat × DeliveryRow} (hp : p ∈ tx.deliveries) : s.db.deliveries.get? p.1 = none := by
  obtain ⟨party, stage⟩ := m
  obtain ⟨before, after, rfl⟩ := List.append_of_mem hm
  have hcount := commit_count h htx p.1
  have hpos : 0 < (tx.deliveries.map Prod.fst).count p.1 :=
    List.count_pos_iff.mpr (List.mem_map_of_mem hp)
  rw [Table.get?_eq_none, ← List.count_eq_zero]
  simp only [Db.ids, Tx.ids, List.count_append, List.count_cons] at hcount
  omega

theorem OwnedOnce.notification_get? {s : Sys} {ms : Members} (h : OwnedOnce s ms)
    {m : Party × Stage} (hm : m ∈ ms) {tx : Tx} (htx : m.2.tx? = some tx) :
    s.db.notifications.get? tx.notification.1 = none := by
  obtain ⟨party, stage⟩ := m
  obtain ⟨before, after, rfl⟩ := List.append_of_mem hm
  have hcount := commit_count h htx tx.notification.1
  rw [Table.get?_eq_none, ← List.count_eq_zero]
  simp only [Db.ids, Tx.ids, List.count_append, List.count_cons, beq_self_eq_true, if_true]
    at hcount
  omega

section

variable {s : Sys} {before after : Members} {party : Party} {stage : Stage} {tx : Tx}

theorem OwnedOnce.get?_commit_of_mem (h : OwnedOnce s (before ++ (party, stage) :: after))
    (htx : stage.tx? = some tx) {p : Nat × DeliveryRow} (hp : p ∈ tx.deliveries) :
    (s.db.commit tx).deliveries.get? p.1 = some p.2 := by
  rw [Table.get?_eq_some, (h.commit_rows htx).2.1]
  exact List.mem_append_right _ hp

theorem OwnedOnce.get?_commit_of_ne (h : OwnedOnce s (before ++ (party, stage) :: after))
    (htx : stage.tx? = some tx) {d : Nat} (hd : ∀ p ∈ tx.deliveries, p.1 ≠ d) :
    (s.db.commit tx).deliveries.get? d = s.db.deliveries.get? d := by
  apply Option.ext
  intro row
  rw [Table.get?_eq_some, Table.get?_eq_some, (h.commit_rows htx).2.1, List.mem_append]
  exact or_iff_left fun hmem => hd (d, row) hmem rfl

end

theorem OwnedOnce.notification_ne {s : Sys} {before after : Members} {party : Party}
    {stage : Stage} {tx tx' : Tx} (h : OwnedOnce s (before ++ (party, stage) :: after))
    (htx : stage.tx? = some tx) {m : Party × Stage} (hm : m ∈ before ++ after)
    (htx' : m.2.tx? = some tx') : tx'.notification.1 ≠ tx.notification.1 := by
  intro heq
  have hx := h tx.notification.1
  have hself : 1 ≤ stage.ids.count tx.notification.1 := by
    simp [Stage.ids, htx, Tx.ids]
  have hother : 1 ≤ m.2.ids.count tx.notification.1 := by
    simp [Stage.ids, htx', Tx.ids, heq]
  obtain ⟨others, others', hsplit⟩ := List.append_of_mem hm
  have hsum : ((before ++ after).map fun m => m.2.ids.count tx.notification.1).sum =
      (others.map fun m => m.2.ids.count tx.notification.1).sum +
        (m.2.ids.count tx.notification.1 +
          (others'.map fun m => m.2.ids.count tx.notification.1).sum) := by
    simp [hsplit]
  rw [owners_split] at hx
  rw [List.map_append, List.sum_append] at hsum
  split at hx <;> omega

end NotificationPlatform
