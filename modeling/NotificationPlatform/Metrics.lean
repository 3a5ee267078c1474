import Mathlib.Order.WithBot
import Mathlib.Tactic.Linarith
import NotificationPlatform.Lib.Tally
import NotificationPlatform.World

/-!
# Metrics

What the collector exposes about the duration of requests and about the attempts of providers.
Durations are exact numbers of seconds. A request falls into one of five intervals, and each
exposed bucket is the count of one interval. The attempts of providers are counted over a join with
the configurations of the tenant, so an attempt counts once for each of them.
-/

namespace NotificationPlatform

open Lib

namespace Metrics

/-- The arguments of `RecordRequest`; the duration is in nanoseconds. -/
structure RequestRecord where
  method : String
  pathGroup : String
  status : Int
  duration : Int

structure DurationHist where
  buckets : Fin 5 → Nat
  sum : ℚ
  count : Nat

structure RequestStats where
  reqCount : Counts String
  reqDuration : DurationHist

namespace RequestRecord

def seconds (r : RequestRecord) : ℚ := r.duration / 1000000000

def countKey (r : RequestRecord) : String :=
  r.method ++ " " ++ toString (r.status.tdiv 100) ++ "xx"

end RequestRecord

def bucketOf (sec : ℚ) : Fin 5 :=
  if sec ≤ 1 / 10 then 0
  else if sec ≤ 1 / 2 then 1
  else if sec ≤ 1 then 2
  else if sec ≤ 5 then 3
  else 4

namespace RequestStats

def new : RequestStats := ⟨∅, ⟨fun _ => 0, 0, 0⟩⟩

def recordRequest (c : RequestStats) (r : RequestRecord) : RequestStats where
  reqCount := c.reqCount.bump r.countKey
  reqDuration :=
    { buckets := fun i => c.reqDuration.buckets i + if i = bucketOf r.seconds then 1 else 0
      sum := c.reqDuration.sum + r.seconds
      count := c.reqDuration.count + 1 }

def recordAll (rs : List RequestRecord) : RequestStats := rs.foldl recordRequest new

end RequestStats

/-- What the lines of one histogram say: the bound and the value of each bucket, the sum and the
count. -/
structure Exposition where
  buckets : List (WithTop ℚ × Nat)
  sum : ℚ
  count : Nat

/-- The bounds of the exposed buckets, the last of them `+Inf`. -/
def bound : Fin 5 → WithTop ℚ
  | 0 => ((1 / 10 : ℚ) : WithTop ℚ)
  | 1 => ((1 / 2 : ℚ) : WithTop ℚ)
  | 2 => ((1 : ℚ) : WithTop ℚ)
  | 3 => ((5 : ℚ) : WithTop ℚ)
  | 4 => ⊤

/-- The lines `request_duration_seconds`: each bucket shows the counter of its index. -/
def DurationHist.expose (h : DurationHist) : Exposition where
  buckets := (List.finRange 5).map fun i => (bound i, h.buckets i)
  sum := h.sum
  count := h.count

/-- What an exposition of the type `histogram` says about the observed values. -/
structure IsHistogram (observed : List ℚ) (x : Exposition) : Prop where
  bounded : ∀ p ∈ x.buckets, ∀ b : ℚ, p.1 = b → p.2 = observed.countP fun d => d ≤ b
  infinite : ∀ p ∈ x.buckets, p.1 = ⊤ → p.2 = x.count
  monotone : ∀ p ∈ x.buckets, ∀ q ∈ x.buckets, p.1 ≤ q.1 → p.2 ≤ q.2

theorem bucketOf_eq_four {sec : ℚ} : bucketOf sec = 4 ↔ 5 < sec := by
  constructor
  · intro h
    by_contra hle
    have hle : sec ≤ 5 := not_lt.mp hle
    unfold bucketOf at h
    split_ifs at h <;> simp at h
  · intro h
    have h1 : ¬ sec ≤ 1 / 10 := by linarith
    have h2 : ¬ sec ≤ 1 / 2 := by linarith
    have h3 : ¬ sec ≤ 1 := by linarith
    have h4 : ¬ sec ≤ 5 := by linarith
    rw [bucketOf, if_neg h1, if_neg h2, if_neg h3, if_neg h4]

namespace RequestStats

theorem recordAll_concat (rs : List RequestRecord) (r : RequestRecord) :
    recordAll (rs ++ [r]) = (recordAll rs).recordRequest r := by
  rw [recordAll, List.foldl_append]
  rfl

theorem buckets_recordAll (rs : List RequestRecord) (i : Fin 5) :
    (recordAll rs).reqDuration.buckets i = rs.countP fun r => i = bucketOf r.seconds := by
  induction rs using List.reverseRecOn with
  | nil => rfl
  | append_singleton rs r ih =>
      rw [recordAll_concat, List.countP_append, ← ih, List.countP_singleton]
      simp [recordRequest]

theorem count_recordAll (rs : List RequestRecord) :
    (recordAll rs).reqDuration.count = rs.length := by
  induction rs using List.reverseRecOn with
  | nil => rfl
  | append_singleton rs r ih =>
      rw [recordAll_concat, List.length_append, ← ih]
      rfl

end RequestStats

private theorem mem_expose {h : DurationHist} {p : WithTop ℚ × Nat} :
    p ∈ h.expose.buckets ↔ ∃ i, p = (bound i, h.buckets i) := by
  simp [DurationHist.expose, eq_comm]

theorem count_eq_infinite_iff (rs : List RequestRecord) :
    (RequestStats.recordAll rs).reqDuration.buckets 4 =
        (RequestStats.recordAll rs).reqDuration.count ↔
      ∀ r ∈ rs, 5 < r.seconds := by
  rw [RequestStats.buckets_recordAll, RequestStats.count_recordAll, List.countP_eq_length]
  simp only [decide_eq_true_eq, eq_comm (a := (4 : Fin 5)), bucketOf_eq_four]

private theorem bucket_eq_zero {rs : List RequestRecord} (h : ∀ r ∈ rs, 5 < r.seconds) {i : Fin 5}
    (hi : i ≠ 4) : (RequestStats.recordAll rs).reqDuration.buckets i = 0 := by
  rw [RequestStats.buckets_recordAll, List.countP_eq_zero]
  intro r hr
  have hlast := bucketOf_eq_four.mpr (h r hr)
  simpa [hlast] using hi

private theorem bound_of_ne {i : Fin 5} (hi : i ≠ 4) : ∃ b : ℚ, bound i = b ∧ b ≤ 5 := by
  match i with
  | 0 => exact ⟨1 / 10, rfl, by norm_num⟩
  | 1 => exact ⟨1 / 2, rfl, by norm_num⟩
  | 2 => exact ⟨1, rfl, by norm_num⟩
  | 3 => exact ⟨5, rfl, le_rfl⟩
  | 4 => exact absurd rfl hi

/-- The exposition is a histogram of the recorded durations just when each of them is longer than
the last finite bound. -/
theorem isHistogram_iff (rs : List RequestRecord) :
    IsHistogram (rs.map RequestRecord.seconds) (RequestStats.recordAll rs).reqDuration.expose ↔
      ∀ r ∈ rs, 5 < r.seconds := by
  constructor
  · intro h
    have hinf := h.infinite (bound 4, (RequestStats.recordAll rs).reqDuration.buckets 4)
      (mem_expose.mpr ⟨4, rfl⟩) rfl
    exact (count_eq_infinite_iff rs).mp hinf
  · intro h
    have hinf := (count_eq_infinite_iff rs).mpr h
    constructor
    · intro p hp b hb
      obtain ⟨i, rfl⟩ := mem_expose.mp hp
      have hi : i ≠ 4 := by
        rintro rfl
        exact WithTop.coe_ne_top hb.symm
      obtain ⟨b', hb', hle⟩ := bound_of_ne hi
      obtain rfl : b = b' := WithTop.coe_inj.mp (hb.symm.trans hb')
      have hnone : (rs.map RequestRecord.seconds).countP (fun d => d ≤ b) = 0 := by
        rw [List.countP_eq_zero]
        intro d hd
        obtain ⟨r, hr, rfl⟩ := List.mem_map.mp hd
        have hlong := h r hr
        simpa using lt_of_le_of_lt hle hlong
      rw [hnone]
      exact bucket_eq_zero h hi
    · intro p hp htop
      obtain ⟨i, rfl⟩ := mem_expose.mp hp
      by_cases hi : i = 4
      · rw [hi]
        exact hinf
      · obtain ⟨b, hb, -⟩ := bound_of_ne hi
        exact absurd (hb.symm.trans htop) WithTop.coe_ne_top
    · intro p hp q hq hle
      obtain ⟨i, rfl⟩ := mem_expose.mp hp
      obtain ⟨j, rfl⟩ := mem_expose.mp hq
      by_cases hi : i = 4
      · have hj : j = 4 := by
          by_contra hj
          obtain ⟨b, hb, -⟩ := bound_of_ne hj
          have htop : bound i ≤ bound j := hle
          rw [hi, hb] at htop
          exact WithTop.coe_ne_top (top_le_iff.mp htop)
        rw [hi, hj]
      · rw [bucket_eq_zero h hi]
        exact Nat.zero_le _

/-- One request of 50 ms stands in the first bucket and not in the ones that contain it. -/
theorem not_isHistogram_short :
    ¬ IsHistogram ([⟨"GET", "/health", 200, 50000000⟩].map RequestRecord.seconds)
      (RequestStats.recordAll [⟨"GET", "/health", 200, 50000000⟩]).reqDuration.expose := by
  intro h
  have hinf := h.infinite (bound 4, _) (mem_expose.mpr ⟨4, rfl⟩) rfl
  rw [DurationHist.expose, RequestStats.buckets_recordAll, RequestStats.count_recordAll] at hinf
  norm_num [bucketOf, RequestRecord.seconds] at hinf
  exact absurd hinf (by decide)

structure ProviderKey where
  provider : String
  channel : String
  deriving DecidableEq

def ProviderKey.label (k : ProviderKey) : String := k.provider ++ ":" ++ k.channel

/-- A row of the join of attempts, deliveries and provider configurations. -/
structure ProviderRow where
  provider : String
  channel : String
  status : DeliveryStatus

def ProviderRow.key (row : ProviderRow) : ProviderKey := ⟨row.provider, row.channel⟩

/-- `ProviderSendTotal` and `ProviderSendFailed`. -/
structure ProviderTotals where
  sendTotal : Counts String
  sendFailed : Counts String

/-- The loop over the rows: `pSend` and `pFailed`. -/
def countRow (m : Counts ProviderKey × Counts ProviderKey) (row : ProviderRow) :
    Counts ProviderKey × Counts ProviderKey :=
  match row.status with
  | .sent => (m.1.bump row.key, m.2)
  | .failed => (m.1, m.2.bump row.key)
  | _ => m

/-- The end of `refresh`. The loops over the two maps take their entries in any order. -/
def refreshProviders (sentOrder failedOrder : Counts.Iteration ProviderKey)
    (pRows : List ProviderRow) : ProviderTotals :=
  let m := pRows.foldl countRow (∅, ∅)
  { sendTotal := Counts.relabel ProviderKey.label (sentOrder m.1).1
    sendFailed := Counts.relabel ProviderKey.label (failedOrder m.2).1 }

end Metrics

open Metrics

namespace Db

def configsOf (db : Db) (a : Attempt) : List ProviderConfig :=
  match db.deliveries.get? a.deliveryID with
  | none => []
  | some d => db.providerConfigs.filter fun c => c.tenantID == d.tenantID && c.channel == d.channel

def providerRows (db : Db) : List ProviderRow :=
  db.attempts.flatMap fun a => (db.configsOf a).map fun c => ⟨c.provider, c.channel, a.status⟩

theorem configsOf_subset {db : Db} {a : Attempt} : db.configsOf a ⊆ db.providerConfigs := by
  unfold configsOf
  split
  · exact List.nil_subset _
  · exact List.filter_subset_self _

def attemptsWith (db : Db) (st : DeliveryStatus) : List Attempt :=
  db.attempts.filter fun a => a.status = st

/-- The provider and channel of each pair of an attempt with a status and a configuration of its
tenant and channel. -/
def keysFor (db : Db) (st : DeliveryStatus) : List ProviderKey :=
  (db.attemptsWith st).flatMap fun a => (db.configsOf a).map fun c => ⟨c.provider, c.channel⟩

end Db

namespace Metrics

variable {sentOrder failedOrder : Counts.Iteration ProviderKey} {db : Db} {st : DeliveryStatus}

def keysWith (st : DeliveryStatus) (pRows : List ProviderRow) : List ProviderKey :=
  (pRows.filter fun row => row.status = st).map ProviderRow.key

theorem foldl_countRow (pRows : List ProviderRow) :
    pRows.foldl countRow (∅, ∅) =
      (Counts.tally (keysWith .sent pRows), Counts.tally (keysWith .failed pRows)) := by
  induction pRows using List.reverseRecOn with
  | nil => rfl
  | append_singleton pRows row ih =>
      rw [List.foldl_append, ih]
      cases hst : row.status <;>
        simp [countRow, keysWith, hst, Counts.tally, List.filter_append, List.foldl_append]

theorem keysWith_providerRows : keysWith st db.providerRows = db.keysFor st := by
  rw [keysWith, Db.providerRows, Db.keysFor, Db.attemptsWith]
  induction db.attempts with
  | nil => rfl
  | cons a as ih =>
      rw [List.flatMap_cons, List.filter_append, List.map_append, ih]
      by_cases hst : a.status = st
      · rw [List.filter_cons_of_pos (by simpa using hst), List.flatMap_cons,
          List.filter_eq_self.mpr (by simpa using fun _ _ => hst), List.map_map]
        rfl
      · rw [List.filter_cons_of_neg (by simpa using hst),
          List.filter_eq_nil_iff.mpr (by simpa using fun _ _ => hst)]
        rfl

theorem refreshProviders_eq :
    refreshProviders sentOrder failedOrder db.providerRows =
      ⟨Counts.relabel ProviderKey.label (sentOrder (Counts.tally (db.keysFor .sent))).1,
        Counts.relabel ProviderKey.label (failedOrder (Counts.tally (db.keysFor .failed))).1⟩ := by
  rw [refreshProviders, foldl_countRow, keysWith_providerRows, keysWith_providerRows]

/-- The pairs of an attempt with a status and a configuration of its tenant and channel count each
attempt once: pairs whose provider and channel share a label are equally many for each of them, and
taken once for each label they are as many as the attempts. -/
def CountedOnce (db : Db) (st : DeliveryStatus) : Prop :=
  ∃ perLabel : String → Nat, (∀ k ∈ db.keysFor st, (db.keysFor st).count k = perLabel k.label) ∧
    (((db.keysFor st).map ProviderKey.label).dedup.map perLabel).sum = (db.attemptsWith st).length

/-- Where no two pairs of provider and channel share a label, the attempts must have as many
configurations as they are. -/
theorem countedOnce_iff_of_labels (hlabel : ∀ c ∈ db.providerConfigs, ∀ c' ∈ db.providerConfigs,
    (⟨c.provider, c.channel⟩ : ProviderKey).label =
        (⟨c'.provider, c'.channel⟩ : ProviderKey).label →
      c.provider = c'.provider ∧ c.channel = c'.channel) :
    CountedOnce db st ↔
      ((db.attemptsWith st).map fun a => (db.configsOf a).length).sum =
        (db.attemptsWith st).length := by
  have hkeys : ∀ k ∈ db.keysFor st, ∃ c ∈ db.providerConfigs, k = ⟨c.provider, c.channel⟩ := by
    intro k hk
    obtain ⟨a, -, hk⟩ := List.mem_flatMap.mp hk
    obtain ⟨c, hc, rfl⟩ := List.mem_map.mp hk
    exact ⟨c, Db.configsOf_subset hc, rfl⟩
  have hcount : ∀ k ∈ db.keysFor st,
      (db.keysFor st).count k = ((db.keysFor st).map ProviderKey.label).count k.label := by
    intro k hk
    rw [List.count, List.count, List.countP_map]
    apply List.countP_congr
    intro k' hk'
    obtain ⟨c, hc, rfl⟩ := hkeys k hk
    obtain ⟨c', hc', rfl⟩ := hkeys k' hk'
    have hsame := hlabel c' hc' c hc
    simp only [Function.comp_apply, beq_iff_eq, ProviderKey.mk.injEq]
    refine ⟨?_, hsame⟩
    rintro ⟨hprovider, hchannel⟩
    rw [hprovider, hchannel]
  have hlength : (db.keysFor st).length =
      ((db.attemptsWith st).map fun a => (db.configsOf a).length).sum := by
    simp [Db.keysFor, List.length_flatMap]
  have hsum : ∀ perLabel : String → Nat,
      (∀ k ∈ db.keysFor st, (db.keysFor st).count k = perLabel k.label) →
      (((db.keysFor st).map ProviderKey.label).dedup.map perLabel).sum =
        ((db.attemptsWith st).map fun a => (db.configsOf a).length).sum := by
    intro perLabel hper
    have hvalues : ((db.keysFor st).map ProviderKey.label).dedup.map perLabel =
        ((db.keysFor st).map ProviderKey.label).dedup.map
          ((db.keysFor st).map ProviderKey.label).count := by
      apply List.map_congr_left
      intro l hl
      obtain ⟨k, hk, rfl⟩ := List.mem_map.mp (List.mem_dedup.mp hl)
      rw [← hper k hk, hcount k hk]
    rw [hvalues, List.sum_map_count_dedup_eq_length, List.length_map, hlength]
  constructor
  · rintro ⟨perLabel, hper, htotal⟩
    exact (hsum perLabel hper).symm.trans htotal
  · intro htotal
    exact ⟨((db.keysFor st).map ProviderKey.label).count, hcount, (hsum _ hcount).trans htotal⟩

/-- The exposed counters of sent and of failed attempts are right, in whatever order the two maps
are read, just when the configurations count each of these attempts once. -/
theorem refreshProviders_total_iff (db : Db) :
    (∀ sentOrder failedOrder : Counts.Iteration ProviderKey,
      (refreshProviders sentOrder failedOrder db.providerRows).sendTotal.total =
          (db.attemptsWith .sent).length ∧
        (refreshProviders sentOrder failedOrder db.providerRows).sendFailed.total =
          (db.attemptsWith .failed).length) ↔
    CountedOnce db .sent ∧ CountedOnce db .failed := by
  have horder : ∀ st : DeliveryStatus,
      (∀ order : Counts.Iteration ProviderKey, (Counts.relabel ProviderKey.label
          (order (Counts.tally (db.keysFor st))).1).total = (db.attemptsWith st).length) ↔
        CountedOnce db st := by
    intro st
    rw [CountedOnce, ← Counts.total_relabel_all_iff]
    constructor
    · intro h es hes
      -- the iteration that takes these entries of this map in the order `es`
      have hchosen := h fun m =>
        if hm : m = Counts.tally (db.keysFor st) then ⟨es, hm ▸ hes⟩ else ⟨m.entries, List.Perm.refl _⟩
      simpa only [dif_pos] using hchosen
    · intro h order
      exact h _ (order _).2
  rw [← horder .sent, ← horder .failed]
  simp only [refreshProviders_eq]
  constructor
  · intro h
    exact ⟨fun order => (h order order).1, fun order => (h order order).2⟩
  · rintro ⟨hsent, hfailed⟩ sentOrder failedOrder
    exact ⟨hsent sentOrder, hfailed failedOrder⟩

def sampleAttempts : Db :=
  { sampleDb with
    providerConfigs :=
      [⟨"t1", "sms", "mock", true, "active"⟩, ⟨"t1", "sms", "http", false, "disabled"⟩]
    deliveries := Table.empty.insert 0 (Db.newDelivery "t1" 0 "sms" (.obj []))
    attempts := [⟨"t1", 0, 1, .sent, .obj []⟩] }

/-- The attempt counts once for each configuration, in whatever order the maps are read. -/
theorem sendTotal_twice : ¬∃ sentOrder failedOrder : Counts.Iteration ProviderKey,
    (refreshProviders sentOrder failedOrder sampleAttempts.providerRows).sendTotal.total =
      (sampleAttempts.attemptsWith .sent).length := by
  rintro ⟨sentOrder, failedOrder, h⟩
  have hone : ∀ k ∈ sampleAttempts.keysFor .sent,
      (sampleAttempts.keysFor .sent).count k = (fun _ : String => 1) k.label := by decide
  have htwo : (Counts.relabel ProviderKey.label
      (sentOrder (Counts.tally (sampleAttempts.keysFor .sent))).1).total =
        (((sampleAttempts.keysFor .sent).map ProviderKey.label).dedup.map fun _ => 1).sum :=
    Counts.total_relabel_of_count (n := fun _ => 1) hone (sentOrder _).2
  rw [refreshProviders_eq] at h
  exact absurd (htwo.symm.trans h) (by decide)

end Metrics

end NotificationPlatform
